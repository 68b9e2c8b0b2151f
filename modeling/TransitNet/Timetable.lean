import TransitNet.Payload

/-! Timetables, neighbours and addresses of a C station. -/
namespace TransitNet

structure TIMETABLE where
  departure_time : Text
  route_name : Text
  departing_from : Text
  arrival_time : Text
  arrival_station : Text
  deriving DecidableEq, Repr

structure NEIGHBOURS where
  ip_addr : Text
  udp_port : Text
  addr_and_port : Text
  deriving DecidableEq, Repr

/-- `sscanf(s, "%d:%d", &hours, &minutes)`, if it sets both. -/
def scanTime (s : Text) : Option (ℤ × ℤ) :=
  match scanInt s with
  | some (hours, ':' :: rest) => (scanInt rest).map fun r => (hours, r.1)
  | _ => none

/-- Where the text is no time, `hours` or `minutes` is read without having been
set; `unset` is whatever number comes out then. -/
def timeToMinutes (unset : Text → ℤ) (timeStr : Text) : ℤ :=
  match scanTime timeStr with
  | some (hours, minutes) => hours * 60 + minutes
  | none => unset timeStr

/-- The entry that the body of the search loop returns on. -/
def boards (unset : Text → ℤ) (starting_time station_to_go : Text) (entry : TIMETABLE) : Bool :=
  !(timeToMinutes unset starting_time > timeToMinutes unset entry.departure_time) &&
    station_to_go = entry.arrival_station

/-- The loop runs to `NUM_TIMETABLES - 1` only, so it never looks at the last entry. -/
def search_timetable (unset : Text → ℤ) (timetable : List TIMETABLE) (NUM_TIMETABLES : ℕ)
    (starting_time station_to_go : Text) : ℤ :=
  match (timetable.take (NUM_TIMETABLES - 1)).findIdx? (boards unset starting_time station_to_go) with
  | some i => i
  | none => -1

/-- `sscanf(s, "%width[^:]:%s", host, port)`. -/
def scanHostPort (width : ℕ) (s : Text) : Except Fault (Text × Text) :=
  match scanUntil ':' width s with
  | some (host, ':' :: rest) =>
      match scanWord rest with
      | some (port, _) => .ok (host, port)
      | none => .error .unset
  | _ => .error .unset

/-- One turn of the loop of `readneighbours`. -/
def readneighbour (arg : Text) : Except Fault NEIGHBOURS := do
  let (host, port) ← scanHostPort 60 arg
  let ip_addr ← strcpy INET6_ADDRSTRLEN (some host)
  let udp_port ← strcpy MAX_PORT (some port)
  return { ip_addr, udp_port, addr_and_port := ip_addr ++ ':' :: udp_port }

def readneighbours (argv : List Text) : Except Fault (List NEIGHBOURS) := argv.mapM readneighbour

/-- One element of an array of strings. -/
def slot (xs : List Text) (i : ℤ) : Except Fault Text :=
  if i < 0 then .error .index else
    match xs[i.toNat]? with
    | some s => .ok s
    | none => .error .index

def get_ip_port (p : PAYLOAD) (which : ℤ) : Except Fault (Text × Text) := do
  let address ← slot p.address (which - 1)
  let (ip, port) ← scanHostPort 45 address
  let port ← strcpy MAX_PORT (some port)
  return (ip, port)

/-- A running C station. `readtimetable` always allocates a slot more than it fills. -/
structure Station where
  station_name : Text
  local_ip : Text
  UDP_port : Text
  Timetable : List TIMETABLE
  NUM_TIMETABLES : ℕ
  spare : NUM_TIMETABLES < Timetable.length
  Neighbours : List NEIGHBOURS
  unset : Text → ℤ

namespace Station

/-- The address a station records for itself. -/
def recorded (st : Station) : Text := st.local_ip ++ ':' :: st.UDP_port

/-- The slot that the destination copies from, filled or not. -/
def firstSlot (st : Station) : TIMETABLE :=
  st.Timetable.head (List.ne_nil_of_length_pos (Nat.lt_of_le_of_lt (Nat.zero_le _) st.spare))

def search (st : Station) (starting_time station_to_go : Text) : ℤ :=
  search_timetable st.unset st.Timetable st.NUM_TIMETABLES starting_time station_to_go

/-- `Timetable[i]`. -/
def entry (st : Station) (i : ℤ) : Except Fault TIMETABLE :=
  if i < 0 then .error .index else
    match st.Timetable[i.toNat]? with
    | some e => .ok e
    | none => .error .index

/-- The entries that a search looks at: all but the last. -/
def entries (st : Station) : List TIMETABLE := st.Timetable.take (st.NUM_TIMETABLES - 1)

/-- The entry behind the index that a search returns. -/
def boarding (st : Station) (starting_time station_to_go : Text) : Option TIMETABLE :=
  st.entries.find? (boards st.unset starting_time station_to_go)

end Station

/-! ### What the searches and scans do -/

theorem slot_nat {xs : List Text} {k : ℕ} {s : Text} (h : xs[k]? = some s) : slot xs (k : ℤ) = .ok s := by
  have plain : ¬ ((k : ℤ) < 0) := by omega
  simp only [slot, if_neg plain, Int.toNat_natCast, h]

/-- A search fails, or returns the index of the entry boarded, which lies below the last entry. -/
theorem Station.search_cases (st : Station) (starting_time station_to_go : Text) :
    (st.search starting_time station_to_go = -1 ∧ st.boarding starting_time station_to_go = none) ∨
      ∃ (i : ℕ) (e : TIMETABLE), st.search starting_time station_to_go = i ∧
        st.boarding starting_time station_to_go = some e ∧ st.entry i = .ok e ∧
        i + 1 < st.NUM_TIMETABLES := by
  simp only [Station.search, search_timetable, Station.boarding, Station.entries]
  generalize found : (st.Timetable.take (st.NUM_TIMETABLES - 1)).findIdx?
    (boards st.unset starting_time station_to_go) = result
  cases result with
  | none =>
      left
      refine ⟨rfl, ?_⟩
      rw [List.find?_eq_none]
      exact fun e member => by simpa using List.findIdx?_eq_none_iff.mp found e member
  | some i =>
      right
      obtain ⟨bound, hit, before⟩ := List.findIdx?_eq_some_iff_getElem.mp found
      have small := bound
      rw [List.length_take] at small
      have inside : i < st.Timetable.length := by omega
      refine ⟨i, st.Timetable[i], rfl, ?_, ?_, by omega⟩
      · rw [List.getElem_take] at hit
        rw [List.find?_eq_some_iff_getElem]
        refine ⟨hit, i, bound, List.getElem_take, ?_⟩
        intro j earlier
        simpa using before j earlier
      · have plain : ¬ ((i : ℤ) < 0) := by omega
        simp only [Station.entry, if_neg plain, Int.toNat_natCast]
        rw [List.getElem?_eq_getElem (by omega)]

theorem timeToMinutes_clock (unset : Text → ℤ) {hours minutes : ℕ} (h : hours < 100) (m : minutes < 100) :
    timeToMinutes unset (clock hours minutes) = hours * 60 + minutes := by
  have colon : ∀ c ∈ (':' :: twoDigits minutes).head?, c.isDigit = false := by
    intro c first
    cases first
    decide
  have ends : ∀ c ∈ ([] : Text).head?, c.isDigit = false := by
    intro c first
    cases first
  have nonempty : ∀ n, twoDigits n ≠ [] := fun n => List.cons_ne_nil _ _
  have front := scanInt_digits (nonempty hours) (fun _ => twoDigits_digit h) colon
  have back := scanInt_digits (nonempty minutes) (fun _ => twoDigits_digit m) ends
  rw [List.append_nil] at back
  simp only [timeToMinutes, scanTime, clock, front, back, Option.map_some, twoDigits_value h,
    twoDigits_value m]

theorem boards_iff {unset : Text → ℤ} {starting_time station_to_go : Text} {e : TIMETABLE} :
    boards unset starting_time station_to_go e = true ↔
      timeToMinutes unset starting_time ≤ timeToMinutes unset e.departure_time ∧
        station_to_go = e.arrival_station := by
  simp only [boards, Bool.and_eq_true, Bool.not_eq_true', decide_eq_false_iff_not,
    decide_eq_true_eq, gt_iff_lt, Int.not_lt]

/-- An entry boarded goes to the station asked for and departs no earlier than asked. -/
theorem Station.boarding_spec {st : Station} {starting_time station_to_go : Text} {e : TIMETABLE}
    (h : st.boarding starting_time station_to_go = some e) :
    e ∈ st.entries ∧ e.arrival_station = station_to_go ∧
      timeToMinutes st.unset starting_time ≤ timeToMinutes st.unset e.departure_time := by
  have hit := boards_iff.mp (List.find?_some h)
  exact ⟨List.mem_of_find?_eq_some h, hit.2.symm, hit.1⟩

/-- Whoever comes later, but before it departs, boards the same entry. -/
theorem Station.boarding_later {st : Station} {starting_time later station_to_go : Text} {e : TIMETABLE}
    (h : st.boarding starting_time station_to_go = some e)
    (after : timeToMinutes st.unset starting_time ≤ timeToMinutes st.unset later)
    (intime : timeToMinutes st.unset later ≤ timeToMinutes st.unset e.departure_time) :
    st.boarding later station_to_go = some e := by
  obtain ⟨hit, front, back, whole, before⟩ := List.find?_eq_some_iff_append.mp h
  have hit := boards_iff.mp hit
  rw [Station.boarding, List.find?_eq_some_iff_append]
  refine ⟨boards_iff.mpr ⟨intime, hit.2⟩, front, back, whole, ?_⟩
  intro a member
  have miss := before a member
  rw [Bool.not_eq_true', Bool.eq_false_iff, ne_eq, boards_iff] at miss ⊢
  exact fun found => miss ⟨Int.le_trans after found.1, found.2⟩

/-- Searching again from the departure of the entry found finds the same entry. -/
theorem Station.boarding_again {st : Station} {starting_time station_to_go : Text} {e : TIMETABLE}
    (h : st.boarding starting_time station_to_go = some e) :
    st.boarding e.departure_time station_to_go = some e :=
  Station.boarding_later h (Station.boarding_spec h).2.2 (Int.le_refl _)

/-- An address that the scans take apart again. -/
structure Endpoint (ip port : Text) : Prop where
  ip_nonempty : ip ≠ []
  ip_short : ip.length ≤ 45
  ip_plain : ':' ∉ ip
  port_nonempty : port ≠ []
  port_short : port.length ≤ 7
  port_plain : ∀ c ∈ port, isspace c = false

theorem scanUntil_stop {stop : Char} {width : ℕ} {s : Text} (nonempty : s ≠ []) (short : s.length ≤ width)
    (plain : stop ∉ s) (rest : Text) :
    scanUntil stop width (s ++ stop :: rest) = some (s, stop :: rest) := by
  have taken : ((s ++ stop :: rest).take width).takeWhile (· ≠ stop) = s := by
    rw [List.take_append, List.take_of_length_le short, List.takeWhile_append_of_pos (all_ne plain)]
    cases width - s.length with
    | zero => rw [List.take_zero, List.takeWhile_nil, List.append_nil]
    | succ n =>
        rw [List.take_succ_cons, List.takeWhile_cons]
        simp
  simp only [scanUntil, taken, List.isEmpty_iff, List.drop_left]
  rw [if_neg nonempty]

theorem scanWord_all {s : Text} (nonempty : s ≠ []) (plain : ∀ c ∈ s, isspace c = false) :
    scanWord s = some (s, []) := by
  have letters : ∀ c ∈ s, (!isspace c) = true := by
    intro c member
    rw [plain c member, Bool.not_false]
  have start : s.dropWhile isspace = s := by
    cases s with
    | nil => rfl
    | cons c s =>
        rw [List.dropWhile_cons, plain c List.mem_cons_self]
        rfl
  have taken := List.takeWhile_eq_self_iff.mpr letters
  simp only [scanWord, start, taken, List.isEmpty_iff, List.drop_length]
  rw [if_neg nonempty]

theorem scanHostPort_endpoint {ip port : Text} (h : Endpoint ip port) {width : ℕ} (wide : 45 ≤ width) :
    scanHostPort width (ip ++ ':' :: port) = .ok (ip, port) := by
  have host := scanUntil_stop h.ip_nonempty (Nat.le_trans h.ip_short wide) h.ip_plain port
  simp only [scanHostPort, host, scanWord_all h.port_nonempty h.port_plain]

theorem get_ip_port_endpoint {p : PAYLOAD} {ip port : Text} (h : Endpoint ip port) {k : ℕ}
    (here : p.address[k]? = some (ip ++ ':' :: port)) : get_ip_port p (k + 1 : ℕ) = .ok (ip, port) := by
  have place : ((k + 1 : ℕ) : ℤ) - 1 = (k : ℤ) := by omega
  have fits : strcpy MAX_PORT (some port) = .ok port := if_pos (Nat.lt_succ_of_le h.port_short)
  simp only [get_ip_port, place, slot_nat here, scanHostPort_endpoint h (Nat.le_refl 45), fits, bind,
    Except.bind, pure, Except.pure]

theorem readneighbour_endpoint {ip port : Text} (h : Endpoint ip port) :
    readneighbour (ip ++ ':' :: port) = .ok ⟨ip, port, ip ++ ':' :: port⟩ := by
  have host : strcpy INET6_ADDRSTRLEN (some ip) = .ok ip := if_pos (Nat.lt_succ_of_le h.ip_short)
  have fits : strcpy MAX_PORT (some port) = .ok port := if_pos (Nat.lt_succ_of_le h.port_short)
  simp only [readneighbour, scanHostPort_endpoint h (show 45 ≤ 60 by decide), host, fits, bind,
    Except.bind, pure, Except.pure]

end TransitNet

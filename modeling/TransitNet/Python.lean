import TransitNet.Handler

/-! The Python station: its timetable search and the UDP branch of `run_server`. -/
namespace TransitNet

/-- `s.strip()`. -/
def strip (s : Text) : Text :=
  ((s.dropWhile whitespace).reverse.dropWhile whitespace).reverse

/-- The digits of an integer literal; single underscores may part them. -/
def pyDigits (digits : Text) : Except PyError ℤ :=
  if (digits.splitOn '_').all fun group => !group.isEmpty && group.all isdecimal then
    .ok (intOf (digits.filter (· ≠ '_')))
  else .error .valueError

/-- `int(s)`. -/
def pyInt (s : Text) : Except PyError ℤ :=
  match strip s with
  | '-' :: digits => (pyDigits digits).map fun n => -n
  | '+' :: digits => pyDigits digits
  | digits => pyDigits digits

/-- `hours, minutes = map(int, time_str.split(sep))`, in minutes. -/
def minutesOf (sep : Char) (time_str : Text) : Except PyError ℤ :=
  match time_str.splitOn sep with
  | [hours, minutes] => do
      let hours ← pyInt hours
      let minutes ← pyInt minutes
      return hours * 60 + minutes
  | _ => .error .valueError

def time_to_minutes (time_str : Text) : Except PyError ℤ :=
  if ':' ∈ time_str then minutesOf ':' time_str
  else if '-' ∈ time_str then minutesOf '-' time_str
  else .ok 0

/-- `xs[i] = v`. -/
def pySet (xs : List Text) (i : ℤ) (v : Text) : Except PyError (List Text) :=
  let j := if i < 0 then i + xs.length else i
  if 0 ≤ j ∧ j < xs.length then .ok (xs.set j.toNat v) else .error .indexError

structure PyNeighbours where
  ipaddr : Text
  udpport : ℤ
  deriving DecidableEq, Repr

/-- One turn of the loop over the neighbour arguments. -/
def PyNeighbours.parse (neighbour : Text) : Except PyError PyNeighbours :=
  match neighbour.splitOn ':' with
  | [ip, port] => do
      let port ← pyInt port
      return ⟨ip, port⟩
  | _ => .error .valueError

/-- `f"{ip}:{port}"`. -/
def addressOf (ip : Text) (port : ℤ) : Text := ip ++ ':' :: printInt port

/-- A running Python station. The first of the entries is the station's own line. -/
structure PyStation where
  STATION_NAME : Text
  local_ip : Text
  udp_port : ℤ
  entries : List (List Text)
  neighbours : List PyNeighbours

structure PyDatagram where
  ip_addr : Text
  udp_port : ℤ
  message : Text
  deriving DecidableEq, Repr

/-- What one pass through the UDP branch sends, and the payload that is done with it. -/
structure PyOutcome where
  sent : List PyDatagram
  finished : Option PAYLOAD := none
  deriving DecidableEq, Repr

/-- The loop of `search_timetable`. -/
def searchEntries (destination time_earlier : Text) : List (List Text) → Except PyError (Option (List Text))
  | [] => .ok none
  | entry :: rest => do
      let now ← time_to_minutes time_earlier
      let departs ← time_to_minutes (← pyIndex entry 0)
      if now > departs then searchEntries destination time_earlier rest
      else do
        let arrival_station ← pyIndex entry 4
        if destination = arrival_station then return some entry
        else searchEntries destination time_earlier rest

/-- `re.match(r'^(.*):(\d+)$', s)` and its groups; `$` also matches before a last newline. -/
def matchAddress (s : Text) : Except PyError (Text × ℤ) :=
  let behind := s.reverse.takeWhile (· ≠ ':')
  let digits := (if behind.head? = some '\n' then behind.tail else behind).reverse
  match s.reverse.dropWhile (· ≠ ':') with
  | ':' :: host =>
      if digits ≠ [] ∧ digits.all isdecimal ∧ '\n' ∉ host then .ok (host.reverse, intOf digits)
      else .error .attributeError
  | _ => .error .attributeError

def update_on_arrival (new_station new_address : Text) (p : PAYLOAD) : PAYLOAD :=
  if p.found = 0 then
    { p with
      hops := p.hops + 1
      current := p.current + 1
      stations := p.stations ++ [new_station]
      address := p.address ++ [new_address]
      routes := p.routes ++ ["...".toList]
      time := p.time ++ ["...".toList] }
  else if p.found = 1 then { p with current := p.current - 1 }
  else p

namespace PyStation

/-- The address that the station appends to a payload. -/
def recorded (st : PyStation) : Text := addressOf st.local_ip st.udp_port

def search_timetable (st : PyStation) (destination time_earlier : Text) :
    Except PyError (Option (List Text)) :=
  searchEntries destination time_earlier (st.entries.drop 1)

/-- `if p.destination == STATION_NAME`. -/
def at_destination (st : PyStation) (p : PAYLOAD) : PAYLOAD :=
  if p.destination = st.STATION_NAME then
    let p := if p.found = 0 then
      { update_on_arrival st.STATION_NAME st.recorded p with found := 1 } else p
    if p.found = 2 then { p with found := 3 } else p
  else p

/-- `found: 1=>2`. -/
def depart (st : PyStation) (p : PAYLOAD) : Except PyError PAYLOAD := do
  let station ← pyIndex p.stations 1
  let t ← st.search_timetable station p.start_time
  let departure ← match t with
    | none => pure unreachable_time
    | some entry => pyIndex entry 0
  let time ← pySet p.time 0 departure
  return { p with found := 2, time }

/-- `if p.source == STATION_NAME`. -/
def at_source (st : PyStation) (p : PAYLOAD) : Except PyError PAYLOAD :=
  if p.source = st.STATION_NAME then do
    let p ← if p.found = 1 then st.depart p else pure p
    return if p.found = 3 then { p with found := 4 } else p
  else .ok p

/-- `found == 3`, and `found == 1` where the payload goes back as well. -/
def step_back (p : PAYLOAD) : Except PyError PyOutcome := do
  let p := { p with current := p.current - 1 }
  let (ip, port) ← matchAddress (← pyIndex p.address (p.current - 1))
  return { sent := [⟨ip, port, serialize p⟩] }

/-- `found == 2`. -/
def ride (st : PyStation) (p : PAYLOAD) : Except PyError PyOutcome := do
  let cur := p.current
  let p := { p with current := p.current + 1 }
  let station ← pyIndex p.stations cur
  let time_earlier ← pyIndex p.time (cur - 1)
  let t ← st.search_timetable station time_earlier
  let (arrival, route) ← match t with
    | none => pure (unreachable_time, unreachable_route)
    | some entry => do
        let arrival ← pyIndex entry 3
        let route ← pyIndex entry 1
        pure (arrival, route)
  let time ← pySet p.time cur arrival
  let routes ← pySet p.routes cur route
  let p := { p with time, routes }
  let (ip, port) ← matchAddress (← pyIndex p.address (p.current - 1))
  return { sent := [⟨ip, port, serialize p⟩] }

/-- The last `else`. The loop compares a neighbour with the addresses that include the
station's own. -/
def flood (st : PyStation) (p : PAYLOAD) : PyOutcome :=
  let p := update_on_arrival st.STATION_NAME st.recorded p
  { sent := (st.neighbours.filter fun n => addressOf n.ipaddr n.udpport ∉ p.address).map
      fun n => ⟨n.ipaddr, n.udpport, serialize p⟩ }

def dispatch (st : PyStation) (p : PAYLOAD) : Except PyError PyOutcome :=
  if p.found = 4 then .ok { sent := [], finished := some p }
  else if p.found = 3 then step_back p
  else if p.found = 2 then st.ride p
  else if p.found = 1 then step_back p
  else .ok (st.flood p)

/-- The branch once the payload has been deserialized. -/
def handle (st : PyStation) (p : PAYLOAD) : Except PyError PyOutcome := do
  let p ← st.at_source (st.at_destination p)
  st.dispatch p

def udp_branch (st : PyStation) (data : Text) : Except PyError PyOutcome := do
  let p ← deserialize data
  st.handle p

end PyStation

/-! ### Numbers, times and addresses -/

theorem strip_self {s : Text} (plain : ∀ c ∈ s, whitespace c = false) : strip s = s := by
  have kept : ∀ t : Text, (∀ c ∈ t, whitespace c = false) → t.dropWhile whitespace = t := by
    intro t clean
    cases t with
    | nil => rfl
    | cons c t => rw [List.dropWhile_cons_of_neg (by rw [clean c List.mem_cons_self]; exact Bool.false_ne_true)]
  rw [strip, kept s plain, kept s.reverse fun c member => plain c (List.mem_reverse.mp member),
    List.reverse_reverse]

theorem pyInt_digits {ds : Text} (nonempty : ds ≠ []) (digits : ∀ c ∈ ds, c.isDigit = true) :
    pyInt ds = .ok (Nat.ofDigitChars 10 ds 0 : ℤ) := by
  have white : ∀ c ∈ ds, whitespace c = false := fun c member => (unbroken (digit_unbroken (digits c member))).1
  have other : ∀ c : Char, c.isDigit = false → c ∉ ds := by
    intro c nondigit member
    rw [digits c member] at nondigit
    cases nondigit
  have whole : pyDigits ds = .ok (Nat.ofDigitChars 10 ds 0 : ℤ) := by
    have one : ds.splitOn '_' = [ds] := List.splitOn_eq_singleton (other '_' (by decide))
    have all : ds.filter (· ≠ '_') = ds := List.filter_eq_self.mpr (all_ne (other '_' (by decide)))
    have groups : ([ds].all fun group => !group.isEmpty && group.all isdecimal) = true := by
      have decimal : ds.all isdecimal = true :=
        List.all_eq_true.mpr fun c member => digit_decimal (digits c member)
      have some : ds.isEmpty = false := by rwa [List.isEmpty_eq_false_iff]
      simp only [List.all_cons, List.all_nil, some, decimal, Bool.not_false, Bool.and_self]
    rw [pyDigits, one, if_pos groups, all, intOf_digits digits]
  rw [pyInt, strip_self white]
  split
  · exact absurd List.mem_cons_self (other '-' (by decide))
  · exact absurd List.mem_cons_self (other '+' (by decide))
  · exact whole

/-- What follows the sign of an integer literal. -/
def unsigned : Text → Text
  | '-' :: digits => digits
  | '+' :: digits => digits
  | digits => digits

/-- Digits that single underscores may part. -/
def digital (digits : Text) : Bool :=
  (digits.splitOn '_').all fun group => !group.isEmpty && group.all isdecimal

/-- An integer literal, with space around it. -/
def numeral (s : Text) : Bool := digital (unsigned (strip s))

/-- Two integer literals around a separator that stands there once. -/
def parted (sep : Char) (s : Text) : Bool :=
  match s.splitOn sep with
  | [hours, minutes] => numeral hours && numeral minutes
  | _ => false

/-- A text that can be read as a time. Without a separator it counts as midnight. -/
def readable (time_str : Text) : Bool :=
  if ':' ∈ time_str then parted ':' time_str else !('-' ∈ time_str) || parted '-' time_str

theorem pyDigits_iff {digits : Text} : (∃ n, pyDigits digits = .ok n) ↔ digital digits = true := by
  unfold pyDigits digital
  split
  · rename_i all
    exact ⟨fun _ => all, fun _ => ⟨_, rfl⟩⟩
  · rename_i odd
    exact ⟨fun ⟨_, read⟩ => (by cases read), fun all => absurd all odd⟩

theorem pyInt_iff {s : Text} : (∃ n, pyInt s = .ok n) ↔ numeral s = true := by
  unfold pyInt numeral
  generalize strip s = t
  unfold unsigned
  split
  · rename_i digits
    rw [← pyDigits_iff]
    constructor
    · rintro ⟨n, read⟩
      cases digits : pyDigits digits with
      | error e => rw [digits] at read; cases read
      | ok m => exact ⟨m, rfl⟩
    · rintro ⟨n, read⟩
      exact ⟨-n, by rw [read]; rfl⟩
  · exact pyDigits_iff
  · exact pyDigits_iff

theorem minutesOf_iff {sep : Char} {s : Text} : (∃ n, minutesOf sep s = .ok n) ↔ parted sep s = true := by
  unfold minutesOf parted
  split
  · rename_i hours minutes
    rw [Bool.and_eq_true, ← pyInt_iff, ← pyInt_iff]
    constructor
    · rintro ⟨n, read⟩
      obtain ⟨hours, first, read⟩ := ok_of_bind read
      obtain ⟨minutes, second, read⟩ := ok_of_bind read
      exact ⟨⟨hours, first⟩, minutes, second⟩
    · rintro ⟨⟨hours, first⟩, minutes, second⟩
      refine ⟨hours * 60 + minutes, ?_⟩
      simp only [first, second, bind, Except.bind, pure, Except.pure]
  · exact ⟨fun ⟨_, read⟩ => (by cases read), fun no => (by cases no)⟩

theorem time_to_minutes_iff {time_str : Text} :
    (∃ n, time_to_minutes time_str = .ok n) ↔ readable time_str = true := by
  unfold time_to_minutes readable
  split
  · exact minutesOf_iff
  · split
    · rename_i dash
      rw [decide_eq_true dash, Bool.not_true, Bool.false_or]
      exact minutesOf_iff
    · rename_i plain
      rw [decide_eq_false plain, Bool.not_false, Bool.true_or]
      exact ⟨fun _ => rfl, fun _ => ⟨0, rfl⟩⟩

/-- Both stations read a clock time as the same number. -/
theorem time_to_minutes_clock {hours minutes : ℕ} (h : hours < 100) (m : minutes < 100) :
    time_to_minutes (clock hours minutes) = .ok (hours * 60 + minutes : ℤ) := by
  have colon : ∀ {n : ℕ}, n < 100 → ':' ∉ twoDigits n := by
    intro n small member
    exact absurd (twoDigits_digit small member) (by decide)
  have parts : (clock hours minutes).splitOn ':' = [twoDigits hours, twoDigits minutes] := by
    rw [clock, List.splitOn_append_cons_self_of_not_mem (colon h), List.splitOn_eq_singleton (colon m)]
  have member : ':' ∈ clock hours minutes := List.mem_append_right _ List.mem_cons_self
  have number : ∀ {n : ℕ}, n < 100 → pyInt (twoDigits n) = .ok (n : ℤ) := by
    intro n small
    have nonempty : twoDigits n ≠ [] := List.cons_ne_nil _ _
    rw [pyInt_digits nonempty fun _ => twoDigits_digit small, twoDigits_value small]
  simp only [time_to_minutes, if_pos member, minutesOf, parts, number h, number m, bind, Except.bind,
    pure, Except.pure]

/-- A time that the forward pass may find in a payload: of a clock, `99:99` or blank. -/
def Timed (s : Text) : Prop := HHMM s ∨ s = unreachable_time ∨ s = blank

/-- The two stations read such times as the same number, if blank counts as midnight. -/
theorem Timed.same {s : Text} (h : Timed s) : time_to_minutes s = .ok (timeToMinutes (fun _ => 0) s) := by
  rcases h with ⟨hours, minutes, early, short, rfl⟩ | rfl | rfl
  · rw [time_to_minutes_clock (by omega) (by omega), timeToMinutes_clock _ (by omega) (by omega)]
  · decide +kernel
  · decide +kernel

/-- A host as stations record it, and a port number. -/
structure Dotted (ip : Text) (port : ℤ) : Prop where
  nonempty : ip ≠ []
  short : ip.length ≤ 45
  plain : ∀ c ∈ ip, c.isDigit = true ∨ c = '.'
  port : 0 ≤ port ∧ port < 65536

theorem Dotted.no_colon {ip : Text} {port : ℤ} (h : Dotted ip port) : ':' ∉ ip ∧ '\n' ∉ ip := by
  constructor <;>
  · intro member
    rcases h.plain _ member with digit | dot
    · exact absurd digit (by decide)
    · exact absurd dot (by decide)

theorem Dotted.digits {ip : Text} {port : ℤ} (h : Dotted ip port) :
    ∃ n : ℕ, port = n ∧ printInt port = Nat.toDigits 10 n ∧ ∀ c ∈ Nat.toDigits 10 n, c.isDigit = true := by
  obtain ⟨n, rfl⟩ := Int.eq_ofNat_of_zero_le h.port.1
  exact ⟨n, rfl, printInt_natCast n, fun _ => toDigits_digit⟩

theorem Dotted.endpoint {ip : Text} {port : ℤ} (h : Dotted ip port) : Endpoint ip (printInt port) := by
  obtain ⟨n, rfl, print, digits⟩ := h.digits
  have small := h.port.2
  have size : (Nat.toDigits 10 n).length ≤ 7 :=
    (Nat.length_toDigits_le_iff (by decide) (by decide)).mpr (by omega)
  rw [print]
  exact ⟨h.nonempty, h.short, h.no_colon.1, Nat.toDigits_ne_nil, size,
    fun c member => (unbroken (digit_unbroken (digits c member))).2.1⟩

theorem Dotted.parse {ip : Text} {port : ℤ} (h : Dotted ip port) :
    PyNeighbours.parse (addressOf ip port) = .ok ⟨ip, port⟩ := by
  obtain ⟨n, rfl, print, digits⟩ := h.digits
  have colon : ':' ∉ Nat.toDigits 10 n := fun member => absurd (digits _ member) (by decide)
  have parts : (addressOf ip n).splitOn ':' = [ip, Nat.toDigits 10 n] := by
    rw [addressOf, print, List.splitOn_append_cons_self_of_not_mem h.no_colon.1,
      List.splitOn_eq_singleton colon]
  simp only [PyNeighbours.parse, parts, pyInt_digits Nat.toDigits_ne_nil digits,
    Nat.ofDigitChars_ten_toDigits, bind, Except.bind, pure, Except.pure]

theorem Dotted.matched {ip : Text} {port : ℤ} (h : Dotted ip port) :
    matchAddress (addressOf ip port) = .ok (ip, port) := by
  obtain ⟨n, rfl, print, digits⟩ := h.digits
  have letters : ∀ c ∈ (Nat.toDigits 10 n).reverse, decide (c ≠ ':') = true := by
    apply all_ne
    intro member
    exact absurd (digits _ (List.mem_reverse.mp member)) (by decide)
  have back : (addressOf ip n).reverse = (Nat.toDigits 10 n).reverse ++ ':' :: ip.reverse := by
    rw [addressOf, print, List.reverse_append, List.reverse_cons, List.append_assoc, List.singleton_append]
  have taken : (addressOf ip n).reverse.takeWhile (· ≠ ':') = (Nat.toDigits 10 n).reverse := by
    rw [back, List.takeWhile_append_of_pos letters, List.takeWhile_cons_of_neg (by decide), List.append_nil]
  have dropped : (addressOf ip n).reverse.dropWhile (· ≠ ':') = ':' :: ip.reverse := by
    rw [back, List.dropWhile_append_of_pos letters, List.dropWhile_cons_of_neg (by decide)]
  have ends : (Nat.toDigits 10 n).reverse.head? ≠ some '\n' := by
    intro last
    have member := List.mem_reverse.mp (List.mem_of_mem_head? last)
    exact absurd (digits _ member) (by decide)
  have decimal : (Nat.toDigits 10 n).all isdecimal = true :=
    List.all_eq_true.mpr fun c member => digit_decimal (digits c member)
  have line : '\n' ∉ ip.reverse := fun member => h.no_colon.2 (List.mem_reverse.mp member)
  simp only [matchAddress, taken, dropped, if_neg ends, List.reverse_reverse, intOf_toDigits]
  rw [if_pos ⟨Nat.toDigits_ne_nil, decimal, line⟩]

/-- A Python station in the place of StationA. -/
def pyStationA : PyStation where
  STATION_NAME := "StationA".toList
  local_ip := "127.0.0.1".toList
  udp_port := 4002
  entries := [["StationA".toList, "-31.95".toList, "115.86".toList],
    ["07:30".toList, "bus1".toList, "stop1".toList, "07:50".toList, "StationB".toList],
    ["08:15".toList, "bus1".toList, "stop1".toList, "08:35".toList, "StationB".toList]]
  neighbours := [⟨"127.0.0.1".toList, 4004⟩]

end TransitNet

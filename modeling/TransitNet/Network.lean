import TransitNet.Soup
import TransitNet.Handler
import Mathlib.Data.Fintype.Basic

/-! Networks of C stations. A station is a node; what its neighbour arguments and
the addresses in payloads lead to is up to the resolver. -/
namespace TransitNet
open Soup Words

structure Network (V : Type*) where
  station : V → Station
  argv : V → List Text
  started : ∀ x, readneighbours (argv x) = .ok (station x).Neighbours
  resolve : Text → Text → Option V

variable {V : Type*}

namespace Network

abbrev name (N : Network V) (x : V) : Text := (N.station x).station_name
abbrev ip (N : Network V) (x : V) : Text := (N.station x).local_ip
abbrev port (N : Network V) (x : V) : Text := (N.station x).UDP_port
abbrev recorded (N : Network V) (x : V) : Text := (N.station x).recorded

/-- One delivery. A datagram for an address where nobody listens vanishes; one that
overruns the receive buffer or makes the station fault cannot be delivered. -/
def react (N : Network V) : Reaction Datagram (V × PAYLOAD) := fun d =>
  match N.resolve d.ip d.port with
  | none => some ([], [])
  | some x =>
      if d.text.length < MAXDATASIZE then
        match udp_branch (N.station x) d.text with
        | .ok outcome => some (outcome.sent, outcome.finished.toList.map (Prod.mk x))
        | .error _ => none
      else none

/-- A delivery at a station is one pass through its branch. -/
theorem react_at {N : Network V} {d : Datagram} {x : V} {out : List Datagram} {reports : List (V × PAYLOAD)}
    (leads : N.resolve d.ip d.port = some x) (reacts : N.react d = some (out, reports)) :
    d.text.length < MAXDATASIZE ∧ ∃ outcome, udp_branch (N.station x) d.text = .ok outcome ∧
      out = outcome.sent ∧ reports = outcome.finished.toList.map (Prod.mk x) := by
  rw [react] at reacts
  simp only [leads] at reacts
  split at reacts
  · rename_i short
    split at reacts
    · rename_i outcome ran
      cases reacts
      exact ⟨short, outcome, ran, rfl, rfl⟩
    · cases reacts
  · cases reacts

theorem react_some {N : Network V} {d : Datagram} {out : List Datagram} {reports : List (V × PAYLOAD)}
    (reacts : N.react d = some (out, reports)) :
    (out = [] ∧ reports = []) ∨ ∃ x p outcome, N.resolve d.ip d.port = some x ∧
      d.text.length < MAXDATASIZE ∧ load_payload d.text = .ok p ∧
      handle (N.station x) p.slots p = .ok outcome ∧ out = outcome.sent ∧
      reports = outcome.finished.toList.map (Prod.mk x) := by
  cases leads : N.resolve d.ip d.port with
  | none =>
      rw [react, leads] at reacts
      cases reacts
      exact .inl ⟨rfl, rfl⟩
  | some x =>
      obtain ⟨short, outcome, ran, sent, filed⟩ := react_at leads reacts
      obtain ⟨p, loaded, handled⟩ := udp_branch_ok ran
      exact .inr ⟨x, p, outcome, rfl, short, loaded, handled, sent, filed⟩

/-- The stations that a station's neighbour arguments lead to. -/
def nbrs (N : Network V) (x : V) : List V :=
  (N.station x).Neighbours.filterMap fun n => N.resolve n.ip_addr n.udp_port

end Network

structure Query (V : Type*) where
  destination : Text
  source : V
  start_time : Text

/-- `"0 0 0 %s %s %s;"` -/
def initText (destination station_name start_time : Text) : Text :=
  "0 0 0 ".toList ++ destination ++ ' ' :: station_name ++ ' ' :: start_time ++ [';']

theorem zero_text {p : PAYLOAD} (found : p.found = 0) (hops : p.hops = 0) (current : p.current = 0) :
    p.text = '0' :: ' ' :: '0' :: ' ' :: '0' :: (p.body ++ [';']) := by
  have zero : printInt 0 = ['0'] := by decide
  simp only [PAYLOAD.text, PAYLOAD.header, found, hops, current, zero, List.cons_append,
    List.nil_append]

theorem initText_eq (destination station_name start_time : Text) :
    initText destination station_name start_time = '0' :: ' ' :: '0' :: ' ' :: '0' ::
      (spaced ' ' [destination, station_name, start_time] ++ [';']) := by
  have front : "0 0 0 ".toList = ['0', ' ', '0', ' ', '0', ' '] := by decide
  unfold initText
  rw [front]
  simp only [spaced_cons, spaced_nil, List.cons_append, List.nil_append, List.append_assoc]

/-- The init payload that a station sends to itself. -/
def Network.init (N : Network V) (q : Query V) : Datagram :=
  ⟨N.ip q.source, N.port q.source, initText q.destination (N.name q.source) q.start_time⟩

/-- A query that an init payload can carry, for a station other than the one asked. -/
structure Network.Asked (N : Network V) (q : Query V) : Prop where
  destination : Token ' ' 60 q.destination
  start_time : Token ';' 5 q.start_time
  away : q.destination ≠ N.name q.source

/-- An entry whose texts the payload can carry. -/
structure TIMETABLE.Carried (e : TIMETABLE) : Prop where
  departure_time : Token ' ' 5 e.departure_time
  route_name : Token ' ' 60 e.route_name
  arrival_time : Token ' ' 5 e.arrival_time

/-- What a station may copy into a payload: its entries, and the first slot. -/
def Station.copied (st : Station) : List TIMETABLE :=
  st.firstSlot :: st.entries

theorem Station.leg_tokens {st : Station} (entries : ∀ e ∈ st.copied, e.Carried) (t next : Text) :
    Token ' ' 5 (st.leg t next).1 ∧ Token ' ' 60 (st.leg t next).2 := by
  rw [Station.leg]
  cases boards : st.boarding t next with
  | none => exact ⟨by decide, by decide⟩
  | some e =>
      have entry := entries e (List.mem_cons_of_mem _ (Station.boarding_spec boards).1)
      exact ⟨entry.arrival_time, entry.route_name⟩

theorem Station.departure_token {st : Station} (entries : ∀ e ∈ st.copied, e.Carried) (t next : Text) :
    Token ' ' 5 (st.departure t next) := by
  rw [Station.departure]
  cases boards : st.boarding t next with
  | none => decide
  | some e => exact (entries e (List.mem_cons_of_mem _ (Station.boarding_spec boards).1)).departure_time

/-- What a flood writes keeps to the limits of the fields. -/
structure Network.Worded (N : Network V) : Prop where
  name : ∀ x, Token ' ' 60 (N.name x)
  recorded : ∀ x, Token ' ' 54 (N.recorded x)

/-- The address that a station records can be taken apart, and leads to it. -/
structure Network.Addressed (N : Network V) : Prop where
  endpoint : ∀ x, Endpoint (N.ip x) (N.port x)
  home : ∀ x, N.resolve (N.ip x) (N.port x) = some x

/-- The stations have different names, and every neighbour argument is the recorded
address of another station. -/
structure Network.Wired (N : Network V) : Prop extends N.Addressed where
  names : Function.Injective N.name
  others : ∀ x, ∀ arg ∈ N.argv x, ∃ y, y ≠ x ∧ arg = N.recorded y

/-- All texts keep to the limits of the fields. -/
structure Network.Carried (N : Network V) : Prop extends N.Worded, N.Addressed where
  entries : ∀ x, ∀ e ∈ (N.station x).copied, e.Carried

structure Network.Regular (N : Network V) : Prop extends N.Carried, N.Wired

theorem Endpoint.inj {ip port ip' port' : Text} (h : Endpoint ip port) (h' : Endpoint ip' port')
    (same : ip ++ ':' :: port = ip' ++ ':' :: port') : ip = ip' ∧ port = port' := by
  have left := scanHostPort_endpoint h (Nat.le_refl 45)
  rw [same, scanHostPort_endpoint h' (Nat.le_refl 45), Except.ok.injEq, Prod.mk.injEq] at left
  exact ⟨left.1.symm, left.2.symm⟩

namespace Network
variable {N : Network V}

theorem Addressed.recorded_injective (h : N.Addressed) : Function.Injective N.recorded := by
  intro x y same
  obtain ⟨ip, port⟩ := (h.endpoint x).inj (h.endpoint y) same
  have home := h.home x
  rw [ip, port, h.home y] at home
  exact (Option.some.inj home).symm

/-- What `readneighbours` makes of a recorded address. -/
def asNeighbour (N : Network V) (x : V) : NEIGHBOURS := ⟨N.ip x, N.port x, N.recorded x⟩

theorem Wired.neighbour (h : N.Wired) {x : V} {n : NEIGHBOURS}
    (member : n ∈ (N.station x).Neighbours) :
    ∃ y, y ≠ x ∧ N.resolve n.ip_addr n.udp_port = some y ∧ n = N.asNeighbour y := by
  obtain ⟨arg, given, read⟩ := (mapM_mem (N.started x)).1 n member
  obtain ⟨y, other, rfl⟩ := h.others x arg given
  have known := readneighbour_endpoint (h.endpoint y)
  rw [recorded, Station.recorded, known, Except.ok.injEq] at read
  subst read
  exact ⟨y, other, h.home y, rfl⟩

theorem Wired.neighbours_eq (h : N.Wired) (x : V) :
    (N.station x).Neighbours = (N.nbrs x).map N.asNeighbour := by
  have known : ∀ n ∈ (N.station x).Neighbours, ∃ y, N.resolve n.ip_addr n.udp_port = some y ∧
      n = N.asNeighbour y := by
    intro n member
    obtain ⟨y, _, leads, same⟩ := h.neighbour member
    exact ⟨y, leads, same⟩
  rw [nbrs]
  generalize (N.station x).Neighbours = ns at known
  induction ns with
  | nil => rfl
  | cons n ns ih =>
      obtain ⟨y, leads, same⟩ := known n List.mem_cons_self
      have first := List.filterMap_cons_some (f := fun m : NEIGHBOURS => N.resolve m.ip_addr m.udp_port)
        (l := ns) leads
      rw [first, List.map_cons, ← same, ← ih fun m member => known m (List.mem_cons_of_mem n member)]

theorem Wired.loopless (h : N.Wired) (x : V) : x ∉ N.nbrs x := by
  intro member
  obtain ⟨n, given, leads⟩ := List.mem_filterMap.mp member
  obtain ⟨y, other, leads', _⟩ := h.neighbour given
  rw [leads] at leads'
  exact other (Option.some.inj leads').symm

/-- The neighbour arguments are the recorded addresses of the neighbours. -/
theorem Wired.argv_eq (h : N.Wired) (x : V) : N.argv x = (N.nbrs x).map N.recorded := by
  have spelled := h.others x
  have read := N.started x
  rw [h.neighbours_eq x] at read
  generalize N.argv x = argv at spelled read
  generalize N.nbrs x = ys at read
  induction argv generalizing ys with
  | nil =>
      simp only [readneighbours, List.mapM_nil, pure, Except.pure, Except.ok.injEq] at read
      rw [List.map_eq_nil_iff.mp read.symm]
      rfl
  | cons arg argv ih =>
      rw [readneighbours, List.mapM_cons] at read
      obtain ⟨n, first, read⟩ := ok_of_bind read
      obtain ⟨rest, later, read⟩ := ok_of_bind read
      simp only [pure, Except.pure, Except.ok.injEq] at read
      cases ys with
      | nil => cases read
      | cons y ys =>
          rw [List.map_cons, List.cons.injEq] at read
          obtain ⟨rfl, rfl⟩ := read
          obtain ⟨z, _, rfl⟩ := spelled arg List.mem_cons_self
          have known := readneighbour_endpoint (h.endpoint z)
          rw [recorded, Station.recorded, known, Except.ok.injEq] at first
          rw [List.map_cons, List.cons.injEq]
          refine ⟨?_, ih (fun a member => spelled a (List.mem_cons_of_mem _ member)) ys later⟩
          exact congrArg NEIGHBOURS.addr_and_port first

theorem Wired.nbrs_nodup (h : N.Wired) {x : V} (once : (N.argv x).Nodup) : (N.nbrs x).Nodup := by
  rw [h.argv_eq x] at once
  exact once.of_map

theorem Carried.leg_tokens (carried : N.Carried) (x : V) (t next : Text) :
    Token ' ' 5 ((N.station x).leg t next).1 ∧ Token ' ' 60 ((N.station x).leg t next).2 :=
  Station.leg_tokens (carried.entries x) t next

theorem Carried.departure_token (carried : N.Carried) (x : V) (t next : Text) :
    Token ' ' 5 ((N.station x).departure t next) :=
  Station.departure_token (carried.entries x) t next

end Network

/-! ### Two stations that are neighbours of each other -/

/-- One line of a timetable file. -/
def bus (departure_time route_name arrival_time arrival_station : String) : TIMETABLE where
  departure_time := departure_time.toList
  route_name := route_name.toList
  departing_from := "stop1".toList
  arrival_time := arrival_time.toList
  arrival_station := arrival_station.toList

/-- A station with a buffer as `readtimetable` leaves it: the entries, then an unused slot. -/
def stationOf (station_name UDP_port : String) (timetable : List TIMETABLE)
    (neighbours : List (String × String)) : Station where
  station_name := station_name.toList
  local_ip := "127.0.0.1".toList
  UDP_port := UDP_port.toList
  Timetable := timetable ++ [⟨[], [], [], [], []⟩]
  NUM_TIMETABLES := timetable.length
  spare := by rw [List.length_append]; exact Nat.lt_succ_self _
  Neighbours := neighbours.map fun n => ⟨n.1.toList, n.2.toList, n.1.toList ++ ':' :: n.2.toList⟩
  unset _ := 0

def twoStops : Network Bool where
  station
    | false => stationOf "StationA" "4002"
        [bus "09:00" "bus9" "09:20" "StationB", bus "23:00" "bus9" "23:20" "StationB"]
        [("127.0.0.1", "4004")]
    | true => stationOf "StationB" "4004"
        [bus "10:00" "bus7" "10:20" "StationA", bus "22:00" "bus7" "22:20" "StationA"]
        [("127.0.0.1", "4002")]
  argv
    | false => ["127.0.0.1:4004".toList]
    | true => ["127.0.0.1:4002".toList]
  started x := by cases x <;> rfl
  resolve _ port :=
    if port = "4002".toList then some false else if port = "4004".toList then some true else none

theorem twoStops_regular : twoStops.Regular where
  name := by decide
  recorded := by decide
  endpoint x := by
    have plain : ∀ x, (twoStops.port x).all (!isspace ·) = true := by decide
    have letters : ∀ c ∈ twoStops.port x, isspace c = false := by simpa using plain x
    cases x <;> exact ⟨by decide, by decide, by decide, by decide, by decide, letters⟩
  home := by decide
  entries x e member := by
    have all : ∀ x, ∀ e ∈ (twoStops.station x).copied, Token ' ' 5 e.departure_time ∧
        Token ' ' 60 e.route_name ∧ Token ' ' 5 e.arrival_time := by decide
    exact ⟨(all x e member).1, (all x e member).2.1, (all x e member).2.2⟩
  names := by unfold Function.Injective; decide
  others := by decide

/-- From StationA to StationB at eight. -/
def toStationB : Query Bool := ⟨"StationB".toList, false, "08:00".toList⟩

end TransitNet

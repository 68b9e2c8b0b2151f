import TransitNet.Python

/-! The C station that a Python station could be replaced by. It has the same name, address
and neighbours, and a timetable in which the C searches find what the Python search finds. -/
namespace TransitNet

/-- The first five columns of a timetable line. -/
def columns (entry : List Text) : TIMETABLE where
  departure_time := entry[0]?.getD []
  route_name := entry[1]?.getD []
  departing_from := entry[2]?.getD []
  arrival_time := entry[3]?.getD []
  arrival_station := entry[4]?.getD []

/-- An entry that nobody boards, as there is no space in a station's name. A C destination copies it
into the payload, which gives what a Python destination writes. -/
def halt : TIMETABLE := ⟨"00:00".toList, blank, blank, blank, "no stop".toList⟩

def PyNeighbours.twin (n : PyNeighbours) : NEIGHBOURS :=
  ⟨n.ipaddr, printInt n.udpport, addressOf n.ipaddr n.udpport⟩

namespace PyStation

/-- The timetable holds times of day, and the neighbours are spelled as addresses other
than the station's own. -/
structure Formed (st : PyStation) : Prop where
  entries : ∀ entry ∈ st.entries.drop 1, 5 ≤ entry.length ∧
    HHMM (columns entry).departure_time ∧ HHMM (columns entry).arrival_time
  neighbours : ∀ n ∈ st.neighbours, Dotted n.ipaddr n.udpport ∧ addressOf n.ipaddr n.udpport ≠ st.recorded

def twin (st : PyStation) : Station where
  station_name := st.STATION_NAME
  local_ip := st.local_ip
  UDP_port := printInt st.udp_port
  Timetable := halt :: (st.entries.drop 1).map columns ++ [halt, halt]
  NUM_TIMETABLES := (st.entries.drop 1).length + 2
  spare := by simp
  Neighbours := st.neighbours.map PyNeighbours.twin
  unset _ := 0

theorem twin_entries (st : PyStation) : st.twin.entries = halt :: (st.entries.drop 1).map columns := by
  rw [Station.entries]
  have size : st.twin.NUM_TIMETABLES - 1 = (halt :: (st.entries.drop 1).map columns).length := by
    rw [List.length_cons, List.length_map]
    rfl
  rw [size]
  exact List.take_left

end PyStation

theorem pyIndex_columns {entry : List Text} (whole : 5 ≤ entry.length) :
    pyIndex entry 0 = .ok (columns entry).departure_time ∧ pyIndex entry 1 = .ok (columns entry).route_name ∧
      pyIndex entry 3 = .ok (columns entry).arrival_time ∧
      pyIndex entry 4 = .ok (columns entry).arrival_station := by
  have read : ∀ k : ℕ, k < 5 → pyIndex entry (k : ℤ) = .ok (entry[k]?.getD []) := by
    intro k small
    have there := List.getElem?_eq_getElem (show k < entry.length by omega)
    rw [pyIndex_nat there, there, Option.getD_some]
  exact ⟨read 0 (by decide), read 1 (by decide), read 3 (by decide), read 4 (by decide)⟩

/-- The Python search, on entries that can be read. -/
theorem searchEntries_eq {destination time_earlier : Text} (timed : Timed time_earlier)
    {es : List (List Text)} (formed : ∀ entry ∈ es, 5 ≤ entry.length ∧ HHMM (columns entry).departure_time) :
    searchEntries destination time_earlier es =
      .ok (es.find? fun entry => boards (fun _ => 0) time_earlier destination (columns entry)) := by
  induction es with
  | nil => rfl
  | cons entry es ih =>
      obtain ⟨whole, clock⟩ := formed entry List.mem_cons_self
      obtain ⟨departs, _, _, arrives⟩ := pyIndex_columns whole
      have rest := ih fun e member => formed e (List.mem_cons_of_mem entry member)
      simp only [searchEntries, timed.same, departs, Timed.same (.inl clock), arrives, rest, bind,
        Except.bind, pure, Except.pure]
      split
      · rename_i late
        have missed : boards (fun _ => 0) time_earlier destination (columns entry) = false := by
          rw [Bool.eq_false_iff, ne_eq, boards_iff]
          omega
        rw [List.find?_cons, missed]
      · rename_i early
        split
        · rename_i goes
          have hit : boards (fun _ => 0) time_earlier destination (columns entry) = true :=
            boards_iff.mpr ⟨by omega, goes⟩
          rw [List.find?_cons, hit]
        · rename_i other
          have missed : boards (fun _ => 0) time_earlier destination (columns entry) = false := by
            rw [Bool.eq_false_iff, ne_eq, boards_iff]
            exact fun hit => other hit.2
          rw [List.find?_cons, missed]

namespace PyStation
variable {st : PyStation}

theorem Formed.search_twin (formed : st.Formed) {destination time_earlier : Text}
    (timed : Timed time_earlier) (named : ' ' ∉ destination) : ∃ found,
    st.search_timetable destination time_earlier = .ok found ∧
      found.map columns = st.twin.boarding time_earlier destination ∧
      ∀ entry ∈ found, 5 ≤ entry.length := by
  refine ⟨_, searchEntries_eq timed fun entry member => ?_, ?_, ?_⟩
  · exact ⟨(formed.entries entry member).1, (formed.entries entry member).2.1⟩
  · rw [Station.boarding, twin_entries, List.find?_cons_of_neg, List.find?_map]
    · rfl
    · rw [boards_iff]
      exact fun hit => named (hit.2 ▸ by decide)
  · intro entry member
    exact (formed.entries entry (List.mem_of_find?_eq_some member)).1

/-- Searching from one text finds what the twin boards from the other. -/
def Seeks (st : PyStation) (time_earlier starting_time : Text) : Prop :=
  ∀ destination, ' ' ∉ destination → ∃ found, st.search_timetable destination time_earlier = .ok found ∧
    found.map columns = st.twin.boarding starting_time destination ∧ ∀ entry ∈ found, 5 ≤ entry.length

theorem Formed.seeks (formed : st.Formed) {time : Text} (timed : Timed time) : st.Seeks time time :=
  fun _ named => formed.search_twin timed named

/-- A search from another text that is as late finds the same. -/
theorem searchEntries_from {destination late time_earlier : Text} {n : ℤ} (value : time_to_minutes late = .ok n)
    (timed : Timed time_earlier) {es : List (List Text)}
    (formed : ∀ entry ∈ es, 5 ≤ entry.length ∧ HHMM (columns entry).departure_time)
    (same : ∀ hours minutes : ℕ, hours < 24 → minutes < 60 →
      (n ≤ hours * 60 + minutes ↔ timeToMinutes (fun _ => 0) time_earlier ≤ hours * 60 + minutes)) :
    searchEntries destination late es = searchEntries destination time_earlier es := by
  induction es with
  | nil => rfl
  | cons entry es ih =>
      obtain ⟨whole, hours, minutes, early, short, clock⟩ := formed entry List.mem_cons_self
      obtain ⟨departs, _, _, arrives⟩ := pyIndex_columns whole
      have rest := ih fun e member => formed e (List.mem_cons_of_mem entry member)
      have order := same hours minutes early short
      have missed : n > hours * 60 + minutes ↔ timeToMinutes (fun _ => 0) time_earlier > hours * 60 + minutes := by
        rw [gt_iff_lt, gt_iff_lt, ← not_le, ← not_le, order]
      simp only [searchEntries, value, timed.same, departs, clock,
        time_to_minutes_clock (show hours < 100 by omega) (show minutes < 100 by omega), arrives, rest, bind,
        Except.bind, missed]

/-- A time of day, or `99:99`, for any number of minutes. -/
theorem exists_timed (n : ℤ) : ∃ s, Timed s ∧ ∀ hours minutes : ℕ, hours < 24 → minutes < 60 →
    (n ≤ hours * 60 + minutes ↔ timeToMinutes (fun _ => 0) s ≤ hours * 60 + minutes) := by
  by_cases late : n < 1440
  · have split := Nat.div_add_mod n.toNat 60
    have below : n.toNat % 60 < 60 := Nat.mod_lt _ (by decide)
    refine ⟨clock (n.toNat / 60) (n.toNat % 60), .inl ⟨_, _, by omega, below, rfl⟩, ?_⟩
    intro hours minutes early short
    rw [timeToMinutes_clock _ (by omega) (by omega)]
    omega
  · refine ⟨unreachable_time, .inr (.inl rfl), ?_⟩
    intro hours minutes early short
    have value : timeToMinutes (fun _ => 0) unreachable_time = 6039 := by decide +kernel
    rw [value]
    omega

/-- Whatever can be read as a time, and any text where there is no timetable, is as good as a time of day. -/
theorem Formed.exists_seeks (formed : st.Formed) {late : Text}
    (value : st.entries.drop 1 = [] ∨ readable late = true) : ∃ time, st.Seeks late time := by
  rcases value with none | read
  · refine ⟨blank, fun destination named => ?_⟩
    obtain ⟨found, searched, boards, whole⟩ := formed.search_twin (.inr (.inr rfl)) named
    refine ⟨found, ?_, boards, whole⟩
    rw [← searched]
    simp only [search_timetable, none, searchEntries]
  · obtain ⟨n, value⟩ := time_to_minutes_iff.mpr read
    obtain ⟨time, timed, same⟩ := exists_timed n
    refine ⟨time, fun destination named => ?_⟩
    obtain ⟨found, searched, boards, whole⟩ := formed.search_twin timed named
    refine ⟨found, ?_, boards, whole⟩
    rw [← searched]
    exact searchEntries_from value timed (fun entry member =>
      ⟨(formed.entries entry member).1, (formed.entries entry member).2.1⟩) same

/-- Times in the twin's timetable. -/
theorem Formed.departure_timed (formed : st.Formed) (starting_time station_to_go : Text) :
    Timed (st.twin.departure starting_time station_to_go) := by
  rw [Station.departure]
  cases boards : st.twin.boarding starting_time station_to_go with
  | none => exact .inr (.inl rfl)
  | some e =>
      have member := (Station.boarding_spec boards).1
      rw [twin_entries] at member
      rcases List.mem_cons.mp member with rfl | row
      · exact .inl ⟨0, 0, by decide, by decide, by decide⟩
      · obtain ⟨entry, inside, rfl⟩ := List.mem_map.mp row
        exact .inl (formed.entries entry inside).2.1

/-! ### What the branch does in each phase and role, in the terms of the twin -/

section Spec
variable {p : PAYLOAD}

theorem pySet_nat {xs : List Text} {k : ℕ} (bound : k < xs.length) (v : Text) :
    pySet xs (k : ℤ) v = .ok (xs.set k v) := by
  have plain : ¬ ((k : ℤ) < 0) := by omega
  simp only [pySet, if_neg plain, Int.toNat_natCast]
  rw [if_pos ⟨by omega, by omega⟩]

theorem update_on_arrival_eq (fresh : p.found = 0) (place : p.current = p.hops) :
    update_on_arrival st.STATION_NAME st.recorded p = p.visited st.twin blank blank := by
  rw [update_on_arrival, if_pos fresh, place]
  rfl

theorem step_back_at {ip : Text} {port : ℤ} (there : pyIndex p.address (p.current - 1 - 1) = .ok (addressOf ip port))
    (dotted : Dotted ip port) : PyStation.step_back p =
      .ok { sent := [⟨ip, port, serialize { p with current := p.current - 1 }⟩] } := by
  simp only [PyStation.step_back, there, dotted.matched, bind, Except.bind, pure, Except.pure]

theorem step_back_eq {k : ℕ} {ip : Text} {port : ℤ} (place : p.current = (k + 2 : ℕ))
    (there : p.address[k]? = some (addressOf ip port)) (dotted : Dotted ip port) :
    PyStation.step_back p =
      .ok { sent := [⟨ip, port, serialize { p with current := (k + 1 : ℕ) }⟩] } := by
  have before : p.current - 1 = (k + 1 : ℕ) := by omega
  have behind : p.current - 1 - 1 = (k : ℕ) := by omega
  rw [step_back_at (by rw [behind]; exact pyIndex_nat there) dotted, before]

theorem Seeks.depart_eq {starting_time : Text} (seeks : st.Seeks p.start_time starting_time) {next : Text}
    (onward : p.stations[1]? = some next) (named : ' ' ∉ next) (some : 0 < p.time.length) :
    st.depart p = .ok (p.departed (st.twin.departure starting_time next)) := by
  obtain ⟨found, searched, boards, whole⟩ := seeks next named
  have first := pyIndex_nat onward
  have set : ∀ v, pySet p.time 0 v = .ok (p.time.set 0 v) := fun v => pySet_nat some v
  rw [Nat.cast_one] at first
  simp only [depart, first, searched, bind, Except.bind]
  cases found with
  | none =>
      rw [Option.map_none] at boards
      simp only [pure, Except.pure, set, PAYLOAD.departed, Station.departure, ← boards]
  | some entry =>
      rw [Option.map_some] at boards
      obtain ⟨departs, _⟩ := pyIndex_columns (whole entry rfl)
      simp only [departs, pure, Except.pure, set, PAYLOAD.departed, Station.departure, ← boards]

theorem Formed.ride_eq (formed : st.Formed) (h : p.Sized) {k : ℕ} {ip time_earlier next : Text} {port : ℤ}
    (place : p.current = (k + 1 : ℕ)) (now : p.time[k]? = some time_earlier)
    (onward : p.stations[k + 1]? = some next) (there : p.address[k + 1]? = some (addressOf ip port))
    (dotted : Dotted ip port) (timed : Timed time_earlier) (named : ' ' ∉ next) :
    st.ride p =
      .ok { sent := [⟨ip, port, serialize (p.ridden k (st.twin.leg time_earlier next))⟩] } := by
  obtain ⟨found, searched, boards, whole⟩ := formed.search_twin timed named
  obtain ⟨h₁, h₂, h₃, h₄⟩ := h
  have inside := (List.getElem?_eq_some_iff.mp onward).1
  have before : ((k + 1 : ℕ) : ℤ) - 1 = (k : ℕ) := by omega
  have after : ((k + 1 : ℕ) : ℤ) + 1 = (k + 2 : ℕ) := by omega
  have behind : ((k + 2 : ℕ) : ℤ) - 1 = (k + 1 : ℕ) := by omega
  have time : ∀ v, pySet p.time (k + 1 : ℕ) v = .ok (p.time.set (k + 1) v) := fun v =>
    pySet_nat (by omega) v
  have routes : ∀ v, pySet p.routes (k + 1 : ℕ) v = .ok (p.routes.set (k + 1) v) := fun v =>
    pySet_nat (by omega) v
  simp only [ride, place, before, after, behind, pyIndex_nat onward, pyIndex_nat now, searched, bind,
    Except.bind]
  cases found with
  | none =>
      rw [Option.map_none] at boards
      simp only [pure, Except.pure, time, routes, pyIndex_nat there, dotted.matched, PAYLOAD.ridden,
        Station.leg, ← boards]
  | some entry =>
      rw [Option.map_some] at boards
      obtain ⟨_, goes, arrives, _⟩ := pyIndex_columns (whole entry rfl)
      simp only [goes, arrives, pure, Except.pure, time, routes, pyIndex_nat there, dotted.matched,
        PAYLOAD.ridden, Station.leg, ← boards]

theorem handle_flood (fresh : p.found = 0) (place : p.current = p.hops)
    (elsewhere : p.destination ≠ st.STATION_NAME) : st.handle p = .ok
      { sent := (st.neighbours.filter fun n =>
            addressOf n.ipaddr n.udpport ∉ (p.visited st.twin blank blank).address).map
          fun n => ⟨n.ipaddr, n.udpport, serialize (p.visited st.twin blank blank)⟩ } := by
  have source : st.at_source (st.at_destination p) = .ok p := by
    rw [at_destination, if_neg elsewhere, at_source]
    split
    · simp only [fresh, bind, Except.bind, pure, Except.pure]
      rfl
    · rfl
  simp only [handle, source, dispatch, fresh, flood, update_on_arrival_eq fresh place, bind, Except.bind]
  rfl

theorem handle_reach (fresh : p.found = 0) (place : p.current = p.hops)
    (here : p.destination = st.STATION_NAME) (away : p.source ≠ st.STATION_NAME) {k : ℕ} {ip : Text}
    {port : ℤ} (many : p.hops = (k + 1 : ℕ)) (there : p.address[k]? = some (addressOf ip port))
    (dotted : Dotted ip port) :
    st.handle p = .ok { sent := [⟨ip, port, serialize (p.turned st.twin)⟩] } := by
  let q : PAYLOAD := { p.visited st.twin blank blank with found := 1 }
  have destination : st.at_destination p = q := by
    simp only [at_destination, if_pos here, if_pos fresh, update_on_arrival_eq fresh place, q]
    rfl
  have source : st.at_source q = .ok q := by
    rw [at_source]
    exact if_neg away
  have current : q.current = (k + 2 : ℕ) := by
    simp only [q, PAYLOAD.visited, many]
    omega
  have spot : q.address[k]? = some (addressOf ip port) := by
    simp only [q, PAYLOAD.visited]
    rw [List.getElem?_append_left (List.getElem?_eq_some_iff.mp there).1, there]
  have turned : p.turned st.twin = { q with current := (k + 1 : ℕ) } := by
    simp only [PAYLOAD.turned, many, q]
    rfl
  have sent : st.dispatch q = PyStation.step_back q := rfl
  rw [handle, destination, source, turned]
  exact sent.trans (step_back_eq current spot dotted)

theorem handle_passes (phase : p.found = 1 ∨ p.found = 3) (away : p.source ≠ st.STATION_NAME) :
    st.handle p = PyStation.step_back p := by
  have destination : st.at_destination p = p := by
    rw [at_destination]
    split
    · simp only [if_neg (show ¬ p.found = 0 by omega), if_neg (show ¬ p.found = 2 by omega)]
    · rfl
  have source : st.at_source p = .ok p := by
    rw [at_source, if_neg away]
  have sent : st.dispatch p = PyStation.step_back p := by
    rcases phase with back | home
    · simp only [dispatch, back]
      rfl
    · simp only [dispatch, home]
      rfl
  rw [handle, destination, source]
  exact sent

theorem handle_back (phase : p.found = 1 ∨ p.found = 3) (away : p.source ≠ st.STATION_NAME) {k : ℕ}
    {ip : Text} {port : ℤ} (place : p.current = (k + 2 : ℕ))
    (there : p.address[k]? = some (addressOf ip port)) (dotted : Dotted ip port) : st.handle p =
      .ok { sent := [⟨ip, port, serialize { p with current := (k + 1 : ℕ) }⟩] } :=
  (handle_passes phase away).trans (step_back_eq place there dotted)

/-- The turn, where the twin's query may give the time in another text. -/
theorem Formed.handle_turn_from (formed : st.Formed) {starting_time : Text}
    (seeks : st.Seeks p.start_time starting_time) (h : p.Sized) (back : p.found = 1)
    (here : p.source = st.STATION_NAME) {k : ℕ} {ip first next time_earlier : Text} {port : ℤ}
    (place : p.current = (k + 1 : ℕ)) (second : p.stations[1]? = some first)
    (onward : p.stations[k + 1]? = some next)
    (now : (p.time.set 0 (st.twin.departure starting_time first))[k]? = some time_earlier)
    (there : p.address[k + 1]? = some (addressOf ip port)) (dotted : Dotted ip port)
    (timed : Timed time_earlier) (named : ' ' ∉ first) (named' : ' ' ∉ next) :
    st.handle p = .ok { sent := [⟨ip, port, serialize ((p.departed
      (st.twin.departure starting_time first)).ridden k (st.twin.leg time_earlier next))⟩] } := by
  have inside := (List.getElem?_eq_some_iff.mp second).1
  have many := h.stations
  have count := h.time
  have destination : st.at_destination p = p := by
    rw [at_destination]
    split
    · simp only [if_neg (show ¬ p.found = 0 by omega), if_neg (show ¬ p.found = 2 by omega)]
    · rfl
  have source : st.at_source p = .ok (p.departed (st.twin.departure starting_time first)) := by
    simp only [at_source, if_pos here, if_pos back, seeks.depart_eq second named (by omega), bind,
      Except.bind, pure, Except.pure]
    rfl
  have sized : (p.departed (st.twin.departure starting_time first)).Sized :=
    ⟨h.stations, h.address, h.routes, by simp only [PAYLOAD.departed, List.length_set]; exact h.time⟩
  have sent : st.dispatch (p.departed (st.twin.departure starting_time first)) =
      st.ride (p.departed (st.twin.departure starting_time first)) := rfl
  rw [handle, destination, source]
  exact sent.trans (formed.ride_eq sized place now onward there dotted timed named')

theorem Formed.handle_turn (formed : st.Formed) (h : p.Sized) (back : p.found = 1)
    (here : p.source = st.STATION_NAME) {k : ℕ} {ip first next time_earlier : Text} {port : ℤ}
    (place : p.current = (k + 1 : ℕ)) (second : p.stations[1]? = some first)
    (onward : p.stations[k + 1]? = some next)
    (now : (p.time.set 0 (st.twin.departure p.start_time first))[k]? = some time_earlier)
    (there : p.address[k + 1]? = some (addressOf ip port)) (dotted : Dotted ip port)
    (timed : Timed p.start_time) (timed' : Timed time_earlier) (named : ' ' ∉ first) (named' : ' ' ∉ next) :
    st.handle p = .ok { sent := [⟨ip, port, serialize ((p.departed
      (st.twin.departure p.start_time first)).ridden k (st.twin.leg time_earlier next))⟩] } :=
  formed.handle_turn_from (formed.seeks timed) h back here place second onward now there dotted timed' named named'

theorem Formed.handle_ride (formed : st.Formed) (h : p.Sized) (riding : p.found = 2)
    (elsewhere : p.destination ≠ st.STATION_NAME) {k : ℕ} {ip next time_earlier : Text} {port : ℤ}
    (place : p.current = (k + 1 : ℕ)) (now : p.time[k]? = some time_earlier)
    (onward : p.stations[k + 1]? = some next) (there : p.address[k + 1]? = some (addressOf ip port))
    (dotted : Dotted ip port) (timed : Timed time_earlier) (named : ' ' ∉ next) :
    st.handle p = .ok
      { sent := [⟨ip, port, serialize (p.ridden k (st.twin.leg time_earlier next))⟩] } := by
  have source : st.at_source (st.at_destination p) = .ok p := by
    rw [at_destination, if_neg elsewhere, at_source]
    split
    · simp only [riding, bind, Except.bind, pure, Except.pure]
      rfl
    · rfl
  have sent : st.dispatch p = st.ride p := by
    simp only [dispatch, riding]
    rfl
  rw [handle, source]
  exact sent.trans (formed.ride_eq h place now onward there dotted timed named)

theorem handle_arrive (riding : p.found = 2) (here : p.destination = st.STATION_NAME)
    (away : p.source ≠ st.STATION_NAME) {k : ℕ} {ip : Text} {port : ℤ} (place : p.current = (k + 2 : ℕ))
    (there : p.address[k]? = some (addressOf ip port)) (dotted : Dotted ip port) : st.handle p =
      .ok { sent := [⟨ip, port, serialize { p with found := 3, current := (k + 1 : ℕ) }⟩] } := by
  have destination : st.at_destination p = { p with found := 3 } := by
    simp only [at_destination, if_pos here, if_neg (show ¬ p.found = 0 by omega), if_pos riding]
  have source : st.at_source { p with found := 3 } = .ok { p with found := 3 } := by
    rw [at_source, if_neg away]
  have sent : st.dispatch { p with found := 3 } = PyStation.step_back { p with found := 3 } := rfl
  rw [handle, destination, source]
  exact sent.trans (step_back_eq place there dotted)

theorem handle_finish (home : p.found = 3) (here : p.source = st.STATION_NAME) :
    st.handle p = .ok { sent := [], finished := some { p with found := 4 } } := by
  have destination : st.at_destination p = p := by
    rw [at_destination]
    split
    · simp only [if_neg (show ¬ p.found = 0 by omega), if_neg (show ¬ p.found = 2 by omega)]
    · rfl
  have source : st.at_source p = .ok { p with found := 4 } := by
    simp only [at_source, if_pos here, home, bind, Except.bind, pure, Except.pure]
    rfl
  rw [handle, destination, source]
  rfl

end Spec

end PyStation
end TransitNet

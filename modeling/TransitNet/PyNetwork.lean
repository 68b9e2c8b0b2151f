import TransitNet.Interchange

/-! Networks of Python stations. The twins of the stations form a network of C stations, and in
every phase of a search a Python station does what its twin does. -/
namespace TransitNet
open Soup Relay Journey Words

structure PyNetwork (V : Type*) where
  station : V → PyStation
  argv : V → List Text
  started : ∀ x, (argv x).mapM PyNeighbours.parse = .ok (station x).neighbours
  resolve : Text → ℤ → Option V

variable {V : Type*}

namespace PyNetwork

abbrev name (P : PyNetwork V) (x : V) : Text := (P.station x).STATION_NAME
abbrev ip (P : PyNetwork V) (x : V) : Text := (P.station x).local_ip
abbrev port (P : PyNetwork V) (x : V) : ℤ := (P.station x).udp_port
abbrev recorded (P : PyNetwork V) (x : V) : Text := (P.station x).recorded

/-- The stations have different names and addresses that lead to them, and every neighbour argument
is the recorded address of another station. -/
structure Wired (P : PyNetwork V) : Prop where
  names : Function.Injective P.name
  dotted : ∀ x, Dotted (P.ip x) (P.port x)
  home : ∀ x, P.resolve (P.ip x) (P.port x) = some x
  others : ∀ x, ∀ arg ∈ P.argv x, ∃ y, y ≠ x ∧ arg = P.recorded y

/-- Names and routes are words, and the timetables hold times of day. -/
structure Regular (P : PyNetwork V) : Prop extends P.Wired where
  name : ∀ x, Word parts (P.name x)
  entries : ∀ x, ∀ entry ∈ (P.station x).entries.drop 1, 5 ≤ entry.length ∧
    HHMM (columns entry).departure_time ∧ HHMM (columns entry).arrival_time
  routes : ∀ x, ∀ entry ∈ (P.station x).entries.drop 1, Word parts (columns entry).route_name

variable {P : PyNetwork V}

theorem Wired.neighbour (h : P.Wired) {x : V} {n : PyNeighbours} (member : n ∈ (P.station x).neighbours) :
    ∃ y, y ≠ x ∧ n = ⟨P.ip y, P.port y⟩ := by
  obtain ⟨arg, given, parsed⟩ := (mapM_mem (P.started x)).1 n member
  obtain ⟨y, other, rfl⟩ := h.others x arg given
  rw [recorded, PyStation.recorded, (h.dotted y).parse, Except.ok.injEq] at parsed
  exact ⟨y, other, parsed.symm⟩

theorem Wired.readneighbours (h : P.Wired) (x : V) :
    readneighbours (P.argv x) = .ok (P.station x).twin.Neighbours := by
  have twins : (P.station x).twin.Neighbours = (P.station x).neighbours.map PyNeighbours.twin := rfl
  have spelled := h.others x
  have started := P.started x
  rw [twins]
  generalize P.argv x = argv, (P.station x).neighbours = ns at spelled started
  unfold TransitNet.readneighbours
  induction argv generalizing ns with
  | nil =>
      cases started
      rfl
  | cons arg argv ih =>
      rw [List.mapM_cons] at started
      obtain ⟨n, first, started⟩ := ok_of_bind started
      obtain ⟨rest, later, started⟩ := ok_of_bind started
      cases started
      obtain ⟨y, _, rfl⟩ := spelled arg List.mem_cons_self
      rw [recorded, PyStation.recorded, (h.dotted y).parse, Except.ok.injEq] at first
      have read := (h.dotted y).readneighbour
      rw [List.mapM_cons, recorded, PyStation.recorded, read,
        ih rest (fun a member => spelled a (List.mem_cons_of_mem _ member)) later, ← first]
      rfl

/-- The twins, wired alike. -/
def Wired.twin (h : P.Wired) : Network V where
  station x := (P.station x).twin
  argv := P.argv
  started := h.readneighbours
  resolve ip port := P.resolve ip (intOf port)

theorem Wired.twin_wired (h : P.Wired) : h.twin.Wired where
  names := h.names
  endpoint x := (h.dotted x).endpoint
  home x := by
    have number := intOf_printInt (h.dotted x).port.1
    exact (congrArg (P.resolve (P.ip x)) number).trans (h.home x)
  others := h.others

theorem Wired.recorded_injective (h : P.Wired) : Function.Injective P.recorded :=
  h.twin_wired.recorded_injective

theorem Wired.neighbours_eq (h : P.Wired) (x : V) :
    (P.station x).neighbours = (h.twin.nbrs x).map fun y => ⟨P.ip y, P.port y⟩ := by
  let back : NEIGHBOURS → PyNeighbours := fun n => ⟨n.ip_addr, intOf n.udp_port⟩
  have same := congrArg (List.map back) (h.twin_wired.neighbours_eq x)
  have twins : (h.twin.station x).Neighbours = (P.station x).neighbours.map PyNeighbours.twin := rfl
  rw [twins, List.map_map, List.map_map] at same
  have left : (P.station x).neighbours.map (back ∘ PyNeighbours.twin) = (P.station x).neighbours := by
    refine (List.map_congr_left fun n member => ?_).trans (List.map_id _)
    obtain ⟨y, _, rfl⟩ := h.neighbour member
    simp only [Function.comp_apply, back, PyNeighbours.twin, intOf_printInt (h.dotted y).port.1, id_eq]
  rw [left] at same
  rw [same]
  apply List.map_congr_left
  intro y _
  have number := intOf_printInt (h.dotted y).port.1
  exact congrArg (PyNeighbours.mk (P.ip y)) number

theorem Regular.formed (h : P.Regular) (x : V) : (P.station x).Formed where
  entries := h.entries x
  neighbours n member := by
    obtain ⟨y, other, rfl⟩ := h.neighbour member
    exact ⟨h.dotted y, fun same => other (h.recorded_injective same)⟩

/-! ### The payloads of a search -/

/-- A query stands for the question of the same destination, asked at `start_time`. -/
def Wired.payload (h : P.Wired) (q : Query V) (start_time : Text) (ph : Phase V) : PAYLOAD :=
  { h.twin.payload q ph with start_time }

def Wired.datagram (h : P.Wired) (q : Query V) (start_time : Text) (ph : Phase V) : PyDatagram :=
  match ph.at with
  | some x => ⟨P.ip x, P.port x, serialize (h.payload q start_time ph)⟩
  | none => ⟨[], 0, serialize (h.payload q start_time ph)⟩

/-- The payload that a search files when it comes home. -/
def Wired.finished (h : P.Wired) (q : Query V) (start_time : Text) (path : List V) : PAYLOAD :=
  { (h.twin.finished (q, path)).2 with start_time }

theorem Wired.datagram_at (h : P.Wired) (q : Query V) (start_time : Text) {ph : Phase V} {x : V}
    (here : ph.at = some x) :
    h.datagram q start_time ph = ⟨P.ip x, P.port x, serialize (h.payload q start_time ph)⟩ := by
  simp only [datagram, here]

end PyNetwork

theorem PyStation.Formed.leg_timed {st : PyStation} (formed : st.Formed) (starting_time station_to_go : Text) :
    Timed (st.twin.leg starting_time station_to_go).1 := by
  rw [Station.leg]
  cases boards : st.twin.boarding starting_time station_to_go with
  | none => exact .inr (.inl rfl)
  | some e =>
      have member := (Station.boarding_spec boards).1
      rw [PyStation.twin_entries] at member
      rcases List.mem_cons.mp member with rfl | row
      · exact .inr (.inr rfl)
      · obtain ⟨entry, inside, rfl⟩ := List.mem_map.mp row
        exact .inl (formed.entries entry inside).2.2

theorem HHMM.word {s : Text} (h : HHMM s) : Word parts s := by
  obtain ⟨hours, minutes, early, short, rfl⟩ := h
  refine ⟨List.cons_ne_nil _ _, fun c member => ?_⟩
  rw [clock, List.mem_append, List.mem_cons] at member
  rcases member with digit | rfl | digit
  · exact breaks_parts (digit_unbroken (twoDigits_digit (by omega) digit))
  · decide
  · exact breaks_parts (digit_unbroken (twoDigits_digit (by omega) digit))

theorem Dotted.word {ip : Text} {port : ℤ} (h : Dotted ip port) : Word parts (addressOf ip port) := by
  obtain ⟨n, rfl, print, digits⟩ := h.digits
  refine ⟨fun empty => absurd (List.append_eq_nil_iff.mp empty).2 (List.cons_ne_nil _ _), fun c member => ?_⟩
  rw [addressOf, print, List.mem_append, List.mem_cons] at member
  rcases member with host | rfl | digit
  · rcases h.plain c host with digit | rfl
    · exact breaks_parts (digit_unbroken digit)
    · decide
  · decide
  · exact breaks_parts (digit_unbroken (digits c digit))

theorem Timed.word {s : Text} (h : Timed s) : Word parts s := by
  rcases h with clock | rfl | rfl
  · exact clock.word
  · decide
  · decide

namespace PyNetwork
variable {P : PyNetwork V} {q : Query V} {start_time : Text}

theorem Wired.turnTimes_blank (h : P.Wired) (path : List V) : ∀ t ∈ h.twin.turnTimes path, t = blank := by
  intro t member
  rcases List.mem_append.mp member with pad | last
  · exact List.eq_of_mem_replicate pad
  · obtain ⟨d, _, rfl⟩ := List.mem_map.mp last
    rfl

theorem Wired.turnRoutes_blank (h : P.Wired) (path : List V) : ∀ r ∈ h.twin.turnRoutes path, r = blank := by
  intro r member
  rcases List.mem_append.mp member with pad | last
  · exact List.eq_of_mem_replicate pad
  · obtain ⟨d, _, rfl⟩ := List.mem_map.mp last
    rfl

theorem Regular.rideTimes_timed (h : P.Regular) (q : Query V) (path : List V) :
    ∀ t ∈ h.twin.rideTimes q path, Timed t := by
  intro t member
  rcases List.mem_cons.mp member with rfl | later
  · unfold Network.departure
    split
    · exact (h.formed _).departure_timed _ _
    · exact .inr (.inl rfl)
  · obtain ⟨r, ride, rfl⟩ := List.mem_map.mp later
    obtain ⟨x, y, s, rfl⟩ := mem_ridden ride
    exact (h.formed x).leg_timed s _

theorem Regular.rideRoutes_word (h : P.Regular) (q : Query V) (path : List V) :
    ∀ r ∈ h.twin.rideRoutes q path, Word parts r := by
  have blank_word : Word parts blank := by decide
  have none_word : Word parts unreachable_route := by decide
  intro t member
  rcases List.mem_cons.mp member with rfl | later
  · exact blank_word
  · obtain ⟨r, ride, rfl⟩ := List.mem_map.mp later
    obtain ⟨x, y, s, rfl⟩ := mem_ridden ride
    unfold Network.leg Station.leg
    cases boards : (h.twin.station x).boarding s (h.twin.name y) with
    | none => exact none_word
    | some e =>
        have inside := (Station.boarding_spec boards).1
        have entries : (h.twin.station x).entries = halt :: ((P.station x).entries.drop 1).map columns :=
          (P.station x).twin_entries
        rw [entries] at inside
        rcases List.mem_cons.mp inside with rfl | row
        · exact blank_word
        · obtain ⟨entry, given, rfl⟩ := List.mem_map.mp row
          exact h.routes x entry given

/-- The times in a payload are ones that a station can read. -/
theorem Regular.payload_timed (h : P.Regular) (q : Query V) (start_time : Text) (ph : Phase V) :
    ∀ t ∈ (h.payload q start_time ph).time, Timed t := by
  have pad : ∀ {t : Text}, t = blank → Timed t := fun same => .inr (.inr same)
  intro t member
  cases ph with
  | flood path here => exact pad (List.eq_of_mem_replicate member)
  | back path k => exact pad (h.turnTimes_blank path t member)
  | ride path k =>
      exact (mem_filling member).elim (h.rideTimes_timed q path t) fun blank => pad (h.turnTimes_blank path t blank)
  | home path k => exact h.rideTimes_timed q path t member

theorem Regular.payload_routes (h : P.Regular) (q : Query V) (start_time : Text) (ph : Phase V) :
    ∀ r ∈ (h.payload q start_time ph).routes, Word parts r := by
  have pad : ∀ {r : Text}, r = blank → Word parts r := by
    rintro r rfl
    decide
  intro r member
  cases ph with
  | flood path here => exact pad (List.eq_of_mem_replicate member)
  | back path k => exact pad (h.turnRoutes_blank path r member)
  | ride path k =>
      exact (mem_filling member).elim (h.rideRoutes_word q path r) fun blank => pad (h.turnRoutes_blank path r blank)
  | home path k => exact h.rideRoutes_word q path r member

/-- A payload on its way survives the wire, however long its words are. -/
theorem Regular.payload_legible (h : P.Regular) {nbrs : V → List V} {goal : V → Bool} {source : V} {ph : Phase V}
    (valid : ph.Valid nbrs goal source) (destination : Word parts q.destination)
    (start : Word parts start_time) : (h.payload q start_time ph).Legible := by
  have sized := Network.sized_payload (N := h.twin) (q := q) valid
  have nonneg : 0 ≤ (h.payload q start_time ph).found ∧ 0 ≤ (h.payload q start_time ph).current := by
    cases ph <;> exact ⟨by simp [Wired.payload, Network.payload, Network.onPath], Int.natCast_nonneg _⟩
  have names : ∀ s ∈ (h.payload q start_time ph).stations, Word parts s := by
    have path : ∃ path : List V, (h.payload q start_time ph).stations = path.map P.name := by
      cases ph <;> exact ⟨_, rfl⟩
    intro s member
    obtain ⟨path, same⟩ := path
    rw [same] at member
    obtain ⟨x, _, rfl⟩ := List.mem_map.mp member
    exact h.name x
  have addresses : ∀ s ∈ (h.payload q start_time ph).address, Word parts s := by
    have path : ∃ path : List V, (h.payload q start_time ph).address = path.map P.recorded := by
      cases ph <;> exact ⟨_, rfl⟩
    intro s member
    obtain ⟨path, same⟩ := path
    rw [same] at member
    obtain ⟨x, _, rfl⟩ := List.mem_map.mp member
    exact (h.dotted x).word
  have ends : (h.payload q start_time ph).destination = q.destination ∧
      (h.payload q start_time ph).source = P.name q.source := by
    cases ph <;> exact ⟨rfl, rfl⟩
  refine ⟨⟨sized.stations, sized.address, sized.routes, sized.time⟩, nonneg.1, nonneg.2, fun s member => ?_⟩
  simp only [PAYLOAD.fields, List.mem_append, List.mem_cons, List.not_mem_nil, or_false] at member
  rcases member with (((name | address) | route) | time) | rfl | rfl | rfl
  · exact names s name
  · exact addresses s address
  · exact h.payload_routes q start_time ph s route
  · exact (h.payload_timed q start_time ph s time).word
  · rw [ends.1]
    exact destination
  · rw [ends.2]
    exact h.name q.source
  · exact start

/-! ### One delivery -/

theorem get_recorded {path : List V} {k : ℕ} {x : V} (here : path[k]? = some x) :
    (path.map P.recorded)[k]? = some (addressOf (P.ip x) (P.port x)) := by
  rw [List.getElem?_map, here]
  rfl

theorem get_name {path : List V} {k : ℕ} {x : V} (here : path[k]? = some x) :
    (path.map P.name)[k]? = some (P.name x) := by
  rw [List.getElem?_map, here]
  rfl

/-- Changing the time of asking commutes with everything else that changes a payload. -/
theorem start_congr {p p' : PAYLOAD} (same : p = p') (start_time : Text) :
    ({ p with start_time } : PAYLOAD) = { p' with start_time } := by
  rw [same]

theorem Wired.name_source (h : P.Wired) {goal : V → Bool} {path : List V}
    (route : Route h.twin.nbrs goal q.source path) {k : ℕ} {x : V} (here : path[k]? = some x) :
    P.name q.source = P.name x ↔ k = 0 :=
  h.twin_wired.name_source route here

/-- A payload that goes back along its path. -/
theorem Regular.handles_passing (h : P.Regular) {path : List V} {k : ℕ} {x : V} {ph ph' : Phase V}
    (phase : (h.payload q start_time ph).found = 1 ∨ (h.payload q start_time ph).found = 3)
    (away : P.name q.source ≠ P.name x) (source : (h.payload q start_time ph).source = P.name q.source)
    (current : (h.payload q start_time ph).current = (k + 2 : ℕ)) {y : V} (before : path[k]? = some y)
    (address : (h.payload q start_time ph).address = path.map P.recorded)
    (moved : { h.payload q start_time ph with current := (k + 1 : ℕ) } = h.payload q start_time ph')
    (there : ph'.at = some y) :
    (P.station x).handle (h.payload q start_time ph) = .ok { sent := [h.datagram q start_time ph'] } := by
  have spot : (h.payload q start_time ph).address[k]? = some (addressOf (P.ip y) (P.port y)) := by
    rw [address]
    exact get_recorded before
  have passed : (P.station x).handle (h.payload q start_time ph) = _ :=
    PyStation.handle_back phase (by rw [source]; exact away) current spot (h.dotted y)
  rw [passed, moved, h.datagram_at q start_time there]

/-- A payload on the search for its destination is sent to the neighbours that it has not come by. -/
theorem Wired.floods (h : P.Wired) {x : V} {p : PAYLOAD} (fresh : p.found = 0) (place : p.current = p.hops)
    (elsewhere : p.destination ≠ P.name x) : (P.station x).handle p = .ok
      { sent := ((h.twin.nbrs x).filter fun y =>
            P.recorded y ∉ (p.visited (P.station x).twin blank blank).address).map
          fun y => ⟨P.ip y, P.port y, serialize (p.visited (P.station x).twin blank blank)⟩ } := by
  rw [PyStation.handle_flood fresh place elsewhere, h.neighbours_eq x, List.filter_map, List.map_map]
  rfl

theorem Wired.unreached [DecidableEq V] (h : P.Wired) (path : List V) (x : V) :
    (h.twin.nbrs x).filter (fun y => P.recorded y ∉ (path ++ [x]).map P.recorded) =
      (h.twin.nbrs x).filter (· ∉ path) := by
  apply List.filter_congr
  intro y near
  have apart : y ≠ x := by
    rintro rfl
    exact h.twin_wired.loopless y near
  rw [decide_eq_decide, List.mem_map_of_injective h.recorded_injective, List.mem_append, List.mem_singleton,
    or_iff_left apart]

section Delivery
variable [DecidableEq V]

/-- The station delivers what the search delivers. -/
def Wired.Handles (h : P.Wired) (q : Query V) (start_time : Text) (x : V) (ph : Phase V) : Prop :=
  (P.station x).handle (h.payload q start_time ph) = .ok
    { sent := (ph.next h.twin.nbrs (h.twin.task.goal q)).map (h.datagram q start_time)
      finished := ph.done.head?.map (h.finished q start_time) }

theorem Regular.handles_flood (h : P.Regular) (away : q.destination ≠ P.name q.source) {path : List V} {x : V}
    (valid : Walk h.twin.nbrs (h.twin.task.goal q) q.source path x) :
    h.Handles q start_time x (.flood path x) := by
  unfold Wired.Handles
  by_cases met : P.name x = q.destination
  · have goal : h.twin.task.goal q x = true := decide_eq_true met
    have other : P.name q.source ≠ P.name x := fun same => away (by rw [← met, same])
    have nonempty := List.length_pos_of_ne_nil
      (valid.ne_source_of_goal goal (Network.away_goal (N := h.twin) away))
    obtain ⟨y, last⟩ : ∃ y, path[path.length - 1]? = some y :=
      ⟨_, List.getElem?_eq_getElem (by omega)⟩
    have turned : (P.station x).handle (h.payload q start_time (.flood path x)) = _ :=
      PyStation.handle_reach (k := path.length - 1) rfl rfl met.symm other
      (by simp only [Wired.payload, Network.payload, Network.onPath]; omega) (get_recorded last) (h.dotted y)
    have text : (h.payload q start_time (.flood path x)).turned (P.station x).twin =
        h.payload q start_time (.back (path ++ [x]) path.length) :=
      start_congr (Network.payload_turned (N := h.twin) path x) start_time
    have here : (Phase.back (path ++ [x]) path.length).at = some y := by
      rw [Phase.at, List.getElem?_append_left (by omega), last]
    rw [turned, text]
    simp only [Phase.next, goal, if_true, List.map_cons, List.map_nil, h.datagram_at q start_time here]
    rfl
  · have goal : h.twin.task.goal q x = false := decide_eq_false met
    have flooded := h.floods (p := h.payload q start_time (.flood path x)) rfl rfl fun same => met same.symm
    have text : ∀ y, (h.payload q start_time (.flood path x)).visited (P.station x).twin blank blank =
        h.payload q start_time (.flood (path ++ [x]) y) := fun y =>
      start_congr (Network.payload_flooded (N := h.twin) path x y) start_time
    have visited : ((h.payload q start_time (.flood path x)).visited (P.station x).twin blank blank).address =
        (path ++ [x]).map P.recorded := by
      rw [List.map_append]
      rfl
    have sent : ((h.twin.nbrs x).filter (· ∉ path)).map (fun y => (⟨P.ip y, P.port y,
        serialize ((h.payload q start_time (.flood path x)).visited (P.station x).twin blank blank)⟩ :
          PyDatagram)) =
        ((h.twin.nbrs x).filter (· ∉ path)).map (h.datagram q start_time ∘ .flood (path ++ [x])) := by
      apply List.map_congr_left
      intro y _
      have here : (Phase.flood (path ++ [x]) y).at = some y := rfl
      rw [Function.comp_apply, h.datagram_at q start_time here, text y]
    rw [flooded, visited, h.unreached, sent, Phase.next, if_neg (Bool.eq_false_iff.mp goal), List.map_map]
    rfl

theorem Regular.handles_back (h : P.Regular) (seeks : (P.station q.source).Seeks start_time q.start_time)
    {path : List V} {k : ℕ} {x : V} (valid : (Phase.back path k).Valid h.twin.nbrs (h.twin.task.goal q) q.source)
    (here : (Phase.back path k).at = some x) : h.Handles q start_time x (.back path k) := by
  have sized := Network.sized_payload (N := h.twin) (q := q) valid
  unfold Wired.Handles
  obtain ⟨route, low, high⟩ := valid
  rw [Phase.at] at here
  by_cases first : k ≤ 1
  · obtain rfl : k = 1 := by omega
    obtain ⟨y, onward⟩ : ∃ y, path[1]? = some y := ⟨_, List.getElem?_eq_getElem (by omega)⟩
    have source := (h.name_source route here).mpr rfl
    obtain rfl : q.source = x := h.names source
    have departed : (h.payload q start_time (.back path 1)).departed
        ((P.station q.source).twin.departure q.start_time (P.name y)) = h.payload q start_time (.ride path 1) :=
      start_congr (Network.payload_departed (N := h.twin) here onward) start_time
    have now : (h.twin.rideTimes q path)[0]? =
        some ((P.station q.source).twin.departure q.start_time (P.name y)) := by
      rw [Network.rideTimes_zero, Network.departure_eq here onward]
      rfl
    have started : (h.payload q start_time (.ride path 1)).time[0]? =
        some ((P.station q.source).twin.departure q.start_time (P.name y)) := by
      rw [← now]
      exact filling_old (by omega) (by rw [Network.length_rideTimes]; omega)
    rw [← departed] at started
    have turned := (h.formed q.source).handle_turn_from (p := h.payload q start_time (.back path 1)) seeks
      ⟨sized.stations, sized.address, sized.routes, sized.time⟩ rfl rfl (k := 0) rfl (get_name onward)
      (get_name onward) started (get_recorded onward) (h.dotted y)
      ((h.formed q.source).departure_timed _ _) ((h.name y).not_mem (by decide)) ((h.name y).not_mem (by decide))
    have rode : (h.payload q start_time (.ride path 1)).ridden 0 ((P.station q.source).twin.leg
        ((P.station q.source).twin.departure q.start_time (P.name y)) (P.name y)) =
          h.payload q start_time (.ride path 2) :=
      start_congr (Network.payload_rode (N := h.twin) here onward now) start_time
    have there : (Phase.ride path 2).at = some y := onward
    rw [turned, departed, rode, Phase.next, if_pos (Nat.le_refl 1), List.map_cons, List.map_nil,
      h.datagram_at q start_time there]
    rfl
  · obtain ⟨y, before⟩ : ∃ y, path[k - 2]? = some y := ⟨_, List.getElem?_eq_getElem (by omega)⟩
    have away := (h.name_source route here).not.mpr (by omega)
    have there : (Phase.back path (k - 1)).at = some y := before
    have current : (h.payload q start_time (.back path k)).current = (k - 2 + 2 : ℕ) := by
      simp only [Wired.payload, Network.payload, Network.onPath]
      omega
    have moved : { h.payload q start_time (.back path k) with current := (k - 2 + 1 : ℕ) } =
        h.payload q start_time (.back path (k - 1)) := by
      rw [show k - 2 + 1 = k - 1 by omega]
      rfl
    have passed := h.handles_passing (.inl rfl) away rfl current before rfl moved there
    rw [passed, Phase.next, if_neg first]
    rfl

theorem Regular.handles_ride (h : P.Regular) {path : List V} {k : ℕ} {x : V}
    (valid : (Phase.ride path k).Valid h.twin.nbrs (h.twin.task.goal q) q.source)
    (here : (Phase.ride path k).at = some x) : h.Handles q start_time x (.ride path k) := by
  have sized := Network.sized_payload (N := h.twin) (q := q) valid
  unfold Wired.Handles
  obtain ⟨route, low, high⟩ := valid
  rw [Phase.at] at here
  have goal : P.name x = q.destination ↔ k - 1 + 1 = path.length := by
    rw [← route.goal_iff_last here]
    exact decide_eq_true_iff.symm
  by_cases last : k = path.length
  · obtain ⟨y, before⟩ : ∃ y, path[k - 2]? = some y := ⟨_, List.getElem?_eq_getElem (by omega)⟩
    have away := (h.name_source route here).not.mpr (by omega)
    have there : (Phase.home path (k - 1)).at = some y := before
    have current : (h.payload q start_time (.ride path k)).current = (k - 2 + 2 : ℕ) := by
      simp only [Wired.payload, Network.payload, Network.onPath]
      omega
    have arrived : (P.station x).handle (h.payload q start_time (.ride path k)) = _ :=
      PyStation.handle_arrive rfl (goal.mpr (by omega)).symm away current (get_recorded before) (h.dotted y)
    have nonempty : path ≠ [] := List.ne_nil_of_length_pos (by omega)
    have home : { h.payload q start_time (.ride path k) with found := 3, current := (k - 1 : ℕ) } =
        h.payload q start_time (.home path (k - 1)) := by
      rw [last]
      exact start_congr (Network.payload_arrived (N := h.twin) (q := q) nonempty (path.length - 1)) start_time
    rw [arrived, show k - 2 + 1 = k - 1 by omega, home, Phase.next, if_pos last, List.map_cons, List.map_nil,
      h.datagram_at q start_time there]
    rfl
  · obtain ⟨y, onward⟩ : ∃ y, path[k]? = some y := ⟨_, List.getElem?_eq_getElem (by omega)⟩
    obtain ⟨t, now⟩ : ∃ t, (h.twin.rideTimes q path)[k - 1]? = some t :=
      ⟨_, List.getElem?_eq_getElem (by rw [Network.length_rideTimes]; omega)⟩
    have again : k - 1 + 1 = k := by omega
    have shown : (h.payload q start_time (.ride path k)).time[k - 1]? = some t := by
      rw [← now]
      exact filling_old (by omega) (by rw [Network.length_rideTimes]; omega)
    have current : (h.payload q start_time (.ride path k)).current = (k - 1 + 1 : ℕ) := by
      simp only [Wired.payload, Network.payload, Network.onPath]
      omega
    rw [← again] at onward
    have timed := h.payload_timed q start_time (.ride path k) t (List.mem_of_getElem? shown)
    have rode := (h.formed x).handle_ride (p := h.payload q start_time (.ride path k))
      ⟨sized.stations, sized.address, sized.routes, sized.time⟩ rfl
      (fun same => last (by have := goal.mp same.symm; omega)) current shown (get_name onward)
      (get_recorded onward) (h.dotted y) timed ((h.name y).not_mem (by decide))
    have text : (h.payload q start_time (.ride path (k - 1 + 1))).ridden (k - 1)
        ((P.station x).twin.leg t (P.name y)) = h.payload q start_time (.ride path (k - 1 + 2)) :=
      start_congr (Network.payload_rode (N := h.twin) here onward now) start_time
    rw [again, show k - 1 + 2 = k + 1 by omega] at text
    have there : (Phase.ride path (k + 1)).at = some y := by rw [Phase.at, ← onward, again]; rfl
    rw [rode, text, Phase.next, if_neg last, List.map_cons, List.map_nil, h.datagram_at q start_time there]
    rfl

theorem Regular.handles_home (h : P.Regular) {path : List V} {k : ℕ} {x : V}
    (valid : (Phase.home path k).Valid h.twin.nbrs (h.twin.task.goal q) q.source)
    (here : (Phase.home path k).at = some x) : h.Handles q start_time x (.home path k) := by
  unfold Wired.Handles
  obtain ⟨route, low, high⟩ := valid
  rw [Phase.at] at here
  by_cases first : k ≤ 1
  · obtain rfl : k = 1 := by omega
    have source := (h.name_source route here).mpr rfl
    exact PyStation.handle_finish (p := h.payload q start_time (.home path 1)) rfl source
  · obtain ⟨y, before⟩ : ∃ y, path[k - 2]? = some y := ⟨_, List.getElem?_eq_getElem (by omega)⟩
    have away := (h.name_source route here).not.mpr (by omega)
    have there : (Phase.home path (k - 1)).at = some y := before
    have current : (h.payload q start_time (.home path k)).current = (k - 2 + 2 : ℕ) := by
      simp only [Wired.payload, Network.payload, Network.onPath]
      omega
    have moved : { h.payload q start_time (.home path k) with current := (k - 2 + 1 : ℕ) } =
        h.payload q start_time (.home path (k - 1)) := by
      rw [show k - 2 + 1 = k - 1 by omega]
      rfl
    have passed := h.handles_passing (.inr rfl) away rfl current before rfl moved there
    rw [passed, Phase.next, Phase.done, if_neg first, if_neg first]
    rfl

/-- In every phase a Python station does what the search does. -/
theorem Regular.handles (h : P.Regular) (away : q.destination ≠ P.name q.source)
    (seeks : (P.station q.source).Seeks start_time q.start_time) {ph : Phase V} {x : V}
    (valid : ph.Valid h.twin.nbrs (h.twin.task.goal q) q.source) (here : ph.at = some x) :
    h.Handles q start_time x ph := by
  cases ph with
  | flood path y =>
      cases here
      exact h.handles_flood away valid
  | back path k => exact h.handles_back seeks valid here
  | ride path k => exact h.handles_ride valid here
  | home path k => exact h.handles_home valid here

end Delivery

end PyNetwork

/-! ### Two stations -/

/-- A Python station in the place of StationB. -/
def pyStationB : PyStation where
  STATION_NAME := "StationB".toList
  local_ip := "127.0.0.1".toList
  udp_port := 4004
  entries := [["StationB".toList, "-31.97".toList, "115.89".toList],
    ["10:00".toList, "bus7".toList, "stop2".toList, "10:20".toList, "StationA".toList]]
  neighbours := [⟨"127.0.0.1".toList, 4002⟩]

theorem pyStationA_started : ["127.0.0.1:4004".toList].mapM PyNeighbours.parse = .ok pyStationA.neighbours := by
  decide +kernel

theorem pyStationB_started : ["127.0.0.1:4002".toList].mapM PyNeighbours.parse = .ok pyStationB.neighbours := by
  decide +kernel

def pyTwoStops : PyNetwork Bool where
  station
    | false => pyStationA
    | true => pyStationB
  argv
    | false => ["127.0.0.1:4004".toList]
    | true => ["127.0.0.1:4002".toList]
  started
    | false => pyStationA_started
    | true => pyStationB_started
  resolve _ port := if port = 4002 then some false else if port = 4004 then some true else none

theorem pyTwoStops_regular : pyTwoStops.Regular where
  names := by unfold Function.Injective; decide
  dotted x := by cases x <;> exact local_dotted (by decide)
  home := by decide
  others x arg member := by
    have spelled : ∀ x, ∀ arg ∈ pyTwoStops.argv x, arg = pyTwoStops.recorded !x := by decide +kernel
    exact ⟨!x, Bool.not_ne_self x, spelled x arg member⟩
  name := by decide
  entries x := by
    cases x
    · exact pyStationA_entries
    · decide +kernel
  routes := by decide

end TransitNet

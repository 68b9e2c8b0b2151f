import TransitNet.Journey
import TransitNet.Network
import TransitNet.Search

/-! The routing protocol refines the search of the library. A message of the search
stands for the datagram in which a C station puts it on the wire. -/
namespace TransitNet
open Soup Relay Journey Words

variable {V : Type*}

namespace Network
variable (N : Network V)

def task : Task (Query V) V where
  nbrs := N.nbrs
  goal q x := N.name x = q.destination
  source q := q.source

/-! ### What a payload holds in each phase -/

/-- Arrival and route of the leg from `x` to `y`. -/
def leg (x y : V) (t : Text) : Text × Text := (N.station x).leg t (N.name y)

/-- The departure from the first station of a path. -/
def departure (q : Query V) : List V → Text
  | x :: y :: _ => (N.station x).departure q.start_time (N.name y)
  | _ => unreachable_time

def rideTimes (q : Query V) (path : List V) : List Text := times N.leg (N.departure q path) path

def rideRoutes (q : Query V) (path : List V) : List Text :=
  blank :: (ridden N.leg (N.departure q path) path).map Prod.snd

/-- The times before the ride: only the destination has written one. -/
def turnTimes (path : List V) : List Text :=
  List.replicate (path.length - 1) blank ++
    path.getLast?.toList.map fun d => (N.station d).firstSlot.arrival_time

def turnRoutes (path : List V) : List Text :=
  List.replicate (path.length - 1) blank ++
    path.getLast?.toList.map fun d => (N.station d).firstSlot.route_name

def onPath (q : Query V) (path : List V) (found : ℤ) (current : ℕ) (routes time : List Text) : PAYLOAD where
  found := found
  hops := path.length
  current := current
  stations := path.map N.name
  address := path.map N.recorded
  routes := routes
  time := time
  destination := q.destination
  source := N.name q.source
  start_time := q.start_time

def payload (q : Query V) : Phase V → PAYLOAD
  | .flood path _ => N.onPath q path 0 path.length (List.replicate path.length blank)
      (List.replicate path.length blank)
  | .back path k => N.onPath q path 1 k (N.turnRoutes path) (N.turnTimes path)
  | .ride path k => N.onPath q path 2 k (filling k (N.rideRoutes q path) (N.turnRoutes path))
      (filling k (N.rideTimes q path) (N.turnTimes path))
  | .home path k => N.onPath q path 3 k (N.rideRoutes q path) (N.rideTimes q path)

def datagram (m : Query V × Phase V) : Datagram :=
  match m.2.at with
  | some x => ⟨N.ip x, N.port x, (N.payload m.1 m.2).text⟩
  | none => ⟨[], [], (N.payload m.1 m.2).text⟩

/-- A search that comes home finishes its payload at the source. -/
def finished (r : Query V × List V) : V × PAYLOAD :=
  (r.1.source, N.onPath r.1 r.2 4 1 (N.rideRoutes r.1 r.2) (N.rideTimes r.1 r.2))

variable {N} {q : Query V}

@[simp] theorem length_rideTimes (path : List V) :
    (N.rideTimes q path).length = path.length - 1 + 1 := by
  rw [rideTimes, times, List.length_cons, List.length_map, length_ridden]

@[simp] theorem length_rideRoutes (path : List V) :
    (N.rideRoutes q path).length = path.length - 1 + 1 := by
  rw [rideRoutes, List.length_cons, List.length_map, length_ridden]

theorem length_turnTimes {path : List V} (nonempty : path ≠ []) :
    (N.turnTimes path).length = path.length - 1 + 1 := by
  rw [turnTimes, List.getLast?_eq_some_getLast nonempty]
  simp

theorem length_turnRoutes {path : List V} (nonempty : path ≠ []) :
    (N.turnRoutes path).length = path.length - 1 + 1 := by
  rw [turnRoutes, List.getLast?_eq_some_getLast nonempty]
  simp

theorem rideTimes_zero (N : Network V) (q : Query V) (path : List V) : (N.rideTimes q path)[0]? = some (N.departure q path) := rfl

/-- The slots behind a time are the arrival and the route of the leg it gives. -/
theorem ride_next {path : List V} {k : ℕ} {x y : V} {t : Text} (start : path[k]? = some x)
    (onward : path[k + 1]? = some y) (now : (N.rideTimes q path)[k]? = some t) :
    (N.rideTimes q path)[k + 1]? = some ((N.station x).leg t (N.name y)).1 ∧
      (N.rideRoutes q path)[k + 1]? = some ((N.station x).leg t (N.name y)).2 := by
  have leg : (ridden N.leg (N.departure q path) path)[k]? = some (N.leg x y t) :=
    ridden_get start onward now
  constructor
  · rw [rideTimes, times, List.getElem?_cons_succ, List.getElem?_map, leg]
    rfl
  · rw [rideRoutes, List.getElem?_cons_succ, List.getElem?_map, leg]
    rfl

theorem departure_eq {path : List V} {x y : V} (start : path[0]? = some x)
    (onward : path[1]? = some y) : N.departure q path = (N.station x).departure q.start_time (N.name y) := by
  cases path with
  | nil => cases start
  | cons a path =>
      cases path with
      | nil => cases onward
      | cons b rest =>
          cases start
          cases onward
          rfl

theorem sized_onPath {path : List V} {found : ℤ} {current : ℕ} {routes time : List Text}
    (hr : routes.length = path.length) (ht : time.length = path.length) :
    (N.onPath q path found current routes time).Sized := by
  refine ⟨?_, ?_, ?_, ?_⟩ <;> simp only [onPath, List.length_map, hr, ht]

theorem sized_payload {nbrs : V → List V} {goal : V → Bool} {source : V} {ph : Phase V}
    (valid : ph.Valid nbrs goal source) : (N.payload q ph).Sized := by
  have whole : ∀ path : List V, 1 ≤ path.length → path ≠ [] ∧ path.length - 1 + 1 = path.length := by
    intro path bounds
    exact ⟨List.ne_nil_of_length_pos (by omega), by omega⟩
  cases ph with
  | flood path here =>
      exact sized_onPath (List.length_replicate ..) (List.length_replicate ..)
  | back path k =>
      have bounds := valid.2
      obtain ⟨nonempty, size⟩ := whole path (by omega)
      exact sized_onPath ((length_turnRoutes nonempty).trans size) ((length_turnTimes nonempty).trans size)
  | ride path k =>
      have bounds := valid.2
      obtain ⟨nonempty, size⟩ := whole path (by omega)
      refine sized_onPath ?_ ?_
      · rw [length_filling k (by rw [length_rideRoutes, length_turnRoutes nonempty]),
          length_turnRoutes nonempty, size]
      · rw [length_filling k (by rw [length_rideTimes, length_turnTimes nonempty]),
          length_turnTimes nonempty, size]
  | home path k =>
      have bounds := valid.2
      obtain ⟨nonempty, size⟩ := whole path (by omega)
      exact sized_onPath ((length_rideRoutes path).trans size) ((length_rideTimes path).trans size)

/-! ### One delivery -/

section Delivery

/-- The station delivers what the search delivers. -/
def Handles (N : Network V) (q : Query V) (x : V) (ph : Phase V) [DecidableEq V] : Prop :=
  ∃ outcome, handle (N.station x) (N.payload q ph).slots (N.payload q ph) = .ok outcome ∧
    outcome.sent = (ph.next N.nbrs (N.task.goal q)).map (fun ph' => N.datagram (q, ph')) ∧
    outcome.finished.toList = ph.done.map (fun path => (N.finished (q, path)).2) ∧
    ∀ t ∈ outcome.searched, ∃ path, t ∈ N.rideTimes q path

theorem datagram_at {ph : Phase V} {x : V} (here : ph.at = some x) :
    N.datagram (q, ph) = ⟨N.ip x, N.port x, (N.payload q ph).text⟩ := by
  simp only [datagram, here]

theorem get_name {path : List V} {k : ℕ} {x : V} (h : path[k]? = some x) :
    (path.map N.name)[k]? = some (N.name x) := by
  rw [List.getElem?_map, h]
  rfl

theorem get_recorded {path : List V} {k : ℕ} {x : V} (h : path[k]? = some x) :
    (path.map N.recorded)[k]? = some (N.ip x ++ ':' :: N.port x) := by
  rw [List.getElem?_map, h]
  rfl

/-! The payload that each kind of delivery sends. -/

theorem payload_turned (path : List V) (x : V) : (N.payload q (.flood path x)).turned (N.station x) =
    N.payload q (.back (path ++ [x]) path.length) := by
  simp only [payload, onPath, PAYLOAD.turned, PAYLOAD.visited, turnRoutes, turnTimes, List.map_append,
    List.map_cons, List.map_nil, List.length_append, List.length_singleton, List.getLast?_concat,
    Option.toList_some, Nat.add_sub_cancel, Nat.cast_add, Nat.cast_one]

theorem payload_flooded (path : List V) (x y : V) :
    (N.payload q (.flood path x)).visited (N.station x) blank blank =
      N.payload q (.flood (path ++ [x]) y) := by
  simp only [payload, onPath, PAYLOAD.visited, List.map_append, List.map_cons, List.map_nil,
    List.length_append, List.length_singleton, Nat.cast_add, Nat.cast_one, List.replicate_succ']

theorem payload_rode {path : List V} {k : ℕ} {x y : V} {t : Text} (start : path[k]? = some x)
    (onward : path[k + 1]? = some y) (now : (N.rideTimes q path)[k]? = some t) :
    (N.payload q (.ride path (k + 1))).ridden k ((N.station x).leg t (N.name y)) =
      N.payload q (.ride path (k + 2)) := by
  have bound := (List.getElem?_eq_some_iff.mp onward).1
  have nonempty : path ≠ [] := List.ne_nil_of_length_pos (by omega)
  obtain ⟨time, route⟩ := ride_next start onward now
  simp only [payload, onPath, PAYLOAD.ridden]
  rw [filling_set (N.turnRoutes path) (by rw [length_rideRoutes, length_turnRoutes nonempty]) route,
    filling_set (N.turnTimes path) (by rw [length_rideTimes, length_turnTimes nonempty]) time]

/-- The source fills its own slot first; the route in it stays blank. -/
theorem payload_departed {path : List V} {x y : V} (start : path[0]? = some x)
    (onward : path[1]? = some y) :
    (N.payload q (.back path 1)).departed ((N.station x).departure q.start_time (N.name y)) =
      N.payload q (.ride path 1) := by
  have bound := (List.getElem?_eq_some_iff.mp onward).1
  have nonempty : path ≠ [] := List.ne_nil_of_length_pos (by omega)
  have routes : N.turnRoutes path = filling 1 (N.rideRoutes q path) (N.turnRoutes path) := by
    have first : (N.turnRoutes path)[0]? = some blank := by
      rw [turnRoutes, List.getElem?_append_left (by rw [List.length_replicate]; omega),
        List.getElem?_replicate, if_pos (by omega)]
    have front : (N.rideRoutes q path)[0]? = some blank := rfl
    have same := filling_set (N.turnRoutes path) (by rw [length_rideRoutes, length_turnRoutes nonempty])
      front
    rw [filling_zero] at same
    obtain ⟨_, value⟩ := List.getElem?_eq_some_iff.mp first
    rw [← same, ← value, List.set_getElem_self]
  have time : (N.turnTimes path).set 0 ((N.station x).departure q.start_time (N.name y)) =
      filling 1 (N.rideTimes q path) (N.turnTimes path) := by
    have same := filling_set (N.turnTimes path) (by rw [length_rideTimes, length_turnTimes nonempty])
      (rideTimes_zero N q path)
    rw [filling_zero] at same
    rw [← same, departure_eq start onward]
  simp only [payload, onPath, PAYLOAD.departed, ← routes, time]

theorem payload_arrived {path : List V} (nonempty : path ≠ []) (j : ℕ) :
    { N.payload q (.ride path path.length) with found := 3, current := (j : ℕ) } =
      N.payload q (.home path j) := by
  have size : path.length - 1 + 1 = path.length := by
    have := List.length_pos_of_ne_nil nonempty
    omega
  have routes := filling_all (N.rideRoutes q path) (N.turnRoutes path)
    (by rw [length_rideRoutes, length_turnRoutes nonempty])
  have time := filling_all (N.rideTimes q path) (N.turnTimes path)
    (by rw [length_rideTimes, length_turnTimes nonempty])
  rw [length_rideRoutes, size] at routes
  rw [length_rideTimes, size] at time
  simp only [payload, onPath, routes, time]

/-- The source of a query is the only station that goes by its name. -/
theorem Wired.name_source (wired : N.Wired) {goal : V → Bool} {path : List V}
    (route : Route N.nbrs goal q.source path) {k : ℕ} {x : V} (here : path[k]? = some x) :
    N.name q.source = N.name x ↔ k = 0 := by
  rw [wired.names.eq_iff, eq_comm]
  exact route.source_iff_first here

theorem away_goal (away : q.destination ≠ N.name q.source) : N.task.goal q q.source = false :=
  decide_eq_false fun same => away same.symm

variable [DecidableEq V]

theorem Wired.handles_flood (wired : N.Wired) (away : q.destination ≠ N.name q.source) {path : List V} {x : V}
    (valid : Walk N.nbrs (N.task.goal q) q.source path x) : N.Handles q x (.flood path x) := by
  have sized : (N.payload q (.flood path x)).Sized := sized_payload valid
  by_cases met : N.name x = q.destination
  · have goal : N.task.goal q x = true := decide_eq_true met
    have other : N.name q.source ≠ N.name x := fun same => away (by rw [← met, same])
    have nonempty := List.length_pos_of_ne_nil (valid.ne_source_of_goal goal (away_goal away))
    obtain ⟨y, last⟩ : ∃ y, path[path.length - 1]? = some y :=
      ⟨_, List.getElem?_eq_getElem (by omega)⟩
    have turned := handle_reach (k := path.length - 1) sized rfl met.symm other
      (by simp only [payload, onPath]; omega) (get_recorded last) (wired.endpoint y)
    rw [payload_turned] at turned
    have here : (Phase.back (path ++ [x]) path.length).at = some y := by
      rw [Phase.at, List.getElem?_append_left (by omega), last]
    refine ⟨_, turned, ?_, rfl, fun t member => absurd member List.not_mem_nil⟩
    simp only [Phase.next, goal, if_true, List.map_cons, List.map_nil,
      datagram_at here]
  · have goal : N.task.goal q x = false := decide_eq_false met
    have flooded := handle_flood sized rfl fun same => met same.symm
    have fresh : ∀ y, (N.asNeighbour y).addr_and_port ∉ path.map N.recorded ↔ y ∉ path := by
      intro y
      rw [asNeighbour, List.mem_map_of_injective wired.recorded_injective]
    refine ⟨_, flooded, ?_, rfl, fun t member => absurd member List.not_mem_nil⟩
    have onward : ∀ y, (⟨(N.asNeighbour y).ip_addr, (N.asNeighbour y).udp_port,
        ((N.payload q (.flood path x)).visited (N.station x) blank blank).text⟩ : Datagram) =
          N.datagram (q, .flood (path ++ [x]) y) := by
      intro y
      rw [payload_flooded path x y]
      rfl
    have unreached : (N.station x).Neighbours.filter (fun n =>
        n.addr_and_port ∉ (N.payload q (.flood path x)).address) =
          ((N.nbrs x).filter (· ∉ path)).map N.asNeighbour := by
      rw [wired.neighbours_eq x, List.filter_map]
      congr 2
      funext y
      exact decide_eq_decide.mpr (fresh y)
    rw [Phase.next, if_neg (Bool.eq_false_iff.mp goal)]
    simp only [unreached, List.map_map, Function.comp_def, onward]

theorem Wired.handles_back (wired : N.Wired) {path : List V} {k : ℕ} {x : V}
    (valid : (Phase.back path k).Valid N.nbrs (N.task.goal q) q.source)
    (here : (Phase.back path k).at = some x) : N.Handles q x (.back path k) := by
  have sized : (N.payload q (.back path k)).Sized := sized_payload valid
  obtain ⟨route, low, high⟩ := valid
  rw [Phase.at] at here
  by_cases first : k ≤ 1
  · obtain rfl : k = 1 := by omega
    obtain ⟨y, onward⟩ : ∃ y, path[1]? = some y := ⟨_, List.getElem?_eq_getElem (by omega)⟩
    have source := (wired.name_source route here).mpr rfl
    have started : (N.payload q (.ride path 1)).time[0]? =
        some ((N.station x).departure q.start_time (N.name y)) := by
      rw [← departure_eq here onward]
      exact filling_old (by omega) (by rw [length_rideTimes]; omega)
    rw [← payload_departed here onward] at started
    have turned := handle_turn sized rfl source (k := 0) rfl (get_name onward) started
      (get_recorded onward) (wired.endpoint y)
    have now : (N.rideTimes q path)[0]? = some ((N.station x).departure q.start_time (N.name y)) := by
      rw [rideTimes_zero, departure_eq here onward]
    have rode := payload_rode here onward now
    rw [← payload_departed here onward] at rode
    have there : (Phase.ride path 2).at = some y := onward
    have searched : ∀ t ∈ [(N.station x).departure q.start_time (N.name y)],
        ∃ path, t ∈ N.rideTimes q path := by
      intro t member
      rw [List.mem_singleton] at member
      exact ⟨path, member ▸ List.mem_of_getElem? now⟩
    refine ⟨_, turned, ?_, rfl, searched⟩
    simp only [Phase.next, Nat.le_refl, if_true, List.map_cons, List.map_nil, datagram_at there, ← rode]
    rfl
  · obtain ⟨y, before⟩ : ∃ y, path[k - 2]? = some y := ⟨_, List.getElem?_eq_getElem (by omega)⟩
    have source := (wired.name_source route here).not.mpr (by omega)
    have current : (N.payload q (.back path k)).current = (k - 2 + 2 : ℕ) := by
      simp only [payload, onPath]
      omega
    have passed := handle_back sized (.inl rfl) source current (get_recorded before) (wired.endpoint y)
    have there : (Phase.back path (k - 1)).at = some y := before
    refine ⟨_, passed, ?_, rfl, fun t member => absurd member List.not_mem_nil⟩
    rw [show k - 2 + 1 = k - 1 by omega]
    simp only [Phase.next, if_neg first, List.map_cons, List.map_nil, datagram_at there]
    rfl

theorem Wired.handles_ride (wired : N.Wired) {path : List V} {k : ℕ} {x : V}
    (valid : (Phase.ride path k).Valid N.nbrs (N.task.goal q) q.source)
    (here : (Phase.ride path k).at = some x) : N.Handles q x (.ride path k) := by
  have sized : (N.payload q (.ride path k)).Sized := sized_payload valid
  obtain ⟨route, low, high⟩ := valid
  rw [Phase.at] at here
  have goal : N.name x = q.destination ↔ k - 1 + 1 = path.length := by
    rw [← route.goal_iff_last here]
    exact decide_eq_true_iff.symm
  by_cases last : k = path.length
  · obtain ⟨y, before⟩ : ∃ y, path[k - 2]? = some y := ⟨_, List.getElem?_eq_getElem (by omega)⟩
    have source := (wired.name_source route here).not.mpr (by omega)
    have current : (N.payload q (.ride path k)).current = (k - 2 + 2 : ℕ) := by
      simp only [payload, onPath]
      omega
    have arrived := handle_arrive sized rfl (goal.mpr (by omega)).symm source current
      (get_recorded before) (wired.endpoint y)
    have there : (Phase.home path (k - 1)).at = some y := before
    have nonempty : path ≠ [] := List.ne_nil_of_length_pos (by omega)
    have home := payload_arrived (N := N) (q := q) nonempty (k - 1)
    refine ⟨_, arrived, ?_, rfl, fun t member => absurd member List.not_mem_nil⟩
    rw [show k - 2 + 1 = k - 1 by omega]
    simp only [Phase.next, if_pos last, List.map_cons, List.map_nil, datagram_at there, ← home]
    rw [last]
  · obtain ⟨y, onward⟩ : ∃ y, path[k]? = some y := ⟨_, List.getElem?_eq_getElem (by omega)⟩
    obtain ⟨t, now⟩ : ∃ t, (N.rideTimes q path)[k - 1]? = some t :=
      ⟨_, List.getElem?_eq_getElem (by rw [length_rideTimes]; omega)⟩
    have again : k - 1 + 1 = k := by omega
    have shown : (N.payload q (.ride path k)).time[k - 1]? = some t := by
      rw [← now]
      exact filling_old (by omega) (by rw [length_rideTimes]; omega)
    have current : (N.payload q (.ride path k)).current = (k - 1 + 1 : ℕ) := by
      simp only [payload, onPath]
      omega
    rw [← again] at onward
    have rode := handle_ride sized rfl (fun same => last (by have := goal.mp same.symm; omega)) current
      shown (get_name onward) (get_recorded onward) (wired.endpoint y)
    have step := payload_rode (q := q) here onward now
    rw [again, show k - 1 + 2 = k + 1 by omega] at step
    have there : (Phase.ride path (k + 1)).at = some y := by rw [Phase.at, ← onward, again]; rfl
    have searched : ∀ s ∈ [t], ∃ path, s ∈ N.rideTimes q path := by
      intro s member
      rw [List.mem_singleton] at member
      exact ⟨path, member ▸ List.mem_of_getElem? now⟩
    refine ⟨_, rode, ?_, rfl, searched⟩
    simp only [Phase.next, if_neg last, List.map_cons, List.map_nil, datagram_at there, ← step]

theorem Wired.handles_home (wired : N.Wired) {path : List V} {k : ℕ} {x : V}
    (valid : (Phase.home path k).Valid N.nbrs (N.task.goal q) q.source)
    (here : (Phase.home path k).at = some x) : N.Handles q x (.home path k) := by
  have sized : (N.payload q (.home path k)).Sized := sized_payload valid
  obtain ⟨route, low, high⟩ := valid
  rw [Phase.at] at here
  by_cases first : k ≤ 1
  · obtain rfl : k = 1 := by omega
    have source := (wired.name_source route here).mpr rfl
    have ended := handle_finish (p := N.payload q (.home path 1)) rfl source
    exact ⟨_, ended, rfl, rfl, fun t member => absurd member List.not_mem_nil⟩
  · obtain ⟨y, before⟩ : ∃ y, path[k - 2]? = some y := ⟨_, List.getElem?_eq_getElem (by omega)⟩
    have source := (wired.name_source route here).not.mpr (by omega)
    have current : (N.payload q (.home path k)).current = (k - 2 + 2 : ℕ) := by
      simp only [payload, onPath]
      omega
    have passed := handle_back sized (.inr rfl) source current (get_recorded before) (wired.endpoint y)
    have there : (Phase.home path (k - 1)).at = some y := before
    refine ⟨_, passed, ?_, by rw [Phase.done, if_neg first]; rfl, fun t member => absurd member List.not_mem_nil⟩
    rw [show k - 2 + 1 = k - 1 by omega]
    simp only [Phase.next, if_neg first, List.map_cons, List.map_nil, datagram_at there]
    rfl

/-- In every phase a station does what the search does. -/
theorem Wired.handles (wired : N.Wired) (away : q.destination ≠ N.name q.source) {ph : Phase V} {x : V}
    (valid : ph.Valid N.nbrs (N.task.goal q) q.source) (here : ph.at = some x) : N.Handles q x ph := by
  cases ph with
  | flood path y =>
      cases here
      exact wired.handles_flood away valid
  | back path k => exact wired.handles_back valid here
  | ride path k => exact wired.handles_ride valid here
  | home path k => exact wired.handles_home valid here

end Delivery

/-! ### The network refines the search -/

theorem Carried.leg (carried : N.Carried) (x y : V) (t : Text) :
    Token ' ' 5 (N.leg x y t).1 ∧ Token ' ' 60 (N.leg x y t).2 :=
  carried.leg_tokens x t (N.name y)

theorem Carried.departure (carried : N.Carried) (q : Query V) (path : List V) :
    Token ' ' 5 (N.departure q path) := by
  have none : Token ' ' 5 unreachable_time := by decide
  cases path with
  | nil => exact none
  | cons x path =>
      cases path with
      | nil => exact none
      | cons y rest => exact carried.departure_token x q.start_time (N.name y)

theorem blank_token : Token ' ' 5 blank := by decide

theorem Carried.rideTimes (carried : N.Carried) (q : Query V) (path : List V) :
    ∀ s ∈ N.rideTimes q path, Token ' ' 5 s := by
  intro s member
  rcases List.mem_cons.mp member with rfl | later
  · exact carried.departure q path
  · obtain ⟨r, ride, rfl⟩ := List.mem_map.mp later
    obtain ⟨x, y, t, rfl⟩ := mem_ridden ride
    exact (carried.leg x y t).1

theorem Carried.rideRoutes (carried : N.Carried) (q : Query V) (path : List V) :
    ∀ s ∈ N.rideRoutes q path, Token ' ' 60 s := by
  intro s member
  rcases List.mem_cons.mp member with rfl | later
  · exact blank_token.mono (by decide)
  · obtain ⟨r, ride, rfl⟩ := List.mem_map.mp later
    obtain ⟨x, y, t, rfl⟩ := mem_ridden ride
    exact (carried.leg x y t).2

theorem Carried.turnTimes (carried : N.Carried) (path : List V) :
    ∀ s ∈ N.turnTimes path, Token ' ' 5 s := by
  intro s member
  rcases List.mem_append.mp member with pad | last
  · rw [List.eq_of_mem_replicate pad]
    exact blank_token
  · obtain ⟨d, _, rfl⟩ := List.mem_map.mp last
    exact (carried.entries d _ List.mem_cons_self).arrival_time

theorem Carried.turnRoutes (carried : N.Carried) (path : List V) :
    ∀ s ∈ N.turnRoutes path, Token ' ' 60 s := by
  intro s member
  rcases List.mem_append.mp member with pad | last
  · rw [List.eq_of_mem_replicate pad]
    exact blank_token.mono (by decide)
  · obtain ⟨d, _, rfl⟩ := List.mem_map.mp last
    exact (carried.entries d _ List.mem_cons_self).route_name

theorem Carried.onPath (carried : N.Carried) (asked : N.Asked q) {path : List V} {found : ℤ} {k : ℕ}
    {routes time : List Text} (phase : 0 ≤ found ∧ found ≤ 4) (current : k ≤ path.length)
    (sized : (N.onPath q path found k routes time).Sized)
    (short : (N.onPath q path found k routes time).text.length < MAXDATASIZE)
    (hr : ∀ s ∈ routes, Token ' ' 60 s) (ht : ∀ s ∈ time, Token ' ' 5 s) :
    (N.onPath q path found k routes time).Loadable := by
  have size := PAYLOAD.length_le_text (N.onPath q path found k routes time)
  have length : (N.onPath q path found k routes time).stations.length = path.length :=
    List.length_map ..
  simp only [MAXDATASIZE] at short
  exact
    { sized
      found := by simp only [Network.onPath, INT_MAX]; omega
      hops := by simp only [Network.onPath, INT_MAX]; omega
      current := by simp only [Network.onPath, INT_MAX]; omega
      stations := by
        intro s member
        obtain ⟨x, _, rfl⟩ := List.mem_map.mp member
        exact carried.name x
      address := by
        intro s member
        obtain ⟨x, _, rfl⟩ := List.mem_map.mp member
        exact carried.recorded x
      routes := hr
      time := ht
      destination := asked.destination
      source := carried.name q.source
      start_time := asked.start_time }

/-- A payload on its way survives the wire, if it fits the receive buffer. -/
theorem Carried.loadable (carried : N.Carried) (asked : N.Asked q) {ph : Phase V}
    {nbrs : V → List V} {goal : V → Bool} {source : V} (valid : ph.Valid nbrs goal source)
    (short : (N.payload q ph).text.length < MAXDATASIZE) : (N.payload q ph).Loadable := by
  have sized := sized_payload (N := N) (q := q) valid
  cases ph with
  | flood path here =>
      refine carried.onPath asked (by decide) (Nat.le_refl _) sized short ?_ ?_
      · intro s member
        rw [List.eq_of_mem_replicate member]
        exact blank_token.mono (by decide)
      · intro s member
        rw [List.eq_of_mem_replicate member]
        exact blank_token
  | back path k =>
      have bounds := valid.2
      exact carried.onPath asked (by decide) (by omega) sized short (carried.turnRoutes path)
        (carried.turnTimes path)
  | ride path k =>
      have bounds := valid.2
      refine carried.onPath asked (by decide) (by omega) sized short ?_ ?_
      · intro s member
        exact (mem_filling member).elim (carried.rideRoutes q path s) (carried.turnRoutes path s)
      · intro s member
        exact (mem_filling member).elim (carried.rideTimes q path s) (carried.turnTimes path s)
  | home path k =>
      have bounds := valid.2
      exact carried.onPath asked (by decide) (by omega) sized short (carried.rideRoutes q path)
        (carried.rideTimes q path)

variable [DecidableEq V]

/-- What becomes of a datagram of the protocol: it is dropped for its length, or the
station does what the search does. -/
theorem Regular.react_datagram (regular : N.Regular) {m : Query V × Phase V} (asked : N.Asked m.1)
    (valid : N.task.valid m) :
    N.react (N.datagram m) = if (N.payload m.1 m.2).text.length < MAXDATASIZE then
      (N.task.reaction m).map fun r => (r.1.map N.datagram, r.2.map N.finished) else none := by
  obtain ⟨q, ph⟩ := m
  obtain ⟨x, here⟩ := Phase.Valid.at_isSome valid
  rw [datagram_at here, react]
  simp only [regular.home x]
  split
  · rename_i short
    have loadable := regular.loadable asked valid short
    obtain ⟨outcome, handled, sent, finished, _⟩ := regular.handles asked.away valid here
    have branch : udp_branch (N.station x) (N.payload q ph).text = .ok outcome := by
      rw [loadable.udp_branch]
      exact handled
    simp only [branch, Task.reaction, Option.map_some, Option.some.injEq, Prod.mk.injEq, sent,
      finished, List.map_map]
    refine ⟨rfl, ?_⟩
    apply List.map_congr_left
    intro route done
    obtain ⟨rfl, route⟩ := Phase.Valid.done valid done
    have start : some x = some q.source := by
      rw [← here, Phase.at, ← List.head?_eq_getElem?]
      exact route.head?
    rw [Option.some.inj start]
    rfl
  · rfl

/-- Valid messages of a query that can be asked. -/
def Sends (N : Network V) (m : Query V × Phase V) : Prop := N.Asked m.1 ∧ N.task.valid m

theorem Regular.simulates (regular : N.Regular) :
    Simulates N.Sends N.datagram N.finished N.task.reaction N.react := by
  rintro m out reports ⟨asked, valid⟩ reacts
  rw [regular.react_datagram asked valid] at reacts
  split at reacts
  · obtain ⟨⟨out', reports'⟩, small, same⟩ := Option.map_eq_some_iff.mp reacts
    rw [Prod.mk.injEq] at same
    exact ⟨out', reports', small, same.1.symm, same.2.symm⟩
  · cases reacts

end Network
end TransitNet

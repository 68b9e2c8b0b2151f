import TransitNet.Protocol

/-! What holds of the routing protocol in every run of a regular network: where the
payloads in flight stand, which routes are found, and that the traffic ends. -/
namespace TransitNet
open Soup Relay Journey Words

variable {V : Type*} {N : Network V} {q : Query V}

namespace Network

/-- The init payload is what an opening search puts on the wire. -/
theorem init_eq (N : Network V) (q : Query V) : N.init q = N.datagram (N.task.opening q) := by
  have here : (N.task.opening q).2.at = some q.source := rfl
  rw [datagram_at here, init, initText_eq, zero_text rfl rfl rfl, body_eq]
  rfl

theorem inits_eq (N : Network V) (qs : List (Query V)) :
    qs.map N.init = (qs.map N.task.opening).map N.datagram := by
  rw [List.map_map]
  exact List.map_congr_left fun q _ => N.init_eq q

/-- What holds of the messages and the reports of a search, whatever happened before. -/
abbrev Afoot (N : Network V) (qs : List (Query V)) (f : Flight (Query V × Phase V)) : Prop :=
  f.msg.1 ∈ qs ∧ Sound N.task f

abbrev Answered (N : Network V) (qs : List (Query V)) (r : Report (Query V × Phase V) (Query V × List V)) :
    Prop :=
  r.out.1 ∈ qs ∧ Reported N.task r

theorem afoot_sends {qs : List (Query V)} (asked : ∀ q ∈ qs, N.Asked q)
    {f : Flight (Query V × Phase V)} (afoot : N.Afoot qs f) : N.Sends f.msg :=
  ⟨asked _ afoot.1, afoot.2.valid⟩

section Runs
variable {qs : List (Query V)}

theorem Wired.afoot_preserved [DecidableEq V] (wired : N.Wired) (qs : List (Query V)) :
    Preserves N.task.reaction (N.Afoot qs) (N.Answered qs) :=
  (query_preserved (· ∈ qs)).and (sound_preserved wired.loopless)

theorem launch_afoot (away : ∀ q ∈ qs, q.destination ≠ N.name q.source) :
    (launch (qs.map N.task.opening) : Pool _ _).Good (N.Afoot qs) (N.Answered qs) := by
  have sound := opening_sound (T := N.task) fun q member => away_goal (away q member)
  have member : (launch (qs.map N.task.opening) : Pool (Query V × Phase V) (Query V × List V)).Good
      (fun f => f.msg.1 ∈ qs) fun r => r.out.1 ∈ qs := by
    refine launch_good fun _ m inside => ?_
    obtain ⟨q, given, rfl⟩ := List.mem_map.mp inside
    exact given
  exact ⟨fun f inside => ⟨member.1 f inside, sound.1 f inside⟩,
    fun r inside => ⟨member.2 r inside, sound.2 r inside⟩⟩

theorem launch_image (qs : List (Query V)) : (launch (qs.map N.init) : Pool Datagram (V × PAYLOAD)) =
    (launch (qs.map N.task.opening) : Pool _ _).map N.datagram N.finished := by
  rw [N.inits_eq, launch_map]

/-- Every state of the network is the image of a state of the search. -/
theorem Regular.reaches [DecidableEq V] (regular : N.Regular) (asked : ∀ q ∈ qs, N.Asked q)
    {s : Pool Datagram (V × PAYLOAD)} (run : Reaches N.react (launch (qs.map N.init)) s) :
    ∃ t, Reaches N.task.reaction (launch (qs.map N.task.opening)) t ∧
      s = t.map N.datagram N.finished ∧ t.Good (N.Afoot qs) (N.Answered qs) := by
  rw [launch_image] at run
  obtain ⟨t, abstract, image⟩ := regular.simulates.reaches (regular.afoot_preserved qs)
    (fun _ => afoot_sends asked) (launch_afoot fun q member => (asked q member).away) run
  have good := abstract.good (regular.afoot_preserved qs) (launch_afoot fun q member => (asked q member).away)
  exact ⟨t, abstract, image, good⟩

/-- The same of runs without loss and duplication. -/
theorem Regular.runs [DecidableEq V] (regular : N.Regular) (asked : ∀ q ∈ qs, N.Asked q)
    {s : Pool Datagram (V × PAYLOAD)} (run : Runs N.react (launch (qs.map N.init)) s) :
    ∃ t, Runs N.task.reaction (launch (qs.map N.task.opening)) t ∧
      s = t.map N.datagram N.finished := by
  rw [launch_image] at run
  exact regular.simulates.runs (regular.afoot_preserved qs) (fun _ => afoot_sends asked)
    (launch_afoot fun q member => (asked q member).away) run

end Runs

/-! ### Five deliveries from StationA to StationB and back -/

theorem toStationB_asked : ∀ q ∈ [toStationB], twoStops.Asked q := by
  intro q member
  rw [List.mem_singleton] at member
  subst member
  exact ⟨by decide, by decide, by decide⟩

theorem twoStops_route :
    Route twoStops.nbrs (twoStops.task.goal toStationB) toStationB.source [false, true] :=
  ⟨[false], true, rfl, by decide, by decide, rfl, by decide, by decide⟩

theorem twoStops_react {ph : Phase Bool}
    (valid : ph.Valid twoStops.nbrs (twoStops.task.goal toStationB) toStationB.source)
    (short : (twoStops.payload toStationB ph).text.length < MAXDATASIZE) :
    twoStops.react (twoStops.datagram (toStationB, ph)) = some
      ((ph.next twoStops.nbrs (twoStops.task.goal toStationB)).map
          (fun ph' => twoStops.datagram (toStationB, ph')),
        ph.done.map fun path => twoStops.finished (toStationB, path)) := by
  have asked := toStationB_asked toStationB (List.mem_singleton_self _)
  have reacts := twoStops_regular.react_datagram (m := (toStationB, ph)) asked valid
  rw [reacts, if_pos short, Task.reaction, Option.map_some, List.map_map, List.map_map]
  rfl

/-- After two deliveries the payload is back at StationA. -/
def turning : Flight Datagram :=
  ⟨0, [twoStops.datagram (toStationB, .flood [false] true),
      twoStops.datagram (toStationB, .flood [] false)],
    twoStops.datagram (toStationB, .back [false, true] 1)⟩

/-- After three deliveries it has ridden to StationB. -/
def underway : Flight Datagram :=
  ⟨0, [twoStops.datagram (toStationB, .back [false, true] 1),
      twoStops.datagram (toStationB, .flood [false] true),
      twoStops.datagram (toStationB, .flood [] false)],
    twoStops.datagram (toStationB, .ride [false, true] 2)⟩

def answered : Report Datagram (Bool × PAYLOAD) :=
  ⟨0, [twoStops.datagram (toStationB, .home [false, true] 1),
      twoStops.datagram (toStationB, .ride [false, true] 2),
      twoStops.datagram (toStationB, .back [false, true] 1),
      twoStops.datagram (toStationB, .flood [false] true),
      twoStops.datagram (toStationB, .flood [] false)],
    twoStops.finished (toStationB, [false, true])⟩

theorem runs_turning : Runs twoStops.react (launch ([toStationB].map twoStops.init)) ⟨{turning}, []⟩ := by
  have start : Runs twoStops.react (launch ([toStationB].map twoStops.init))
      ⟨{⟨0, [], twoStops.datagram (toStationB, .flood [] false)⟩}, []⟩ := by
    rw [List.map_singleton, init_eq]
    exact .refl
  have opened : (Phase.flood [] false).Valid twoStops.nbrs (twoStops.task.goal toStationB)
      toStationB.source := ⟨by decide, rfl, by decide, by decide⟩
  have reached : (Phase.flood [false] true).Valid twoStops.nbrs (twoStops.task.goal toStationB)
      toStationB.source := ⟨by decide, rfl, by decide, by decide⟩
  have first := start.forward (twoStops_react opened (by decide))
  exact first.forward (twoStops_react reached (by decide))

theorem runs_underway : Runs twoStops.react (launch ([toStationB].map twoStops.init)) ⟨{underway}, []⟩ := by
  have turned : (Phase.back [false, true] 1).Valid twoStops.nbrs (twoStops.task.goal toStationB)
      toStationB.source := ⟨twoStops_route, by decide, by decide⟩
  exact runs_turning.forward (twoStops_react turned (by decide))

theorem runs_answered : Runs twoStops.react (launch ([toStationB].map twoStops.init)) ⟨0, [answered]⟩ := by
  have riding : (Phase.ride [false, true] 2).Valid twoStops.nbrs (twoStops.task.goal toStationB)
      toStationB.source := ⟨twoStops_route, by decide, by decide⟩
  have homing : (Phase.home [false, true] 1).Valid twoStops.nbrs (twoStops.task.goal toStationB)
      toStationB.source := ⟨twoStops_route, by decide, by decide⟩
  have fourth := runs_underway.forward (twoStops_react riding (by decide))
  exact fourth.stop (twoStops_react homing (by decide))

/-! ### A route of two words -/

/-- A station that has the name of a time of day, and a route whose name is not one word. -/
def twoWords : Network Bool where
  station
    | false => stationOf "A;" "4002"
        [bus "09:00" "bus 7" "09:20" "09:20", bus "23:00" "bus 7" "23:20" "09:20"] [("127.0.0.1", "4004")]
    | true => stationOf "09:20" "4004"
        [bus "10:00" "bus7" "10:20" "A;", bus "22:00" "bus7" "22:20" "A;"] [("127.0.0.1", "4002")]
  argv := twoStops.argv
  started x := by cases x <;> rfl
  resolve := twoStops.resolve

def toNineTwenty : Query Bool := ⟨"09:20".toList, false, "08:00".toList⟩

theorem twoWords_wired : twoWords.Worded ∧ twoWords.Wired := by
  refine ⟨⟨by decide, by decide⟩, ⟨⟨fun x => ?_, by decide⟩, by unfold Function.Injective; decide, by decide⟩⟩
  have place := twoStops_regular.endpoint x
  cases x <;> exact place

theorem toNineTwenty_asked : ∀ q ∈ [toNineTwenty], twoWords.Asked q := by
  intro q member
  rw [List.mem_singleton] at member
  subst member
  exact ⟨by decide, by decide, by decide⟩

/-- A datagram to one of the two stations. -/
def toPort (port text : String) : Datagram := ⟨"127.0.0.1".toList, port.toList, text.toList⟩

/-- The journey, on the wire. The last of these datagrams has a word too many. -/
def askedNine : Datagram := toPort "4002" "0 0 0 09:20 A; 08:00;"
def flooded : Datagram := toPort "4004" "0 1 1 A; 127.0.0.1:4002 ... ... 09:20 A; 08:00;"
def returned : Datagram := toPort "4002"
  "1 2 1 A; 09:20 127.0.0.1:4002 127.0.0.1:4004 ... bus7 ... 10:20 09:20 A; 08:00;"
def shifted : Datagram := toPort "4004"
  "2 2 2 A; 09:20 127.0.0.1:4002 127.0.0.1:4004 ... bus 7 09:00 09:20 09:20 A; 08:00;"

/-- What the station 09:20 makes of it, and reports. -/
def misread : PAYLOAD where
  found := 4
  hops := 2
  current := 2
  stations := ["A;".toList, "09:20".toList]
  address := ["127.0.0.1:4002".toList, "127.0.0.1:4004".toList]
  routes := ["...".toList, "bus".toList]
  time := ["7".toList, "09:00".toList]
  destination := "09:20".toList
  source := "09:20".toList
  start_time := "A".toList

def misreport : Report Datagram (Bool × PAYLOAD) := ⟨0, [shifted, returned, flooded, askedNine], (true, misread)⟩

theorem runs_misread : Runs twoWords.react (launch ([toNineTwenty].map twoWords.init)) ⟨0, [misreport]⟩ := by
  have start : Runs twoWords.react (launch ([toNineTwenty].map twoWords.init)) ⟨{⟨0, [], askedNine⟩}, []⟩ := by
    rw [List.map_singleton, show twoWords.init toNineTwenty = askedNine by decide +kernel]
    exact .refl
  have first := start.forward (show twoWords.react askedNine = some ([flooded], []) by decide +kernel)
  have second := first.forward (show twoWords.react flooded = some ([returned], []) by decide +kernel)
  have third := second.forward (show twoWords.react returned = some ([shifted], []) by decide +kernel)
  exact third.stop (show twoWords.react shifted = some ([], [(true, misread)]) by decide +kernel)

/-! ### Where a payload stands -/

/-- `b` is the name of a neighbour of the station named `a`. -/
def Linked (N : Network V) (a b : Text) : Prop := ∃ x y, N.name x = a ∧ N.name y = b ∧ y ∈ N.nbrs x

/-- The ride has filled the `i`-th slot: with the departure from the source, later
with the arrival and the route of an entry of the station before, or with the
texts for a leg that cannot be ridden. -/
def Filled (N : Network V) (q : Query V) (p : PAYLOAD) : ℕ → Prop
  | 0 => ∃ t, p.time[0]? = some t ∧
      (t = unreachable_time ∨ ∃ e ∈ (N.station q.source).entries, t = e.departure_time)
  | i + 1 => ∃ y t r, p.stations[i]? = some (N.name y) ∧ p.time[i + 1]? = some t ∧
      p.routes[i + 1]? = some r ∧ ((t = unreachable_time ∧ r = unreachable_route) ∨
        ∃ e ∈ (N.station y).entries, t = e.arrival_time ∧ r = e.route_name)

/-- A payload addressed to the station `x`, by the phase it is in. -/
structure Placed (N : Network V) (q : Query V) (x : V) (p : PAYLOAD) : Prop where
  sized : p.Sized
  query : p.destination = q.destination ∧ p.source = N.name q.source ∧ p.start_time = q.start_time
  phase : p.found = 0 ∨ p.found = 1 ∨ p.found = 2 ∨ p.found = 3
  flooding : p.found = 0 → p.current = p.hops ∧ p.stations.Nodup ∧ N.name x ∉ p.stations ∧
    q.destination ∉ p.stations ∧ (p.stations ++ [N.name x]).head? = some (N.name q.source) ∧
    (p.stations ++ [N.name x]).IsChain N.Linked
  backtracing : p.found = 1 → 1 ≤ p.current ∧ p.current ≤ p.hops - 1 ∧
    p.stations[(p.hops - 1).toNat]? = some q.destination ∧
    p.stations[(p.current - 1).toNat]? = some (N.name x)
  riding : p.found = 2 → 2 ≤ p.current ∧ p.current ≤ p.hops ∧
    p.stations[(p.current - 1).toNat]? = some (N.name x) ∧ ∀ i < p.current.toNat, N.Filled q p i
  homing : p.found = 3 → 1 ≤ p.current ∧ p.current ≤ p.hops - 1 ∧
    p.stations[(p.current - 1).toNat]? = some (N.name x) ∧ ∀ i < p.hops.toNat, N.Filled q p i

/-- The slots that a ride has filled hold what `Filled` says. -/
theorem ride_filled {p : PAYLOAD} {path : List V} {nbrs : V → List V} {goal : V → Bool}
    (route : Route nbrs goal q.source path) (two : 2 ≤ path.length) (stations : p.stations = path.map N.name)
    {i : ℕ} (bound : i < path.length) (time : p.time[i]? = (N.rideTimes q path)[i]?)
    (routes : p.routes[i]? = (N.rideRoutes q path)[i]?) : N.Filled q p i := by
  cases i with
  | zero =>
      have start : path[0]? = some q.source := by rw [← List.head?_eq_getElem?]; exact route.head?
      obtain ⟨y, onward⟩ : ∃ y, path[1]? = some y := ⟨_, List.getElem?_eq_getElem two⟩
      refine ⟨_, time.trans (rideTimes_zero N q path), ?_⟩
      rw [departure_eq start onward, Station.departure]
      cases boards : (N.station q.source).boarding q.start_time (N.name y) with
      | none => exact .inl rfl
      | some e => exact .inr ⟨e, (Station.boarding_spec boards).1, rfl⟩
  | succ i =>
      have start := List.getElem?_eq_getElem (l := path) (i := i) (by omega)
      have onward := List.getElem?_eq_getElem bound
      obtain ⟨t, now⟩ : ∃ t, (N.rideTimes q path)[i]? = some t :=
        ⟨_, List.getElem?_eq_getElem (by rw [length_rideTimes]; omega)⟩
      obtain ⟨arrival, ridden⟩ := ride_next start onward now
      refine ⟨path[i], _, _, ?_, time.trans arrival, routes.trans ridden, ?_⟩
      · rw [stations]
        exact get_name start
      · rw [Station.leg]
        cases boards : (N.station path[i]).boarding t (N.name path[i + 1]) with
        | none => exact .inl ⟨rfl, rfl⟩
        | some e => exact .inr ⟨e, (Station.boarding_spec boards).1, rfl, rfl⟩

theorem Regular.walk_linked {path : List V} (linked : path.IsChain fun x y => y ∈ N.nbrs x) :
    (path.map N.name).IsChain N.Linked := by
  rw [List.isChain_map]
  exact linked.imp fun x y link => ⟨x, y, rfl, rfl, link⟩

/-- The station that a counter stands at. -/
theorem get_standing {path : List V} {k : ℕ} {x : V} (here : path[k - 1]? = some x) :
    (path.map N.name)[((k : ℤ) - 1).toNat]? = some (N.name x) := by
  have place : ((k : ℤ) - 1).toNat = k - 1 := by omega
  rw [place]
  exact get_name here

theorem Regular.placed (regular : N.Regular) (asked : N.Asked q) {ph : Phase V} {x : V}
    (valid : ph.Valid N.nbrs (N.task.goal q) q.source) (here : ph.at = some x) :
    N.Placed q x (N.payload q ph) := by
  have sized := sized_payload (N := N) (q := q) valid
  cases ph with
  | flood path y =>
      cases here
      have walk : Walk N.nbrs (N.task.goal q) q.source path x := valid
      have whole : (N.payload q (.flood path x)).stations ++ [N.name x] = (path ++ [x]).map N.name := by
        rw [List.map_append]
        rfl
      have simple := walk.simple.map regular.names
      rw [← whole] at simple
      refine ⟨sized, ⟨rfl, rfl, rfl⟩, .inl rfl, fun _ => ⟨rfl, ?_, ?_, ?_, ?_, ?_⟩, ?_, ?_, ?_⟩
      · exact (List.nodup_append.mp simple).1
      · intro member
        exact (List.nodup_append.mp simple).2.2 _ member _ (List.mem_singleton_self _) rfl
      · intro member
        obtain ⟨y, inside, same⟩ := List.mem_map.mp member
        exact of_decide_eq_false (walk.unmet y inside) same
      · rw [whole, List.head?_map, walk.start]
        rfl
      · rw [whole]
        exact walk_linked walk.linked
      all_goals
        intro other
        cases other
  | back path k =>
      obtain ⟨route, low, high⟩ := valid
      obtain ⟨front, d, rfl, met, _⟩ := route
      refine ⟨sized, ⟨rfl, rfl, rfl⟩, .inr (.inl rfl), ?_, fun _ => ⟨?_, ?_, ?_, ?_⟩, ?_, ?_⟩
      · intro other; cases other
      · simp only [payload, onPath]; omega
      · simp only [payload, onPath]; omega
      · have last : (front ++ [d])[(front ++ [d]).length - 1]? = some d := by simp
        exact (get_standing last).trans (congrArg some (of_decide_eq_true met))
      · exact get_standing here
      · intro other; cases other
      · intro other; cases other
  | ride path k =>
      have two := valid.1.two_le (away_goal asked.away)
      obtain ⟨route, low, high⟩ := valid
      refine ⟨sized, ⟨rfl, rfl, rfl⟩, .inr (.inr (.inl rfl)), ?_, ?_, fun _ => ⟨?_, ?_, ?_, ?_⟩, ?_⟩
      · intro other; cases other
      · intro other; cases other
      · simp only [payload, onPath]; omega
      · simp only [payload, onPath]; omega
      · exact get_standing here
      · intro i early
        have small : i < k := early
        refine ride_filled route two rfl (by omega) ?_ ?_
        · exact filling_old small (by rw [length_rideTimes]; omega)
        · exact filling_old small (by rw [length_rideRoutes]; omega)
      · intro other; cases other
  | home path k =>
      have two := valid.1.two_le (away_goal asked.away)
      obtain ⟨route, low, high⟩ := valid
      refine ⟨sized, ⟨rfl, rfl, rfl⟩, .inr (.inr (.inr rfl)), ?_, ?_, ?_, fun _ => ⟨?_, ?_, ?_, ?_⟩⟩
      · intro other; cases other
      · intro other; cases other
      · intro other; cases other
      · simp only [payload, onPath]; omega
      · simp only [payload, onPath]; omega
      · exact get_standing here
      · intro i early
        have small : i < path.length := early
        exact ride_filled route two rfl small rfl rfl

/-- A path without repetition from the source of a query to its destination. -/
def SimplePath (N : Network V) (q : Query V) (path : List V) : Prop :=
  path.Nodup ∧ path.head? = some q.source ∧ path.IsChain (fun x y => y ∈ N.nbrs x) ∧
    ∃ d, path.getLast? = some d ∧ N.name d = q.destination

theorem Wired.route_iff (wired : N.Wired) {path : List V} :
    Route N.nbrs (N.task.goal q) q.source path ↔ N.SimplePath q path := by
  have single : ∀ x y, N.task.goal q x = true → N.task.goal q y = true → x = y := by
    intro x y hx hy
    exact wired.names ((of_decide_eq_true hx).trans (of_decide_eq_true hy).symm)
  rw [Relay.route_iff single]
  simp only [SimplePath, task, decide_eq_true_eq]

section Finite
variable [Fintype V]

theorem simplePaths_finite (N : Network V) (q : Query V) : {path | N.SimplePath q path}.Finite :=
  (List.finite_length_le V (Fintype.card V)).subset fun _ h => h.1.length_le_card

noncomputable def simplePaths (N : Network V) (q : Query V) : Finset (List V) :=
  (N.simplePaths_finite q).toFinset

@[simp] theorem mem_simplePaths {path : List V} : path ∈ N.simplePaths q ↔ N.SimplePath q path := by
  simp only [simplePaths, Set.Finite.mem_toFinset, Set.mem_ofPred_eq]

theorem Wired.routes_eq (wired : N.Wired) (q : Query V) :
    routes N.task.nbrs (N.task.goal q) (N.task.source q) = N.simplePaths q := by
  ext path
  rw [mem_routes, mem_simplePaths]
  exact wired.route_iff

/-- Nothing lost, nothing duplicated: when no datagram is left in flight, an injected
query has finished with one payload for each simple path, and with no other. -/
theorem flood_finds_each_path_once (regular : N.Regular) (listed : ∀ x, (N.argv x).Nodup)
    {qs : List (Query V)} (asked : ∀ q ∈ qs, N.Asked q) {s : Pool Datagram (V × PAYLOAD)}
    (run : Runs N.react (launch (qs.map N.init)) s) (quiet : s.flying = 0) {i : ℕ} {q : Query V}
    (injected : qs[i]? = some q) :
    (((s.log.filter fun r => r.origin = i).map fun r =>
        (r.out.1, r.out.2.found, r.out.2.stations, r.out.2.address) : List _) : Multiset _) =
      (N.simplePaths q).val.map fun path =>
        (q.source, (4 : ℤ), path.map N.name, path.map N.recorded) := by
  classical
  obtain ⟨t, abstract, rfl⟩ := regular.runs asked run
  have still : t.flying = 0 := Multiset.map_eq_zero.mp quiet
  have once := reported_each_once regular.loopless (fun x => regular.nbrs_nodup (listed x))
    (fun q member => away_goal (asked q member).away) abstract still i q injected
  rw [regular.routes_eq] at once
  have seen := congrArg (Multiset.map fun r : Query V × List V =>
    (r.1.source, (4 : ℤ), r.2.map N.name, r.2.map N.recorded)) once
  rw [Multiset.map_coe, List.map_map, Multiset.map_map] at seen
  have filtered : ((t.map N.datagram N.finished).log.filter fun r => r.origin = i) =
      (t.log.filter fun r => r.origin = i).map (Report.map N.datagram N.finished) := by
    rw [Pool.map, List.filter_map]
    rfl
  rw [filtered, List.map_map]
  exact seen

theorem answered_is_the_only_path :
    ((([answered].filter fun r => r.origin = 0).map fun r =>
        (r.out.1, r.out.2.found, r.out.2.stations, r.out.2.address) : List _) : Multiset _) =
      (twoStops.simplePaths toStationB).val.map fun path =>
        (false, (4 : ℤ), path.map twoStops.name, path.map twoStops.recorded) :=
  flood_finds_each_path_once twoStops_regular (by decide) toStationB_asked runs_answered rfl rfl

/-- A network that floods as it should, but for a route of two words: nothing is reported at the source. -/
theorem shifted_payload_finishes_elsewhere : twoWords.Worded ∧ twoWords.Wired ∧ (∀ x, (twoWords.argv x).Nodup) ∧
    (∀ q ∈ [toNineTwenty], twoWords.Asked q) ∧
    ∃ s, Runs twoWords.react (launch ([toNineTwenty].map twoWords.init)) s ∧ s.flying = 0 ∧
      (((s.log.filter fun r => r.origin = 0).map fun r =>
          (r.out.1, r.out.2.found, r.out.2.stations, r.out.2.address) : List _) : Multiset _) ≠
        (twoWords.simplePaths toNineTwenty).val.map fun path =>
          (toNineTwenty.source, (4 : ℤ), path.map twoWords.name, path.map twoWords.recorded) := by
  refine ⟨twoWords_wired.1, twoWords_wired.2, by decide, toNineTwenty_asked, _, runs_misread, rfl, fun same => ?_⟩
  have reported : (true, misread.found, misread.stations, misread.address) ∈
      (twoWords.simplePaths toNineTwenty).val.map fun path =>
        (toNineTwenty.source, (4 : ℤ), path.map twoWords.name, path.map twoWords.recorded) := by
    rw [← same]
    exact Multiset.mem_singleton_self _
  obtain ⟨path, _, elsewhere⟩ := Multiset.mem_map.mp reported
  cases congrArg Prod.fst elsewhere

/-! ### The traffic ends -/

/-- No run of deliveries goes on for ever, and a payload that finishes with `h`
stations on its path is the last of a chain of `4 * h - 3` deliveries. -/
theorem traffic_ends (regular : N.Regular) {qs : List (Query V)} (asked : ∀ q ∈ qs, N.Asked q) :
    (∀ run : ℕ → Pool Datagram (V × PAYLOAD), run 0 = launch (qs.map N.init) →
      ¬ ∀ n, Carry N.react (run n) (run (n + 1))) ∧
    ∀ s, Reaches N.react (launch (qs.map N.init)) s → ∀ r ∈ s.log,
      Filed N.react (qs.map N.init) r ∧ r.out.2.hops = r.out.2.stations.length ∧
        r.trail.length = 4 * r.out.2.stations.length - 3 := by
  classical
  constructor
  · intro run start moves
    rw [launch_image] at start
    obtain ⟨abstract, first, moves⟩ := regular.simulates.endless (regular.afoot_preserved qs)
      (fun _ => afoot_sends asked) (launch_afoot fun q member => (asked q member).away) start moves
    refine searches_die_out regular.loopless abstract ?_ moves
    rw [first]
    exact opening_sound fun q member => away_goal (asked q member).away
  · intro s run r member
    refine ⟨run.lineage.2 r member, ?_⟩
    obtain ⟨t, _, rfl, good⟩ := regular.reaches asked run
    obtain ⟨r, filed, rfl⟩ := List.mem_map.mp member
    obtain ⟨_, reported⟩ := good.2 r filed
    simp only [Report.map, List.length_map, finished, onPath, reported.age, and_self]

theorem answered_after_five : Filed twoStops.react ([toStationB].map twoStops.init) answered ∧
    answered.trail.length = 5 := by
  obtain ⟨filed, _, age⟩ := (traffic_ends twoStops_regular toStationB_asked).2 _ runs_answered.reaches
    answered (List.mem_singleton_self _)
  exact ⟨filed, age⟩

/-- With a route of two words the payload has finished after four deliveries. -/
theorem shifted_payload_finishes_early : twoWords.Worded ∧ twoWords.Wired ∧ (∀ q ∈ [toNineTwenty], twoWords.Asked q) ∧
    ∃ s, Reaches twoWords.react (launch ([toNineTwenty].map twoWords.init)) s ∧
      ∃ r ∈ s.log, r.out.2.found = 4 ∧ r.out.2.stations.length = 2 ∧
        r.trail.length ≠ 4 * r.out.2.stations.length - 3 :=
  ⟨twoWords_wired.1, twoWords_wired.2, toNineTwenty_asked, _, runs_misread.reaches, misreport,
    List.mem_singleton_self _, rfl, rfl, by decide⟩

end Finite
end Network
end TransitNet

import TransitNet.Routing
import TransitNet.Spelling

/-! Indices of the UDP branch. The names on the path decide which slots a station
touches, and they stay within what `load_payload` allocates, however neighbours
are spelled. Of the timetable a station needs an entry for the leg at hand. -/
namespace TransitNet
open Soup Words

variable {V : Type*} {N : Network V} {q : Query V}

/-- An entry to the next station, other than the last line, that departs in time. -/
def Station.Serves (st : Station) (starting_time station_to_go : Text) : Prop :=
  ∃ e ∈ st.entries, e.arrival_station = station_to_go ∧
    timeToMinutes st.unset starting_time ≤ timeToMinutes st.unset e.departure_time

/-- What the station's timetable must have for a payload: an entry to copy from at the
destination, and otherwise one for the leg that it boards. At the source the second
search starts from the departure found, or from `99:99`. -/
structure Station.Served (st : Station) (p : PAYLOAD) : Prop where
  reach : p.found = 0 → p.destination = st.station_name → 0 < st.NUM_TIMETABLES
  turn : p.found = 1 → p.source = st.station_name → ∀ next, p.stations[p.current.toNat]? = some next →
    (p.current = 1 → st.Serves p.start_time next ∨ st.Serves unreachable_time next) ∧
    (p.current ≠ 1 → ∀ t, p.time[(p.current - 1).toNat]? = some t → st.Serves t next)
  ride : p.found = 2 → p.destination ≠ st.station_name → ∀ t next,
    p.time[(p.current - 1).toNat]? = some t → p.stations[p.current.toNat]? = some next → st.Serves t next

def Station.InRange (st : Station) (looked : List ℤ) : Prop :=
  ∀ i ∈ looked, 0 ≤ i ∧ i < st.NUM_TIMETABLES

theorem Station.inRange_nil (st : Station) : st.InRange [] := fun _ member => absurd member List.not_mem_nil

theorem Station.inRange_search (st : Station) (starting_time station_to_go : Text) :
    st.InRange [st.search starting_time station_to_go] ↔ st.Serves starting_time station_to_go := by
  simp only [Station.InRange, List.mem_singleton, forall_eq]
  rcases st.search_cases starting_time station_to_go with ⟨miss, none⟩ | ⟨i, e, hit, boards, _, bound⟩
  · rw [miss]
    constructor
    · intro range
      omega
    · rintro ⟨e, member, goes, departs⟩
      exact absurd (boards_iff.mpr ⟨departs, goes.symm⟩) (List.find?_eq_none.mp none e member)
  · rw [hit]
    obtain ⟨member, goes, departs⟩ := Station.boarding_spec boards
    exact ⟨fun _ => ⟨e, member, goes, departs⟩, fun _ => by omega⟩

theorem Station.inRange_glance (st : Station) (starting_time station_to_go : Text) :
    st.InRange (st.glance starting_time station_to_go) := by
  rw [Station.glance]
  split
  · exact st.inRange_nil
  · rcases st.search_cases starting_time station_to_go with ⟨miss, _⟩ | ⟨i, e, hit, _, _, bound⟩
    · contradiction
    · rw [hit]
      intro j member
      rw [List.mem_singleton.mp member]
      omega

/-- Looking for the first leg does no harm to what comes behind it. -/
theorem Station.inRange_glance_append {st : Station} {starting_time station_to_go : Text} {looked : List ℤ} :
    st.InRange (st.glance starting_time station_to_go ++ looked) ↔ st.InRange looked := by
  constructor
  · exact fun range i member => range i (List.mem_append_right _ member)
  · intro range i member
    exact (List.mem_append.mp member).elim (st.inRange_glance starting_time station_to_go i) (range i)

/-- The search from the departure just found succeeds where the first one did. -/
theorem Station.serves_departure (st : Station) (starting_time station_to_go : Text) :
    st.Serves (st.departure starting_time station_to_go) station_to_go ↔
      st.Serves starting_time station_to_go ∨ st.Serves unreachable_time station_to_go := by
  rw [Station.departure]
  cases boards : st.boarding starting_time station_to_go with
  | none =>
      constructor
      · exact .inr
      · rintro (⟨e, member, goes, departs⟩ | later)
        · exact absurd (boards_iff.mpr ⟨departs, goes.symm⟩) (List.find?_eq_none.mp boards e member)
        · exact later
  | some e =>
      obtain ⟨member, goes, departs⟩ := Station.boarding_spec boards
      exact ⟨fun _ => .inl ⟨e, member, goes, departs⟩, fun _ => ⟨e, member, goes, Int.le_refl _⟩⟩

/-! ### Where a payload can stand -/

namespace Network

/-- The phases, told apart by the counter; `x` is the station the payload is at. -/
inductive Stage (x : V) (p : PAYLOAD) (path : List V) : Prop
  | looking (found : p.found = 0)
  | passing (k : ℕ) (found : p.found = 1 ∨ p.found = 3) (current : p.current = (k + 1 : ℕ))
      (here : path[k]? = some x) (before : k + 1 < path.length)
      (ends : p.stations.getLast? = some p.destination)
  | riding (k : ℕ) (found : p.found = 2) (current : p.current = (k + 2 : ℕ))
      (here : path[k + 1]? = some x) (ends : p.stations.getLast? = some p.destination)

structure Tracked (N : Network V) (x : V) (p : PAYLOAD) (path : List V) : Prop where
  loadable : p.Loadable
  stations : p.stations = path.map N.name
  address : p.address = path.map N.recorded
  away : p.source ≠ p.destination
  start : (path ++ [x]).head?.map N.name = some p.source
  stage : Stage x p path

theorem Stage.placed {x : V} {p : PAYLOAD} {path : List V} (stage : Stage x p path) : p.found = 0 ∨ p.current ≠ 0 := by
  cases stage with
  | looking found => exact .inl found
  | passing k _ current => exact .inr (by omega)
  | riding k _ current => exact .inr (by omega)

/-- Wherever the datagram arrives, its payload stands where it may. -/
def Onward (N : Network V) (d : Datagram) : Prop := d.text.length < MAXDATASIZE →
  ∀ x, N.resolve d.ip d.port = some x → ∃ p path, load_payload d.text = .ok p ∧ N.Tracked x p path

/-- The station handles the payload without a fault, and stays within its timetable
exactly if it serves the payload. -/
def Safe (N : Network V) (x : V) (p : PAYLOAD) : Prop := ∃ outcome,
  handle (N.station x) p.slots p = .ok outcome ∧ (∀ d ∈ outcome.sent, N.Onward d) ∧
    ((N.station x).InRange outcome.looked ↔ (N.station x).Served p) ∧
    ∀ r ∈ outcome.finished.toList, r.Loadable ∧ 1 ≤ r.hops

end Network

namespace Network
variable {x : V} {p : PAYLOAD} {path : List V}

theorem Carried.onward (carried : N.Carried) {y : V} {p' : PAYLOAD} {path' : List V}
    (tracked : p'.text.length < MAXDATASIZE → N.Tracked y p' path') :
    N.Onward ⟨N.ip y, N.port y, p'.text⟩ := by
  intro short z leads
  have same : y = z := Option.some.inj ((carried.home y).symm.trans leads)
  subst same
  exact ⟨p', path', (tracked short).loadable.load, tracked short⟩

/-- The one datagram that a station sends on. -/
theorem Carried.onward_one (carried : N.Carried) {y : V} {p' : PAYLOAD} {path' : List V}
    (tracked : p'.text.length < MAXDATASIZE → N.Tracked y p' path') :
    ∀ d ∈ ([⟨N.ip y, N.port y, p'.text⟩] : List Datagram), N.Onward d := by
  intro d member
  rw [List.mem_singleton.mp member]
  exact carried.onward tracked

theorem Tracked.name_at (tracked : N.Tracked x p path) {k : ℕ} {y : V} (there : path[k]? = some y) :
    p.stations[k]? = some (N.name y) := by
  rw [tracked.stations, List.getElem?_map, there]
  rfl

theorem Tracked.address_at (tracked : N.Tracked x p path) {k : ℕ} {y : V} (there : path[k]? = some y) :
    p.address[k]? = some (N.ip y ++ ':' :: N.port y) := by
  rw [tracked.address, List.getElem?_map, there]
  rfl

theorem Tracked.hops (tracked : N.Tracked x p path) : p.hops = path.length := by
  rw [← tracked.loadable.sized.stations, tracked.stations, List.length_map]

/-- The first station on the path bears the name of the source. -/
theorem Tracked.source (tracked : N.Tracked x p path) {y : V} (first : path[0]? = some y) :
    N.name y = p.source := by
  have start := tracked.start
  have front : (path ++ [x]).head? = some y := by
    rw [List.head?_eq_getElem?, List.getElem?_append_left (List.getElem?_eq_some_iff.mp first).1, first]
  rw [front] at start
  exact Option.some.inj start

/-- From the second station on the source is the first of the path. -/
theorem Tracked.start_anywhere (tracked : N.Tracked x p path) (nonempty : 0 < path.length) (y : V) :
    (path ++ [y]).head?.map N.name = some p.source := by
  have start := tracked.start
  rwa [List.head?_append_of_ne_nil _ (List.ne_nil_of_length_pos nonempty)] at start ⊢

/-- The path of a payload that has come by one more station. -/
theorem Tracked.longer (tracked : N.Tracked x p path) (route_name arrival_time : Text) :
    (p.visited (N.station x) route_name arrival_time).stations = (path ++ [x]).map N.name ∧
      (p.visited (N.station x) route_name arrival_time).address = (path ++ [x]).map N.recorded ∧
      ∀ y, (path ++ [x] ++ [y]).head?.map N.name = some p.source := by
  refine ⟨?_, ?_, fun y => ?_⟩
  · rw [List.map_append, ← tracked.stations]
    rfl
  · rw [List.map_append, ← tracked.address]
    rfl
  · rw [List.head?_append_of_ne_nil _ (by simp)]
    exact tracked.start

theorem Carried.safe_looking (carried : N.Carried) (tracked : N.Tracked x p path) (fresh : p.found = 0) :
    N.Safe x p := by
  have sized := tracked.loadable.sized
  by_cases here : p.destination = N.name x
  · have away : p.source ≠ N.name x := fun same => tracked.away (same.trans here.symm)
    have nonempty : 0 < path.length := by
      by_contra empty
      have start := tracked.start
      rw [List.length_eq_zero_iff.mp (by omega : path.length = 0)] at start
      exact away (Option.some.inj start).symm
    have hops := tracked.hops
    obtain ⟨y, last⟩ : ∃ y, path[path.length - 1]? = some y := ⟨_, List.getElem?_eq_getElem (by omega)⟩
    have turned := handle_reach sized fresh here away (k := path.length - 1) (by omega)
      (tracked.address_at last) (carried.endpoint y)
    have first := carried.entries x _ List.mem_cons_self
    have moved : (p.turned (N.station x)).text.length < MAXDATASIZE →
        N.Tracked y (p.turned (N.station x)) (path ++ [x]) := by
      intro short
      have grown := tracked.loadable.visited (carried.name x) (carried.recorded x) first.route_name
        first.arrival_time ((sized.turned _).hops_lt short)
      have low := tracked.loadable.hops.1
      obtain ⟨stations, address, start⟩ := tracked.longer (N.station x).firstSlot.route_name
        (N.station x).firstSlot.arrival_time
      refine ⟨grown.moved (by decide) ⟨low, Int.le_add_one (Int.le_refl _)⟩, stations, address, tracked.away, start y,
        .passing (path.length - 1) (.inl rfl) ?_ ?_ ?_ ?_⟩
      · simp only [PAYLOAD.turned]
        omega
      · rw [List.getElem?_append_left (by omega), last]
      · rw [List.length_append, List.length_singleton]
        omega
      · simp only [PAYLOAD.turned, PAYLOAD.visited, List.getLast?_concat, here]
    refine ⟨_, turned, carried.onward_one moved, ?_, fun r member => absurd member List.not_mem_nil⟩
    constructor
    · intro range
      refine ⟨fun _ _ => ?_, fun other => by omega, fun other => by omega⟩
      have zero := range 0 List.mem_cons_self
      omega
    · intro served i member
      have some := served.reach fresh here
      simp only [List.mem_cons, List.not_mem_nil, or_false, or_self] at member
      omega
  · have flooded := handle_flood sized fresh here
    refine ⟨_, flooded, ?_, ?_, fun r member => absurd member List.not_mem_nil⟩
    · intro d member
      obtain ⟨n, _, rfl⟩ := List.mem_map.mp member
      intro short y _
      have blank₅ : Token ' ' 5 blank := by decide
      have grown := tracked.loadable.visited (carried.name x) (carried.recorded x)
        (blank₅.mono (by decide)) blank₅ ((sized.visited _ _ _).hops_lt short)
      obtain ⟨stations, address, start⟩ := tracked.longer blank blank
      exact ⟨_, path ++ [x], grown.load, grown, stations, address, tracked.away, start y, .looking fresh⟩
    · refine ⟨fun _ => ⟨fun _ there => absurd there here, fun other => by omega, fun other => by omega⟩,
        fun _ => Station.inRange_nil _⟩

/-- A payload that keeps its path and goes on to the station at `k` still stands where it may. -/
theorem Tracked.moved (tracked : N.Tracked x p path) {found : ℤ} {k : ℕ} {y : V}
    (phase : found = 1 ∨ found = 3) (there : path[k]? = some y) (before : k + 1 < path.length)
    (ends : p.stations.getLast? = some p.destination) :
    N.Tracked y { p with found := found, current := (k + 1 : ℕ) } path := by
  have hops := tracked.hops
  exact
    { loadable := tracked.loadable.moved (by omega) (by omega)
      stations := tracked.stations
      address := tracked.address
      away := tracked.away
      start := tracked.start_anywhere (by omega) y
      stage := .passing k phase rfl there before ends }

/-- At the source the journey begins: the station looks for the first leg, and for the leg that it is at. -/
theorem Carried.safe_turning (carried : N.Carried) (tracked : N.Tracked x p path) {k : ℕ} (back : p.found = 1)
    (current : p.current = (k + 1 : ℕ)) (before : k + 1 < path.length)
    (ends : p.stations.getLast? = some p.destination) (source : p.source = N.name x) : N.Safe x p := by
  have sized := tracked.loadable.sized
  have hops := tracked.hops
  have count := sized.time
  obtain ⟨y, onward⟩ : ∃ y, path[k + 1]? = some y := ⟨_, List.getElem?_eq_getElem before⟩
  obtain ⟨t, now⟩ : ∃ t, (p.time.set 0 ((N.station x).departure p.start_time (N.name y)))[k]? = some t :=
    ⟨_, List.getElem?_eq_getElem (by rw [List.length_set]; omega)⟩
  have turned := handle_turn sized back source current (tracked.name_at onward) now
    (tracked.address_at onward) (carried.endpoint y)
  have departs := carried.departure_token x p.start_time (N.name y)
  have leg := carried.leg_tokens x t (N.name y)
  have boarded : N.Tracked y ((p.departed ((N.station x).departure p.start_time (N.name y))).ridden k
      ((N.station x).leg t (N.name y))) path :=
    { loadable := (tracked.loadable.departed departs).ridden leg.1 leg.2 (by
        simp only [PAYLOAD.departed]
        omega)
      stations := tracked.stations
      address := tracked.address
      away := tracked.away
      start := tracked.start_anywhere (by omega) y
      stage := .riding k rfl rfl onward ends }
  refine ⟨_, turned, carried.onward_one fun _ => boarded, ?_, fun r member => absurd member List.not_mem_nil⟩
  have next : p.stations[p.current.toNat]? = some (N.name y) := by
    rw [current, Int.toNat_natCast]
    exact tracked.name_at onward
  have slot : p.current ≠ 1 → p.time[(p.current - 1).toNat]? = some t := by
    intro later
    rw [show (p.current - 1).toNat = k by omega, ← now, List.getElem?_set_ne (by omega)]
  have first : p.current = 1 → t = (N.station x).departure p.start_time (N.name y) := by
    intro one
    obtain rfl : k = 0 := by omega
    rw [List.getElem?_set_self (by omega), Option.some.injEq] at now
    exact now.symm
  rw [Station.inRange_glance_append, Station.inRange_search]
  constructor
  · intro serves
    refine ⟨fun other => by omega, fun _ _ next' same => ?_, fun other => by omega⟩
    rw [next, Option.some.injEq] at same
    subst same
    refine ⟨fun one => ?_, fun later t' now' => ?_⟩
    · rw [first one] at serves
      exact ((N.station x).serves_departure _ _).mp serves
    · rw [slot later, Option.some.injEq] at now'
      exact now' ▸ serves
  · intro served
    obtain ⟨one, later⟩ := served.turn back source _ next
    by_cases start : p.current = 1
    · rw [first start]
      exact ((N.station x).serves_departure _ _).mpr (one start)
    · exact later start t (slot start)

theorem Carried.safe_passing (carried : N.Carried) (tracked : N.Tracked x p path) {k : ℕ}
    (found : p.found = 1 ∨ p.found = 3) (current : p.current = (k + 1 : ℕ)) (here : path[k]? = some x)
    (before : k + 1 < path.length) (ends : p.stations.getLast? = some p.destination) : N.Safe x p := by
  have sized := tracked.loadable.sized
  have hops := tracked.hops
  by_cases source : p.source = N.name x
  · rcases found with back | home
    · exact carried.safe_turning tracked back current before ends source
    · have ended : handle (N.station x) p.slots p = _ := handle_finish home source
      refine ⟨_, ended, fun d member => absurd member List.not_mem_nil, ?_, ?_⟩
      · refine ⟨fun _ => ⟨fun other => by omega, fun other => by omega, fun other => by omega⟩,
          fun _ => Station.inRange_nil _⟩
      · intro r member
        obtain rfl := List.mem_singleton.mp member
        refine ⟨tracked.loadable.moved (by decide) (by omega), ?_⟩
        simp only
        omega
  · have later : k ≠ 0 := by
      rintro rfl
      exact source (tracked.source here).symm
    obtain ⟨y, behind⟩ : ∃ y, path[k - 1]? = some y := ⟨_, List.getElem?_eq_getElem (by omega)⟩
    have passed := handle_back sized found source (k := k - 1) (by omega) (tracked.address_at behind)
      (carried.endpoint y)
    refine ⟨_, passed, carried.onward_one fun _ => tracked.moved found behind (by omega) ends, ?_,
      fun r member => absurd member List.not_mem_nil⟩
    exact ⟨fun _ => ⟨fun other => by omega, fun _ same => absurd same source, fun other => by omega⟩,
      fun _ => Station.inRange_nil _⟩

theorem Carried.safe_riding (carried : N.Carried) (tracked : N.Tracked x p path) {k : ℕ}
    (found : p.found = 2) (current : p.current = (k + 2 : ℕ)) (here : path[k + 1]? = some x)
    (ends : p.stations.getLast? = some p.destination) : N.Safe x p := by
  have sized := tracked.loadable.sized
  have hops := tracked.hops
  have inside := (List.getElem?_eq_some_iff.mp here).1
  by_cases reached : p.destination = N.name x
  · have away : p.source ≠ N.name x := fun same => tracked.away (same.trans reached.symm)
    obtain ⟨y, behind⟩ : ∃ y, path[k]? = some y := ⟨_, List.getElem?_eq_getElem (by omega)⟩
    have arrived := handle_arrive sized found reached away current (tracked.address_at behind)
      (carried.endpoint y)
    refine ⟨_, arrived, carried.onward_one fun _ => tracked.moved (.inr rfl) behind inside ends, ?_,
      fun r member => absurd member List.not_mem_nil⟩
    exact ⟨fun _ => ⟨fun other => by omega, fun other => by omega, fun _ other => absurd reached other⟩,
      fun _ => Station.inRange_nil _⟩
  · -- the last station of the path is the destination, so there is a next one
    have before : k + 2 < path.length := by
      by_contra last
      have final : path.length - 1 = k + 1 := by omega
      rw [tracked.stations, List.getLast?_map, List.getLast?_eq_getElem?, final, here] at ends
      exact reached (Option.some.inj ends).symm
    obtain ⟨y, onward⟩ : ∃ y, path[k + 2]? = some y := ⟨_, List.getElem?_eq_getElem before⟩
    have count := sized.time
    obtain ⟨t, now⟩ : ∃ t, p.time[k + 1]? = some t := ⟨_, List.getElem?_eq_getElem (by omega)⟩
    have rode := handle_ride sized found reached (k := k + 1) current now (tracked.name_at onward)
      (tracked.address_at onward) (carried.endpoint y)
    have leg := carried.leg_tokens x t (N.name y)
    have boarded : N.Tracked y (p.ridden (k + 1) ((N.station x).leg t (N.name y))) path :=
      { loadable := tracked.loadable.ridden leg.1 leg.2 (by omega)
        stations := tracked.stations
        address := tracked.address
        away := tracked.away
        start := tracked.start_anywhere (by omega) y
        stage := .riding (k + 1) found rfl onward ends }
    refine ⟨_, rode, carried.onward_one fun _ => boarded, ?_, fun r member => absurd member List.not_mem_nil⟩
    have slot : p.time[(p.current - 1).toNat]? = some t := by
      rw [show (p.current - 1).toNat = k + 1 by omega, now]
    have next : p.stations[p.current.toNat]? = some (N.name y) := by
      rw [current, Int.toNat_natCast]
      exact tracked.name_at onward
    rw [Station.inRange_search]
    constructor
    · intro serves
      refine ⟨fun other => by omega, fun other => by omega, fun _ _ t' next' now' same => ?_⟩
      rw [slot, Option.some.injEq] at now'
      rw [next, Option.some.injEq] at same
      exact now' ▸ same ▸ serves
    · exact fun served => served.ride found reached t _ slot next

theorem Carried.safe (carried : N.Carried) (tracked : N.Tracked x p path) : N.Safe x p := by
  cases tracked.stage with
  | looking found => exact carried.safe_looking tracked found
  | passing k found current here before ends =>
      exact carried.safe_passing tracked found current here before ends
  | riding k found current here ends => exact carried.safe_riding tracked found current here ends

/-- Every datagram that a delivery sends is onward bound, and what it finishes is complete. -/
theorem Carried.safe_step (carried : N.Carried) {d : Datagram} {out : List Datagram}
    {reports : List (V × PAYLOAD)} (onward : N.Onward d) (reacts : N.react d = some (out, reports)) :
    (∀ e ∈ out, N.Onward e) ∧ ∀ r ∈ reports, r.2.Loadable ∧ 1 ≤ r.2.hops := by
  rcases react_some reacts with ⟨rfl, rfl⟩ | ⟨x, p, outcome, leads, short, loaded, handled, rfl, rfl⟩
  · exact ⟨fun e member => absurd member List.not_mem_nil, fun r member => absurd member List.not_mem_nil⟩
  · obtain ⟨p', path, read, tracked⟩ := onward short x leads
    obtain rfl : p = p' := Except.ok.inj (loaded.symm.trans read)
    obtain ⟨outcome', ran, sent, _, finished⟩ := carried.safe tracked
    obtain rfl : outcome = outcome' := Except.ok.inj (handled.symm.trans ran)
    refine ⟨sent, fun r member => ?_⟩
    obtain ⟨p₄, filed, rfl⟩ := List.mem_map.mp member
    exact finished p₄ filed

/-! ### The init payload -/

theorem Carried.fresh_tracked (carried : N.Carried) (asked : N.Asked q) :
    N.Tracked q.source (N.fresh q) [] :=
  { loadable := carried.toWorded.fresh_loadable asked.destination asked.start_time
    stations := rfl
    address := rfl
    away := asked.away.symm
    start := rfl
    stage := .looking rfl }

theorem Carried.init_onward (carried : N.Carried) (asked : N.Asked q) : N.Onward (N.init q) := by
  have same : N.init q = ⟨N.ip q.source, N.port q.source, (N.fresh q).text⟩ := by
    rw [← init_text]
    rfl
  rw [same]
  exact carried.onward fun _ => carried.fresh_tracked asked

/-- A query for the station that is asked itself. -/
theorem own_name_out_of_range (fresh : (N.fresh q).Loadable) (own : q.destination = N.name q.source) :
    udp_branch (N.station q.source) (N.init q).text = .error .index := by
  rw [init_text, fresh.udp_branch]
  exact handle_own fresh.sized rfl own rfl

end Network

/-- `FINISH!` reads the last time of a complete payload and of the one stored. -/
theorem finish_in_range {st : Station} {p : PAYLOAD} {answers : Text} (complete : p.Loadable ∧ 1 ≤ p.hops)
    (stored : answers = [] ∨ ∃ p', (p'.Loadable ∧ 1 ≤ p'.hops) ∧ craft_payload p' = .ok answers) :
    ∃ answer, finish st answers p = .ok answer := by
  have last : ∀ {p : PAYLOAD}, p.Loadable ∧ 1 ≤ p.hops → ∃ t, slot p.time (p.hops - 1) = .ok t := by
    rintro p ⟨loadable, nonempty⟩
    have count := loadable.sized.time
    obtain ⟨t, there⟩ : ∃ t, p.time[(p.hops - 1).toNat]? = some t :=
      ⟨_, List.getElem?_eq_getElem (by omega)⟩
    have read := slot_nat there
    rw [Int.toNat_of_nonneg (by omega)] at read
    exact ⟨t, read⟩
  have crafted := craft_payload_text complete.1.sized
  obtain ⟨t, arrived⟩ := last complete
  rcases stored with empty | ⟨p', complete', crafted'⟩
  · simp only [finish, crafted, if_pos empty, bind, Except.bind, pure, Except.pure]
    exact ⟨_, rfl⟩
  · obtain ⟨t', before⟩ := last complete'
    rw [craft_payload_text complete'.1.sized, Except.ok.injEq] at crafted'
    subst crafted'
    simp only [finish, crafted, complete'.1.load, before, arrived, bind, Except.bind, pure, Except.pure]
    split
    · exact ⟨_, rfl⟩
    · split <;> exact ⟨_, rfl⟩

namespace Network

/-- Whatever has been lost or has come twice, all that is in flight stands where it may. -/
theorem Carried.onward_run (carried : N.Carried) {qs : List (Query V)} (asked : ∀ q ∈ qs, N.Asked q)
    {s : Pool Datagram (V × PAYLOAD)} (run : Reaches N.react (launch (qs.map N.init)) s) :
    s.Good (fun f => N.Onward f.msg) fun r => r.out.2.Loadable ∧ 1 ≤ r.out.2.hops := by
  have keeps : Preserves N.react (fun f => N.Onward f.msg) fun r => r.out.2.Loadable ∧ 1 ≤ r.out.2.hops := by
    constructor
    · intro f out reports onward reacts g member
      obtain ⟨m, sent, rfl⟩ := mem_spawn.mp member
      exact (carried.safe_step onward reacts).1 m sent
    · intro f out reports onward reacts r member
      obtain ⟨o, filed, rfl⟩ := mem_file.mp member
      exact (carried.safe_step onward reacts).2 o filed
  refine run.good keeps (launch_good fun _ d member => ?_)
  obtain ⟨q, given, rfl⟩ := List.mem_map.mp member
  exact carried.init_onward (asked q given)

/-- What arrives whole is handled, and the only index out of range is that of a leg that the
timetable does not have. -/
theorem Carried.in_range (carried : N.Carried) {d : Datagram} (onward : N.Onward d)
    (short : d.text.length < MAXDATASIZE) {x : V} (leads : N.resolve d.ip d.port = some x) :
    ∃ p outcome, load_payload d.text = .ok p ∧ udp_branch (N.station x) d.text = .ok outcome ∧
      ((N.station x).InRange outcome.looked ↔ (N.station x).Served p) := by
  obtain ⟨p, path, loaded, tracked⟩ := onward short x leads
  obtain ⟨outcome, handled, _, range, _⟩ := carried.safe tracked
  refine ⟨p, outcome, loaded, ?_, range⟩
  rw [udp_branch_loaded loaded tracked.stage.placed]
  exact handled

/-- Every delivery stays within the arrays of the payload, and within the timetable
exactly if the station serves the payload. -/
theorem indices_in_range (carried : N.Carried) {qs : List (Query V)} (asked : ∀ q ∈ qs, N.Asked q)
    {s : Pool Datagram (V × PAYLOAD)} (run : Reaches N.react (launch (qs.map N.init)) s) :
    (∀ f ∈ s.flying, f.msg.text.length < MAXDATASIZE → ∀ x, N.resolve f.msg.ip f.msg.port = some x →
      ∃ p outcome, load_payload f.msg.text = .ok p ∧ udp_branch (N.station x) f.msg.text = .ok outcome ∧
        ((N.station x).InRange outcome.looked ↔ (N.station x).Served p)) ∧
    (∀ r ∈ s.log, ∀ answers, (answers = [] ∨ ∃ r' ∈ s.log, craft_payload r'.out.2 = .ok answers) →
      ∃ answer, finish (N.station r.out.1) answers r.out.2 = .ok answer) ∧
    ∀ q : Query V, Token ' ' 60 q.destination → Token ';' 5 q.start_time →
      q.destination = N.name q.source →
        udp_branch (N.station q.source) (N.init q).text = .error .index := by
  obtain ⟨flying, filed⟩ := carried.onward_run asked run
  refine ⟨fun f member short x leads => carried.in_range (flying f member) short leads,
    fun r member answers stored => ?_, fun q destination start_time own => own_name_out_of_range
      (carried.toWorded.fresh_loadable destination start_time) own⟩
  refine finish_in_range (filed r member) (stored.imp_right ?_)
  rintro ⟨r', earlier, crafted⟩
  exact ⟨_, filed r' earlier, crafted⟩

theorem turning_served : (twoStops.station false).Served (twoStops.payload toStationB (.back [false, true] 1)) where
  reach other := absurd other (by decide)
  turn _ _ next there := by
    have bus9 : bus "09:00" "bus9" "09:20" "StationB" ∈ (twoStops.station false).entries := by decide
    have known : (twoStops.payload toStationB (.back [false, true] 1)).stations[1]? =
        some "StationB".toList := by decide
    obtain rfl := Option.some.inj (known.symm.trans there)
    exact ⟨fun _ => .inl ⟨_, bus9, by decide, by decide⟩, fun other => absurd other (by decide)⟩
  ride other := absurd other (by decide)

/-- Back at its source the payload boards a bus. -/
theorem turning_is_in_range : ∃ outcome,
    udp_branch (twoStops.station false) turning.msg.text = .ok outcome ∧
      (twoStops.station false).InRange outcome.looked := by
  have range := indices_in_range twoStops_regular.toCarried toStationB_asked runs_turning.reaches
  obtain ⟨p, outcome, loaded, ran, range⟩ := range.1 turning (Multiset.mem_singleton_self _)
    (by decide +kernel) false (by decide +kernel)
  have known : load_payload turning.msg.text = .ok (twoStops.payload toStationB (.back [false, true] 1)) := by
    decide +kernel
  obtain rfl := Except.ok.inj (known.symm.trans loaded)
  exact ⟨outcome, ran, range.mpr turning_served⟩

end Network

/-- From StationA to StationA. -/
def toStationA : Query Bool := ⟨"StationA".toList, false, "08:00".toList⟩

/-- Too late for the last bus. -/
def tooLate : Query Bool := ⟨"StationB".toList, false, "23:30".toList⟩

theorem tooLate_outbound : twoStops.react (twoStops.init tooLate) = some ([⟨"127.0.0.1".toList,
    "4004".toList, "0 1 1 StationA 127.0.0.1:4002 ... ... StationB StationA 23:30;".toList⟩], []) := by
  decide +kernel

theorem tooLate_turned : twoStops.react ⟨"127.0.0.1".toList, "4004".toList,
      "0 1 1 StationA 127.0.0.1:4002 ... ... StationB StationA 23:30;".toList⟩ =
    some ([⟨"127.0.0.1".toList, "4002".toList,
      "1 2 1 StationA StationB 127.0.0.1:4002 127.0.0.1:4004 ... bus7 ... 10:20 StationB StationA 23:30;".toList⟩],
      []) := by
  decide +kernel

/-- The station asked for itself reads behind `stations`; a search that finds nothing is
followed by a look at `Timetable[-1]`. -/
theorem twoStops_index_faults :
    (∃ s, Reaches twoStops.react (launch ([toStationA].map twoStops.init)) s ∧
      ∃ f ∈ s.flying, f.msg.text.length < MAXDATASIZE ∧ ∃ x,
        twoStops.resolve f.msg.ip f.msg.port = some x ∧
          udp_branch (twoStops.station x) f.msg.text = .error .index) ∧
    ∃ s, Reaches twoStops.react (launch ([tooLate].map twoStops.init)) s ∧
      ∃ f ∈ s.flying, f.msg.text.length < MAXDATASIZE ∧ ∃ x,
        twoStops.resolve f.msg.ip f.msg.port = some x ∧ ∃ outcome,
          udp_branch (twoStops.station x) f.msg.text = .ok outcome ∧
            ¬ (twoStops.station x).InRange outcome.looked := by
  have late : Runs twoStops.react (launch ([tooLate].map twoStops.init))
      ⟨{⟨0, [], twoStops.init tooLate⟩}, []⟩ := .refl
  have turned := (late.forward tooLate_outbound).forward tooLate_turned
  constructor
  · refine ⟨_, .refl, ⟨0, [], twoStops.init toStationA⟩, Multiset.mem_singleton_self _, ?_, false, ?_, ?_⟩ <;>
      decide +kernel
  · refine ⟨_, turned.reaches, _, Multiset.mem_singleton_self _, by decide +kernel, false, rfl, _, rfl, ?_⟩
    intro range
    exact absurd (range (-1) (by decide +kernel)).1 (by decide)

end TransitNet

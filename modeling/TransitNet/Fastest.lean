import TransitNet.Storing

/-! The fastest ride. When the traffic of a network of Python stations has ended, the answer that is
stored for a question arrives no later than any ride along any simple path. -/
namespace TransitNet
open Soup Relay Journey Words Utf8

variable {V : Type*}

/-! ### Rides -/

/-- `time_to_minutes`, of a time that it can read. -/
def minuteValue (t : Text) : ℤ := (time_to_minutes t).toOption.getD 0

theorem Timed.minuteValue {t : Text} (timed : Timed t) : minuteValue t = timeToMinutes (fun _ => 0) t := by
  rw [TransitNet.minuteValue, timed.same]
  rfl

/-- In a sorted list, what is found stands before everything else that could have been found. -/
theorem first_found {α : Type*} {before : α → α → Prop} {xs : List α} (sorted : xs.Pairwise before)
    {p : α → Bool} {first a : α} (found : xs.find? p = some first) (member : a ∈ xs) (hit : p a = true) :
    a = first ∨ before first a := by
  obtain ⟨_, front, back, rfl, missed⟩ := List.find?_eq_some_iff_append.mp found
  rcases List.mem_append.mp member with early | here
  · have other := missed a early
    rw [hit] at other
    cases other
  · have behind := (List.pairwise_cons.mp (List.pairwise_append.mp sorted).2.1).1
    exact (List.mem_cons.mp here).imp_right (behind a)

/-- Sorted by departure, and towards one station what is listed later arrives no earlier. -/
def PyStation.Ordered (st : PyStation) : Prop :=
  (st.entries.drop 1).Pairwise fun entry entry' =>
    minuteValue (columns entry).departure_time ≤ minuteValue (columns entry').departure_time ∧
      ((columns entry).arrival_station = (columns entry').arrival_station →
        minuteValue (columns entry).arrival_time ≤ minuteValue (columns entry').arrival_time)

/-- Sorted by departure, and towards one station what departs later arrives no earlier. -/
def PyStation.NoOvertaking (st : PyStation) : Prop :=
  (st.entries.drop 1).Pairwise fun entry entry' =>
    minuteValue (columns entry).departure_time ≤ minuteValue (columns entry').departure_time ∧
      ((columns entry).arrival_station = (columns entry').arrival_station →
        minuteValue (columns entry).departure_time < minuteValue (columns entry').departure_time →
          minuteValue (columns entry).arrival_time ≤ minuteValue (columns entry').arrival_time)

instance (st : PyStation) : Decidable st.Ordered := inferInstanceAs (Decidable (List.Pairwise _ _))

instance (st : PyStation) : Decidable st.NoOvertaking := inferInstanceAs (Decidable (List.Pairwise _ _))

namespace PyNetwork
variable {P : PyNetwork V}

/-- An entry of the timetable at `x` that goes to `y`. -/
def Boards (P : PyNetwork V) (x y : V) (departure arrival : Text) : Prop :=
  ∃ entry ∈ (P.station x).entries.drop 1, (columns entry).departure_time = departure ∧
    (columns entry).arrival_time = arrival ∧ (columns entry).arrival_station = P.name y

/-- A ride along a path: on each leg an entry that departs no earlier than the arrival of the leg before. -/
abbrev Rides (P : PyNetwork V) : Text → List V → Text → Prop := Ride minuteValue P.Boards

/-- A path without repetition from the source of a query to its destination. -/
def SimplePath (P : PyNetwork V) (q : Query V) (path : List V) : Prop :=
  path.Nodup ∧ path.head? = some q.source ∧
    path.IsChain (fun x y => ⟨P.ip y, P.port y⟩ ∈ (P.station x).neighbours) ∧
    ∃ d, path.getLast? = some d ∧ P.name d = q.destination

/-- The earliest time at which the destination can be reached, or `99:99` where it cannot. -/
structure Fastest (P : PyNetwork V) (q : Query V) (t : Text) : Prop where
  earliest : ∀ path a, P.SimplePath q path → P.Rides q.start_time path a → minuteValue t ≤ minuteValue a
  ridden : t = unreachable_time ∨ ∃ path, P.SimplePath q path ∧ P.Rides q.start_time path t
  lost_iff : t = unreachable_time ↔ ¬ ∃ path a, P.SimplePath q path ∧ P.Rides q.start_time path a

theorem Wired.linked_iff (h : P.Wired) {x y : V} :
    y ∈ h.twin.nbrs x ↔ ⟨P.ip y, P.port y⟩ ∈ (P.station x).neighbours := by
  rw [h.neighbours_eq]
  refine ⟨fun near => List.mem_map_of_mem near, fun near => ?_⟩
  obtain ⟨z, near, same⟩ := List.mem_map.mp near
  obtain ⟨ip, port⟩ := PyNeighbours.mk.inj same
  have home := h.home z
  rw [ip, port, h.home y, Option.some.injEq] at home
  exact home ▸ near

theorem Wired.simplePath_iff (h : P.Wired) {q : Query V} {path : List V} :
    Route h.twin.nbrs (h.twin.task.goal q) q.source path ↔ P.SimplePath q path := by
  have linked : (fun x y => y ∈ h.twin.nbrs x) = fun x y => ⟨P.ip y, P.port y⟩ ∈ (P.station x).neighbours := by
    funext x y
    exact propext h.linked_iff
  rw [h.twin_wired.route_iff, Network.SimplePath, linked]
  exact Iff.rfl

section Legs
variable {x y : V} {t : Text}

/-- What the twin boards is an entry of the timetable. -/
theorem Regular.boards (h : P.Regular) {e : TIMETABLE}
    (boards : (P.station x).twin.boarding t (P.name y) = some e) :
    P.Boards x y e.departure_time e.arrival_time ∧
      timeToMinutes (fun _ => 0) t ≤ timeToMinutes (fun _ => 0) e.departure_time := by
  obtain ⟨member, station, late⟩ := Station.boarding_spec boards
  rw [PyStation.twin_entries] at member
  rcases List.mem_cons.mp member with rfl | row
  · exact absurd (station ▸ by decide : ' ' ∈ P.name y) ((h.name y).not_mem (by decide))
  · obtain ⟨entry, inside, rfl⟩ := List.mem_map.mp row
    exact ⟨⟨entry, inside, rfl, rfl, station⟩, late⟩

theorem Regular.boards_told (h : P.Regular) {d a : Text} (boards : P.Boards x y d a) : HHMM d ∧ HHMM a := by
  obtain ⟨entry, inside, rfl, rfl, _⟩ := boards
  exact (h.entries x entry inside).2

/-- Each leg is lost, or boards something. -/
theorem Regular.leg_boards (h : P.Regular) (x y : V) (t : Text) : (h.twin.leg x y t).1 = unreachable_time ∨
    ∃ d, P.Boards x y d (h.twin.leg x y t).1 ∧ timeToMinutes (fun _ => 0) t ≤ timeToMinutes (fun _ => 0) d := by
  cases boards : (P.station x).twin.boarding t (P.name y) with
  | none =>
      left
      have lost : (h.twin.leg x y t).1 = ((P.station x).twin.leg t (P.name y)).1 := rfl
      rw [lost, Station.leg, boards]
  | some e =>
      right
      have rode : (h.twin.leg x y t).1 = ((P.station x).twin.leg t (P.name y)).1 := rfl
      rw [rode, Station.leg, boards]
      exact ⟨e.departure_time, h.boards boards⟩

/-- After the end of the day nothing can be boarded. -/
theorem Regular.boarding_lost (h : P.Regular) (x y : V) :
    (P.station x).twin.boarding unreachable_time (P.name y) = none := by
  cases boards : (P.station x).twin.boarding unreachable_time (P.name y) with
  | none => rfl
  | some e =>
      obtain ⟨boarded, late⟩ := h.boards boards
      have day := (h.boards_told boarded).1.minutes (fun _ => 0)
      rw [timeToMinutes_unreachable] at late
      omega

theorem Regular.leg_lost (h : P.Regular) (x y : V) : (h.twin.leg x y unreachable_time).1 = unreachable_time := by
  have lost : (h.twin.leg x y unreachable_time).1 = ((P.station x).twin.leg unreachable_time (P.name y)).1 := rfl
  rw [lost, Station.leg, h.boarding_lost]

theorem Regular.boarding_found (h : P.Regular) (x y : V) (t : Text) : (P.station x).twin.boarding t (P.name y) =
    (((P.station x).entries.drop 1).find? fun entry =>
      TransitNet.boards (fun _ => 0) t (P.name y) (columns entry)).map columns := by
  have entries := (P.station x).twin_entries
  have passed : ¬ TransitNet.boards (fun _ => 0) t (P.name y) halt = true := fun goes =>
    (h.name y).not_mem (by decide) ((boards_iff.mp goes).2 ▸ by decide : ' ' ∈ P.name y)
  have unset : (P.station x).twin.unset = fun _ => 0 := rfl
  rw [Station.boarding, entries, unset, List.find?_cons_of_neg passed, List.find?_map]
  rfl

/-- Nothing that can be boarded arrives before the entry that is listed first. -/
theorem Regular.leg_soon (h : P.Regular) (ordered : ∀ x, (P.station x).Ordered) (x y : V) (t d a : Text)
    (boards : P.Boards x y d a) (late : timeToMinutes (fun _ => 0) t ≤ timeToMinutes (fun _ => 0) d) :
    timeToMinutes (fun _ => 0) (h.twin.leg x y t).1 ≤ timeToMinutes (fun _ => 0) a := by
  obtain ⟨entry, inside, rfl, rfl, station⟩ := boards
  have hit : TransitNet.boards (fun _ => 0) t (P.name y) (columns entry) = true := boards_iff.mpr ⟨late, station.symm⟩
  obtain ⟨first, found⟩ : ∃ first, ((P.station x).entries.drop 1).find? (fun entry =>
      TransitNet.boards (fun _ => 0) t (P.name y) (columns entry)) = some first :=
    Option.isSome_iff_exists.mp (List.find?_isSome.mpr ⟨entry, inside, hit⟩)
  have leg : (h.twin.leg x y t).1 = (columns first).arrival_time := by
    have same : (h.twin.leg x y t).1 = ((P.station x).twin.leg t (P.name y)).1 := rfl
    rw [same, Station.leg, h.boarding_found, found]
    rfl
  have told : ∀ e ∈ (P.station x).entries.drop 1, minuteValue (columns e).arrival_time =
      timeToMinutes (fun _ => 0) (columns e).arrival_time := fun e member =>
    Timed.minuteValue (.inl (h.entries x e member).2.2)
  rw [leg, ← told first (List.mem_of_find?_eq_some found), ← told entry inside]
  rcases first_found (ordered x) found inside hit with rfl | order
  · exact Int.le_refl _
  · have met := List.find?_some found
    exact order.2 ((boards_iff.mp met).2.symm.trans station.symm)

end Legs

end PyNetwork

/-! ### The traffic -/

/-- The stations' variables, and the datagrams in flight. -/
structure PyTraffic (V : Type*) where
  servers : V → PyServer
  flying : Multiset PyDatagram

namespace PyNetwork
variable {P : PyNetwork V}

/-- A datagram that fits in the receive buffer reaches the station that it is sent to. -/
inductive Delivers [DecidableEq V] (P : PyNetwork V) : PyTraffic V → PyTraffic V → Prop
  | mk {servers : V → PyServer} {rest : Multiset PyDatagram} {d : PyDatagram} {x : V} {data : Text}
      {server : PyServer} {sent : List PyDatagram} : P.resolve d.ip_addr d.udp_port = some x →
      (encode d.message).length ≤ 1024 → recvfrom d.message = .ok data →
      (servers x).datagram (P.station x) data = .ok (server, sent) →
      Delivers P ⟨servers, d ::ₘ rest⟩ ⟨Function.update servers x server, rest + sent⟩

/-- Every datagram is delivered once at most, in any order, and none is lost. -/
abbrev Delivered [DecidableEq V] (P : PyNetwork V) : PyTraffic V → PyTraffic V → Prop :=
  Relation.ReflTransGen P.Delivers

/-- The questions have been asked, and nothing else is on its way. -/
def opening (P : PyNetwork V) (servers : V → PyServer) (qs : List (Query V)) : PyTraffic V :=
  ⟨servers, (qs.map fun q => (P.station q.source).ask q.destination q.start_time : List PyDatagram)⟩

/-- A question for another station, at a time of day, that is in the store and has no answer yet. -/
structure Asks (P : PyNetwork V) (servers : V → PyServer) (q : Query V) : Prop where
  away : q.destination ≠ P.name q.source
  named : Word parts q.destination
  clock : HHMM q.start_time
  unanswered : ∃ entry, (servers q.source).queries.search_query q.destination q.start_time = some entry ∧
    entry.answers = none

/-- The payload that a route of the search comes home with. -/
abbrev Wired.final (h : P.Wired) (q : Query V) (path : List V) : PAYLOAD := h.finished q q.start_time path

/-- The datagram that carries a message of the search. -/
def Wired.carrier (h : P.Wired) (m : Query V × Phase V) : PyDatagram := h.datagram m.1 m.1.start_time m.2

/-- Of the routes that have come home, the answer is one that nobody is ahead of. -/
def Wired.Best (h : P.Wired) (q : Query V) (found : List V → Prop) : Option Text → Prop
  | none => ∀ path, ¬ found path
  | some a => ∃ path, found path ∧ serialize (h.final q path) = a ∧
      ∀ path', found path' → (h.final q path).NoLater (h.final q path')

/-- The route has come home. -/
def Home (log : List (Report (Query V × Phase V) (Query V × List V))) (q : Query V) (path : List V) : Prop :=
  ∃ r ∈ log, r.out = (q, path)

theorem home_file {log : List (Report (Query V × Phase V) (Query V × List V))} {f : Flight (Query V × Phase V)}
    {paths : List (List V)} {q : Query V} {path : List V} :
    Home (log ++ f.file (paths.map (Prod.mk f.msg.1))) q path ↔ Home log q path ∨ q = f.msg.1 ∧ path ∈ paths := by
  constructor
  · rintro ⟨r, member, out⟩
    rcases List.mem_append.mp member with before | now
    · exact .inl ⟨r, before, out⟩
    · obtain ⟨o, filed, rfl⟩ := mem_file.mp now
      obtain ⟨path', inside, rfl⟩ := List.mem_map.mp filed
      cases out
      exact .inr ⟨rfl, inside⟩
  · rintro (⟨r, before, out⟩ | ⟨rfl, inside⟩)
    · exact ⟨r, List.mem_append_left _ before, out⟩
    · exact ⟨_, List.mem_append_right _ (mem_file.mpr ⟨_, List.mem_map_of_mem inside, rfl⟩), rfl⟩

/-- The traffic is that of a search, and each question has the best of the routes that have come home. -/
structure Wired.Tracks (h : P.Wired) (qs : List (Query V)) (s : PyTraffic V)
    (t : Pool (Query V × Phase V) (Query V × List V)) : Prop where
  flying : s.flying = t.flying.map fun f => h.carrier f.msg
  stored : ∀ q ∈ qs, ∃ entry, (s.servers q.source).queries.search_query q.destination q.start_time = some entry ∧
    h.Best q (Home t.log q) entry.answers

section Tracks
variable {qs : List (Query V)} {servers : V → PyServer}

theorem Wired.opening_tracks (h : P.Wired) (asked : ∀ q ∈ qs, P.Asks servers q) :
    h.Tracks qs (P.opening servers qs) (launch (qs.map h.twin.task.opening)) where
  flying := by
    have numbered := mapIdx_map_map qs h.twin.task.opening
      (fun i m => (⟨i, [], m⟩ : Flight (Query V × Phase V))) fun f => h.carrier f.msg
    have plain : (qs.mapIdx fun _ q => h.carrier (h.twin.task.opening q)) =
        qs.map fun q => h.carrier (h.twin.task.opening q) :=
      List.mapIdx_eq_iff.mpr fun i => List.getElem?_map
    rw [launch, Multiset.map_coe, numbered, plain]
    rfl
  stored q member := by
    obtain ⟨entry, found, blank⟩ := (asked q member).unanswered
    refine ⟨entry, found, ?_⟩
    rw [blank]
    rintro path ⟨r, impossible, _⟩
    exact absurd impossible List.not_mem_nil

theorem Wired.home_route {h : P.Wired} {t : Pool (Query V × Phase V) (Query V × List V)}
    (good : t.Good (h.twin.Afoot qs) (h.twin.Answered qs)) {q : Query V} {path : List V} (home : Home t.log q path) :
    Route h.twin.nbrs (h.twin.task.goal q) q.source path := by
  obtain ⟨r, member, out⟩ := home
  have reported := (good.2 r member).2.route
  rwa [out] at reported

/-- One more route comes home. -/
theorem Wired.Best.better {h : P.Wired} {q : Query V} {found : List V → Prop} {old : Option Text}
    (best : h.Best q found old) (dated : ∀ path, found path → (h.final q path).Dated) {path : List V}
    (now : (h.final q path).Dated) : ∃ a, PyServer.better old (h.final q path) = .ok a ∧
      h.Best q (fun path' => found path' ∨ path' = path) (some a) := by
  let kind : PAYLOAD → Prop := fun r => ∃ path', (found path' ∨ path' = path) ∧ h.final q path' = r
  have answer : ∀ a, old = some a → ∃ r : PAYLOAD, r.Dated ∧ kind r ∧ serialize r = a := by
    rintro a rfl
    obtain ⟨path', home, text, _⟩ := best
    exact ⟨_, dated path' home, ⟨path', .inl home, rfl⟩, text⟩
  obtain ⟨_, better, _, ⟨winner, home, rfl⟩, last, no_loss⟩ :=
    better_no_later now kind ⟨path, .inr rfl, rfl⟩ answer
  refine ⟨_, better, winner, home, rfl, ?_⟩
  rintro path' (before | rfl)
  · cases old with
    | none => exact absurd before (best path')
    | some a =>
        obtain ⟨path₀, home₀, rfl, ahead⟩ := best
        obtain ⟨r, read, no_later⟩ := no_loss _ rfl
        rw [(dated path₀ home₀).text] at read
        cases read
        exact no_later.trans (ahead path' before)
  · exact last

theorem Regular.final_dated (h : P.Regular) {q : Query V} (asks : P.Asks servers q) {path : List V}
    (route : Route h.twin.nbrs (h.twin.task.goal q) q.source path) : (h.final q path).Dated := by
  have long := route.two_le (Network.away_goal (N := h.twin) asks.away)
  exact h.finished_dated ⟨route, Nat.le_refl 1, long⟩ asks.named asks.clock.word

/-- Questions of one station that differ have different keys. -/
theorem key_ne {q q' : Query V} (differ : q' ≠ q) (place : q'.source = q.source) :
    (q'.destination, q'.start_time) ≠ (q.destination, q.start_time) := by
  intro key
  obtain ⟨destination, source, start_time⟩ := q
  obtain ⟨destination', source', start_time'⟩ := q'
  cases key
  cases place
  exact differ rfl

variable [DecidableEq V]

/-- What a station does with a message of the search. -/
theorem Regular.receives (h : P.Regular) {q : Query V} (asks : P.Asks servers q) {ph : Phase V} {x : V}
    (valid : ph.Valid h.twin.nbrs (h.twin.task.goal q) q.source) (here : ph.at = some x) (server : PyServer) :
    server.datagram (P.station x) (serialize (h.payload q q.start_time ph)) =
      match ph.done.head? with
      | some path => (server.finish (h.final q path)).map fun server =>
          (server, (ph.next h.twin.nbrs (h.twin.task.goal q)).map fun ph' => h.carrier (q, ph'))
      | none => .ok (server.write ((P.station x).left (h.payload q q.start_time ph)
          ⟨(ph.next h.twin.nbrs (h.twin.task.goal q)).map fun ph' => h.carrier (q, ph'), none⟩) none,
            (ph.next h.twin.nbrs (h.twin.task.goal q)).map fun ph' => h.carrier (q, ph')) := by
  have read := (h.payload_legible valid asks.named asks.clock.word).serialize
  have handled := h.handles asks.away ((h.formed q.source).seeks (.inl asks.clock)) valid here
  unfold Wired.Handles at handled
  simp only [PyServer.datagram, read, handled, bind, Except.bind, pure, Except.pure]
  cases ph.done.head? with
  | none => rfl
  | some path =>
      simp only [Option.map_some]
      cases server.finish (h.final q path) <;> rfl

/-- A question whose entry is left alone. -/
theorem Wired.Tracks.kept {h : P.Wired} {s : PyTraffic V} {t : Pool (Query V × Phase V) (Query V × List V)}
    (tracks : h.Tracks qs s t) {q : Query V} (known : q ∈ qs) {x : V} {server : PyServer}
    (searched : q.source = x → server.queries.search_query q.destination q.start_time =
      (s.servers x).queries.search_query q.destination q.start_time) {found : List V → Prop}
    (same : ∀ path, found path ↔ Home t.log q path) :
    ∃ entry, (Function.update s.servers x server q.source).queries.search_query q.destination q.start_time =
      some entry ∧ h.Best q found entry.answers := by
  obtain ⟨entry, stored, best⟩ := tracks.stored q known
  have unchanged : found = Home t.log q := by
    funext path
    exact propext (same path)
  refine ⟨entry, ?_, unchanged ▸ best⟩
  by_cases place : q.source = x
  · rw [place, Function.update_self, searched place, ← place]
    exact stored
  · rwa [Function.update_of_ne place]

/-- A route that comes home leaves the best answer to its question, and no other question is touched. -/
theorem Regular.finishes (h : P.Regular) (asked : ∀ q ∈ qs, P.Asks servers q) {s : PyTraffic V}
    {t : Pool (Query V × Phase V) (Query V × List V)} (tracks : h.Tracks qs s t)
    (good : t.Good (h.twin.Afoot qs) (h.twin.Answered qs)) {q : Query V} (given : q ∈ qs) {path : List V}
    (route : Route h.twin.nbrs (h.twin.task.goal q) q.source path) :
    ∃ server, (s.servers q.source).finish (h.final q path) = .ok server ∧
      ∀ q' ∈ qs, ∃ entry, (Function.update s.servers q.source server q'.source).queries.search_query q'.destination
        q'.start_time = some entry ∧
          h.Best q' (fun path' => Home t.log q' path' ∨ q' = q ∧ path' = path) entry.answers := by
  obtain ⟨entry, found, best⟩ := tracks.stored q given
  have dated : ∀ path, Home t.log q path → (h.final q path).Dated := fun path home =>
    h.final_dated (asked q given) (Wired.home_route good home)
  obtain ⟨a, better, best⟩ := best.better dated (h.final_dated (asked q given) route)
  obtain ⟨server, finished, queries, _⟩ := PyServer.finish_ok (p := h.final q path) found better
  refine ⟨server, finished, fun q' known => ?_⟩
  by_cases same : q' = q
  · subst same
    have now : (fun path' => Home t.log q' path' ∨ q' = q' ∧ path' = path) =
        fun path' => Home t.log q' path' ∨ path' = path := by
      funext path'
      rw [and_iff_right rfl]
    rw [now, Function.update_self, queries]
    exact ⟨_, QueryManager.search_answer found a, best⟩
  · refine tracks.kept known (fun place => ?_) fun path' => or_iff_left fun impossible => same impossible.1
    rw [queries]
    exact QueryManager.search_answer_other (key_ne same place) a

/-- What one delivery sends, and what it makes of the stores. -/
theorem Regular.stores (h : P.Regular) (asked : ∀ q ∈ qs, P.Asks servers q) {s : PyTraffic V}
    {t : Pool (Query V × Phase V) (Query V × List V)} (tracks : h.Tracks qs s t)
    (good : t.Good (h.twin.Afoot qs) (h.twin.Answered qs)) {q : Query V} (given : q ∈ qs) {ph : Phase V} {x : V}
    (valid : ph.Valid h.twin.nbrs (h.twin.task.goal q) q.source) (here : ph.at = some x) {server : PyServer}
    {sent : List PyDatagram}
    (ran : (s.servers x).datagram (P.station x) (serialize (h.payload q q.start_time ph)) = .ok (server, sent)) :
    sent = ((ph.next h.twin.nbrs (h.twin.task.goal q)).map fun ph' => h.carrier (q, ph')) ∧
      ∀ q' ∈ qs, ∃ entry, (Function.update s.servers x server q'.source).queries.search_query q'.destination
        q'.start_time = some entry ∧
          h.Best q' (fun path => Home t.log q' path ∨ q' = q ∧ path ∈ ph.done) entry.answers := by
  have received := h.receives (asked q given) valid here (s.servers x)
  rw [ran] at received
  rcases ph.done_cases with none | ⟨path, done⟩
  · rw [none] at received
    cases received
    refine ⟨rfl, fun q' known => ?_⟩
    apply tracks.kept known
    · exact fun _ => rfl
    · intro path
      rw [none]
      exact or_iff_left fun impossible => List.not_mem_nil impossible.2
  · obtain ⟨rfl, route⟩ := valid.done (by rw [done]; exact List.mem_singleton_self path)
    have start : x = q.source := by
      rw [Phase.at, ← List.head?_eq_getElem?, route.head?] at here
      exact (Option.some.inj here).symm
    subst start
    obtain ⟨server', finished, stored⟩ := h.finishes asked tracks good given route
    rw [done, List.head?_cons] at received
    simp only [finished, Except.map] at received
    cases received
    refine ⟨rfl, ?_⟩
    simp only [done, List.mem_singleton]
    exact stored

/-- Each delivery is one of the search. -/
theorem Regular.delivers_tracks (h : P.Regular) (asked : ∀ q ∈ qs, P.Asks servers q) {s s' : PyTraffic V}
    {t : Pool (Query V × Phase V) (Query V × List V)} (tracks : h.Tracks qs s t)
    (good : t.Good (h.twin.Afoot qs) (h.twin.Answered qs)) (step : P.Delivers s s') :
    ∃ t', Deliver h.twin.task.reaction t t' ∧ h.Tracks qs s' t' := by
  cases step with
  | @mk servers' rest d x data server sent resolved fits received ran =>
      obtain ⟨f, others, pool, image, rfl⟩ := flight_of_map tracks.flying.symm
      have member : f ∈ t.flying := by
        rw [pool]
        exact Multiset.mem_cons_self f others
      obtain ⟨given, sound⟩ := good.1 f member
      obtain ⟨y, here⟩ := Phase.Valid.at_isSome sound.valid
      have carried := h.datagram_at f.msg.1 f.msg.1.start_time here
      have whole : h.carrier f.msg = d := image
      rw [Wired.carrier, carried] at whole
      subst whole
      rw [h.home y, Option.some.injEq] at resolved
      subst resolved
      rw [recvfrom, if_pos fits, Except.ok.injEq] at received
      subst received
      obtain ⟨rfl, stored⟩ := h.stores asked tracks good given sound.valid here ran
      let out := (f.msg.2.next h.twin.nbrs (h.twin.task.goal f.msg.1)).map (Prod.mk f.msg.1)
      let reports := f.msg.2.done.map (Prod.mk f.msg.1)
      have handed : Deliver h.twin.task.reaction ⟨f ::ₘ others, t.log⟩
          ⟨others + f.spawn out, t.log ++ f.file reports⟩ := .mk rfl
      rw [← pool] at handed
      refine ⟨_, handed, ?_, fun q' known => ?_⟩
      · have sent : (f.spawn out).map (fun f => h.carrier f.msg) =
            (f.msg.2.next h.twin.nbrs (h.twin.task.goal f.msg.1)).map fun ph' => h.carrier (f.msg.1, ph') := by
          rw [Flight.spawn, List.map_map, List.map_map]
          rfl
        rw [Multiset.map_add, Multiset.map_coe, sent]
      · obtain ⟨entry, found, best⟩ := stored q' known
        have homes : (fun path => Home t.log q' path ∨ q' = f.msg.1 ∧ path ∈ f.msg.2.done) =
            Home (t.log ++ f.file reports) q' := by
          funext path
          exact propext home_file.symm
        rw [homes] at best
        exact ⟨entry, found, best⟩

theorem Regular.delivered_tracks (h : P.Regular) (asked : ∀ q ∈ qs, P.Asks servers q) {s : PyTraffic V}
    (run : P.Delivered (P.opening servers qs) s) :
    ∃ t, Runs h.twin.task.reaction (launch (qs.map h.twin.task.opening)) t ∧ h.Tracks qs s t ∧
      t.Good (h.twin.Afoot qs) (h.twin.Answered qs) := by
  have preserved := h.twin_wired.afoot_preserved qs
  induction run with
  | refl => exact ⟨_, .refl, h.opening_tracks asked, Network.launch_afoot fun q member => (asked q member).away⟩
  | tail _ step ih =>
      obtain ⟨t, before, tracks, good⟩ := ih
      obtain ⟨t', handed, tracks⟩ := h.delivers_tracks asked tracks good step
      exact ⟨t', before.tail handed, tracks, (Step.deliver handed).good preserved good⟩

end Tracks

/-! ### The earliest arrival -/

/-- The departure that is written at the source changes nothing: it leads to the same arrivals. -/
theorem Regular.arrival_departure (h : P.Regular) (q : Query V) {path : List V} (long : 2 ≤ path.length) :
    arrival h.twin.leg (h.twin.departure q path) path = arrival h.twin.leg q.start_time path := by
  match path, long with
  | x :: y :: rest, _ =>
      have leaves : h.twin.departure q (x :: y :: rest) = (P.station x).twin.departure q.start_time (P.name y) := rfl
      have goes : ∀ t, (h.twin.leg x y t).1 = ((P.station x).twin.leg t (P.name y)).1 := fun _ => rfl
      have same : (h.twin.leg x y (h.twin.departure q (x :: y :: rest))).1 = (h.twin.leg x y q.start_time).1 := by
        rw [leaves, Station.departure]
        cases boards : (P.station x).twin.boarding q.start_time (P.name y) with
        | none =>
            rw [goes q.start_time, Station.leg, boards]
            exact h.leg_lost x y
        | some e => rw [goes, goes, Station.leg, Station.leg, Station.boarding_again boards, boards]
      rw [arrival, arrival, same]

/-- The last time of a finished payload is the arrival at the end of its path. -/
theorem Regular.last_time (h : P.Regular) (q : Query V) {path : List V} (long : 2 ≤ path.length) :
    pyIndex (h.final q path).time ((h.final q path).hops - 1) = .ok (arrival h.twin.leg q.start_time path) ∧
      Timed (arrival h.twin.leg q.start_time path) := by
  have last : (h.twin.rideTimes q path).getLast? = some (arrival h.twin.leg q.start_time path) := by
    rw [Network.rideTimes, times_getLast, h.arrival_departure q long]
  have place : (h.final q path).hops - 1 = (path.length - 1 + 1 - 1 : ℕ) := by
    simp only [Wired.final, Wired.finished, Network.finished, Network.onPath]
    omega
  refine ⟨?_, h.rideTimes_timed q path _ (List.mem_of_getLast? last)⟩
  rw [List.getLast?_eq_getElem?, Network.length_rideTimes] at last
  rw [place]
  exact pyIndex_nat last

theorem Regular.final_minutes (h : P.Regular) (q : Query V) {path : List V} (long : 2 ≤ path.length) :
    (h.final q path).last_minutes = .ok (timeToMinutes (fun _ => 0) (arrival h.twin.leg q.start_time path)) := by
  obtain ⟨last, timed⟩ := h.last_time q long
  rw [PAYLOAD.last_minutes, last]
  exact timed.same

theorem Regular.no_later_iff (h : P.Regular) (q : Query V) {path path' : List V} (long : 2 ≤ path.length)
    (long' : 2 ≤ path'.length) : (h.final q path).NoLater (h.final q path') ↔
      minuteValue (arrival h.twin.leg q.start_time path) ≤ minuteValue (arrival h.twin.leg q.start_time path') := by
  have minutes := h.final_minutes q long
  have minutes' := h.final_minutes q long'
  rw [(h.last_time q long).2.minuteValue, (h.last_time q long').2.minuteValue]
  refine ⟨fun ⟨n, m, arrives, arrives', le⟩ => ?_, .of_le minutes minutes'⟩
  rw [minutes, Except.ok.injEq] at arrives
  rw [minutes', Except.ok.injEq] at arrives'
  rwa [arrives, arrives']

/-- The journey that nobody on another path is ahead of is the fastest ride. -/
theorem Regular.fastest (h : P.Regular) (ordered : ∀ x, (P.station x).Ordered) {q : Query V}
    (clock : HHMM q.start_time) {path : List V} (simple : P.SimplePath q path)
    (timed : ∀ path', P.SimplePath q path' → Timed (arrival h.twin.leg q.start_time path'))
    (ahead : ∀ path', P.SimplePath q path' →
      minuteValue (arrival h.twin.leg q.start_time path) ≤ minuteValue (arrival h.twin.leg q.start_time path')) :
    P.Fastest q (arrival h.twin.leg q.start_time path) := by
  have told : ∀ x y d a, P.Boards x y d a → HHMM d ∧ HHMM a := fun x y d a boards => h.boards_told boards
  have same : ∀ t, HHMM t → minuteValue t = timeToMinutes (fun _ => 0) t := fun t clock => Timed.minuteValue (.inl clock)
  have clocked : ∀ path' a, P.Rides q.start_time path' a → HHMM a := by
    intro path' a rides
    rcases rides.ends with rfl | ⟨x, y, d, boards⟩
    · exact clock
    · exact (told x y d a boards).2
  have earliest : ∀ path' a, P.SimplePath q path' → P.Rides q.start_time path' a →
      minuteValue (arrival h.twin.leg q.start_time path) ≤ minuteValue a := by
    intro path' a simple' rides
    have soon := arrival_le (h.leg_soon ordered) (rides.congr told same clock) (Int.le_refl _)
    rw [← (timed path' simple').minuteValue, ← same a (clocked path' a rides)] at soon
    exact Int.le_trans (ahead path' simple') soon
  have ridden : arrival h.twin.leg q.start_time path = unreachable_time ∨
      P.Rides q.start_time path (arrival h.twin.leg q.start_time path) := by
    obtain ⟨rest, rfl⟩ := List.head?_eq_some_iff.mp simple.2.1
    exact (arrival_ride h.leg_boards h.leg_lost q.start_time q.source rest).imp_right fun rides =>
      rides.congr told (fun t told => (same t told).symm) clock
  refine ⟨earliest, ridden.imp_right fun rides => ⟨path, simple, rides⟩, fun lost => ?_, fun none => ?_⟩
  · rintro ⟨path', a, simple', rides⟩
    have late := earliest path' a simple' rides
    have day := (clocked path' a rides).minutes (fun _ => 0)
    rw [lost, Timed.minuteValue (.inr (.inl rfl)), timeToMinutes_unreachable, same a (clocked path' a rides)] at late
    omega
  · exact ridden.resolve_right fun rides => none ⟨path, _, simple, rides⟩

/-- When the traffic has ended, the answer to a question arrives no later than any ride to its destination. -/
theorem stored_answer_is_the_fastest [DecidableEq V] (h : P.Regular) (ordered : ∀ x, (P.station x).Ordered)
    {qs : List (Query V)} {servers : V → PyServer} (asked : ∀ q ∈ qs, P.Asks servers q) {s : PyTraffic V}
    (run : P.Delivered (P.opening servers qs) s) (quiet : s.flying = 0) {q : Query V} (member : q ∈ qs)
    (connected : ∃ path, P.SimplePath q path) :
    ∃ entry a r t, (s.servers q.source).queries.search_query q.destination q.start_time = some entry ∧
      entry.answers = some a ∧ deserialize a = .ok r ∧ r.found = 4 ∧ r.key = (q.destination, q.start_time) ∧
      pyIndex r.time (r.hops - 1) = .ok t ∧ P.Fastest q t := by
  obtain ⟨t, before, tracks, good⟩ := h.delivered_tracks asked run
  have ended : t.flying = 0 := by
    have none := tracks.flying
    rw [quiet] at none
    exact Multiset.map_eq_zero.mp none.symm
  have away : ∀ q ∈ qs, h.twin.task.goal q (h.twin.task.source q) = false := fun q known =>
    Network.away_goal (N := h.twin) (asked q known).away
  have homes : ∀ path, P.SimplePath q path → Home t.log q path := fun path simple =>
    reported_all h.twin_wired.loopless away before ended member (h.simplePath_iff.mpr simple)
  have long : ∀ path, P.SimplePath q path → 2 ≤ path.length := fun path simple =>
    (h.simplePath_iff.mpr simple).two_le (away q member)
  obtain ⟨entry, found, best⟩ := tracks.stored q member
  cases answers : entry.answers with
  | none =>
      rw [answers] at best
      obtain ⟨path, simple⟩ := connected
      exact absurd (homes path simple) (best path)
  | some a =>
      rw [answers] at best
      obtain ⟨path, home, rfl, ahead⟩ := best
      have route := Wired.home_route good home
      have simple := h.simplePath_iff.mp route
      refine ⟨entry, _, h.final q path, _, found, answers, (h.final_dated (asked q member) route).text, rfl, rfl,
        (h.last_time q (long path simple)).1, ?_⟩
      refine h.fastest ordered (asked q member).clock simple (fun path' simple' => ?_) fun path' simple' => ?_
      · exact (h.last_time q (long path' simple')).2
      · exact (h.no_later_iff q (long path simple) (long path' simple')).mp (ahead path' (homes path' simple'))

/-! ### Runs -/

section Runs
variable [DecidableEq V]

/-- The next datagram is delivered, and what it causes goes behind the others. -/
def deliver_next (P : PyNetwork V) (servers : V → PyServer) :
    List PyDatagram → Option ((V → PyServer) × List PyDatagram)
  | [] => none
  | d :: rest =>
      match P.resolve d.ip_addr d.udp_port with
      | none => none
      | some x =>
          if (encode d.message).length ≤ 1024 then
            match (servers x).datagram (P.station x) d.message with
            | .ok (server, sent) => some (Function.update servers x server, rest ++ sent)
            | .error _ => none
          else none

/-- Datagrams are delivered in turn until none is left. -/
def deliver_all (P : PyNetwork V) : ℕ → (V → PyServer) → List PyDatagram → Option (V → PyServer)
  | _, servers, [] => some servers
  | 0, _, _ :: _ => none
  | fuel + 1, servers, d :: rest => do
      let (servers, flying) ← P.deliver_next servers (d :: rest)
      P.deliver_all fuel servers flying

theorem deliver_next_delivers {servers servers' : V → PyServer} {flying flying' : List PyDatagram}
    (ran : P.deliver_next servers flying = some (servers', flying')) :
    P.Delivers ⟨servers, flying⟩ ⟨servers', flying'⟩ := by
  cases flying with
  | nil => cases ran
  | cons d rest =>
      rw [deliver_next] at ran
      split at ran
      · cases ran
      rename_i x resolved
      split at ran
      · rename_i fits
        split at ran
        · rename_i server sent handled
          cases ran
          have received : recvfrom d.message = .ok d.message := if_pos fits
          have delivered : P.Delivers ⟨servers, d ::ₘ (rest : Multiset PyDatagram)⟩
              ⟨Function.update servers x server, rest + sent⟩ := .mk resolved fits received handled
          rwa [Multiset.cons_coe, Multiset.coe_add] at delivered
        · cases ran
      · cases ran

theorem deliver_all_delivered {fuel : ℕ} {servers servers' : V → PyServer} {flying : List PyDatagram}
    (ran : P.deliver_all fuel servers flying = some servers') : P.Delivered ⟨servers, flying⟩ ⟨servers', 0⟩ := by
  induction fuel generalizing servers flying with
  | zero =>
      cases flying with
      | nil =>
          cases ran
          exact .refl
      | cons d rest => cases ran
  | succ fuel ih =>
      cases flying with
      | nil =>
          cases ran
          exact .refl
      | cons d rest =>
          obtain ⟨⟨servers₁, flying₁⟩, next, later⟩ := Option.bind_eq_some_iff.mp ran
          exact (ih later).head (deliver_next_delivers next)

/-- What is stored for a question when all datagrams have been delivered in turn. -/
def answer (P : PyNetwork V) (fuel : ℕ) (servers : V → PyServer) (q : Query V) : Option Text :=
  (P.deliver_all fuel servers [(P.station q.source).ask q.destination q.start_time]).bind fun servers =>
    ((servers q.source).queries.search_query q.destination q.start_time).bind PyQuery.answers

theorem answer_delivered {fuel : ℕ} {servers : V → PyServer} {q : Query V} {a : Text}
    (ran : P.answer fuel servers q = some a) : ∃ s, P.Delivered (P.opening servers [q]) s ∧ s.flying = 0 ∧
      ∃ entry, (s.servers q.source).queries.search_query q.destination q.start_time = some entry ∧
        entry.answers = some a := by
  obtain ⟨servers', delivered, ran⟩ := Option.bind_eq_some_iff.mp ran
  obtain ⟨entry, found, answers⟩ := Option.bind_eq_some_iff.mp ran
  exact ⟨_, deliver_all_delivered delivered, rfl, entry, found, answers⟩

/-- There is a run that ends with an answer which is not the fastest. -/
def Misses (P : PyNetwork V) (servers : V → PyServer) (q : Query V) : Prop :=
  (∃ path, P.SimplePath q path) ∧ ∃ s entry a r t, P.Delivered (P.opening servers [q]) s ∧ s.flying = 0 ∧
    (s.servers q.source).queries.search_query q.destination q.start_time = some entry ∧ entry.answers = some a ∧
    deserialize a = .ok r ∧ pyIndex r.time (r.hops - 1) = .ok t ∧ ¬ P.Fastest q t

theorem misses_of_answer {fuel : ℕ} {servers : V → PyServer} {q : Query V} {a t : Text} {path : List V}
    (simple : P.SimplePath q path) (ran : P.answer fuel servers q = some a)
    (last : (deserialize a >>= fun r => pyIndex r.time (r.hops - 1)) = .ok t) (slow : ¬ P.Fastest q t) :
    P.Misses servers q := by
  obtain ⟨s, delivered, quiet, entry, found, answers⟩ := answer_delivered ran
  obtain ⟨r, read, last⟩ := ok_of_bind last
  exact ⟨⟨path, simple⟩, s, entry, a, r, t, delivered, quiet, found, answers, read, last, slow⟩

end Runs

/-- StationA has been asked for StationB. -/
def waitingForB : Bool → PyServer
  | false => PyServer.askedForB
  | true => .idle

theorem waitingForB_asks {P : PyNetwork Bool} (away : toStationB.destination ≠ P.name false) :
    P.Asks waitingForB toStationB where
  away := away
  named := by decide
  clock := by decide
  unanswered := ⟨{ destination := "StationB".toList, start_time := "08:00".toList }, by decide +kernel, rfl⟩

theorem pyTwoStops_path : pyTwoStops.SimplePath toStationB [false, true] :=
  ⟨by decide, rfl, by decide, true, rfl, rfl⟩

theorem pyTwoStops_answer : pyTwoStops.answer 5 waitingForB toStationB = some
    "4 2 1 StationA StationB 127.0.0.1:4002 127.0.0.1:4004 ... bus1 08:15 08:35 StationB StationA 08:00;".toList := by
  decide +kernel

theorem pyTwoStops_stores_the_fastest : ∃ s, pyTwoStops.Delivered (pyTwoStops.opening waitingForB [toStationB]) s ∧
    s.flying = 0 ∧ ∃ entry a r t,
      (s.servers false).queries.search_query "StationB".toList "08:00".toList = some entry ∧ entry.answers = some a ∧
      deserialize a = .ok r ∧ r.found = 4 ∧ r.key = ("StationB".toList, "08:00".toList) ∧
      pyIndex r.time (r.hops - 1) = .ok t ∧ pyTwoStops.Fastest toStationB t := by
  obtain ⟨s, delivered, quiet, _⟩ := answer_delivered pyTwoStops_answer
  have asked : ∀ q ∈ [toStationB], pyTwoStops.Asks waitingForB q := fun q member =>
    List.mem_singleton.mp member ▸ waitingForB_asks (by decide)
  exact ⟨s, delivered, quiet, stored_answer_is_the_fastest pyTwoStops_regular (by decide +kernel) asked delivered quiet
    (List.mem_singleton_self _) ⟨_, pyTwoStops_path⟩⟩

/-! ### Slower answers -/

/-- Two stations, with another timetable at StationA. -/
def timetabled (entries : List (List Text)) : PyNetwork Bool where
  station
    | false => { pyStationA with entries }
    | true => pyStationB
  argv
    | false => ["127.0.0.1:4004".toList]
    | true => ["127.0.0.1:4002".toList]
  started
    | false => pyStationA_started
    | true => pyStationB_started
  resolve := pyTwoStops.resolve

theorem timetabled_wired (entries : List (List Text)) : (timetabled entries).Wired where
  names x y same := by
    have names := pyTwoStops_regular.names
    cases x <;> cases y <;> exact names same
  dotted x := by
    have dotted := pyTwoStops_regular.dotted x
    cases x <;> exact dotted
  home x := by
    have home := pyTwoStops_regular.home x
    cases x <;> exact home
  others x arg member := by
    have given : arg ∈ pyTwoStops.argv x := by cases x <;> exact member
    have recorded : ∀ y, (timetabled entries).recorded y = pyTwoStops.recorded y := by
      intro y
      cases y <;> rfl
    obtain ⟨y, other, same⟩ := pyTwoStops_regular.others x arg given
    exact ⟨y, other, same.trans (recorded y).symm⟩

theorem timetabled_path (entries : List (List Text)) : (timetabled entries).SimplePath toStationB [false, true] := by
  refine ⟨by decide, rfl, ?_, true, rfl, rfl⟩
  exact .cons_cons (List.mem_singleton_self _) (.singleton _)

/-- Two buses leave at the same time, and the slower one is listed first. -/
def slowFirst : PyNetwork Bool := timetabled [["StationA".toList, "-31.95".toList, "115.86".toList],
  ["08:15".toList, "bus1".toList, "stop1".toList, "09:00".toList, "StationB".toList],
  ["08:15".toList, "bus2".toList, "stop1".toList, "08:35".toList, "StationB".toList]]

/-- The name of a route holds a space. -/
def spacedRoute : PyNetwork Bool := timetabled [["StationA".toList, "-31.95".toList, "115.86".toList],
  ["08:15".toList, "bus 1".toList, "stop1".toList, "08:35".toList, "StationB".toList]]

theorem slowFirst_regular : slowFirst.Regular where
  toWired := timetabled_wired _
  name := by decide
  entries := by decide +kernel
  routes := by decide

theorem slowFirst_misses : slowFirst.Misses waitingForB toStationB := by
  have answer : slowFirst.answer 5 waitingForB toStationB = some
      "4 2 1 StationA StationB 127.0.0.1:4002 127.0.0.1:4004 ... bus1 08:15 09:00 StationB StationA 08:00;".toList := by
    decide +kernel
  refine misses_of_answer (t := "09:00".toList) (timetabled_path _) answer (by decide +kernel) fun fastest => ?_
  have boards : slowFirst.Boards false true "08:15".toList "08:35".toList :=
    ⟨_, List.mem_cons_of_mem _ (List.mem_singleton_self _), rfl, rfl, rfl⟩
  have late := fastest.earliest [false, true] "08:35".toList (timetabled_path _)
    (.board boards (by decide) (.arrived _ _))
  exact absurd late (by decide)

theorem spacedRoute_misses : spacedRoute.Misses waitingForB toStationB := by
  have answer : spacedRoute.answer 5 waitingForB toStationB = some
      "4 2 1 StationA StationB 127.0.0.1:4002 127.0.0.1:4004 ... bus 1 08:15 StationB StationA 08:00;".toList := by
    decide +kernel
  refine misses_of_answer (t := "08:15".toList) (timetabled_path _) answer (by decide +kernel) fun fastest => ?_
  have never : ∀ x, ∀ entry ∈ (spacedRoute.station x).entries.drop 1,
      (columns entry).arrival_time ≠ "08:15".toList := by decide +kernel
  rcases fastest.ridden with lost | ⟨path, _, rides⟩
  · exact absurd lost (by decide)
  · rcases rides.ends with start | ⟨x, y, d, entry, inside, _, arrives, _⟩
    · exact absurd start (by decide)
    · exact never x entry inside arrives

/-- Where timetables are sorted and nothing that departs later arrives earlier, an answer may still be
slower than a ride, or tell a time at which nothing arrives. -/
theorem slower_answers_are_stored :
    (slowFirst.Regular ∧ (∀ x, (slowFirst.station x).NoOvertaking) ∧ slowFirst.Asks waitingForB toStationB ∧
      slowFirst.Misses waitingForB toStationB) ∧
    spacedRoute.Wired ∧ (∀ x, Word parts (spacedRoute.name x)) ∧
      (∀ x, ∀ entry ∈ (spacedRoute.station x).entries.drop 1, 5 ≤ entry.length ∧
        HHMM (columns entry).departure_time ∧ HHMM (columns entry).arrival_time) ∧
      (∀ x, (spacedRoute.station x).NoOvertaking) ∧ spacedRoute.Asks waitingForB toStationB ∧
      spacedRoute.Misses waitingForB toStationB :=
  ⟨⟨slowFirst_regular, by decide +kernel, waitingForB_asks (by decide), slowFirst_misses⟩, timetabled_wired _,
    by decide, by decide +kernel, by decide +kernel, waitingForB_asks (by decide), spacedRoute_misses⟩

end PyNetwork

end TransitNet

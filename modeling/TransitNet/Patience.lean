import TransitNet.Town

/-! What becomes of the browsers of a whole network. Whoever is told anything is told a real way, and
whoever waits for a place that can be reached is told in the end. -/
namespace TransitNet
open Soup Relay
namespace Town

variable {V : Type*} {N : Network V} {s s' : Town V} {x : V} {n : ℕ} {key : Text × Text}

/-- The question that a browser of `x` has asked. -/
abbrev query (x : V) (key : Text × Text) : Query V := ⟨key.1, x, key.2⟩

/-- What a payload says that has come home along the path. -/
abbrev journey (N : Network V) (x : V) (key : Text × Text) (path : List V) : PAYLOAD :=
  (N.finished (query x key, path)).2

/-- The connection has been told one answer, a way to the place that it asked for. -/
def Heard (N : Network V) (s : Town V) (x : V) (n : ℕ) (key : Text × Text) : Prop :=
  ∃ path, Route N.nbrs (N.task.goal (query x key)) x path ∧ (s.server x).Told n (journey N x key path)

/-- The connection waits, and a payload is on its way that may come home along the route. -/
structure Due (N : Network V) (s : Town V) (x : V) (n : ℕ) (key : Text × Text) (route : List V) : Prop where
  waits : (s.server x).Waits n key
  flight : ∃ f ∈ s.pool.flying, ∃ ph : Phase V, f.msg = N.datagram (query x key, ph) ∧
    ph.Valid N.nbrs (N.task.goal (query x key)) x ∧ ph.Leads route

/-- The payloads that the turns of a station have completed. -/
def Homecoming (N : Network V) (x : V) (e : Station × Event) : Prop :=
  ∀ p, completed e = some p → ∃ path, Route N.nbrs (N.task.goal (query x p.key)) x path ∧ p = journey N x p.key path

theorem Proper.homecoming {e : Event} (proper : Proper N x e) : Homecoming N x (N.station x, e) := by
  intro p done
  cases e with
  | datagram buffer => exact proper.elim
  | request fd destination time => cases done
  | ignored fd => cases done
  | timeout => cases done

/-- Whoever waits has asked. -/
theorem Sound.waits_asked (sound : Sound N s) (waits : (s.server x).Waits n key) : N.Asked (query x key) := by
  obtain ⟨c, listed, _, rfl⟩ := waits.listed
  exact sound.asked (query x c.query.key) ((sound.serves x).clients c listed).2

variable [DecidableEq V]

/-- A datagram in flight completes a way from the station where it is taken, if anything. -/
theorem Sound.homecoming (sound : Sound N s) (regular : N.Regular) {f : Flight Datagram}
    (flying : f ∈ s.pool.flying) (leads : N.resolve f.msg.ip f.msg.port = some x)
    (short : f.msg.text.length < MAXDATASIZE) : Homecoming N x (N.station x, .datagram f.msg.text) := by
  intro p done
  obtain ⟨m, wire, sends, _⟩ := sound.flight flying
  obtain ⟨y, here⟩ := Phase.Valid.at_isSome sends.2
  have place := Network.datagram_at (N := N) (q := m.1) here
  rw [wire, place] at leads short done
  obtain rfl := Option.some.inj ((regular.home y).symm.trans leads)
  obtain ⟨path, _, route, rfl, rfl⟩ := completed_datagram regular sends short here done
  exact ⟨path, route, rfl⟩

/-- A turn of a station tells the connections that wait for what it completes. -/
theorem Sound.waits_turned (sound : Sound N s) {y : V} {e : Event} {server : Server} {sent : List Datagram}
    (allowed : (s.server y).Allows e) (ran : (s.server y).step (N.station y) e = .ok (server, sent))
    (homecoming : Homecoming N y (N.station y, e)) (pool : Pool Datagram (V × PAYLOAD))
    (waits : (s.server x).Waits n key) : Heard N (s.turned y (N.station y, e) server pool) x n key ∨
      ((s.turned y (N.station y, e) server pool).server x).Waits n key ∧
        ∀ p, y = x → completed (N.station y, e) = some p → p.key ≠ key := by
  unfold Heard
  rw [turned_server]
  split
  · rename_i here
    subst here
    have unheard : (s.server x).Stands n key [] := waits
    have stands := (sound.serves x).kept.stands allowed ran unheard
    rw [List.nil_append, routes_singleton] at stands
    cases done : completed (N.station x, e) with
    | none =>
        rw [done] at stands
        exact .inr ⟨stands, fun p _ impossible => by cases impossible⟩
    | some p =>
        rw [done, Option.toList_some, List.filter_singleton] at stands
        by_cases same : p.key = key
        · obtain ⟨path, route, home⟩ := homecoming p done
          rw [same] at home route
          simp only [same, decide_true] at stands
          rw [home] at stands
          exact .inl ⟨path, route, stands⟩
        · simp only [same, decide_false] at stands
          refine .inr ⟨stands, fun p' _ finished => ?_⟩
          rw [← Option.some.inj finished]
          exact same
  · rename_i other
    exact .inr ⟨waits, fun p same => absurd same.symm other⟩

/-- Whoever has heard hears nothing else. -/
theorem Sound.heard_turned (sound : Sound N s) {y : V} {e : Event} {server : Server} {sent : List Datagram}
    (allowed : (s.server y).Allows e) (ran : (s.server y).step (N.station y) e = .ok (server, sent))
    (pool : Pool Datagram (V × PAYLOAD)) (heard : Heard N s x n key) :
    Heard N (s.turned y (N.station y, e) server pool) x n key := by
  obtain ⟨path, route, told⟩ := heard
  refine ⟨path, route, ?_⟩
  rw [turned_server]
  split
  · rename_i here
    subst here
    have first : (s.server x).Stands n key [journey N x key path] := told
    exact (sound.serves x).kept.stands allowed ran first
  · exact told

theorem Sound.heard_step (sound : Sound N s) (step : Step N s s') (heard : Heard N s x n key) : Heard N s' x n key := by
  cases step with
  | turn i proper allowed ran => exact sound.heard_turned allowed ran _ heard
  | @deliver y f rest server sent flying leads short ran =>
      exact sound.heard_turned (e := .datagram f.msg.text) trivial ran _ heard
  | duplicate flying => exact heard

/-- Without loss, a connection that is due an answer stays so until it is told one. -/
theorem Sound.due_step (sound : Sound N s) (regular : N.Regular) (step : Step N s s') {route : List V}
    (found : Route N.nbrs (N.task.goal (query x key)) x route) (due : Due N s x n key route) :
    Heard N s' x n key ∨ Due N s' x n key route := by
  obtain ⟨waits, f, flying, ph, wire, valid, leads⟩ := due
  cases step with
  | turn i proper allowed ran =>
      refine (sound.waits_turned allowed ran proper.homecoming _ waits).imp_right fun still => ?_
      exact ⟨still.1, f, Multiset.mem_add.mpr (.inl flying), ph, wire, valid, leads⟩
  | @deliver y f' rest server sent all place short ran =>
      have member : f' ∈ s.pool.flying := by
        rw [all]
        exact Multiset.mem_cons_self f' rest
      have homecoming := sound.homecoming regular member place short
      rcases sound.waits_turned (e := .datagram f'.msg.text) trivial ran homecoming _ waits with heard | ⟨still, other⟩
      · exact .inl heard
      refine .inr ⟨still, ?_⟩
      rw [all] at flying
      rcases Multiset.mem_cons.mp flying with rfl | behind
      · have asked := sound.waits_asked waits
        have text := congrArg Datagram.text wire
        obtain ⟨z, here⟩ := Phase.Valid.at_isSome valid
        have room : (N.payload (query x key) ph).text.length < MAXDATASIZE := by
          rw [text, Network.datagram_at here] at short
          exact short
        have reacts := react_taken place short ran
        have would := regular.react_datagram (m := (query x key, ph)) asked valid
        rw [← wire, reacts, if_pos room, Task.reaction, Option.map_some, Option.some.injEq, Prod.mk.injEq] at would
        obtain ⟨rfl, filed⟩ := would
        rcases valid.leads_next found leads with done | ⟨ph', next, leads'⟩
        · have home : N.finished (query x key, route) ∈
              (completed (N.station y, .datagram f.msg.text)).toList.map (Prod.mk y) := by
            rw [filed]
            exact List.mem_map_of_mem (List.mem_map_of_mem done)
          obtain ⟨p, finished, same⟩ := List.mem_map.mp home
          rw [Option.mem_toList] at finished
          obtain ⟨rfl, rfl⟩ := Prod.mk.inj same
          exact absurd rfl (other _ rfl finished)
        · refine ⟨⟨f.origin, f.msg :: f.trail, N.datagram (query x key, ph')⟩, ?_, ph', rfl,
            valid.next regular.loopless (Network.away_goal asked.away) next, leads'⟩
          refine Multiset.mem_add.mpr (.inr (Multiset.mem_coe.mpr (mem_spawn.mpr ⟨_, ?_, rfl⟩)))
          exact List.mem_map_of_mem (List.mem_map_of_mem next)
      · exact ⟨f, Multiset.mem_add.mpr (.inl behind), ph, wire, valid, leads⟩
  | @duplicate f' rest all =>
      refine .inr ⟨waits, f, ?_, ph, wire, valid, leads⟩
      rw [all] at flying
      exact Multiset.mem_cons_of_mem flying

/-! ### Timeouts -/

/-- A timeout at the station `x`. -/
def Ticks (N : Network V) (x : V) (s s' : Town V) : Prop :=
  ∃ i server sent, (s.server x).step (N.station x) .timeout = .ok (server, sent) ∧
    s' = s.turned x (N.station x, .timeout) server
      ⟨s.pool.flying + (sent.map fun m => (⟨i, [], m⟩ : Flight Datagram) : List (Flight Datagram)), s.pool.log⟩

theorem Ticks.step (ticks : Ticks N x s s') : Step N s s' := by
  obtain ⟨i, server, sent, ran, rfl⟩ := ticks
  exact .turn (e := .timeout) i trivial trivial ran

/-- A timeout leaves the servers as they are. -/
theorem Ticks.server (ticks : Ticks N x s s') (y : V) : s'.server y = s.server y := by
  obtain ⟨i, server, sent, ran, rfl⟩ := ticks
  obtain ⟨_, _, ran⟩ := ok_of_bind ran
  cases ran
  rw [turned_server]
  split
  · rename_i here
    rw [here]
  · rfl

theorem Ticks.questions (ticks : Ticks N x s s') (y : V) : questions (s'.turns y) = questions (s.turns y) := by
  obtain ⟨i, server, sent, ran, rfl⟩ := ticks
  exact questions_turned rfl y

theorem Sound.ticks (sound : Sound N s) (x : V) : ∃ s', Ticks N x s s' := by
  obtain ⟨sent, walked⟩ := (sound.serves x).kept.resend_ok (N.station x)
  refine ⟨_, 0, s.server x, sent, ?_, rfl⟩
  simp only [Server.step, walked, bind, Except.bind, pure, Except.pure]

theorem Calm.sound (calm : Calm N s s') (regular : N.Regular) (sound : Sound N s) : Sound N s' := by
  induction calm with
  | refl => exact sound
  | tail _ step ih => exact ih.step regular step

theorem Calm.due (calm : Calm N s s') (regular : N.Regular) (sound : Sound N s) {route : List V}
    (found : Route N.nbrs (N.task.goal (query x key)) x route) (due : Heard N s x n key ∨ Due N s x n key route) :
    Heard N s' x n key ∨ Due N s' x n key route := by
  induction calm with
  | refl => exact due
  | tail before step ih =>
      have sound := Calm.sound before regular sound
      rcases ih with heard | due
      · exact .inl (sound.heard_step step heard)
      · exact sound.due_step regular step found due

end Town
end TransitNet

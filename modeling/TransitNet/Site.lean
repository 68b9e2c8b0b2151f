import TransitNet.Memory

/-! A station and its browsers in a network. Whoever waits for a route is told the first one that
comes home. -/
namespace TransitNet
open Soup

/-- The payload that a turn completes. -/
def completed : Station × Event → Option PAYLOAD
  | (st, .datagram buffer) =>
      match udp_branch st buffer with
      | .ok outcome => outcome.finished
      | .error _ => none
  | _ => none

/-- The payloads that have been completed for a question, in order. -/
def routes (key : Text × Text) (es : List (Station × Event)) : List PAYLOAD :=
  (es.filterMap completed).filter (·.key = key)

/-- The event is a connection from a browser. -/
def Event.connects : Event → Bool
  | .request .. | .ignored _ => true
  | .timeout | .datagram _ => false

def connections (es : List (Station × Event)) : ℕ := es.countP fun e => e.2.connects

theorem routes_append (key : Text × Text) (es es' : List (Station × Event)) :
    routes key (es ++ es') = routes key es ++ routes key es' := by
  rw [routes, List.filterMap_append, List.filter_append, routes, routes]

theorem routes_singleton (key : Text × Text) (e : Station × Event) :
    routes key [e] = (completed e).toList.filter (·.key = key) := by
  rw [routes]
  cases done : completed e with
  | none => rw [List.filterMap_cons_none done]; rfl
  | some p => rw [List.filterMap_cons_some done]; rfl

theorem routes_none {e : Station × Event} (nothing : completed e = none) (key : Text × Text) :
    routes key [e] = [] := by
  rw [routes_singleton, nothing]
  rfl

/-! ### What a browser is told -/

namespace Server
variable {es : List (Station × Event)} {s s' : Server} {n : ℕ} {key : Text × Text}

/-- The connection asks a question and has not been answered. -/
structure Waits (s : Server) (n : ℕ) (key : Text × Text) : Prop where
  listed : ∃ c ∈ s.head_client, s.descriptors c.fd = some n ∧ c.query.key = key
  untold : ∀ a, (n, .answer a) ∉ s.wire

/-- The connection has been told one answer, the text of the payload. -/
def Told (s : Server) (n : ℕ) (p : PAYLOAD) : Prop :=
  ∃ a, craft_payload p = .ok a ∧ ∀ b, (n, .answer b) ∈ s.wire ↔ b = a

/-- What has become of a connection by the time that these payloads are completed. -/
def Stands (s : Server) (n : ℕ) (key : Text × Text) : List PAYLOAD → Prop
  | [] => s.Waits n key
  | p :: _ => s.Told n p

/-- The pages that are sent when a payload is complete. -/
theorem mem_served_wire {p : PAYLOAD} {answers b : Text} :
    (n, .answer b) ∈ (s.served p.destination p.start_time answers).wire ↔ (n, .answer b) ∈ s.wire ∨
      b = answers ∧ ∃ c ∈ s.head_client, s.descriptors c.fd = some n ∧ c.query.key = p.key := by
  simp only [served, waiting, List.mem_append, List.mem_filterMap, List.mem_filter, QUERY.asks_key,
    Option.map_eq_some_iff, Prod.mk.injEq, Response.answer.injEq]
  constructor
  · rintro (old | ⟨c, ⟨listed, asks⟩, m, opened, rfl, rfl⟩)
    · exact .inl old
    · exact .inr ⟨rfl, c, listed, opened, asks⟩
  · rintro (old | ⟨rfl, c, listed, opened, asks⟩)
    · exact .inl old
    · exact .inr ⟨c, ⟨listed, asks⟩, n, opened, rfl, rfl⟩

theorem Waits.same (waits : s.Waits n key) (clients : s'.head_client = s.head_client)
    (table : s'.descriptors = s.descriptors) (wire : s'.wire = s.wire) : s'.Waits n key := by
  refine ⟨?_, ?_⟩
  · rw [clients, table]
    exact waits.listed
  · rw [wire]
    exact waits.untold

/-- Another connection takes nobody's place. -/
theorem Waits.accept (waits : s.Waits n key) {fd : ℕ} (shut : s.descriptors fd = none) {m : ℕ}
    (table : s'.descriptors = Function.update s.descriptors fd (some m))
    (kept : ∀ c ∈ s.head_client, c.fd ≠ fd → c ∈ s'.head_client)
    (wire : ∀ a, (n, Response.answer a) ∈ s'.wire → (n, .answer a) ∈ s.wire) : s'.Waits n key := by
  obtain ⟨c, listed, opened, asks⟩ := waits.listed
  have other : c.fd ≠ fd := by
    rintro rfl
    rw [shut] at opened
    cases opened
  refine ⟨⟨c, kept c listed other, ?_, asks⟩, fun a told => waits.untold a (wire a told)⟩
  rw [table, Function.update_of_ne other, opened]

theorem Told.same {p : PAYLOAD} (told : s.Told n p)
    (wire : ∀ a, (n, Response.answer a) ∈ s'.wire ↔ (n, .answer a) ∈ s.wire) : s'.Told n p := by
  obtain ⟨a, crafted, only⟩ := told
  exact ⟨a, crafted, fun b => (wire b).trans (only b)⟩

theorem mem_wire_wait {m : ℕ} {a : Text} {wire : List (ℕ × Response)} :
    (n, Response.answer a) ∈ wire ++ [(m, .wait)] ↔ (n, .answer a) ∈ wire := by
  simp

/-- A connection is listed once. -/
theorem Kept.one (kept : s.Kept es) {c c' : CLIENT_NODE} (listed : c ∈ s.head_client)
    (listed' : c' ∈ s.head_client) (opened : s.descriptors c.fd = some n)
    (opened' : s.descriptors c'.fd = some n) : c' = c :=
  List.inj_on_of_nodup_map kept.once listed' listed (kept.apart _ _ _ opened' opened)

/-- A payload of another question leaves a waiting connection alone. -/
theorem Kept.waits_on (kept : s.Kept es) (waits : s.Waits n key) {p : PAYLOAD} (other : p.key ≠ key)
    (answers : Text) : (s.served p.destination p.start_time answers).Waits n key := by
  obtain ⟨⟨c, listed, opened, asks⟩, untold⟩ := waits
  have apart : ∀ c' ∈ s.head_client, s.descriptors c'.fd = some n → c'.query.key ≠ p.key := by
    intro c' listed' opened' asks'
    rw [kept.one listed listed' opened opened', asks] at asks'
    exact other asks'.symm
  refine ⟨⟨c, ?_, ?_, asks⟩, fun b told => ?_⟩
  · refine List.mem_filter.mpr ⟨listed, ?_⟩
    rw [Bool.not_eq_true', Bool.eq_false_iff, ne_eq, QUERY.asks_key]
    exact apart c listed opened
  · rw [served_descriptors, if_neg, opened]
    intro answered
    obtain ⟨c', waiting', same⟩ := List.mem_map.mp answered
    obtain ⟨listed', asks'⟩ := List.mem_filter.mp waiting'
    exact apart c' listed' (by rw [same, opened]) (QUERY.asks_key.mp asks')
  · rcases mem_served_wire.mp told with old | ⟨_, c', listed', opened', asks'⟩
    · exact untold b old
    · exact apart c' listed' opened' asks'

/-- A connection that has been told an answer is closed, so it is told no other. -/
theorem Kept.told_once (kept : s.Kept es) {p' : PAYLOAD} (told : s.Told n p') (p : PAYLOAD) (answers : Text) :
    (s.served p.destination p.start_time answers).Told n p' := by
  refine Told.same told fun b => ?_
  obtain ⟨a, _, only⟩ := told
  rw [mem_served_wire]
  refine or_iff_left ?_
  rintro ⟨_, c, _, opened, _⟩
  exact (kept.closed n (mem_answered.mpr ⟨a, (only a).mpr rfl⟩)).2 c.fd opened

/-- One turn answers those who wait for the payload that it completes, and nobody else. -/
theorem Kept.stands (kept : s.Kept es) {st : Station} {e : Event} {sent : List Datagram}
    (allowed : s.Allows e) (ran : s.step st e = .ok (s', sent)) {ps : List PAYLOAD} (stands : s.Stands n key ps) :
    s'.Stands n key (ps ++ routes key [(st, e)]) := by
  cases e with
  | request fd destination time =>
      obtain ⟨_, requested, ran⟩ := ok_of_bind ran
      cases ran
      obtain ⟨⟨q, _, _, clients⟩, table, _, wire, _⟩ := request_spec requested
      rw [routes_none rfl, List.append_nil]
      cases ps with
      | nil =>
          refine Waits.accept stands allowed table (fun c listed other => ?_) fun a told => ?_
          · rw [clients]
            refine List.mem_cons_of_mem _ ?_
            rw [remove_client, List.mem_eraseP_of_neg]
            · exact listed
            · rwa [decide_eq_true_eq]
          · rw [wire] at told
            exact mem_wire_wait.mp told
      | cons p ps =>
          refine Told.same stands fun a => ?_
          rw [wire]
          exact mem_wire_wait
  | ignored fd =>
      cases ran
      rw [routes_none rfl, List.append_nil]
      cases ps with
      | nil => exact Waits.accept stands allowed rfl (fun c listed _ => listed) fun a told => told
      | cons p ps => exact Told.same stands fun a => Iff.rfl
  | timeout =>
      obtain ⟨_, _, ran⟩ := ok_of_bind ran
      cases ran
      rw [routes_none rfl, List.append_nil]
      exact stands
  | datagram buffer =>
      obtain ⟨outcome, branch, ran⟩ := ok_of_bind ran
      have done : completed (st, .datagram buffer) = outcome.finished := by
        simp only [completed, branch]
      split at ran
      · rename_i unfinished
        cases ran
        rw [routes_none (done.trans unfinished), List.append_nil]
        exact stands
      · rename_i p finished
        obtain ⟨_, ended, ran⟩ := ok_of_bind ran
        cases ran
        obtain ⟨answer, crafted, rfl⟩ := kept.finished_served ended
        have new : routes key [(st, .datagram buffer)] = if p.key = key then [p] else [] := by
          rw [routes_singleton, done, finished, Option.toList_some, List.filter_singleton]
          simp
        rw [new]
        cases ps with
        | nil =>
            by_cases same : p.key = key
            · obtain ⟨⟨c, listed, opened, asks⟩, untold⟩ := stands
              rw [if_pos same]
              refine ⟨answer, crafted, fun b => ?_⟩
              rw [mem_served_wire, or_iff_right (untold b)]
              exact ⟨fun told => told.1, fun told => ⟨told, c, listed, opened, asks.trans same.symm⟩⟩
            · rw [if_neg same]
              exact kept.waits_on stands same answer
        | cons p' ps => exact kept.told_once stands p answer

/-- A browser that has asked waits. -/
theorem request_waits {st : Station} {fd : ℕ} {destination time : Text} {sent : List Datagram} (kept : s.Kept es)
    (ran : s.step st (.request fd destination time) = .ok (s', sent)) :
    s'.Waits s.accepted.length (destination, time) := by
  obtain ⟨_, requested, ran⟩ := ok_of_bind ran
  cases ran
  obtain ⟨⟨q, _, asks, clients⟩, table, _, wire, _⟩ := request_spec requested
  refine ⟨⟨⟨fd, q⟩, ?_, ?_, asks⟩, fun a told => ?_⟩
  · rw [clients]
    exact List.mem_cons_self
  · rw [table, Function.update_self]
  · rw [wire, mem_wire_wait] at told
    exact Nat.lt_irrefl _ (kept.closed _ (mem_answered.mpr ⟨a, told⟩)).1

/-- The connections are counted as they are accepted. -/
theorem step_accepted (kept : s.Kept es) {st : Station} {e : Event} {sent : List Datagram}
    (ran : s.step st e = .ok (s', sent)) :
    s'.accepted.length = s.accepted.length + if e.connects then 1 else 0 := by
  cases e with
  | request fd destination time =>
      obtain ⟨_, requested, ran⟩ := ok_of_bind ran
      cases ran
      rw [(request_spec requested).2.2.1, List.length_append]
      rfl
  | ignored fd =>
      cases ran
      exact List.length_append
  | timeout =>
      obtain ⟨_, _, ran⟩ := ok_of_bind ran
      cases ran
      rfl
  | datagram buffer =>
      obtain ⟨outcome, branch, ran⟩ := ok_of_bind ran
      split at ran
      · cases ran
        rfl
      · obtain ⟨_, ended, ran⟩ := ok_of_bind ran
        cases ran
        obtain ⟨answer, _, rfl⟩ := kept.finished_served ended
        rfl

end Server

theorem Serves.last {es : List (Station × Event)} {st : Station} {e : Event} {s' : Server}
    (serves : Serves (es ++ [(st, e)]) s') : ∃ s sent, Serves es s ∧ s.Allows e ∧ s.step st e = .ok (s', sent) := by
  generalize whole : es ++ [(st, e)] = es' at serves
  cases serves with
  | idle => exact absurd whole (by simp)
  | turn before allowed ran =>
      obtain ⟨rfl, same⟩ := List.append_inj' whole rfl
      cases same
      exact ⟨_, _, before, allowed, ran⟩

theorem Serves.accepted {es : List (Station × Event)} {s : Server} (serves : Serves es s) :
    s.accepted.length = connections es := by
  induction serves with
  | idle => rfl
  | @turn es s s' st e sent before _ ran ih =>
      rw [Server.step_accepted before.kept ran, ih, connections, connections, List.countP_append,
        List.countP_singleton]

/-- What becomes of a browser that asks in the course of a run. -/
theorem Serves.stands {before after : List (Station × Event)} {st : Station} {fd : ℕ} {destination time : Text}
    {s : Server} (serves : Serves (before ++ (st, .request fd destination time) :: after) s) :
    s.Stands (connections before) (destination, time) (routes (destination, time) after) := by
  induction after using List.reverseRecOn generalizing s with
  | nil =>
      obtain ⟨s₀, sent, earlier, _, ran⟩ := serves.last
      rw [← earlier.accepted]
      exact Server.request_waits earlier.kept ran
  | append_singleton after e ih =>
      rw [← List.cons_append, ← List.append_assoc] at serves
      obtain ⟨s₀, sent, earlier, allowed, ran⟩ := serves.last
      rw [routes_append]
      exact earlier.kept.stands allowed ran (ih earlier)

/-! ### The station in its network -/

/-- The datagrams of a whole network and the server of one of its stations. The turns that the
server has taken are history. -/
structure Site (V : Type*) where
  pool : Pool Datagram (V × PAYLOAD)
  turns : List (Station × Event)
  server : Server

namespace Site
variable {V : Type*}

def start : Site V := ⟨⟨0, []⟩, [], .idle⟩

/-- Nothing is lost. Other stations may put datagrams of their own in flight at any time. -/
inductive Step (N : Network V) (x : V) : Site V → Site V → Prop
  | injected (f : Flight Datagram) (s : Site V) :
      Step N x s { s with pool := ⟨f ::ₘ s.pool.flying, s.pool.log⟩ }
  | elsewhere {s s' : Site V} {f : Flight Datagram} {rest : Multiset (Flight Datagram)}
      {out : List Datagram} {reports : List (V × PAYLOAD)} (other : N.resolve f.msg.ip f.msg.port ≠ some x)
      (handed : N.react f.msg = some (out, reports)) (flying : s.pool.flying = f ::ₘ rest)
      (after : s' = { s with pool := ⟨rest + f.spawn out, s.pool.log ++ f.file reports⟩ }) : Step N x s s'
  | here {s s' : Site V} {f : Flight Datagram} {rest : Multiset (Flight Datagram)} {out : List Datagram}
      {reports : List (V × PAYLOAD)} {server : Server} (leads : N.resolve f.msg.ip f.msg.port = some x)
      (handed : N.react f.msg = some (out, reports)) (flying : s.pool.flying = f ::ₘ rest)
      (ran : s.server.step (N.station x) (.datagram f.msg.text) = .ok (server, out))
      (after : s' = ⟨⟨rest + f.spawn out, s.pool.log ++ f.file reports⟩,
        s.turns ++ [(N.station x, .datagram f.msg.text)], server⟩) : Step N x s s'
  | turn {s s' : Site V} {e : Event} {sent : List Datagram} {server : Server} (i : ℕ)
      (browser : ∀ buffer, e ≠ .datagram buffer) (allowed : s.server.Allows e)
      (ran : s.server.step (N.station x) e = .ok (server, sent))
      (after : s' = ⟨⟨s.pool.flying + (sent.map fun m => (⟨i, [], m⟩ : Flight Datagram) : List (Flight Datagram)),
        s.pool.log⟩, s.turns ++ [(N.station x, e)], server⟩) : Step N x s s'

def Run (N : Network V) (x : V) : Site V → Prop := Relation.ReflTransGen (Step N x) start

variable [DecidableEq V]

/-- The payloads of a question that have come home to a station, in order. -/
def arrivals (x : V) (key : Text × Text) (log : List (Report Datagram (V × PAYLOAD))) : List PAYLOAD :=
  ((log.filter (·.out.1 = x)).map (·.out.2)).filter (·.key = key)

theorem arrivals_append (x : V) (key : Text × Text) (log log' : List (Report Datagram (V × PAYLOAD))) :
    arrivals x key (log ++ log') = arrivals x key log ++ arrivals x key log' := by
  simp only [arrivals, List.filter_append, List.map_append]

theorem arrivals_file (x y : V) (key : Text × Text) (f : Flight Datagram) (ps : List PAYLOAD) :
    arrivals x key (f.file (ps.map (Prod.mk y))) = if y = x then ps.filter (·.key = key) else [] := by
  by_cases same : y = x
  · simp [arrivals, Flight.file, List.filter_map, Function.comp_def, same]
  · simp [arrivals, Flight.file, List.filter_map, Function.comp_def, same]

variable {N : Network V} {x : V}

/-- The station's turns are a run of its server, and complete what comes home in the network. -/
structure Sound (x : V) (s : Site V) : Prop where
  serves : Serves s.turns s.server
  home : ∀ key, routes key s.turns = arrivals x key s.pool.log

theorem Sound.step {s s' : Site V} (sound : s.Sound x) (step : Step N x s s') : s'.Sound x := by
  cases step with
  | injected f s => exact ⟨sound.serves, sound.home⟩
  | @elsewhere _ _ f rest out reports other handed flying after =>
      subst after
      refine ⟨sound.serves, fun key => ?_⟩
      rw [arrivals_append, ← sound.home key]
      rcases Network.react_some handed with ⟨_, rfl⟩ | ⟨y, p, outcome, leads, _, _, _, _, rfl⟩
      · exact (List.append_nil _).symm
      · have apart : y ≠ x := fun same => other (same ▸ leads)
        rw [arrivals_file, if_neg apart, List.append_nil]
  | @here _ _ f rest out reports server leads handed flying ran after =>
      subst after
      refine ⟨sound.serves.turn trivial ran, fun key => ?_⟩
      rw [arrivals_append, routes_append, ← sound.home key]
      obtain ⟨_, outcome, branch, _, rfl⟩ := Network.react_at leads handed
      have done : completed (N.station x, .datagram f.msg.text) = outcome.finished := by
        simp only [completed, branch]
      rw [arrivals_file, if_pos rfl, routes_singleton, done]
  | @turn _ _ e sent server i browser allowed ran after =>
      subst after
      refine ⟨sound.serves.turn allowed ran, fun key => ?_⟩
      have quiet : completed (N.station x, e) = none := by
        cases e with
        | datagram buffer => exact absurd rfl (browser buffer)
        | request fd destination time => rfl
        | ignored fd => rfl
        | timeout => rfl
      rw [routes_append, routes_none quiet, List.append_nil]
      exact sound.home key

theorem Run.sound {s : Site V} (run : Run N x s) : s.Sound x := by
  induction run with
  | refl => exact ⟨.idle, fun key => rfl⟩
  | tail _ step ih => exact ih.step step

end Site

/-- A connection is told the first of the payloads that are completed for it, if there is one. -/
theorem Server.Stands.told {s : Server} {n : ℕ} {key : Text × Text} {ps : List PAYLOAD} (stands : s.Stands n key ps) :
    (∀ a, (n, .answer a) ∈ s.wire ↔ ∃ p, ps.head? = some p ∧ craft_payload p = .ok a) ∧ (n ∈ s.answered ↔ ps ≠ []) := by
  cases ps with
  | nil =>
      have untold : ∀ a, (n, Response.answer a) ∉ s.wire := stands.untold
      refine ⟨fun a => ⟨fun told => absurd told (untold a), ?_⟩, fun member => ?_, fun some => absurd rfl some⟩
      · rintro ⟨p, impossible, _⟩
        cases impossible
      · obtain ⟨a, told⟩ := Server.mem_answered.mp member
        exact absurd told (untold a)
  | cons p ps =>
      obtain ⟨answer, crafted, only⟩ := stands
      refine ⟨fun a => ?_, fun _ => List.cons_ne_nil p ps, fun _ => Server.mem_answered.mpr ⟨answer, (only answer).mpr rfl⟩⟩
      rw [only a, List.head?_cons]
      constructor
      · rintro rfl
        exact ⟨p, rfl, crafted⟩
      · rintro ⟨p', same, crafted'⟩
        obtain rfl := Option.some.inj same
        exact (Except.ok.inj (crafted.symm.trans crafted')).symm

/-- In every run of a network with any traffic, a browser that asks before a payload of its question
has come home is told the first that does, and nothing else: one answer once there is a payload. -/
theorem client_is_told_the_first {V : Type*} [DecidableEq V] {N : Network V} {x : V} {s : Site V}
    (run : Site.Run N x s) {before after : List (Station × Event)} {st : Station} {fd : ℕ}
    {destination time : Text} (asks : s.turns = before ++ (st, .request fd destination time) :: after)
    (early : routes (destination, time) before = []) :
    (∀ a, (connections before, .answer a) ∈ s.server.wire ↔
      ∃ p, (Site.arrivals x (destination, time) s.pool.log).head? = some p ∧ craft_payload p = .ok a) ∧
    s.server.answered.count (connections before) =
      if Site.arrivals x (destination, time) s.pool.log = [] then 0 else 1 := by
  have sound := run.sound
  have home := sound.home (destination, time)
  have serves := sound.serves
  rw [asks] at serves home
  have asked : routes (destination, time) [(st, .request fd destination time)] = [] := routes_none rfl _
  rw [← List.singleton_append, routes_append, routes_append, early, asked, List.nil_append,
    List.nil_append] at home
  obtain ⟨first, told⟩ := serves.stands.told
  rw [home] at first told
  refine ⟨first, ?_⟩
  split
  · rename_i none
    exact List.count_eq_zero.mpr fun member => told.mp member none
  · rename_i some
    exact List.count_eq_one_of_mem serves.kept.single (told.mpr some)

/-! ### Three stations, and a slow line that is direct -/

namespace Site
variable {V : Type*} [DecidableEq V]

/-- A site whose datagrams wait in line. -/
structure Line (V : Type*) where
  flying : List (Flight Datagram)
  log : List (Report Datagram (V × PAYLOAD))
  turns : List (Station × Event)
  server : Server

def Line.site (s : Line V) : Site V := ⟨⟨s.flying, s.log⟩, s.turns, s.server⟩

/-- Delivers the datagram in front; what it gives rise to goes in front of the others. -/
def Line.deliver (N : Network V) (x : V) (s : Line V) : Option (Line V) :=
  match s.flying with
  | [] => none
  | f :: rest =>
      match N.react f.msg with
      | none => none
      | some (out, reports) =>
          let flying := f.spawn out ++ rest
          let log := s.log ++ f.file reports
          if N.resolve f.msg.ip f.msg.port = some x then
            match s.server.step (N.station x) (.datagram f.msg.text) with
            | .ok (server, _) =>
                some { flying, log, turns := s.turns ++ [(N.station x, .datagram f.msg.text)], server }
            | .error _ => none
          else some { s with flying, log }

/-- Delivers until nothing is in flight. -/
def Line.drain (N : Network V) (x : V) : ℕ → Line V → Option (Line V)
  | 0, s => some s
  | n + 1, s => if s.flying.isEmpty then some s else (s.deliver N x).bind (drain N x n)

theorem step_datagram_sent {st : Station} {s s' : Server} {buffer : Text} {sent : List Datagram}
    {outcome : Outcome} (ran : s.step st (.datagram buffer) = .ok (s', sent))
    (branch : udp_branch st buffer = .ok outcome) : sent = outcome.sent := by
  obtain ⟨outcome', branch', ran⟩ := ok_of_bind ran
  obtain rfl : outcome = outcome' := Except.ok.inj (branch.symm.trans branch')
  split at ran
  · cases ran
    rfl
  · obtain ⟨_, _, ran⟩ := ok_of_bind ran
    cases ran
    rfl

theorem Line.deliver_step {N : Network V} {x : V} {s s' : Line V} (delivered : s.deliver N x = some s') :
    Step N x s.site s'.site := by
  obtain ⟨flying, log, turns, server⟩ := s
  cases flying with
  | nil => cases delivered
  | cons f rest =>
      have together : ∀ out, (↑(f.spawn out ++ rest) : Multiset (Flight Datagram)) = ↑rest + ↑(f.spawn out) := by
        intro out
        rw [← Multiset.coe_add, add_comm]
      have front : (↑(f :: rest) : Multiset (Flight Datagram)) = f ::ₘ ↑rest := rfl
      simp only [deliver] at delivered
      split at delivered
      · cases delivered
      · rename_i out reports handed
        split at delivered
        · rename_i leads
          split at delivered
          · rename_i server' sent ran
            cases delivered
            obtain ⟨_, outcome, branch, rfl, _⟩ := Network.react_at leads handed
            obtain rfl := step_datagram_sent ran branch
            refine .here leads handed front ran ?_
            rw [site, together]
            rfl
          · cases delivered
        · rename_i other
          cases delivered
          refine .elsewhere other handed front ?_
          rw [site, together]
          rfl

theorem Line.drain_run {N : Network V} {x : V} {n : ℕ} {s s' : Line V} (run : Run N x s.site)
    (drained : s.drain N x n = some s') : Run N x s'.site := by
  induction n generalizing s with
  | zero =>
      cases drained
      exact run
  | succ n ih =>
      rw [drain] at drained
      split at drained
      · cases drained
        exact run
      · obtain ⟨t, delivered, drained⟩ := Option.bind_eq_some_iff.mp drained
        exact ih (run.tail (deliver_step delivered)) drained

theorem Line.deliver_turns {N : Network V} {x : V} {s s' : Line V} (delivered : s.deliver N x = some s') :
    ∃ more, s'.turns = s.turns ++ more := by
  simp only [deliver] at delivered
  split at delivered
  · cases delivered
  · split at delivered
    · cases delivered
    · split at delivered
      · split at delivered <;> cases delivered
        exact ⟨_, rfl⟩
      · cases delivered
        exact ⟨[], (List.append_nil _).symm⟩

theorem Line.drain_turns {N : Network V} {x : V} {n : ℕ} {s s' : Line V} (drained : s.drain N x n = some s') :
    ∃ more, s'.turns = s.turns ++ more := by
  induction n generalizing s with
  | zero =>
      cases drained
      exact ⟨[], (List.append_nil _).symm⟩
  | succ n ih =>
      rw [drain] at drained
      split at drained
      · cases drained
        exact ⟨[], (List.append_nil _).symm⟩
      · obtain ⟨t, delivered, drained⟩ := Option.bind_eq_some_iff.mp drained
        obtain ⟨first, same⟩ := deliver_turns delivered
        obtain ⟨more, later⟩ := ih drained
        exact ⟨first ++ more, by rw [later, same, List.append_assoc]⟩

end Site

/-- The direct line to StationC takes until noon, the lines over StationB until ten. -/
def triangle : Network (Fin 3) where
  station
    | 0 => stationOf "StationA" "4002"
        [bus "09:00" "slow" "12:00" "StationC", bus "09:00" "fast" "09:20" "StationB",
          bus "23:00" "late" "23:20" "StationB"] [("127.0.0.1", "4004"), ("127.0.0.1", "4003")]
    | 1 => stationOf "StationB" "4003"
        [bus "09:30" "fast" "10:00" "StationC", bus "23:00" "late" "23:20" "StationC"]
        [("127.0.0.1", "4004"), ("127.0.0.1", "4002")]
    | 2 => stationOf "StationC" "4004" [bus "23:00" "late" "23:20" "StationA"]
        [("127.0.0.1", "4002"), ("127.0.0.1", "4003")]
  argv
    | 0 => ["127.0.0.1:4004".toList, "127.0.0.1:4003".toList]
    | 1 => ["127.0.0.1:4004".toList, "127.0.0.1:4002".toList]
    | 2 => ["127.0.0.1:4002".toList, "127.0.0.1:4003".toList]
  started := by decide +kernel
  resolve _ port :=
    if port = "4002".toList then some 0 else if port = "4003".toList then some 1
    else if port = "4004".toList then some 2 else none

/-- A browser has asked StationA for StationC at eight, and the question is on its way. -/
def triangle_asked : Site.Line (Fin 3) where
  flying := [⟨0, [], ⟨"127.0.0.1".toList, "4002".toList,
    initText "StationC".toList "StationA".toList "08:00".toList⟩⟩]
  log := []
  turns := [(triangle.station 0, .request 5 "StationC".toList "08:00".toList), (triangle.station 0, .timeout)]
  server :=
    { head_client := [⟨5, ⟨"08:00".toList, "StationC".toList, []⟩⟩]
      store := Store.zeroed.add_query ⟨"08:00".toList, "StationC".toList, []⟩
      descriptors := Function.update (fun _ => none) 5 (some 0)
      accepted := [some ("StationC".toList, "08:00".toList)]
      wire := [(0, .wait)] }

theorem triangle_asked_run : Site.Run triangle 0 triangle_asked.site := by
  have asked : Server.idle.step (triangle.station 0) (.request 5 "StationC".toList "08:00".toList) =
      .ok (triangle_asked.server, []) := rfl
  have flooded : triangle_asked.server.step (triangle.station 0) .timeout =
      .ok (triangle_asked.server, [⟨"127.0.0.1".toList, "4002".toList,
        initText "StationC".toList "StationA".toList "08:00".toList⟩]) := rfl
  have free : Server.idle.Allows (.request 5 "StationC".toList "08:00".toList) := rfl
  have always : triangle_asked.server.Allows .timeout := trivial
  have first : Site.Run triangle 0 ⟨⟨0, []⟩, [(triangle.station 0, .request 5 "StationC".toList "08:00".toList)],
      triangle_asked.server⟩ :=
    Relation.ReflTransGen.single (.turn 0 (by simp) free asked rfl)
  exact first.tail (.turn 0 (by simp) always flooded (by rw [zero_add]; rfl))

/-- The payload that comes home first, over the direct line. -/
def slowest : PAYLOAD where
  found := 4
  hops := 2
  current := 1
  stations := ["StationA".toList, "StationC".toList]
  address := ["127.0.0.1:4002".toList, "127.0.0.1:4004".toList]
  routes := ["...".toList, "slow".toList]
  time := ["09:00".toList, "12:00".toList]
  destination := "StationC".toList
  source := "StationA".toList
  start_time := "08:00".toList

def fastest : PAYLOAD :=
  { slowest with
    hops := 3
    stations := ["StationA".toList, "StationB".toList, "StationC".toList]
    address := ["127.0.0.1:4002".toList, "127.0.0.1:4003".toList, "127.0.0.1:4004".toList]
    routes := ["...".toList, "fast".toList, "fast".toList]
    time := ["09:00".toList, "09:20".toList, "10:00".toList] }

theorem triangle_drains : ∃ s more, Site.Run triangle 0 s ∧ s.pool.flying = 0 ∧
    s.turns = [] ++ (triangle.station 0, .request 5 "StationC".toList "08:00".toList) :: more ∧
    Site.arrivals 0 ("StationC".toList, "08:00".toList) s.pool.log = [slowest, fastest] ∧
    s.server.wire = [(0, .wait), (0, .answer slowest.text)] := by
  have computed : (triangle_asked.drain triangle 0 20).map (fun s => (s.flying.isEmpty,
        Site.arrivals 0 ("StationC".toList, "08:00".toList) s.log, s.server.wire)) =
      some (true, [slowest, fastest], [(0, .wait), (0, .answer slowest.text)]) := by decide +kernel
  obtain ⟨s, drained, same⟩ := Option.map_eq_some_iff.mp computed
  simp only [Prod.mk.injEq, List.isEmpty_iff] at same
  obtain ⟨nothing, home, wire⟩ := same
  obtain ⟨more, turns⟩ := Site.Line.drain_turns drained
  refine ⟨s.site, (triangle.station 0, .timeout) :: more, Site.Line.drain_run triangle_asked_run drained, ?_,
    turns, home, wire⟩
  rw [Site.Line.site, nothing]
  rfl

theorem triangle_is_told_the_first : ∃ s, Site.Run triangle 0 s ∧ s.pool.flying = 0 ∧
    (∀ a, (0, .answer a) ∈ s.server.wire ↔ ∃ p,
      (Site.arrivals 0 ("StationC".toList, "08:00".toList) s.pool.log).head? = some p ∧
        craft_payload p = .ok a) ∧ s.server.answered.count 0 = 1 := by
  obtain ⟨s, more, run, nothing, turns, home, _⟩ := triangle_drains
  obtain ⟨first, once⟩ := client_is_told_the_first run turns rfl
  rw [home] at once
  exact ⟨s, run, nothing, first, once⟩

/-- The browser is told the direct line, although the other is two hours faster. -/
theorem triangle_is_told_the_slow_line : ∃ s, Site.Run triangle 0 s ∧ s.pool.flying = 0 ∧
    Site.arrivals 0 ("StationC".toList, "08:00".toList) s.pool.log = [slowest, fastest] ∧
    (0, .answer slowest.text) ∈ s.server.wire ∧ (0, .answer fastest.text) ∉ s.server.wire ∧
    fastest.arrival (fun _ => 0) < slowest.arrival (fun _ => 0) := by
  obtain ⟨s, _, run, nothing, _, home, wire⟩ := triangle_drains
  refine ⟨s, run, nothing, home, ?_, ?_, ?_⟩
  · rw [wire]
    exact List.mem_cons_of_mem _ (List.mem_singleton_self _)
  · rw [wire]
    decide +kernel
  · decide +kernel

end TransitNet

import TransitNet.Site
import TransitNet.Capacity

/-! All the stations of a network, each with its own browsers. What can bring a station down, and
what cannot. -/
namespace TransitNet
open Soup Relay

/-- The questions that a station has been asked. -/
def questions (es : List (Station × Event)) : List (Text × Text) := es.filterMap fun e => e.2.question

theorem mem_questions_append {es : List (Station × Event)} {e : Station × Event} {key : Text × Text} :
    key ∈ questions (es ++ [e]) ↔ key ∈ questions es ∨ e.2.question = some key := by
  unfold questions
  rw [List.filterMap_append, List.mem_append, List.mem_filterMap (l := [e])]
  simp

/-- A store that is asked no more than a hundred different questions forgets none. -/
theorem questions_remembered {es : List (Station × Event)} (few : (questions es).toFinset.card ≤ MAX_QUERIES)
    (named : ([], []) ∉ questions es) {key : Text × Text} (asked : key ∈ questions es) : key ∈ remembered es :=
  Ring.mem_missed_few few named asked

/-! ### One station -/

namespace Server
variable {es : List (Station × Event)} {s s' : Server} {st : Station}

/-- At a timeout every client that has been told nothing sends its question out again. -/
theorem resend_eq {descriptors : ℕ → Option ℕ} {clients : List CLIENT_NODE} {sent : List Datagram}
    (walked : resend st descriptors clients = .ok sent) (untold : ∀ c ∈ clients, c.query.answers = []) :
    sent = clients.map fun c => ⟨st.local_ip, st.UDP_port,
      initText c.query.destination st.station_name c.query.start_time⟩ := by
  induction clients generalizing sent with
  | nil =>
      cases walked
      rfl
  | cons c clients ih =>
      rw [resend] at walked
      split at walked
      · cases walked
      · obtain ⟨rest, later, walked⟩ := ok_of_bind walked
        rw [if_pos (untold c List.mem_cons_self)] at walked
        cases walked
        rw [List.map_cons, ← ih later fun c' member => untold c' (List.mem_cons_of_mem c member)]

/-- A datagram is taken exactly if the payload that it completes, if any, meets its question. -/
theorem takes_iff (serves : Serves es s) {p₀ : PAYLOAD} {outcome : Outcome} (loadable : p₀.Loadable)
    (short : p₀.text.length < MAXDATASIZE) (branch : udp_branch st p₀.text = .ok outcome) :
    (∃ s' sent, s.step st (.datagram p₀.text) = .ok (s', sent)) ↔
      ∀ p, outcome.finished = some p → p.key ∈ remembered es := by
  cases done : outcome.finished with
  | none =>
      refine ⟨fun _ p impossible => ?_, fun _ => ⟨s, outcome.sent, ?_⟩⟩
      · cases impossible
      simp only [step, branch, done, bind, Except.bind, pure, Except.pure]
  | some p =>
      have held : s.store.search_query p.destination p.start_time ≠ none ↔ p.key ∈ remembered es := by
        rw [Store.search_query_iff, serves.remembers.keys, PAYLOAD.key]
      have only : (∀ p', some p = some p' → p'.key ∈ remembered es) ↔ p.key ∈ remembered es :=
        ⟨fun all => all p rfl, fun here p' same => Option.some.inj same ▸ here⟩
      rw [only, ← held]
      constructor
      · rintro ⟨s', sent, ran⟩ missing
        rw [(serves.kept.step_null_iff branch done).mpr missing] at ran
        cases ran
      · intro found
        obtain ⟨q, found⟩ := Option.ne_none_iff_exists'.mp found
        obtain ⟨answer, crafted⟩ := finished_crafts branch done
        have ended := serves.kept.finished_eq st found crafted (finished_fits loadable short branch done crafted)
        refine ⟨s.served p.destination p.start_time answer, outcome.sent, ?_⟩
        simp only [step, branch, done, ended, bind, Except.bind, pure, Except.pure]

end Server

/-- A listed client has been told nothing, and its question is one that was asked. -/
theorem Serves.clients {es : List (Station × Event)} {s : Server} (serves : Serves es s) :
    ∀ c ∈ s.head_client, c.query.answers = [] ∧ c.query.key ∈ questions es := by
  induction serves with
  | idle => exact fun c none => absurd none List.not_mem_nil
  | @turn es s s' st e sent before allowed ran ih =>
      have later : ∀ c ∈ s.head_client, c.query.answers = [] ∧ c.query.key ∈ questions (es ++ [(st, e)]) := by
        intro c member
        obtain ⟨untold, asked⟩ := ih c member
        exact ⟨untold, mem_questions_append.mpr (.inl asked)⟩
      cases e with
      | request fd destination time =>
          obtain ⟨_, requested, ran⟩ := ok_of_bind ran
          cases ran
          rw [before.kept.request_waits requested]
          intro c member
          rcases List.mem_cons.mp member with rfl | old
          · exact ⟨rfl, mem_questions_append.mpr (.inr rfl)⟩
          · exact later c (List.mem_of_mem_eraseP old)
      | ignored fd =>
          cases ran
          exact later
      | timeout =>
          obtain ⟨_, _, ran⟩ := ok_of_bind ran
          cases ran
          exact later
      | datagram buffer =>
          obtain ⟨outcome, branch, ran⟩ := ok_of_bind ran
          split at ran
          · cases ran
            exact later
          · obtain ⟨_, ended, ran⟩ := ok_of_bind ran
            cases ran
            obtain ⟨answer, _, rfl⟩ := before.kept.finished_served ended
            exact fun c member => later c (List.mem_of_mem_filter member)

/-! ### All stations -/

/-- The datagrams of a network and the servers of all its stations. The turns that each server has
taken are history. -/
structure Town (V : Type*) where
  pool : Pool Datagram (V × PAYLOAD)
  turns : V → List (Station × Event)
  server : V → Server

namespace Town
variable {V : Type*} {N : Network V} {s s' : Town V}

def start : Town V := ⟨⟨0, []⟩, fun _ => [], fun _ => .idle⟩

/-- What can happen at a station beside datagrams: a browser asks a question that an init payload can
carry, or connects and asks none, or there is a timeout. -/
def Proper (N : Network V) (x : V) : Event → Prop
  | .request _ destination time => N.Asked ⟨destination, x, time⟩
  | .ignored _ | .timeout => True
  | .datagram _ => False

/-- The question has been put to its source. -/
def Asks (s : Town V) (q : Query V) : Prop := (q.destination, q.start_time) ∈ questions (s.turns q.source)

/-- Each server is in a state that its turns lead to, and the datagrams in flight belong to searches
for what has been asked. -/
structure Sound (N : Network V) (s : Town V) : Prop where
  serves : ∀ x, Serves (s.turns x) (s.server x)
  asked : ∀ q, s.Asks q → N.Asked q
  image : ∃ (qs : List (Query V)) (t : Pool (Query V × Phase V) (Query V × List V)), (∀ q ∈ qs, s.Asks q) ∧
    s.pool = t.map N.datagram N.finished ∧ t.Good (N.Afoot qs) (N.Answered qs)

theorem sound_start : Sound N start where
  serves _ := .idle
  asked _ asks := absurd asks List.not_mem_nil
  image := ⟨[], ⟨0, []⟩, fun _ none => absurd none List.not_mem_nil, rfl,
    fun f none => absurd none (Multiset.notMem_zero f), fun _ none => absurd none List.not_mem_nil⟩

theorem Sound.sends (sound : Sound N s) {qs : List (Query V)} (asks : ∀ q ∈ qs, s.Asks q)
    {f : Flight (Query V × Phase V)} (afoot : N.Afoot qs f) : N.Sends f.msg :=
  Network.afoot_sends (fun q member => sound.asked q (asks q member)) afoot

/-- Every datagram in flight belongs to a search for what has been asked. -/
theorem Sound.flight (sound : Sound N s) {f : Flight Datagram} (flying : f ∈ s.pool.flying) :
    ∃ m, f.msg = N.datagram m ∧ N.Sends m ∧ s.Asks m.1 := by
  obtain ⟨qs, t, asks, image, good⟩ := sound.image
  rw [image] at flying
  obtain ⟨g, inside, rfl⟩ := Multiset.mem_map.mp flying
  exact ⟨g.msg, rfl, sound.sends asks (good.1 g inside), asks _ (good.1 g inside).1⟩

/-- The questions of a station that can be asked have a destination. -/
theorem Sound.named (sound : Sound N s) (x : V) : ([], []) ∉ questions (s.turns x) := fun blank =>
  (sound.asked ⟨[], x, []⟩ blank).destination.word.nonempty rfl

/-- What a station takes is what the network delivers to it. -/
theorem react_taken {x : V} {d : Datagram} {server server' : Server} {sent : List Datagram}
    (leads : N.resolve d.ip d.port = some x) (short : d.text.length < MAXDATASIZE)
    (ran : server.step (N.station x) (.datagram d.text) = .ok (server', sent)) :
    N.react d = some (sent, (completed (N.station x, .datagram d.text)).toList.map (Prod.mk x)) := by
  obtain ⟨outcome, branch, _⟩ := ok_of_bind ran
  obtain rfl := Site.step_datagram_sent ran branch
  simp only [Network.react, leads, if_pos short, branch, completed]

/-- What a station sends of its own accord are questions that it has been asked. -/
theorem turn_sends {es : List (Station × Event)} {server server' : Server} (serves : Serves es server) {x : V}
    {e : Event} {sent : List Datagram} (proper : Proper N x e)
    (ran : server.step (N.station x) e = .ok (server', sent)) :
    ∃ qs : List (Query V), sent = qs.map N.init ∧
      ∀ q ∈ qs, q.source = x ∧ (q.destination, q.start_time) ∈ questions es := by
  cases e with
  | request fd destination time =>
      obtain ⟨_, _, ran⟩ := ok_of_bind ran
      cases ran
      exact ⟨[], rfl, fun q none => absurd none List.not_mem_nil⟩
  | ignored fd =>
      cases ran
      exact ⟨[], rfl, fun q none => absurd none List.not_mem_nil⟩
  | timeout =>
      obtain ⟨_, walked, ran⟩ := ok_of_bind ran
      cases ran
      refine ⟨server.head_client.map fun c => ⟨c.query.destination, x, c.query.start_time⟩, ?_, ?_⟩
      · rw [List.map_map]
        exact Server.resend_eq walked fun c member => (serves.clients c member).1
      · intro q member
        obtain ⟨c, listed, rfl⟩ := List.mem_map.mp member
        exact ⟨rfl, (serves.clients c listed).2⟩
  | datagram buffer => exact proper.elim

theorem opened_afoot {qs : List (Query V)} {q : Query V} (member : q ∈ qs) (asked : N.Asked q) (i : ℕ) :
    N.Afoot qs ⟨i, [], N.task.opening q⟩ :=
  ⟨member, Network.away_goal asked.away, Walk.alone _ _ _, rfl⟩

section Runs
variable [DecidableEq V]

/-- A turn of the station `x` and what it does to the datagrams in flight. -/
def turned (s : Town V) (x : V) (e : Station × Event) (server : Server) (pool : Pool Datagram (V × PAYLOAD)) :
    Town V where
  pool := pool
  turns := Function.update s.turns x (s.turns x ++ [e])
  server := Function.update s.server x server

theorem turned_turns (s : Town V) (x y : V) (e : Station × Event) (server : Server)
    (pool : Pool Datagram (V × PAYLOAD)) : (s.turned x e server pool).turns y =
      if y = x then s.turns y ++ [e] else s.turns y := by
  have same : (s.turned x e server pool).turns y = Function.update s.turns x (s.turns x ++ [e]) y := rfl
  rw [same, Function.update_apply]
  split
  · rename_i here
    rw [here]
  · rfl

theorem turned_server (s : Town V) (x y : V) (e : Station × Event) (server : Server)
    (pool : Pool Datagram (V × PAYLOAD)) : (s.turned x e server pool).server y =
      if y = x then server else s.server y :=
  Function.update_apply _ _ _ _

theorem questions_turned {s : Town V} {x : V} {e : Station × Event} {server : Server}
    {pool : Pool Datagram (V × PAYLOAD)} (silent : e.2.question = none) (y : V) :
    questions ((s.turned x e server pool).turns y) = questions (s.turns y) := by
  have last := List.filterMap_cons_none (f := fun e : Station × Event => e.2.question) (l := []) silent
  rw [turned_turns]
  split
  · rw [questions, List.filterMap_append, last, List.filterMap_nil, List.append_nil, ← questions]
  · rfl

/-- The steps in which nothing is lost. -/
inductive Step (N : Network V) : Town V → Town V → Prop
  | turn {s : Town V} {x : V} {e : Event} {server : Server} {sent : List Datagram} (i : ℕ)
      (proper : Proper N x e) (allowed : (s.server x).Allows e)
      (ran : (s.server x).step (N.station x) e = .ok (server, sent)) :
      Step N s (s.turned x (N.station x, e) server
        ⟨s.pool.flying + (sent.map fun m => (⟨i, [], m⟩ : Flight Datagram) : List (Flight Datagram)), s.pool.log⟩)
  | deliver {s : Town V} {x : V} {f : Flight Datagram} {rest : Multiset (Flight Datagram)} {server : Server}
      {sent : List Datagram} (flying : s.pool.flying = f ::ₘ rest)
      (leads : N.resolve f.msg.ip f.msg.port = some x) (short : f.msg.text.length < MAXDATASIZE)
      (ran : (s.server x).step (N.station x) (.datagram f.msg.text) = .ok (server, sent)) :
      Step N s (s.turned x (N.station x, .datagram f.msg.text) server ⟨rest + f.spawn sent,
        s.pool.log ++ f.file ((completed (N.station x, .datagram f.msg.text)).toList.map (Prod.mk x))⟩)
  | duplicate {s : Town V} {f : Flight Datagram} {rest : Multiset (Flight Datagram)}
      (flying : s.pool.flying = f ::ₘ rest) : Step N s { s with pool := ⟨f ::ₘ f ::ₘ rest, s.pool.log⟩ }

/-- The steps of a network that may also lose datagrams. -/
inductive Lossy (N : Network V) : Town V → Town V → Prop
  | step {s s' : Town V} (step : Step N s s') : Lossy N s s'
  | lose {s : Town V} {f : Flight Datagram} {rest : Multiset (Flight Datagram)}
      (flying : s.pool.flying = f ::ₘ rest) : Lossy N s { s with pool := ⟨rest, s.pool.log⟩ }

def Run (N : Network V) : Town V → Prop := Relation.ReflTransGen (Lossy N) start

/-- Runs in which nothing is lost. -/
def Calm (N : Network V) : Town V → Town V → Prop := Relation.ReflTransGen (Step N)

theorem Run.calm {s s' : Town V} (run : Run N s) (calm : Calm N s s') : Run N s' :=
  run.trans (Relation.ReflTransGen.mono (fun _ _ step => Lossy.step step) s s' calm)

theorem asks_turned {s : Town V} {q : Query V} {x : V} {e : Station × Event} {server : Server}
    {pool : Pool Datagram (V × PAYLOAD)} : (s.turned x e server pool).Asks q ↔
      s.Asks q ∨ q.source = x ∧ e.2.question = some (q.destination, q.start_time) := by
  unfold Asks
  rw [turned_turns]
  split
  · rename_i here
    rw [mem_questions_append, and_iff_right here]
  · rename_i other
    rw [or_iff_left fun both => other both.1]

/-- What the carrier does keeps the datagrams what they are. -/
theorem Sound.moves (sound : Sound N s) (regular : N.Regular) (grown : ∀ q, s.Asks q → s'.Asks q)
    (step : Soup.Step N.react s.pool s'.pool) :
    ∃ (qs : List (Query V)) (t : Pool (Query V × Phase V) (Query V × List V)), (∀ q ∈ qs, s'.Asks q) ∧
      s'.pool = t.map N.datagram N.finished ∧ t.Good (N.Afoot qs) (N.Answered qs) := by
  obtain ⟨qs, t, asks, image, good⟩ := sound.image
  rw [image] at step
  obtain ⟨u, moved, same⟩ := regular.simulates.step (fun f member => sound.sends asks (good.1 f member)) step
  exact ⟨qs, u, fun q member => grown q (asks q member), same, moved.good (regular.afoot_preserved qs) good⟩

theorem Sound.turned (sound : Sound N s) {x : V} {e : Event} {server : Server}
    {sent : List Datagram} (allowed : (s.server x).Allows e)
    (ran : (s.server x).step (N.station x) e = .ok (server, sent)) (pool : Pool Datagram (V × PAYLOAD)) :
    ∀ y, Serves ((s.turned x (N.station x, e) server pool).turns y)
      ((s.turned x (N.station x, e) server pool).server y) := by
  intro y
  rw [turned_turns, turned_server]
  split
  · rename_i here
    subst here
    exact (sound.serves y).turn allowed ran
  · exact sound.serves y

theorem Sound.step (sound : Sound N s) (regular : N.Regular) (step : Step N s s') : Sound N s' := by
  cases step with
  | @turn x e server sent i proper allowed ran =>
      have asked : ∀ pool q, (s.turned x (N.station x, e) server pool).Asks q → N.Asked q := by
        intro pool q asks
        rcases asks_turned.mp asks with before | ⟨rfl, now⟩
        · exact sound.asked q before
        · cases e with
          | request fd destination time =>
              cases now
              exact proper
          | ignored fd => cases now
          | timeout => cases now
          | datagram buffer => cases now
      refine ⟨sound.turned allowed ran _, asked _, ?_⟩
      obtain ⟨qs, t, asks, image, good⟩ := sound.image
      obtain ⟨more, rfl, sources⟩ := turn_sends (sound.serves x) proper ran
      have put : ∀ q ∈ more, s.Asks q := by
        intro q member
        obtain ⟨rfl, asks⟩ := sources q member
        exact asks
      refine ⟨qs ++ more, ⟨t.flying + (more.map fun q => (⟨i, [], N.task.opening q⟩ : Flight _) : List (Flight _)),
        t.log⟩, ?_, ?_, ?_, ?_⟩
      · intro q member
        exact asks_turned.mpr (.inl ((List.mem_append.mp member).elim (asks q) (put q)))
      · unfold Town.turned
        simp only [image, Pool.map, Multiset.map_add, Multiset.map_coe, List.map_map, Function.comp_def,
          Flight.map, List.map_nil, Network.init_eq]
      · intro f member
        rcases Multiset.mem_add.mp member with before | now
        · obtain ⟨known, sound⟩ := good.1 f before
          exact ⟨List.mem_append_left _ known, sound⟩
        · obtain ⟨q, given, rfl⟩ := List.mem_map.mp (Multiset.mem_coe.mp now)
          exact opened_afoot (List.mem_append_right _ given) (sound.asked q (put q given)) i
      · intro r member
        obtain ⟨known, sound⟩ := good.2 r member
        exact ⟨List.mem_append_left _ known, sound⟩
  | @deliver x f rest server sent flying leads short ran =>
      refine ⟨sound.turned (e := .datagram f.msg.text) trivial ran _, fun q asks => ?_, ?_⟩
      · rcases asks_turned.mp asks with before | ⟨_, now⟩
        · exact sound.asked q before
        · cases now
      · refine sound.moves regular (fun q asks => asks_turned.mpr (.inl asks)) (.deliver ?_)
        have whole : s.pool = ⟨f ::ₘ rest, s.pool.log⟩ := by rw [← flying]
        rw [whole]
        exact .mk (react_taken leads short ran)
  | @duplicate f rest flying =>
      refine ⟨sound.serves, sound.asked, sound.moves regular (fun q => id) ?_⟩
      have whole : s.pool = ⟨f ::ₘ rest, s.pool.log⟩ := by rw [← flying]
      rw [whole]
      exact .duplicate f rest s.pool.log

theorem Run.sound (run : Run N s) (regular : N.Regular) : Sound N s := by
  induction run with
  | refl => exact sound_start
  | @tail t u _ step ih =>
      cases step with
      | step step => exact ih.step regular step
      | @lose f rest flying =>
          refine ⟨ih.serves, ih.asked, ih.moves regular (fun q => id) ?_⟩
          have whole : t.pool = ⟨f ::ₘ rest, t.pool.log⟩ := by rw [← flying]
          rw [whole]
          exact .lose f rest t.pool.log

/-- What a datagram of a search completes is the route of its token, at the source. -/
theorem completed_datagram (regular : N.Regular) {m : Query V × Phase V} (sends : N.Sends m)
    (short : (N.payload m.1 m.2).text.length < MAXDATASIZE) {x : V} (here : m.2.at = some x) {p : PAYLOAD}
    (done : completed (N.station x, .datagram (N.payload m.1 m.2).text) = some p) :
    ∃ path, m.2 = .home path 1 ∧ Route N.nbrs (N.task.goal m.1) m.1.source path ∧ m.1.source = x ∧
      p = (N.finished (m.1, path)).2 := by
  obtain ⟨asked, valid⟩ := sends
  obtain ⟨outcome, handled, _, finished, _⟩ := regular.handles asked.away valid here
  have branch : udp_branch (N.station x) (N.payload m.1 m.2).text = .ok outcome := by
    rw [(regular.loadable asked valid short).udp_branch]
    exact handled
  simp only [completed, branch] at done
  have member : p ∈ outcome.finished.toList := by
    rw [done]
    exact List.mem_singleton_self p
  rw [finished] at member
  obtain ⟨path, last, rfl⟩ := List.mem_map.mp member
  obtain ⟨phase, route⟩ := Phase.Valid.done valid last
  refine ⟨path, phase, route, ?_, rfl⟩
  rw [phase, Phase.at, ← List.head?_eq_getElem?, route.head?] at here
  exact Option.some.inj here

section Room
variable [Fintype V] {name address route : ℕ}

/-- A station takes a datagram exactly if the route that it completes, if any, is for a question that
the store still holds. -/
theorem Sound.takes_iff (sound : Sound N s) (regular : N.Regular) (spacious : N.Spacious name address route)
    {f : Flight Datagram} (flying : f ∈ s.pool.flying) :
    ∃ x, N.resolve f.msg.ip f.msg.port = some x ∧ f.msg.text.length < MAXDATASIZE ∧
      ((∃ server sent, (s.server x).step (N.station x) (.datagram f.msg.text) = .ok (server, sent)) ↔
        ∀ p, completed (N.station x, .datagram f.msg.text) = some p → p.key ∈ remembered (s.turns x)) := by
  obtain ⟨m, wire, ⟨asked, valid⟩, _⟩ := sound.flight flying
  obtain ⟨x, here⟩ := Phase.Valid.at_isSome valid
  have short := spacious.short regular.toCarried asked valid
  have loadable := regular.loadable asked valid short
  obtain ⟨outcome, handled, _⟩ := regular.handles asked.away valid here
  have branch : udp_branch (N.station x) (N.payload m.1 m.2).text = .ok outcome := by
    rw [loadable.udp_branch]
    exact handled
  rw [wire, Network.datagram_at here]
  refine ⟨x, regular.home x, short, ?_⟩
  simp only [completed, branch]
  exact Server.takes_iff (sound.serves x) loadable short branch

/-- With few questions every datagram is taken. -/
theorem Sound.takes (sound : Sound N s) (regular : N.Regular) (spacious : N.Spacious name address route)
    (few : ∀ x, (questions (s.turns x)).toFinset.card ≤ MAX_QUERIES) {f : Flight Datagram}
    (flying : f ∈ s.pool.flying) : ∃ x server sent, N.resolve f.msg.ip f.msg.port = some x ∧
      f.msg.text.length < MAXDATASIZE ∧
      (s.server x).step (N.station x) (.datagram f.msg.text) = .ok (server, sent) := by
  obtain ⟨x, leads, short, takes⟩ := sound.takes_iff regular spacious flying
  obtain ⟨server, sent, ran⟩ := takes.mpr fun p done => by
    obtain ⟨m, wire, sends, asks⟩ := sound.flight flying
    obtain ⟨y, here⟩ := Phase.Valid.at_isSome sends.2
    have place := Network.datagram_at (N := N) (q := m.1) here
    have text : f.msg.text = (N.payload m.1 m.2).text := by rw [wire, place]
    have same : y = x := by
      rw [wire, place] at leads
      exact Option.some.inj ((regular.home y).symm.trans leads)
    subst same
    rw [text] at done short
    obtain ⟨path, _, _, rfl, rfl⟩ := completed_datagram regular sends short here done
    exact questions_remembered (few _) (sound.named _) asks
  exact ⟨x, server, sent, leads, short, ran⟩

theorem Sound.delivers (sound : Sound N s) (regular : N.Regular) (spacious : N.Spacious name address route)
    (few : ∀ x, (questions (s.turns x)).toFinset.card ≤ MAX_QUERIES) {pool : Pool Datagram (V × PAYLOAD)}
    (step : Deliver N.react s.pool pool) :
    ∃ s', Step N s s' ∧ s'.pool = pool ∧ ∀ x, questions (s'.turns x) = questions (s.turns x) := by
  generalize before : s.pool = start at step
  cases step with
  | @mk f rest log out reports handed =>
      have flying : s.pool.flying = f ::ₘ rest := by rw [before]
      have logged : s.pool.log = log := by rw [before]
      obtain ⟨x, server, sent, leads, short, ran⟩ := sound.takes regular spacious few
        (by rw [flying]; exact Multiset.mem_cons_self f rest)
      have reacts := react_taken leads short ran
      rw [handed] at reacts
      cases reacts
      refine ⟨_, .deliver flying leads short ran, ?_, questions_turned rfl⟩
      rw [← logged]
      rfl

/-- In every run of a network and its browsers, whatever is lost or comes twice, no timeout and no
question brings a station down. A datagram does exactly where it completes a route whose question is not
among the last hundred that the station missed. -/
theorem only_forgotten_questions_bring_a_station_down (regular : N.Regular)
    (spacious : N.Spacious name address route) (run : Run N s) :
    (∀ x, ∃ sent, (s.server x).step (N.station x) .timeout = .ok (s.server x, sent)) ∧
    (∀ x fd destination time, N.Asked ⟨destination, x, time⟩ →
      ∃ server, (s.server x).step (N.station x) (.request fd destination time) = .ok (server, [])) ∧
    ∀ f ∈ s.pool.flying, ∃ x, N.resolve f.msg.ip f.msg.port = some x ∧ f.msg.text.length < MAXDATASIZE ∧
      ((∃ server sent, (s.server x).step (N.station x) (.datagram f.msg.text) = .ok (server, sent)) ↔
        ∀ p, completed (N.station x, .datagram f.msg.text) = some p → p.key ∈ remembered (s.turns x)) := by
  have sound := run.sound regular
  refine ⟨fun x => ?_, fun x fd destination time asked => ?_, fun f => sound.takes_iff regular spacious⟩
  · obtain ⟨sent, walked⟩ := (sound.serves x).kept.resend_ok (N.station x)
    refine ⟨sent, ?_⟩
    simp only [Server.step, walked, bind, Except.bind, pure, Except.pure]
  · have name := asked.destination.short
    have short := asked.start_time.short
    obtain ⟨server, requested⟩ : ∃ server, (s.server x).request fd destination time = .ok server :=
      (s.server x).request_ok fd (Nat.lt_succ_of_le name) (Nat.lt_succ_of_le short)
    refine ⟨server, ?_⟩
    simp only [Server.step, requested, bind, Except.bind, pure, Except.pure]

end Room

end Runs

/-! ### A browser at StationA -/

/-- It has asked for StationB. -/
def justAsked : Town Bool :=
  start.turned false (twoStops.station false, .request 5 asked.destination asked.start_time) oneClient ⟨0, []⟩

/-- The question has been flooded. -/
def askedTown : Town Bool :=
  justAsked.turned false (twoStops.station false, .timeout) oneClient ⟨{⟨0, [], twoStops.init toStationB⟩}, []⟩

theorem justAsked_step : Step twoStops start justAsked := by
  have proper : Proper twoStops false (.request 5 asked.destination asked.start_time) :=
    Network.toStationB_asked toStationB (List.mem_singleton_self _)
  exact .turn (s := start) 0 proper rfl rfl

theorem askedTown_step : Step twoStops justAsked askedTown :=
  .turn (s := justAsked) (x := false) (e := .timeout) 0 trivial trivial rfl

theorem askedTown_run : Run twoStops askedTown := .tail (.single (.step justAsked_step)) (.step askedTown_step)

theorem askedTown_is_taken : ∃ f ∈ askedTown.pool.flying, ∃ x, twoStops.resolve f.msg.ip f.msg.port = some x ∧
    f.msg.text.length < MAXDATASIZE ∧ ((∃ server sent, (askedTown.server x).step (twoStops.station x)
      (.datagram f.msg.text) = .ok (server, sent)) ↔ ∀ p, completed (twoStops.station x, .datagram f.msg.text) =
        some p → p.key ∈ remembered (askedTown.turns x)) := by
  obtain ⟨_, _, takes⟩ := only_forgotten_questions_bring_a_station_down twoStops_regular
    Network.twoStops_spacious askedTown_run
  have flying : ⟨0, [], twoStops.init toStationB⟩ ∈ askedTown.pool.flying := Multiset.mem_singleton_self _
  exact ⟨_, flying, takes _ flying⟩

end Town
end TransitNet

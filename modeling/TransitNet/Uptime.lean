import TransitNet.Strays

/-! Runs of a network of Python stations, and the requests that no station goes down for. -/
namespace TransitNet
open Relay Words Utf8

/-- The stations' variables, and every datagram that was ever sent. A datagram may arrive late, more
than once, or never. -/
structure PySystem (V : Type*) where
  servers : V → PyServer
  wire : List PyDatagram

inductive PyTurn (V : Type*)
  | request (x : V) (current_time : Text) (received : Option Text)
  | timeout (x : V)
  | deliver (x : V) (d : PyDatagram)

variable {V : Type*}

namespace PyNetwork
variable {P : PyNetwork V}

section Step
variable [DecidableEq V]

def serve (P : PyNetwork V) (s : PySystem V) (x : V) (e : PyEvent) : Except PyError (PySystem V) :=
  match (s.servers x).step (P.station x) e with
  | .ok (server, sent) => .ok { servers := Function.update s.servers x server, wire := s.wire ++ sent }
  | .error error => .error error

/-- One turn of one station. What it raises nobody catches, and the station is down. -/
def turn (P : PyNetwork V) (s : PySystem V) : PyTurn V → Except PyError (PySystem V)
  | .request x current_time received => P.serve s x (.request current_time received)
  | .timeout x => P.serve s x .timeout
  | .deliver x d =>
      match recvfrom d.message with
      | .ok data => P.serve s x (.datagram data)
      | .error error => .error error

end Step

def Permits (P : PyNetwork V) (s : PySystem V) : PyTurn V → Prop
  | .request x current_time _ => (s.servers x).walking = false ∧ HHMM current_time
  | .timeout _ => True
  | .deliver x d => (s.servers x).walking = false ∧ d ∈ s.wire ∧ P.resolve d.ip_addr d.udp_port = some x

end PyNetwork

/-! ### Which requests are harmless -/

namespace QueryManager

def Holds (store : QueryManager) (key : Text × Text) : Prop := ∃ q ∈ store.queries, q.key = key

/-- It holds the key, or will when it has been asked for `asked`. -/
def Takes (store : QueryManager) (asked key : Text × Text) : Prop :=
  store.Holds key ∨ key = asked ∧ store.queries.length < max_queries

theorem Holds.search {store : QueryManager} {key : Text × Text} (holds : store.Holds key) :
    ∃ q, store.search_query key.1 key.2 = some q := by
  obtain ⟨q, member, rfl⟩ := holds
  refine Option.isSome_iff_exists.mp (List.find?_isSome.mpr ⟨q, member, ?_⟩)
  rw [Bool.and_eq_true, decide_eq_true_eq, decide_eq_true_eq]
  exact ⟨rfl, rfl⟩

theorem Holds.add_query {store : QueryManager} {key : Text × Text} (holds : store.Holds key) (q : PyQuery) :
    (store.add_query q).Holds key := by
  obtain ⟨q', member, same⟩ := holds
  refine ⟨q', ?_, same⟩
  rw [QueryManager.add_query]
  split
  · exact List.mem_append_left [q] member
  · exact member

theorem Takes.add_query {store : QueryManager} {key : Text × Text} {q : PyQuery}
    (takes : store.Takes q.key key) : (store.add_query q).Holds key := by
  rcases takes with holds | ⟨rfl, room⟩
  · exact holds.add_query q
  · refine ⟨q, ?_, rfl⟩
    rw [QueryManager.add_query, if_pos room]
    exact List.mem_append_right _ List.mem_cons_self

theorem Holds.answer {store : QueryManager} {key : Text × Text} (holds : store.Holds key)
    (destination start_time answers : Text) : (store.answer destination start_time answers).Holds key := by
  obtain ⟨q, member, rfl⟩ := holds
  obtain ⟨i, there⟩ := List.mem_iff_getElem?.mp member
  let place := store.queries.findIdx fun q => q.destination = destination && q.start_time = start_time
  refine ⟨if place = i then { q with answers } else q, List.mem_of_getElem? (i := i) ?_, ?_⟩
  · rw [QueryManager.answer, List.getElem?_modify, there]
    rfl
  · split <;> rfl

end QueryManager

namespace PyNetwork
variable {P : PyNetwork V}

/-- A question, in the words it is read in, that `x` can be asked. It is about a station that there is
no way to, and otherwise in the name of `x`, about another station, at a time that can be read, and in the
store when it comes home; or it is in a name that no station has on a way to that station. -/
inductive Wired.Harmless (h : P.Wired) (x : V) (stored : Text × Text → Prop) (text : Text) : Prop
  | unread (broken : '\n' ∈ text)
  | nowhere {front : List Text} {destination source start_time : Text}
      (words : split whitespace text = front ++ [destination, source, start_time])
      (unreached : ∀ y, h.Leads x y → destination ≠ P.name y)
  | served {front : List Text} {destination start_time : Text}
      (words : split whitespace text = front ++ [destination, P.name x, start_time])
      (away : destination ≠ P.name x)
      (clock : (P.station x).entries.drop 1 = [] ∨ readable start_time = true)
      (kept : stored (destination, start_time))
  | foreign {front : List Text} {destination source start_time : Text}
      (words : split whitespace text = front ++ [destination, source, start_time])
      (away : destination ≠ P.name x)
      (nobody : ∀ path, Route h.twin.nbrs (h.twin.task.goal ⟨destination, x, start_time⟩) x path →
        source ∉ path.map P.name)

theorem Wired.Harmless.mono {h : P.Wired} {x : V} {stored stored' : Text × Text → Prop} {text : Text}
    (harmless : h.Harmless x stored text) (grows : ∀ key, stored key → stored' key) :
    h.Harmless x stored' text := by
  cases harmless with
  | unread broken => exact .unread broken
  | nowhere words unreached => exact .nowhere words unreached
  | served words away clock kept => exact .served words away clock (grows _ kept)
  | foreign words away nobody => exact .foreign words away nobody

/-- What a request may put on the wire, in the hands of the station that it is for. -/
inductive Wired.Errand (h : P.Wired) (stored : V → Text × Text → Prop) : V → PAYLOAD → Prop
  | stray {x : V} {p : PAYLOAD} (stray : h.Stray x p) : h.Errand stored x p
  | trip {q : Query V} {start_time : Text} {ph : Phase V} {x : V} (away : q.destination ≠ P.name q.source)
      (destination : Word parts q.destination) (start : Word parts start_time)
      (seeks : (P.station q.source).Seeks start_time q.start_time)
      (kept : stored q.source (q.destination, start_time))
      (valid : ph.Valid h.twin.nbrs (h.twin.task.goal q) q.source) (here : ph.at = some x) :
      h.Errand stored x (h.payload q start_time ph)
  | lost {q : Query V} {source start_time : Text} {x : V} {p : PAYLOAD} (away : q.destination ≠ P.name q.source)
      (destination : Word parts q.destination) (named : Word parts source) (start : Word parts start_time)
      (nobody : ∀ path, Route h.twin.nbrs (h.twin.task.goal q) q.source path → source ∉ path.map P.name)
      (lost : h.Lost q source start_time x p) : h.Errand stored x p

theorem Wired.Errand.mono {h : P.Wired} {stored stored' : V → Text × Text → Prop} {x : V} {p : PAYLOAD}
    (errand : h.Errand stored x p) (grows : ∀ y key, stored y key → stored' y key) : h.Errand stored' x p := by
  cases errand with
  | stray stray => exact .stray stray
  | trip away destination start seeks kept valid here =>
      exact .trip away destination start seeks (grows _ _ kept) valid here
  | lost away destination named start nobody lost => exact .lost away destination named start nobody lost

theorem Carries.mono {kind kind' : V → PAYLOAD → Prop} {d : PyDatagram} (carries : P.Carries kind d)
    (grows : ∀ y r, kind y r → kind' y r) : P.Carries kind' d := by
  obtain ⟨y, r, leads, read, meets⟩ := carries
  exact ⟨y, r, leads, read, grows y r meets⟩

theorem Regular.default_stray (h : P.Regular) (x : V) : h.Stray x defaultPayload :=
  ⟨rfl, rfl, .inr rfl, fun y _ same => (h.name y).nonempty same.symm⟩

/-- A harmless question goes out on an errand. -/
theorem Regular.asks (h : P.Regular) {x : V} {stored : V → Text × Text → Prop} {destination start_time : Text}
    (harmless : h.Harmless x (stored x) ((P.station x).wording destination start_time)) :
    P.Carries (h.Errand stored) ((P.station x).ask destination start_time) := by
  have unread : ∀ {text}, deserialize text = .ok defaultPayload →
      P.Carries (h.Errand stored) ⟨P.ip x, P.port x, text⟩ :=
    fun read => h.carries read (.stray (h.default_stray x))
  by_cases broken : '\n' ∈ (P.station x).wording destination start_time
  · exact unread (init_unread broken)
  cases harmless with
  | unread impossible => exact absurd impossible broken
  | @nowhere front d s t words unreached =>
      obtain ⟨read, one, two, three⟩ := init_read broken words
      refine h.carries read (.stray ⟨rfl, rfl, .inl ⟨⟨rfl, rfl, rfl, rfl⟩, Int.le_refl 0, Int.le_refl 0, ?_⟩,
        unreached⟩)
      intro w member
      simp only [PAYLOAD.fields, init_payload, defaultPayload, List.nil_append, List.mem_cons,
        List.not_mem_nil, or_false] at member
      rcases member with rfl | rfl | rfl
      · exact one
      · exact two
      · exact three
  | @served front d t words away clock kept =>
      obtain ⟨read, one, two, three⟩ := init_read broken words
      obtain ⟨time, seeks⟩ := (h.formed x).exists_seeks clock
      let q : Query V := ⟨d, x, time⟩
      have opened : (Phase.flood [] x).Valid h.twin.nbrs (h.twin.task.goal q) x := Walk.alone _ _ x
      have errand : h.Errand stored x (h.payload q t (.flood [] x)) := .trip away one three seeks kept opened rfl
      exact h.carries read errand
  | @foreign front d s t words away nobody =>
      obtain ⟨read, one, two, three⟩ := init_read broken words
      let q : Query V := ⟨d, x, t⟩
      have errand : h.Errand stored x (h.borne q s t (.flood [] x)) :=
        .lost away one two three nobody (.out (Walk.alone _ _ x))
      exact h.carries read errand

end PyNetwork

/-- `time_to_minutes(p.times[p.hops-1])`. -/
def PAYLOAD.last_minutes (p : PAYLOAD) : Except PyError ℤ := do
  time_to_minutes (← pyIndex p.time (p.hops - 1))

/-- A route with an arrival that can be read, in a text that can be read. -/
structure PAYLOAD.Dated (p : PAYLOAD) : Prop where
  text : deserialize (serialize p) = .ok p
  arrival : ∃ n, p.last_minutes = .ok n

/-- Both arrive, and `r` arrives no later. -/
def PAYLOAD.NoLater (r p : PAYLOAD) : Prop :=
  ∃ n m, r.last_minutes = .ok n ∧ p.last_minutes = .ok m ∧ n ≤ m

theorem PAYLOAD.NoLater.of_le {r p : PAYLOAD} {n m : ℤ} (first : r.last_minutes = .ok n)
    (second : p.last_minutes = .ok m) (le : n ≤ m) : r.NoLater p := ⟨n, m, first, second, le⟩

theorem PAYLOAD.NoLater.trans {p₁ p₂ p₃ : PAYLOAD} (first : p₁.NoLater p₂) (second : p₂.NoLater p₃) : p₁.NoLater p₃ := by
  obtain ⟨n, m, one, two, le⟩ := first
  obtain ⟨m', k, two', three, le'⟩ := second
  obtain rfl := Except.ok.inj (two.symm.trans two')
  exact .of_le one three (Int.le_trans le le')

/-- The better of two answers is one of them, and no later than either. -/
theorem better_no_later {p : PAYLOAD} (dated : p.Dated) (kind : PAYLOAD → Prop) (here : kind p) {old : Option Text}
    (answer : ∀ a, old = some a → ∃ r : PAYLOAD, r.Dated ∧ kind r ∧ serialize r = a) :
    ∃ r : PAYLOAD, PyServer.better old p = .ok (serialize r) ∧ r.Dated ∧ kind r ∧ r.NoLater p ∧
      ∀ a, old = some a → ∃ r', deserialize a = .ok r' ∧ r.NoLater r' := by
  obtain ⟨m, now⟩ := dated.arrival
  have same := PAYLOAD.NoLater.of_le now now (Int.le_refl m)
  cases old with
  | none => exact ⟨p, rfl, dated, here, same, fun a impossible => by cases impossible⟩
  | some a =>
      obtain ⟨r, before, there, rfl⟩ := answer a rfl
      obtain ⟨n, arrived⟩ := before.arrival
      have compared : PyServer.better (some (serialize r)) p =
          .ok (if n > m then serialize p else serialize r) := by
        obtain ⟨t, last, minutes⟩ := ok_of_bind arrived
        obtain ⟨t', last', minutes'⟩ := ok_of_bind now
        simp only [PyServer.better, before.text, last, minutes, last', minutes', bind, Except.bind, pure, Except.pure]
      rw [compared]
      split
      · rename_i later
        refine ⟨p, rfl, dated, here, same, ?_⟩
        intro a same
        obtain rfl := Option.some.inj same
        exact ⟨r, before.text, .of_le now arrived (Int.le_of_lt later)⟩
      · rename_i sooner
        refine ⟨r, rfl, before, there, .of_le arrived now (Int.not_lt.mp sooner), ?_⟩
        intro a same
        obtain rfl := Option.some.inj same
        exact ⟨r, before.text, .of_le arrived arrived (Int.le_refl n)⟩

namespace PyServer
variable {s : PyServer} {p : PAYLOAD}

theorem sendall_close (s : PyServer) (fd : ℕ) (body : Text) :
    ((s.sendall fd body).close fd).queries = s.queries ∧ ((s.sendall fd body).close fd).clients = s.clients := by
  unfold PyServer.sendall
  split <;> exact ⟨rfl, rfl⟩

/-- Where the store holds the query, it is given the better answer, and nothing is raised. -/
theorem finish_ok {target_query : PyQuery} {answers : Text}
    (found : s.queries.search_query p.destination p.start_time = some target_query)
    (best : better target_query.answers p = .ok answers) : ∃ s', s.finish p = .ok s' ∧
      s'.queries = s.queries.answer p.destination p.start_time answers ∧ ∀ c ∈ s'.clients, c ∈ s.clients := by
  have searched : (s.write (serialize p) (some p.key)).queries.search_query p.destination p.start_time =
    some target_query := found
  unfold PyServer.finish
  simp only
  rw [searched]
  simp only [best, bind, Except.bind, pure, Except.pure]
  split
  · exact ⟨_, rfl, rfl, fun c member => member⟩
  · rename_i c _
    refine ⟨_, rfl, (sendall_close _ c.fd _).1, fun c' member => ?_⟩
    have before : c' ∈ ((PyServer.sendall _ c.fd _).close c.fd).clients := ClientList.remove_client_mem member
    rwa [(sendall_close _ _ _).2] at before

theorem finish_error (unknown : s.queries.search_query p.destination p.start_time = none) :
    s.finish p = .error .attributeError := by
  have searched : (s.write (serialize p) (some p.key)).queries.search_query p.destination p.start_time = none := unknown
  unfold PyServer.finish
  simp only
  rw [searched]

end PyServer

namespace PyNetwork
variable {P : PyNetwork V}

theorem Regular.finished_dated (h : P.Regular) {q : Query V} {start_time : Text} {path : List V}
    (valid : (Phase.home path 1).Valid h.twin.nbrs (h.twin.task.goal q) q.source)
    (destination : Word parts q.destination) (start : Word parts start_time) :
    (h.finished q start_time path).Dated := by
  have legible := h.payload_legible valid destination start
  have complete : (h.finished q start_time path).Legible :=
    ⟨⟨legible.sized.stations, legible.sized.address, legible.sized.routes, legible.sized.time⟩,
      Int.le_of_lt (by decide : (0 : ℤ) < 4), Int.le_of_lt (by decide : (0 : ℤ) < 1), legible.fields⟩
  have long := valid.2.2
  have count : (h.twin.rideTimes q path).length = path.length := by
    rw [Network.length_rideTimes]
    omega
  obtain ⟨t, last⟩ : ∃ t, (h.twin.rideTimes q path)[path.length - 1]? = some t :=
    ⟨_, List.getElem?_eq_getElem (by omega)⟩
  have place : (h.finished q start_time path).hops - 1 = (path.length - 1 : ℕ) := by
    simp only [Wired.finished, Network.finished, Network.onPath]
    omega
  have timed := h.rideTimes_timed q path t (List.mem_of_getElem? last)
  have there : pyIndex (h.finished q start_time path).time ((path.length - 1 : ℕ) : ℤ) = .ok t := pyIndex_nat last
  refine ⟨complete.serialize, timeToMinutes (fun _ => 0) t, ?_⟩
  rw [PAYLOAD.last_minutes, place, there]
  exact timed.same

/-- No errand brings its station down. It is passed on, or it completes a payload that is in the store. -/
theorem Regular.runs_errand [DecidableEq V] (h : P.Regular) (unnamed : ∀ y, P.name y ≠ blank)
    {stored : V → Text × Text → Prop} {x : V} {p : PAYLOAD} (errand : h.Errand stored x p) :
    ∃ outcome, (P.station x).handle p = .ok outcome ∧ (∀ d ∈ outcome.sent, P.Carries (h.Errand stored) d) ∧
      ∀ r, outcome.finished = some r → stored x r.key ∧ r.Dated := by
  have passes : ∀ {kind : V → PAYLOAD → Prop}, P.Passes kind x p → (∀ y r, kind y r → h.Errand stored y r) →
      ∃ outcome, (P.station x).handle p = .ok outcome ∧ (∀ d ∈ outcome.sent, P.Carries (h.Errand stored) d) ∧
        ∀ r, outcome.finished = some r → stored x r.key ∧ r.Dated := by
    rintro kind ⟨sent, handled, meets⟩ errands
    exact ⟨_, handled, fun d member => (meets d member).mono errands, fun r none => by cases none⟩
  cases errand with
  | stray stray => exact passes (h.passes_stray unnamed stray) fun y r stray => .stray stray
  | lost away destination named start nobody lost =>
      refine passes (h.passes_lost away destination named start nobody lost) fun y r next => ?_
      rcases next with lost | rfl
      · exact .lost away destination named start nobody lost
      · exact .stray (h.default_stray y)
  | @trip q start_time ph x away destination start seeks kept valid here =>
      refine ⟨_, h.handles away seeks valid here, ?_, ?_⟩
      · intro d member
        obtain ⟨ph', onward, rfl⟩ := List.mem_map.mp member
        have valid := valid.next h.twin_wired.loopless (Network.away_goal (N := h.twin) away) onward
        obtain ⟨y, there⟩ := valid.at_isSome
        rw [h.datagram_at q start_time there]
        exact h.carries (h.payload_legible valid destination start).serialize
          (.trip away destination start seeks kept valid there)
      · intro r finished
        obtain ⟨path, done, rfl⟩ := Option.map_eq_some_iff.mp finished
        cases ph with
        | flood path here => cases done
        | back path k => cases done
        | ride path k => cases done
        | home path' k =>
            rw [Phase.done] at done
            split at done
            · obtain rfl : k = 1 := by have := valid.2.1; omega
              cases done
              obtain rfl := (valid.1.source_iff_first here).mpr rfl
              exact ⟨kept, h.finished_dated valid destination start⟩
            · cases done

end PyNetwork

/-! ### What a station keeps -/

namespace PyNetwork
variable {P : PyNetwork V}

def Wired.Welcome (h : P.Wired) (x : V) (stored : Text × Text → Prop) (q : PyQuery) : Prop :=
  h.Harmless x stored ((P.station x).wording q.destination q.start_time)

/-- Every client waits for an answer to a harmless question, and the answers in the store can be compared. -/
structure Wired.Keeps (h : P.Wired) (x : V) (s : PyServer) : Prop where
  clients : ∀ c ∈ s.clients, c.query.answers = none ∧ h.Welcome x s.queries.Holds c.query
  answers : ∀ q ∈ s.queries.queries, ∀ a, q.answers = some a → ∃ p : PAYLOAD, p.Dated ∧ serialize p = a

/-- A turn that asks harmless questions at most. -/
structure Wired.Goes (h : P.Wired) (x : V) (s s' : PyServer) (sent : List PyDatagram) : Prop where
  keeps : h.Keeps x s'
  grows : ∀ key, s.queries.Holds key → s'.queries.Holds key
  asks : ∀ d ∈ sent, ∃ q : PyQuery, h.Welcome x s'.queries.Holds q ∧
    d = (P.station x).ask q.destination q.start_time

section Server
variable {h : P.Wired} {x : V} {s s' : PyServer}

theorem Wired.Keeps.of_fewer (keeps : h.Keeps x s) (same : s'.queries = s.queries)
    (fewer : ∀ c ∈ s'.clients, c ∈ s.clients) : h.Keeps x s' where
  clients c member := by
    rw [same]
    exact keeps.clients c (fewer c member)
  answers q member := by
    rw [same] at member
    exact keeps.answers q member

theorem Wired.Keeps.add_client (keeps : h.Keeps x s) {fd : ℕ} {q : PyQuery} (blank : q.answers = none)
    (welcome : h.Welcome x s.queries.Holds q) :
    h.Keeps x { s with clients := ClientList.add_client fd q s.clients } where
  clients c member := by
    rcases List.mem_cons.mp member with rfl | before
    · exact ⟨blank, welcome⟩
    · exact keeps.clients c before
  answers := keeps.answers

theorem Wired.Keeps.add_query (keeps : h.Keeps x s) {q : PyQuery} (blank : q.answers = none) :
    h.Keeps x { s with queries := s.queries.add_query q } where
  clients c member := ⟨(keeps.clients c member).1,
    (keeps.clients c member).2.mono fun _ holds => holds.add_query q⟩
  answers q' member a has := by
    rcases QueryManager.mem_add_query member with before | rfl
    · exact keeps.answers q' before a has
    · rw [blank] at has
      cases has

/-- What changes neither the store nor the list of clients is a turn that goes well. -/
theorem Wired.Keeps.quiet (keeps : h.Keeps x s) (same : s'.queries = s.queries)
    (fewer : ∀ c ∈ s'.clients, c ∈ s.clients) : h.Goes x s s' [] where
  keeps := keeps.of_fewer same fewer
  grows key holds := by rwa [same]
  asks d member := absurd member List.not_mem_nil

theorem Wired.Keeps.ask (keeps : h.Keeps x s') (grows : ∀ key, s.queries.Holds key → s'.queries.Holds key)
    {q : PyQuery} (welcome : h.Welcome x s'.queries.Holds q) :
    h.Goes x s (s'.ask (P.station x) q.destination q.start_time).1
      (s'.ask (P.station x) q.destination q.start_time).2 where
  keeps := keeps.of_fewer rfl fun _ member => member
  grows := grows
  asks _ member := ⟨q, welcome, List.mem_singleton.mp member⟩

/-- A question is put in the store, or it is there. -/
theorem Wired.Keeps.question (keeps : h.Keeps x s) {q : PyQuery} (blank : q.answers = none)
    (welcome : h.Welcome x (s.queries.Takes q.key) q) :
    h.Goes x s (s.question (P.station x) q.destination q.start_time).1
      (s.question (P.station x) q.destination q.start_time).2 := by
  obtain ⟨dest, tm, answers⟩ := q
  cases blank
  let q : PyQuery := { destination := dest, start_time := tm }
  let t : PyServer := { s with clients := ClientList.remove_client s.client_socket s.clients }
  have removed : h.Keeps x t := keeps.of_fewer rfl fun c member => ClientList.remove_client_mem member
  unfold PyServer.question
  simp only
  split
  · let u : PyServer := { t with
      clients := ClientList.add_client s.client_socket q t.clients
      queries := t.queries.add_query q }
    have stored : h.Welcome x u.queries.Holds q := welcome.mono fun key takes => takes.add_query
    have added : h.Keeps x { t with queries := t.queries.add_query q } := removed.add_query rfl
    have listed : h.Keeps x u := added.add_client rfl stored
    have grows : ∀ key, s.queries.Holds key → u.queries.Holds key := fun key holds => holds.add_query q
    have gone := listed.ask grows stored
    change h.Goes x s (u.ask (P.station x) dest tm).1 (u.ask (P.station x) dest tm).2
    exact gone
  · rename_i same_query found
    obtain ⟨member, same⟩ := QueryManager.search_query_some found
    let u : PyServer := { t with clients := ClientList.add_client s.client_socket q t.clients }
    have stored : h.Welcome x u.queries.Holds q := welcome.mono fun key takes =>
      takes.elim id fun asked => ⟨same_query, member, same.trans asked.1.symm⟩
    have listed : h.Keeps x u := removed.add_client rfl stored
    split
    · have grows : ∀ key, s.queries.Holds key → u.queries.Holds key := fun key => id
      have gone := listed.ask grows stored
      change h.Goes x s (u.ask (P.station x) dest tm).1 (u.ask (P.station x) dest tm).2
      exact gone
    · split
      · exact keeps.quiet rfl fun c member => ClientList.remove_client_mem member
      · refine keeps.quiet (PyServer.sendall_close t _ _).1 fun c member => ?_
        rw [(PyServer.sendall_close t _ _).2] at member
        exact ClientList.remove_client_mem member

theorem Wired.Keeps.request (keeps : h.Keeps x s) {current_time : Text} {received : Option Text}
    (tolerated : ∀ request ∈ received, ∀ key ∈ parse_query current_time request,
      h.Welcome x (s.queries.Takes key) { destination := key.1, start_time := key.2 }) :
    h.Goes x s (s.request (P.station x) current_time received).1 (s.request (P.station x) current_time received).2 := by
  unfold PyServer.request
  split
  · exact keeps.quiet rfl fun c member => member
  · rename_i request
    split
    · exact keeps.quiet rfl fun c member => member
    · rename_i dest tm parsed
      have accepted : h.Keeps x (s.accept (some (dest, tm))) := keeps.of_fewer rfl fun c member => member
      have welcome := tolerated request rfl (dest, tm) parsed
      have gone := accepted.question (q := { destination := dest, start_time := tm }) rfl welcome
      exact ⟨gone.keeps, gone.grows, gone.asks⟩

theorem Wired.Welcome.same {stored : Text × Text → Prop} {q q' : PyQuery} (welcome : h.Welcome x stored q)
    (same : q'.key = q.key) : h.Welcome x stored q' := by
  obtain ⟨destination, start_time⟩ := Prod.mk.inj same
  unfold Wired.Welcome at welcome ⊢
  rwa [destination, start_time]

/-- The walk asks again what a client has asked. -/
theorem Wired.Keeps.timeout (keeps : h.Keeps x s) :
    h.Goes x s (s.timeout (P.station x)).1 (s.timeout (P.station x)).2 := by
  unfold PyServer.timeout
  split
  · exact keeps.quiet rfl fun c member => member
  · rename_i current rest listed
    obtain ⟨blank, welcome⟩ := keeps.clients current (by rw [listed]; exact List.mem_cons_self)
    let t : PyServer := { s with walking := true }
    have walking : h.Keeps x t := keeps.of_fewer rfl fun c member => member
    simp only
    split
    · let u : PyServer := { t with queries := t.queries.add_query current.query }
      have grows : ∀ key, s.queries.Holds key → u.queries.Holds key := fun key holds => holds.add_query _
      have added : h.Keeps x u := walking.add_query blank
      have gone := added.ask grows (welcome.mono grows)
      exact gone
    · rename_i q found
      obtain ⟨_, same⟩ := QueryManager.search_query_some found
      split
      · have gone := walking.ask (s := s) (fun key => id) (welcome.same same)
        exact gone
      · rename_i answers _
        have told : ∀ fd body, (t.tell fd body).queries = t.queries ∧ (t.tell fd body).clients = t.clients := by
          intro fd body
          unfold PyServer.tell PyServer.sendall
          split
          · exact ⟨rfl, rfl⟩
          split <;> exact ⟨rfl, rfl⟩
        refine keeps.quiet (told _ _).1 fun c member => ?_
        have before : c ∈ (t.tell current.fd (http_response answers)).clients := ClientList.remove_client_mem member
        rwa [(told _ _).2] at before

theorem Wired.Keeps.answer (keeps : h.Keeps x s) {destination start_time answers : Text}
    (dated : ∃ p : PAYLOAD, p.Dated ∧ serialize p = answers) :
    h.Keeps x { s with queries := s.queries.answer destination start_time answers } where
  clients c member := ⟨(keeps.clients c member).1,
    (keeps.clients c member).2.mono fun _ holds => holds.answer destination start_time answers⟩
  answers q member a has := by
    rcases QueryManager.mem_answer member with before | ⟨_, now⟩
    · exact keeps.answers q before a has
    · obtain rfl := Option.some.inj (now.symm.trans has)
      exact dated

/-- A payload that comes home is compared with the answer that is stored. -/
theorem Wired.Keeps.finish (keeps : h.Keeps x s) {p : PAYLOAD} (dated : p.Dated)
    (holds : s.queries.Holds p.key) : ∃ s', s.finish p = .ok s' ∧ h.Goes x s s' [] := by
  obtain ⟨target_query, found⟩ := holds.search
  obtain ⟨member, _⟩ := QueryManager.search_query_some found
  obtain ⟨r, best, compared, -⟩ := better_no_later dated (fun _ => True) trivial fun a has =>
    (keeps.answers target_query member a has).imp fun r ⟨dated, text⟩ => ⟨dated, trivial, text⟩
  obtain ⟨s', ran, queries, fewer⟩ := PyServer.finish_ok found best
  let u : PyServer := { s with queries := s.queries.answer p.destination p.start_time (serialize r) }
  have answered : h.Keeps x u := keeps.answer ⟨r, compared, rfl⟩
  refine ⟨s', ran, answered.of_fewer queries fewer, fun key holds => ?_, fun d none => absurd none List.not_mem_nil⟩
  rw [queries]
  exact holds.answer _ _ _

/-- A payload on an errand is handled, and what it asks for is on an errand. -/
theorem Regular.datagram [DecidableEq V] (h : P.Regular) (unnamed : ∀ y, P.name y ≠ blank) {x : V} {s : PyServer}
    (keeps : h.Keeps x s) {stored : V → Text × Text → Prop} (held : ∀ key, stored x key → s.queries.Holds key)
    {data : Text} {p : PAYLOAD} (read : deserialize data = .ok p) (errand : h.Errand stored x p) :
    ∃ s' sent, s.datagram (P.station x) data = .ok (s', sent) ∧ h.Goes x s s' [] ∧
      ∀ d ∈ sent, P.Carries (h.Errand stored) d := by
  obtain ⟨outcome, handled, sends, finishes⟩ := h.runs_errand unnamed errand
  simp only [PyServer.datagram, read, handled, bind, Except.bind, pure, Except.pure]
  split
  · rename_i r done
    obtain ⟨kept, dated⟩ := finishes r done
    obtain ⟨s', finished, gone⟩ := keeps.finish dated (held _ kept)
    rw [finished]
    exact ⟨s', _, rfl, gone, sends⟩
  · exact ⟨_, _, rfl, keeps.quiet rfl fun c member => member, sends⟩

end Server

end PyNetwork

/-! ### Runs -/

/-- The receive buffer does not end inside a character of the datagram. -/
def Uncut (message : Text) : Prop :=
  (encode message).length ≤ 1024 ∨ ∃ front, front <+: message ∧ (encode front).length = 1024

theorem recvfrom_iff {message : Text} : (∃ data, recvfrom message = .ok data) ↔ Uncut message := by
  unfold recvfrom Uncut
  split
  · rename_i short
    exact ⟨fun _ => .inl short, fun _ => ⟨_, rfl⟩⟩
  · rename_i long
    rw [or_iff_right long]
    split
    · rename_i front found
      have full := List.find?_some found
      rw [decide_eq_true_eq] at full
      exact ⟨fun _ => ⟨front, (List.mem_inits _ _).mp (List.mem_of_find?_eq_some found), full⟩, fun _ => ⟨_, rfl⟩⟩
    · rename_i missing
      refine ⟨fun ⟨_, received⟩ => (by cases received), fun ⟨front, cut, full⟩ => ?_⟩
      have never := List.find?_eq_none.mp missing front ((List.mem_inits _ _).mpr cut)
      exact absurd (decide_eq_true full) never

namespace PyNetwork
variable {P : PyNetwork V}

/-- The request is harmless where it is received, or the datagram is not cut inside a character. -/
def Wired.Tolerates (h : P.Wired) (s : PySystem V) : PyTurn V → Prop
  | .request x current_time received => ∀ request ∈ received, ∀ key ∈ parse_query current_time request,
      h.Harmless x ((s.servers x).queries.Takes key) ((P.station x).wording key.1 key.2)
  | .timeout _ => True
  | .deliver _ d => Uncut d.message

variable [DecidableEq V]

/-- The states that the network gets to in turns that meet the condition. -/
inductive Wired.Runs (h : P.Wired) : PySystem V → Prop
  | idle : h.Runs ⟨fun _ => .idle, []⟩
  | turn {s s' : PySystem V} {t : PyTurn V} : h.Runs s → P.Permits s t → h.Tolerates s t → P.turn s t = .ok s' →
      h.Runs s'

/-- Every datagram is on an errand. -/
structure Wired.Steady (h : P.Wired) (s : PySystem V) : Prop where
  keeps : ∀ x, h.Keeps x (s.servers x)
  wire : ∀ d ∈ s.wire, P.Carries (h.Errand fun x => (s.servers x).queries.Holds) d

theorem Wired.Steady.serve {h : P.Wired} {s : PySystem V} (steady : h.Steady s) {x : V} {e : PyEvent}
    {server : PyServer} {sent : List PyDatagram} (ran : (s.servers x).step (P.station x) e = .ok (server, sent))
    (keeps : h.Keeps x server) (grows : ∀ key, (s.servers x).queries.Holds key → server.queries.Holds key)
    (sends : ∀ d ∈ sent, P.Carries (h.Errand fun y => (Function.update s.servers x server y).queries.Holds) d) :
    ∃ s', P.serve s x e = .ok s' ∧ h.Steady s' := by
  have grown : ∀ y key, (s.servers y).queries.Holds key →
      (Function.update s.servers x server y).queries.Holds key := by
    intro y key holds
    by_cases here : y = x
    · subst here
      rw [Function.update_self]
      exact grows key holds
    · rwa [Function.update_of_ne here]
  refine ⟨{ servers := Function.update s.servers x server, wire := s.wire ++ sent }, ?_, fun y => ?_, fun d member => ?_⟩
  · rw [PyNetwork.serve, ran]
  · change h.Keeps y (Function.update s.servers x server y)
    by_cases here : y = x
    · subst here
      rwa [Function.update_self]
    · rw [Function.update_of_ne here]
      exact steady.keeps y
  · rcases List.mem_append.mp member with before | now
    · exact (steady.wire d before).mono fun y r errand => errand.mono grown
    · exact sends d now

/-- A turn that meets the condition raises nothing. -/
theorem Regular.steady_turn (h : P.Regular) (unnamed : ∀ y, P.name y ≠ blank) {s : PySystem V}
    (steady : h.Steady s) {t : PyTurn V} (permitted : P.Permits s t) (tolerated : h.Tolerates s t) :
    ∃ s', P.turn s t = .ok s' ∧ h.Steady s' := by
  have asks : ∀ x e {server sent}, (s.servers x).step (P.station x) e = .ok (server, sent) →
      h.Goes x (s.servers x) server sent → ∃ s', P.serve s x e = .ok s' ∧ h.Steady s' := by
    intro x e server sent ran gone
    refine steady.serve ran gone.keeps gone.grows fun d member => ?_
    obtain ⟨q, welcome, rfl⟩ := gone.asks d member
    apply h.asks
    rwa [Function.update_self]
  cases t with
  | request x current_time received => exact asks x (.request current_time received) rfl ((steady.keeps x).request tolerated)
  | timeout x => exact asks x .timeout rfl (steady.keeps x).timeout
  | deliver x d =>
      obtain ⟨data, received⟩ := recvfrom_iff.mpr tolerated
      obtain ⟨_, sent, leads⟩ := permitted
      obtain ⟨y, p, there, read, errand⟩ := steady.wire d sent
      obtain rfl := Option.some.inj (leads.symm.trans there)
      obtain ⟨p', read', errand'⟩ : ∃ p', deserialize data = .ok p' ∧
          h.Errand (fun x => (s.servers x).queries.Holds) x p' := by
        rcases deserialize_front (recvfrom_front received) with same | default
        · exact ⟨p, same.trans read, errand⟩
        · exact ⟨defaultPayload, default, .stray (h.default_stray x)⟩
      obtain ⟨server, sent, ran, gone, sends⟩ := h.datagram unnamed (steady.keeps x) (fun key => id) read' errand'
      simp only [PyNetwork.turn, received]
      refine steady.serve ran gone.keeps gone.grows fun d member => (sends d member).mono fun y r errand => ?_
      refine errand.mono fun z key holds => ?_
      by_cases here : z = x
      · subst here
        rw [Function.update_self]
        exact gone.grows key holds
      · rwa [Function.update_of_ne here]

theorem Regular.runs_steady (h : P.Regular) (unnamed : ∀ y, P.name y ≠ blank) {s : PySystem V}
    (run : h.Runs s) : h.Steady s := by
  induction run with
  | idle =>
      have keeps : ∀ x, h.Keeps x .idle := fun x =>
        ⟨fun c none => absurd none List.not_mem_nil, fun q none => absurd none List.not_mem_nil⟩
      exact ⟨keeps, fun d none => absurd none List.not_mem_nil⟩
  | turn _ permitted tolerated ran steady =>
      obtain ⟨s', ran', steady'⟩ := h.steady_turn unnamed steady permitted tolerated
      rw [ran, Except.ok.injEq] at ran'
      rwa [ran']

/-- In every run of a network of Python stations whose requests are harmless, and whose datagrams are not
cut inside a character, no turn of any station raises. -/
theorem harmless_requests_bring_nobody_down (h : P.Regular) (unnamed : ∀ y, P.name y ≠ blank) {s : PySystem V}
    (run : h.Runs s) {t : PyTurn V} (permitted : P.Permits s t) (tolerated : h.Tolerates s t) :
    ∃ s', P.turn s t = .ok s' := by
  obtain ⟨s', ran, _⟩ := h.steady_turn unnamed (h.runs_steady unnamed run) permitted tolerated
  exact ⟨s', ran⟩

end PyNetwork

/-- A station that is asked for itself looks for the second station of a path that has only one. -/
theorem PyStation.udp_branch_own {st : PyStation} (name : Word parts st.STATION_NAME) {start_time : Text}
    (start : Word parts start_time) :
    st.udp_branch (st.ask st.STATION_NAME start_time).message = .error .indexError := by
  let p := init_payload st.STATION_NAME st.STATION_NAME start_time
  have legible : p.Legible := by
    refine ⟨⟨rfl, rfl, rfl, rfl⟩, Int.le_refl 0, Int.le_refl 0, fun w member => ?_⟩
    simp only [p, PAYLOAD.fields, init_payload, defaultPayload, List.nil_append, List.mem_cons,
      List.not_mem_nil, or_false] at member
    rcases member with rfl | rfl | rfl
    · exact name
    · exact name
    · exact start
  let q : PAYLOAD := { update_on_arrival st.STATION_NAME st.recorded p with found := 1 }
  have here : p.destination = st.STATION_NAME := rfl
  have own : q.source = st.STATION_NAME := rfl
  have found : q.found = 1 := rfl
  have destination : st.at_destination p = q := by
    rw [PyStation.at_destination, if_pos here]
    rfl
  have departs : st.depart q = .error .indexError := rfl
  have source : st.at_source q = .error .indexError := by
    simp only [PyStation.at_source, if_pos own, if_pos found, departs]
    rfl
  have handled : st.handle p = .error .indexError := by
    rw [PyStation.handle, destination, source]
    rfl
  have read : deserialize (st.ask st.STATION_NAME start_time).message = .ok p := legible.serialize
  rw [PyStation.udp_branch, read]
  exact handled

theorem PyServer.datagram_error {st : PyStation} {data : Text} {error : PyError}
    (raises : st.udp_branch data = .error error) (s : PyServer) : s.datagram st data = .error error := by
  unfold PyStation.udp_branch at raises
  unfold PyServer.datagram
  cases read : deserialize data with
  | error e =>
      rw [read] at raises
      cases raises
      rfl
  | ok p =>
      rw [read] at raises
      have handled : st.handle p = .error error := raises
      simp only [handled, bind, Except.bind]

/-! ### Two requests to StationA -/

namespace PyNetwork

/-- The stations have just been started. -/
def justStarted : PySystem Bool := ⟨fun _ => .idle, []⟩

def forB : Text := "GET /?to=StationB HTTP/1.1".toList

def forA : Text := "GET /?to=StationA HTTP/1.1".toList

/-- StationA has been asked at noon. -/
def askedFor (request : Text) : PySystem Bool where
  servers := Function.update (fun _ => .idle) false
    (PyServer.idle.request pyStationA "12:00".toList (some request)).1
  wire := (PyServer.idle.request pyStationA "12:00".toList (some request)).2

theorem askedFor_ran (request : Text) :
    pyTwoStops.turn justStarted (.request false "12:00".toList (some request)) = .ok (askedFor request) := rfl

theorem noon_permitted (request : Text) :
    pyTwoStops.Permits justStarted (.request false "12:00".toList (some request)) :=
  ⟨rfl, 12, 0, by decide, by decide, by decide⟩

theorem forB_tolerated :
    pyTwoStops_regular.Tolerates justStarted (.request false "12:00".toList (some forB)) := by
  have parsed : parse_query "12:00".toList forB = some ("StationB".toList, "12:00".toList) := by decide +kernel
  intro request same key accepted
  cases same
  rw [parsed, Option.mem_some_iff] at accepted
  subst accepted
  refine @Wired.Harmless.served _ _ _ _ _ _ [] "StationB".toList "12:00".toList ?_ ?_ (.inr ?_) (.inr ⟨rfl, ?_⟩)
  · decide +kernel
  · decide
  · decide +kernel
  · decide

theorem forB_runs : pyTwoStops_regular.Runs (askedFor forB) :=
  .turn .idle (noon_permitted forB) forB_tolerated (askedFor_ran forB)

/-- The question goes round: StationA takes its own init payload. -/
theorem forB_goes_on : ∃ s, pyTwoStops.turn (askedFor forB)
    (.deliver false (pyStationA.ask "StationB".toList "12:00".toList)) = .ok s :=
  harmless_requests_bring_nobody_down pyTwoStops_regular (by decide) forB_runs
    ⟨by decide +kernel, by decide +kernel, rfl⟩ (.inl (by decide +kernel))

/-- StationA does not survive the question for StationA. -/
theorem forA_brings_StationA_down :
    pyTwoStops.Permits justStarted (.request false "12:00".toList (some forA)) ∧
      pyTwoStops.turn justStarted (.request false "12:00".toList (some forA)) = .ok (askedFor forA) ∧
      pyTwoStops.Permits (askedFor forA) (.deliver false (pyStationA.ask "StationA".toList "12:00".toList)) ∧
      pyTwoStops.turn (askedFor forA) (.deliver false (pyStationA.ask "StationA".toList "12:00".toList)) =
        .error .indexError := by
  refine ⟨noon_permitted forA, askedFor_ran forA, ⟨by decide +kernel, by decide +kernel, rfl⟩, ?_⟩
  have received : recvfrom (pyStationA.ask "StationA".toList "12:00".toList).message =
      .ok (pyStationA.ask "StationA".toList "12:00".toList).message := by
    rw [recvfrom, if_pos (by decide +kernel)]
  have raises : pyStationA.udp_branch (pyStationA.ask "StationA".toList "12:00".toList).message =
      .error .indexError := PyStation.udp_branch_own (by decide) (by decide)
  simp only [turn, received, serve]
  have ran := PyServer.datagram_error raises ((askedFor forA).servers false)
  have step : ((askedFor forA).servers false).step (pyTwoStops.station false)
      (.datagram (pyStationA.ask "StationA".toList "12:00".toList).message) = .error .indexError := ran
  rw [step]

end PyNetwork

end TransitNet

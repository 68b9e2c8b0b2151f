import TransitNet.Answers
import TransitNet.Ring

/-! What the query store of a C station remembers: which questions, and of their answers nothing. -/
namespace TransitNet
open Ring

def QUERY.key (q : QUERY) : Text × Text := (q.destination, q.start_time)

theorem QUERY.asks_key {q : QUERY} {destination time : Text} :
    q.asks destination time = true ↔ q.key = (destination, time) := by
  rw [QUERY.asks_iff, QUERY.key, Prod.mk.injEq]

namespace Store

/-- The questions in the store, the newest first. -/
def keys (store : Store) : List (Text × Text) := (recent store.queries store.query_index).map QUERY.key

theorem search_query_iff {store : Store} {destination time : Text} :
    store.search_query destination time ≠ none ↔ (destination, time) ∈ store.keys := by
  rw [search_query, ne_eq, List.find?_eq_none, keys, List.mem_map]
  constructor
  · intro found
    by_contra absent
    refine found fun q member asks => absent ⟨q, mem_recent.mpr member, QUERY.asks_key.mp asks⟩
  · rintro ⟨q, member, same⟩ missing
    exact missing q (mem_recent.mp member) (QUERY.asks_key.mpr same)

theorem keys_add {store : Store} (room : store.query_index < MAX_QUERIES) (q : QUERY) :
    (store.add_query q).keys = q.key :: store.keys.dropLast := by
  have slot : store.query_index % MAX_QUERIES = store.query_index := Nat.mod_eq_of_lt room
  have inside : store.query_index < store.queries.length := by
    rw [store.sized]
    exact room
  have pushed := recent_push inside q
  rw [store.sized] at pushed
  simp only [keys, add_query, slot, pushed, List.map_cons, List.map_dropLast]

end Store

/-- The question of a request. -/
def Event.question : Event → Option (Text × Text)
  | .request _ destination time => some (destination, time)
  | .ignored _ | .timeout | .datagram _ => none

/-- The questions that a station found missing among the last hundred, the newest first. They
start with the blanks of the zeroed store. -/
def misses (es : List (Station × Event)) : List (Text × Text) :=
  (es.filterMap fun e => e.2.question).foldl (missed MAX_QUERIES)
    (List.replicate MAX_QUERIES ([], []))

/-- The questions that the store still holds. -/
def remembered (es : List (Station × Event)) : List (Text × Text) := (misses es).take MAX_QUERIES

theorem misses_other {e : Station × Event} (other : e.2.question = none) (es : List (Station × Event)) :
    misses (es ++ [e]) = misses es := by
  have last := List.filterMap_cons_none (f := fun e : Station × Event => e.2.question) (l := []) other
  rw [misses, List.filterMap_append, last, List.filterMap_nil, List.append_nil, ← misses]

theorem misses_request {e : Station × Event} {key : Text × Text} (asks : e.2.question = some key)
    (es : List (Station × Event)) : misses (es ++ [e]) = missed MAX_QUERIES (misses es) key := by
  have last := List.filterMap_cons_some (f := fun e : Station × Event => e.2.question) (l := []) asks
  rw [misses, List.filterMap_append, last, List.filterMap_nil, List.foldl_append, ← misses]
  rfl

theorem length_misses (es : List (Station × Event)) : MAX_QUERIES ≤ (misses es).length := by
  induction es using List.reverseRecOn with
  | nil => exact Nat.le_of_eq List.length_replicate.symm
  | append_singleton es e ih =>
      cases asks : e.2.question with
      | none => rw [misses_other asks]; exact ih
      | some key => rw [misses_request asks]; exact length_missed ih key

/-- The store holds what has been missed lately. -/
structure Server.Remembers (es : List (Station × Event)) (s : Server) : Prop where
  index : s.store.query_index < MAX_QUERIES
  keys : s.store.keys = remembered es

namespace Server
variable {es : List (Station × Event)} {s s' : Server}

theorem remembers_idle : Remembers [] idle := ⟨by decide, by decide⟩

theorem Remembers.same (remembers : s.Remembers es) (store : s'.store = s.store) {e : Station × Event}
    (other : e.2.question = none) : s'.Remembers (es ++ [e]) := by
  refine ⟨by rw [store]; exact remembers.index, ?_⟩
  rw [store, remembers.keys, remembered, remembered, misses_other other]

/-- What a request does: the page that asks to wait, a client in front, and a new query in the store
if there was none. -/
theorem request_spec {fd : ℕ} {destination time : Text} (ran : s.request fd destination time = .ok s') :
    (∃ q : QUERY, (q.answers = [] ∨ q ∈ s.store.queries) ∧ q.key = (destination, time) ∧
      s'.head_client = ⟨fd, q⟩ :: remove_client fd s.head_client) ∧
    s'.descriptors = Function.update s.descriptors fd (some s.accepted.length) ∧
    s'.accepted = s.accepted ++ [some (destination, time)] ∧
    s'.wire = s.wire ++ [(s.accepted.length, .wait)] ∧
    s'.store = if s.store.search_query destination time = none then
      s.store.add_query ⟨time, destination, []⟩ else s.store := by
  have opened : (s.accept fd (some (destination, time))).descriptors fd = some s.accepted.length :=
    Function.update_self fd _ _
  have told := send_wire opened .wait
  have table := send_descriptors (s.accept fd (some (destination, time))) fd .wait
  have listed := send_accepted (s.accept fd (some (destination, time))) fd .wait
  have untouched : (s.accept fd (some (destination, time))).store = s.store := rfl
  rw [Server.request] at ran
  simp only [send_store, send_head_client, untouched] at ran
  split at ran
  · rename_i missing
    obtain ⟨start_time, copied, ran⟩ := ok_of_bind ran
    obtain ⟨destination', copied', ran⟩ := ok_of_bind ran
    rw [strcpy] at copied copied'
    split at copied <;> cases copied
    split at copied' <;> cases copied'
    cases ran
    exact ⟨⟨_, .inl rfl, rfl, rfl⟩, table, listed, told, (if_pos missing).symm⟩
  · rename_i q found
    cases ran
    obtain ⟨member, same, same'⟩ := Store.search_query_some found
    refine ⟨⟨q, .inr member, by rw [QUERY.key, same, same'], rfl⟩, table, listed, told, ?_⟩
    rw [if_neg (by rw [found]; exact Option.some_ne_none q)]

theorem Remembers.request (remembers : s.Remembers es) {fd : ℕ} {destination time : Text}
    (ran : s.request fd destination time = .ok s') (st : Station) :
    s'.Remembers (es ++ [(st, .request fd destination time)]) := by
  have taken := take_missed (show 0 < MAX_QUERIES by decide) (length_misses es) (destination, time)
  have asks := misses_request (e := (st, .request fd destination time)) rfl es
  have held : s.store.search_query destination time = none ↔ (destination, time) ∉ (misses es).take MAX_QUERIES := by
    rw [← remembered, ← remembers.keys, ← Store.search_query_iff, not_ne_iff]
  have store := (request_spec ran).2.2.2.2
  by_cases missing : s.store.search_query destination time = none
  · rw [if_pos missing] at store
    refine ⟨?_, ?_⟩
    · rw [store]
      exact Nat.mod_lt _ (by decide)
    · rw [store, Store.keys_add remembers.index, remembers.keys, remembered, remembered, asks, taken,
        if_neg (held.mp missing)]
      rfl
  · rw [if_neg missing] at store
    refine ⟨by rw [store]; exact remembers.index, ?_⟩
    rw [store, remembers.keys, remembered, remembered, asks, taken,
      if_pos (not_not.mp fun absent => missing (held.mpr absent))]

theorem Remembers.turn (remembers : s.Remembers es) (kept : s.Kept es) {st : Station} {e : Event}
    {sent : List Datagram} (ran : s.step st e = .ok (s', sent)) : s'.Remembers (es ++ [(st, e)]) := by
  cases e with
  | request fd destination time =>
      obtain ⟨_, requested, ran⟩ := ok_of_bind ran
      cases ran
      exact remembers.request requested st
  | ignored fd =>
      cases ran
      refine remembers.same ?_ ?_ <;> rfl
  | timeout =>
      obtain ⟨_, _, ran⟩ := ok_of_bind ran
      cases ran
      refine remembers.same ?_ ?_ <;> rfl
  | datagram buffer =>
      obtain ⟨outcome, branch, ran⟩ := ok_of_bind ran
      split at ran
      · cases ran
        refine remembers.same ?_ ?_ <;> rfl
      · obtain ⟨_, ended, ran⟩ := ok_of_bind ran
        cases ran
        obtain ⟨answer, _, rfl⟩ := kept.finished_served ended
        refine remembers.same ?_ ?_ <;> rfl

/-- The client waits, whether its question has been asked before or not. -/
theorem Kept.request_waits (kept : s.Kept es) {fd : ℕ} {destination time : Text}
    (ran : s.request fd destination time = .ok s') :
    s'.head_client = ⟨fd, ⟨time, destination, []⟩⟩ :: remove_client fd s.head_client := by
  obtain ⟨⟨q, fresh, key, clients⟩, _⟩ := request_spec ran
  have blank : q.answers = [] := fresh.elim id (kept.unanswered q)
  have asks : q = ⟨time, destination, []⟩ := by
    cases q
    cases key
    cases blank
    rfl
  rw [clients, asks]

/-- What fits the buffers is accepted. -/
theorem request_ok (s : Server) (fd : ℕ) {destination time : Text} (name : destination.length < MAX_NAME_LENGTH)
    (short : time.length < MAX_TIMESTRING) : ∃ s', s.request fd destination time = .ok s' := by
  have copied : strcpy MAX_TIMESTRING (some time) = .ok time := if_pos short
  have copied' : strcpy MAX_NAME_LENGTH (some destination) = .ok destination := if_pos name
  rw [Server.request]
  split
  · simp only [copied, copied', bind, Except.bind, pure, Except.pure]
    exact ⟨_, rfl⟩
  · exact ⟨_, rfl⟩

end Server

theorem Serves.remembers {es : List (Station × Event)} {s : Server} (serves : Serves es s) :
    s.Remembers es := by
  induction serves with
  | idle => exact Server.remembers_idle
  | turn before _ ran ih => exact ih.turn before.kept ran

/-- A payload that finishes is looked up in vain. -/
theorem Server.Kept.step_null_iff {es : List (Station × Event)} {s : Server} (kept : s.Kept es) {st : Station}
    {buffer : Text} {outcome : Outcome} {p : PAYLOAD} (ran : udp_branch st buffer = .ok outcome)
    (done : outcome.finished = some p) :
    s.step st (.datagram buffer) = .error .null ↔ s.store.search_query p.destination p.start_time = none := by
  simp only [step, ran, done, bind, Except.bind]
  constructor
  · intro fault
    cases found : s.store.search_query p.destination p.start_time with
    | none => rfl
    | some q =>
        obtain ⟨answer, crafted⟩ := finished_crafts ran done
        by_cases fits : answer.length < MAXDATASIZE
        · rw [kept.finished_eq st found crafted fits] at fault
          cases fault
        · have best : finish st q.answers p = .ok answer := by
            rw [finish, crafted, kept.unanswered q (Store.search_query_some found).1]
            rfl
          have long : strcpy MAXDATASIZE (some answer) = .error .overflow := if_neg fits
          simp only [finished, found, best, long, bind, Except.bind] at fault
          cases fault
  · intro missing
    simp only [finished, missing]

/-- In every run, a payload that finishes meets its query exactly if the question is among the
last hundred that were missed; otherwise the station reads from NULL. -/
theorem finish_meets_its_query_iff {es : List (Station × Event)} {s : Server} (serves : Serves es s)
    {st : Station} {buffer : Text} {outcome : Outcome} {p : PAYLOAD}
    (ran : udp_branch st buffer = .ok outcome) (done : outcome.finished = some p) :
    (s.store.search_query p.destination p.start_time ≠ none ↔
      (p.destination, p.start_time) ∈ remembered es) ∧
    (s.step st (.datagram buffer) ≠ .error .null ↔ (p.destination, p.start_time) ∈ remembered es) := by
  have held : s.store.search_query p.destination p.start_time ≠ none ↔
      (p.destination, p.start_time) ∈ remembered es := by
    rw [Store.search_query_iff, serves.remembers.keys]
  exact ⟨held, by rw [← held, ne_eq, ne_eq, serves.kept.step_null_iff ran done]⟩

theorem homebound_finishes : udp_branch (twoStops.station false) homebound.text =
    .ok ⟨[], some { homebound with found := 4 }, [], []⟩ := by decide +kernel

theorem oneClient_meets_its_query :
    (oneClient.store.search_query homebound.destination homebound.start_time ≠ none ↔
      (homebound.destination, homebound.start_time) ∈
        remembered [(twoStops.station false, .request 5 asked.destination asked.start_time)]) ∧
    (oneClient.step (twoStops.station false) (.datagram homebound.text) ≠ .error .null ↔
      (homebound.destination, homebound.start_time) ∈
        remembered [(twoStops.station false, .request 5 asked.destination asked.start_time)]) :=
  finish_meets_its_query_iff (p := { homebound with found := 4 }) oneClient_serves homebound_finishes rfl

/-! ### What becomes of the answers -/

/-- The last time of a payload, in minutes. -/
def PAYLOAD.arrival (unset : Text → ℤ) (p : PAYLOAD) : ℤ := timeToMinutes unset (p.time.getLast?.getD [])

/-- A stored query with the earliest of the payloads that have finished for it. -/
structure QUERY.Best (unset : Text → ℤ) (es : List (Station × Event)) (q : QUERY) : Prop where
  answered : q.answers ≠ []
  earliest : ∃ p, Finished es p ∧ (p.destination, p.start_time) = q.key ∧ craft_payload p = .ok q.answers ∧
    ∀ p', Finished es p' → (p'.destination, p'.start_time) = q.key → p.arrival unset ≤ p'.arrival unset

/-- After each payload that has finished, its query is stored with the best answer, and a client that
asks again is given a copy of that. -/
def Server.KeepsAnswers (unset : Text → ℤ) (es : List (Station × Event)) (s : Server) : Prop :=
  ∀ p q, Finished es p → s.store.search_query p.destination p.start_time = some q →
    q.Best unset es ∧ ∀ fd s', s.request fd p.destination p.start_time = .ok s' →
      ∃ c ∈ s'.head_client, c.fd = fd ∧ c.query.Best unset es

/-- `search_query` returns copies, and the answer is written into a copy. -/
theorem Serves.not_best {es : List (Station × Event)} {s : Server} (serves : Serves es s) {q : QUERY}
    {destination time : Text} (stored : s.store.search_query destination time = some q) (unset : Text → ℤ) :
    ¬ q.Best unset es := fun best =>
  best.answered (serves.kept.unanswered q (Store.search_query_some stored).1)

/-- In every run, the store keeps the answers exactly if there was none to keep. -/
theorem answers_are_kept_iff {es : List (Station × Event)} {s : Server} (serves : Serves es s)
    (unset : Text → ℤ) : s.KeepsAnswers unset es ↔
      ∀ p, Finished es p → s.store.search_query p.destination p.start_time = none := by
  constructor
  · intro keeps p finished
    cases stored : s.store.search_query p.destination p.start_time with
    | none => rfl
    | some q => exact absurd (keeps p q finished stored).1 (serves.not_best stored unset)
  · intro missing p q finished stored
    rw [missing p finished] at stored
    cases stored

/-- The state after the route has come home. -/
def oneAnswered : Server := oneClient.served asked.destination asked.start_time { homebound with found := 4 }.text

def oneAnswered_events : List (Station × Event) :=
  [(twoStops.station false, .request 5 asked.destination asked.start_time),
    (twoStops.station false, .datagram homebound.text)]

theorem oneAnswered_serves : Serves oneAnswered_events oneAnswered := by
  have crafted : craft_payload { homebound with found := 4 } = .ok { homebound with found := 4 }.text := rfl
  have found : oneClient.store.search_query asked.destination asked.start_time = some asked := by
    decide +kernel
  have ended := oneClient_serves.kept.finished_eq (twoStops.station false)
    (p := { homebound with found := 4 }) found crafted (by decide +kernel)
  refine @Serves.turn _ _ _ _ (.datagram homebound.text) [] oneClient_serves trivial ?_
  simp only [Server.step, homebound_finishes, ended, bind, Except.bind, pure, Except.pure]
  rfl

theorem oneAnswered_finished : Finished oneAnswered_events { homebound with found := 4 } :=
  ⟨_, _, _, List.mem_cons_of_mem _ (List.mem_singleton_self _), homebound_finishes, rfl⟩

theorem oneAnswered_keeps_iff : oneAnswered.KeepsAnswers (fun _ => 0) oneAnswered_events ↔
    ∀ p, Finished oneAnswered_events p → oneAnswered.store.search_query p.destination p.start_time = none :=
  answers_are_kept_iff oneAnswered_serves fun _ => 0

/-- The route has come home and the answer has been sent, but the store knows nothing of it, and
who asks again is kept waiting. -/
theorem oneAnswered_forgets : Serves oneAnswered_events oneAnswered ∧
    Finished oneAnswered_events { homebound with found := 4 } ∧
    oneAnswered.wire = [(0, .wait), (0, .answer { homebound with found := 4 }.text)] ∧
    oneAnswered.store.search_query asked.destination asked.start_time = some asked ∧ asked.answers = [] ∧
    (∃ s', oneAnswered.request 5 asked.destination asked.start_time = .ok s' ∧
      s'.head_client = [⟨5, asked⟩] ∧
      s'.wire = [(0, .wait), (0, .answer { homebound with found := 4 }.text), (1, .wait)]) ∧
    ¬ oneAnswered.KeepsAnswers (fun _ => 0) oneAnswered_events := by
  have stored : oneAnswered.store.search_query asked.destination asked.start_time = some asked := by
    decide +kernel
  refine ⟨oneAnswered_serves, oneAnswered_finished, by decide +kernel, stored, rfl, ⟨_, rfl, ?_, ?_⟩, ?_⟩
  · decide +kernel
  · decide +kernel
  · intro keeps
    exact oneAnswered_serves.not_best stored _ (keeps _ asked oneAnswered_finished stored).1

/-! ### A question that is pushed out -/

/-- Questions that are asked one after the other, each on a descriptor of its own. -/
def requests (st : Station) (keys : List (Text × Text)) : List (Station × Event) :=
  keys.zipIdx.map fun k => (st, .request k.2 k.1.1 k.1.2)

theorem requests_concat (st : Station) (keys : List (Text × Text)) (key : Text × Text) :
    requests st (keys ++ [key]) = requests st keys ++ [(st, .request keys.length key.1 key.2)] := by
  rw [requests, List.zipIdx_append, List.map_append, ← requests, Nat.zero_add]
  rfl

/-- Everybody who has asked is waiting. -/
theorem serves_requests (st : Station) {keys : List (Text × Text)}
    (fit : ∀ key ∈ keys, key.1.length < MAX_NAME_LENGTH ∧ key.2.length < MAX_TIMESTRING) :
    ∃ s, Serves (requests st keys) s ∧ (∀ fd, keys.length ≤ fd → s.descriptors fd = none) ∧
      ∀ fd key, keys[fd]? = some key → ⟨fd, ⟨key.2, key.1, []⟩⟩ ∈ s.head_client := by
  induction keys using List.reverseRecOn with
  | nil =>
      refine ⟨.idle, .idle, fun fd _ => rfl, fun fd key here => ?_⟩
      rw [List.getElem?_nil] at here
      cases here
  | append_singleton keys key ih =>
      obtain ⟨s, serves, shut, waits⟩ := ih fun k member => fit k (List.mem_append_left _ member)
      obtain ⟨name, short⟩ := fit key (List.mem_append_right _ (List.mem_singleton_self key))
      obtain ⟨s', ran⟩ := Server.request_ok _ keys.length name short
      have clients := serves.kept.request_waits ran
      have table := (Server.request_spec ran).2.1
      have fresh := shut keys.length (Nat.le_refl _)
      have step : s.step st (.request keys.length key.1 key.2) = .ok (s', []) := by
        simp only [Server.step, ran, bind, Except.bind, pure, Except.pure]
      refine ⟨s', ?_, ?_, ?_⟩
      · rw [requests_concat]
        exact serves.turn fresh step
      · intro fd beyond
        rw [List.length_append, List.length_singleton] at beyond
        rw [table, Function.update_of_ne (by omega), shut fd (by omega)]
      · intro fd k here
        rw [clients]
        by_cases old : fd < keys.length
        · rw [List.getElem?_append_left old] at here
          refine List.mem_cons_of_mem _ ?_
          rw [remove_client, List.mem_eraseP_of_neg]
          · exact waits fd k here
          · rw [decide_eq_true_eq]
            exact Nat.ne_of_lt old
        · have inside := (List.getElem?_eq_some_iff.mp here).1
          rw [List.length_append, List.length_singleton] at inside
          obtain rfl : fd = keys.length := by omega
          rw [List.getElem?_concat_length, Option.some.injEq] at here
          rw [here]
          exact List.mem_cons_self

/-- A client that waits has its question flooded again at every timeout. -/
theorem mem_resend {st : Station} {descriptors : ℕ → Option ℕ} {clients : List CLIENT_NODE}
    {sent : List Datagram} (walked : Server.resend st descriptors clients = .ok sent) {c : CLIENT_NODE}
    (member : c ∈ clients) (waits : c.query.answers = []) :
    ⟨st.local_ip, st.UDP_port, initText c.query.destination st.station_name c.query.start_time⟩ ∈ sent := by
  induction clients generalizing sent with
  | nil => exact absurd member List.not_mem_nil
  | cons d clients ih =>
      rw [Server.resend] at walked
      split at walked
      · cases walked
      · obtain ⟨rest, later, walked⟩ := ok_of_bind walked
        split at walked <;> cases walked
        · rcases List.mem_cons.mp member with rfl | behind
          · exact List.mem_cons_self
          · exact List.mem_cons_of_mem _ (ih later behind)
        · rename_i answered
          rcases List.mem_cons.mp member with rfl | behind
          · exact absurd waits answered
          · exact ih later behind

/-- The question for StationB, then one for each of a hundred places with a number for a name. -/
def manyQuestions : List (Text × Text) :=
  (asked.destination, asked.start_time) ::
    (List.range 100).map fun i => (twoDigits i, asked.start_time)

/-- The station still floods the first question, and its route comes home to an empty slot. -/
theorem manyQuestions_push_out : ∃ s sent, Serves (requests (twoStops.station false) manyQuestions) s ∧
    s.step (twoStops.station false) .timeout = .ok (s, sent) ∧
    ⟨"127.0.0.1".toList, "4002".toList, initText asked.destination "StationA".toList asked.start_time⟩ ∈ sent ∧
    udp_branch (twoStops.station false) homebound.text =
      .ok ⟨[], some { homebound with found := 4 }, [], []⟩ ∧
    s.store.search_query homebound.destination homebound.start_time = none ∧
    s.step (twoStops.station false) (.datagram homebound.text) = .error .null := by
  have fit : ∀ key ∈ manyQuestions, key.1.length < MAX_NAME_LENGTH ∧ key.2.length < MAX_TIMESTRING := by
    decide +kernel
  have pushed : (homebound.destination, homebound.start_time) ∉
      remembered (requests (twoStops.station false) manyQuestions) := by decide +kernel
  obtain ⟨s, serves, _, waits⟩ := serves_requests (twoStops.station false) fit
  obtain ⟨sent, walked⟩ := serves.kept.resend_ok (twoStops.station false)
  have missing : s.store.search_query homebound.destination homebound.start_time = none := by
    by_contra found
    rw [← ne_eq, Store.search_query_iff, serves.remembers.keys] at found
    exact pushed found
  refine ⟨s, sent, serves, ?_, mem_resend walked (waits 0 _ rfl) rfl, homebound_finishes, missing, ?_⟩
  · simp only [Server.step, walked, bind, Except.bind, pure, Except.pure]
  · exact (serves.kept.step_null_iff homebound_finishes rfl).mpr missing

end TransitNet

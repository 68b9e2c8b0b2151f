import TransitNet.Memory

/-! The query store of a C station as a memory of questions: it holds the last hundred that were not
found in it. -/
namespace TransitNet
open Ring

/-- The slots that have been written since the store was zeroed. Every request names a destination. -/
def Store.occupied (store : Store) : List QUERY := store.queries.filter fun q => q.destination ≠ []

/-- What a station has been through, with the questions that its requests did not find in the store,
the newest first. -/
inductive Questioned : List (Text × Text) → Server → Prop
  | idle : Questioned [] .idle
  | missed {questions : List (Text × Text)} {s s' : Server} {st : Station} {fd : ℕ} {destination time : Text}
      {sent : List Datagram} : Questioned questions s → s.Allows (.request fd destination time) → destination ≠ [] →
        s.step st (.request fd destination time) = .ok (s', sent) → s.store.search_query destination time = none →
          Questioned ((destination, time) :: questions) s'
  | hit {questions : List (Text × Text)} {s s' : Server} {st : Station} {fd : ℕ} {destination time : Text}
      {sent : List Datagram} : Questioned questions s → s.Allows (.request fd destination time) → destination ≠ [] →
        s.step st (.request fd destination time) = .ok (s', sent) → s.store.search_query destination time ≠ none →
          Questioned questions s'
  | other {questions : List (Text × Text)} {s s' : Server} {st : Station} {e : Event} {sent : List Datagram} :
      Questioned questions s → s.Allows e → e.question = none → s.step st e = .ok (s', sent) → Questioned questions s'

/-- The store holds the last hundred of these questions, each once, and finds them, and no others. -/
structure Server.HoldsLast (questions : List (Text × Text)) (s : Server) : Prop where
  distinct : (s.store.occupied.map QUERY.key).Nodup
  last : (s.store.occupied.map QUERY.key).Perm (questions.take MAX_QUERIES)
  hit : ∀ destination time, destination ≠ [] →
    (s.store.search_query destination time ≠ none ↔ (destination, time) ∈ questions.take MAX_QUERIES)
  first : ∀ destination time q, s.store.search_query destination time = some q → q.key = (destination, time)

/-- The questions that were missed, by what the events say. -/
structure Server.Asked (questions : List (Text × Text)) (s : Server) : Prop where
  run : ∃ es, Serves es s ∧ misses es = questions ++ List.replicate MAX_QUERIES ([], [])
  once : (questions.take MAX_QUERIES).Nodup
  named : ∀ key ∈ questions, key.1 ≠ []

section Asked
variable {questions : List (Text × Text)} {s s' : Server}

/-- A key with a destination is among the last missed if it is among the last asked for. -/
theorem mem_padded (n : ℕ) {key : Text × Text} (named : key.1 ≠ []) :
    key ∈ (questions ++ List.replicate n ([], [])).take n ↔ key ∈ questions.take n := by
  rw [List.take_append, List.mem_append, or_iff_left]
  intro blank
  have same := List.eq_of_mem_replicate (List.mem_of_mem_take blank)
  exact named (same ▸ rfl)

theorem Server.Asked.held (h : s.Asked questions) {destination time : Text} (named : destination ≠ []) :
    s.store.search_query destination time ≠ none ↔ (destination, time) ∈ questions.take MAX_QUERIES := by
  obtain ⟨es, serves, missed⟩ := h.run
  rw [Store.search_query_iff, serves.remembers.keys, remembered, missed]
  exact @mem_padded questions MAX_QUERIES _ named

theorem Server.Asked.request (h : s.Asked questions) {st : Station} {fd : ℕ} {destination time : Text}
    {sent : List Datagram} (allowed : s.Allows (.request fd destination time)) (named : destination ≠ [])
    (ran : s.step st (.request fd destination time) = .ok (s', sent)) :
    s'.Asked (missed MAX_QUERIES questions (destination, time)) := by
  obtain ⟨es, serves, before⟩ := h.run
  have inside : (destination, time) ∈ (questions ++ List.replicate MAX_QUERIES ([], [])).take MAX_QUERIES ↔
      (destination, time) ∈ questions.take MAX_QUERIES := @mem_padded questions MAX_QUERIES _ named
  refine ⟨⟨_, serves.turn allowed ran, ?_⟩, nodup_missed h.once _, ?_⟩
  · rw [misses_request rfl, before, missed, missed]
    by_cases known : (destination, time) ∈ questions.take MAX_QUERIES
    · rw [if_pos known, if_pos (inside.mpr known)]
    · rw [if_neg known, if_neg fun found => known (inside.mp found), List.cons_append]
  · intro key member
    rw [missed] at member
    split at member
    · exact h.named key member
    · rcases List.mem_cons.mp member with rfl | earlier
      · exact named
      · exact h.named key earlier

theorem Questioned.asked (run : Questioned questions s) : s.Asked questions := by
  induction run with
  | idle =>
      refine ⟨⟨[], .idle, rfl⟩, List.nodup_nil, fun key member => absurd member List.not_mem_nil⟩
  | missed _ allowed named ran absent ih =>
      have next := ih.request allowed named ran
      rwa [Ring.missed, if_neg fun known => (ih.held named).mpr known absent] at next
  | hit _ allowed named ran found ih =>
      have next := ih.request allowed named ran
      rwa [Ring.missed, if_pos ((ih.held named).mp found)] at next
  | other _ allowed silent ran ih =>
      obtain ⟨es, serves, missed⟩ := ih.run
      exact ⟨⟨_, serves.turn allowed ran, (misses_other silent es).trans missed⟩, ih.once, ih.named⟩

/-- What the slots hold, in the order in which they were written. -/
theorem Server.Asked.occupied (h : s.Asked questions) :
    (s.store.occupied.map QUERY.key).Perm (questions.take MAX_QUERIES) := by
  obtain ⟨es, serves, missed⟩ := h.run
  have keys := serves.remembers.keys
  rw [remembered, missed, List.take_append] at keys
  have written : s.store.occupied.map QUERY.key = (s.store.queries.map QUERY.key).filter (·.1 ≠ []) := by
    rw [List.filter_map]
    rfl
  have whole : (s.store.keys.filter (·.1 ≠ [])) = questions.take MAX_QUERIES := by
    rw [keys, List.filter_append]
    have front : (questions.take MAX_QUERIES).filter (·.1 ≠ []) = questions.take MAX_QUERIES := by
      apply List.filter_eq_self.mpr
      intro key member
      rw [decide_eq_true_eq]
      exact h.named key (List.mem_of_mem_take member)
    have back : ((List.replicate MAX_QUERIES (([], []) : Text × Text)).take (MAX_QUERIES - questions.length)).filter
        (·.1 ≠ []) = [] := by
      apply List.filter_eq_nil_iff.mpr
      intro key member
      rw [List.eq_of_mem_replicate (List.mem_of_mem_take member)]
      decide
    rw [front, back, List.append_nil]
  rw [written, ← whole]
  exact (((recent_perm s.store.queries s.store.query_index).map QUERY.key).filter _).symm

end Asked

/-- At every point of every run, the ring holds the last hundred distinct questions. -/
theorem ring_holds_the_last_questions {questions : List (Text × Text)} {s : Server} (run : Questioned questions s) :
    s.HoldsLast questions where
  distinct := run.asked.occupied.nodup_iff.mpr run.asked.once
  last := run.asked.occupied
  hit _ _ := run.asked.held
  first _ _ _ found := by
    obtain ⟨_, destination, time⟩ := Store.search_query_some found
    exact Prod.ext destination time

/-- Every run of requests that name a destination is one of these. -/
theorem Serves.questioned {es : List (Station × Event)} {s : Server} (serves : Serves es s)
    (named : ∀ e ∈ es, ∀ key, e.2.question = some key → key.1 ≠ []) :
    ∃ questions, Questioned questions s ∧ misses es = questions ++ List.replicate MAX_QUERIES ([], []) := by
  induction serves with
  | idle => exact ⟨[], .idle, rfl⟩
  | @turn es s s' st e sent serves allowed ran ih =>
      obtain ⟨questions, run, before⟩ := ih fun e member => named e (List.mem_append_left _ member)
      cases asks : e.question with
      | none => exact ⟨questions, .other run allowed asks ran, (misses_other asks es).trans before⟩
      | some key =>
          obtain ⟨fd, rfl⟩ : ∃ fd, e = .request fd key.1 key.2 := by
            cases e with
            | request fd destination time =>
                cases asks
                exact ⟨fd, rfl⟩
            | ignored fd => cases asks
            | timeout => cases asks
            | datagram buffer => cases asks
          have name := named _ (List.mem_append_right es (List.mem_singleton_self _)) key asks
          have inside := @mem_padded questions MAX_QUERIES _ name
          rw [misses_request asks, before, missed]
          by_cases absent : s.store.search_query key.1 key.2 = none
          · rw [if_neg fun known => (run.asked.held name).mpr (inside.mp known) absent]
            exact ⟨key :: questions, .missed run allowed name ran absent, rfl⟩
          · rw [if_pos (inside.mpr ((run.asked.held name).mp absent))]
            exact ⟨questions, .hit run allowed name ran absent, rfl⟩

/-- A hundred and one questions have been asked, and the first has been pushed out. -/
theorem manyQuestions_are_held : ∃ s : Server, s.HoldsLast manyQuestions.reverse ∧
    s.store.search_query asked.destination asked.start_time = none := by
  have fit : ∀ key ∈ manyQuestions, key.1.length < MAX_NAME_LENGTH ∧ key.2.length < MAX_TIMESTRING := by
    decide +kernel
  have named : ∀ e ∈ requests (twoStops.station false) manyQuestions, ∀ key, e.2.question = some key → key.1 ≠ [] := by
    intro e member key asks
    obtain ⟨k, inside, rfl⟩ := List.mem_map.mp member
    cases asks
    have all : ∀ k ∈ manyQuestions.zipIdx, k.1.1 ≠ [] := by decide +kernel
    exact all k inside
  obtain ⟨s, serves, _⟩ := serves_requests (twoStops.station false) fit
  obtain ⟨questions, run, before⟩ := serves.questioned named
  have missed : misses (requests (twoStops.station false) manyQuestions) =
      manyQuestions.reverse ++ List.replicate MAX_QUERIES ([], []) := by decide +kernel
  obtain rfl : questions = manyQuestions.reverse := List.append_cancel_right (before.symm.trans missed)
  have holds := ring_holds_the_last_questions run
  refine ⟨s, holds, ?_⟩
  by_contra found
  exact absurd ((holds.hit _ _ (by decide)).mp found) (by decide +kernel)

end TransitNet

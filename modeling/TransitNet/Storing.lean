import TransitNet.Uptime
import TransitNet.Bodies
import TransitNet.Memory
import TransitNet.Leaving
import Mathlib.Data.List.DropRight

/-! What the query store of a Python station keeps: the first hundred questions, and for each of
them the best answer. -/
namespace TransitNet
open Words

/-! ### Questions -/

namespace QueryManager

/-- The store after one call of `add_query` for each query. -/
def adds (qs : List PyQuery) : QueryManager := qs.foldl add_query .new

/-- What the store is for, right after the last of the queries has been added: it finds that query, it
has not grown too large, and it holds the queries that were added last. -/
structure Newest (added : List PyQuery) (q : PyQuery) (store : QueryManager) : Prop where
  found : store.search_query q.destination q.start_time = some q
  bounded : store.queries.length ≤ max_queries
  recent : store.queries.Perm ((added ++ [q]).rtake max_queries)

theorem adds_concat (qs : List PyQuery) (q : PyQuery) : adds (qs ++ [q]) = (adds qs).add_query q := by
  rw [adds, List.foldl_append, ← adds]
  rfl

/-- The store keeps the queries that came first. -/
theorem adds_queries (qs : List PyQuery) : (adds qs).queries = qs.take max_queries := by
  induction qs using List.reverseRecOn with
  | nil => rfl
  | append_singleton qs q ih =>
      rw [adds_concat, add_query, ih, List.take_append]
      by_cases room : qs.length < max_queries
      · obtain ⟨n, more⟩ := Nat.exists_eq_add_of_lt room
        have one : max_queries - qs.length = n + 1 := by omega
        have fits : (qs.take max_queries).length < max_queries := by
          rw [List.length_take]
          omega
        rw [if_pos fits, one, List.take_succ_cons, List.take_nil]
      · have none : max_queries - qs.length = 0 := by omega
        have full : ¬ (qs.take max_queries).length < max_queries := by
          rw [List.length_take]
          omega
        rw [if_neg full, none, List.take_zero, List.append_nil]

theorem search_query_last {front : List PyQuery} {q : PyQuery} {store : QueryManager}
    (stored : store.queries = front ++ [q]) (other : ∀ a ∈ front, a.key ≠ q.key) :
    store.search_query q.destination q.start_time = some q := by
  have missed : (front.find? fun a => a.destination = q.destination && a.start_time = q.start_time) = none := by
    apply List.find?_eq_none.mpr
    intro a member asks
    rw [Bool.and_eq_true, decide_eq_true_eq, decide_eq_true_eq] at asks
    exact other a member (Prod.ext asks.1 asks.2)
  rw [search_query, stored, List.find?_append, missed, Option.none_or, List.find?_cons_of_pos]
  rw [Bool.and_eq_true, decide_eq_true_eq, decide_eq_true_eq]
  exact ⟨rfl, rfl⟩

/-- The store forgets the newest question exactly when it is full. -/
theorem newest_is_kept_iff {qs : List PyQuery} (distinct : (qs.map PyQuery.key).Nodup) :
    (∀ front q back, qs = front ++ q :: back → Newest front q (adds (front ++ [q]))) ↔ qs.length ≤ max_queries := by
  have apart : ∀ front q back, qs = front ++ q :: back → ∀ a ∈ front, a.key ≠ q.key := by
    rintro front q back rfl a member same
    rw [List.map_append, List.map_cons, List.nodup_middle, List.nodup_cons] at distinct
    exact distinct.1 (List.mem_append_left _ (same ▸ List.mem_map_of_mem member))
  constructor
  · intro newest
    by_contra many
    have long : max_queries < qs.length := by omega
    have cut : qs = qs.take max_queries ++ qs[max_queries] :: qs.drop (max_queries + 1) := by
      rw [List.getElem_cons_drop, List.take_append_drop]
    obtain ⟨found, _, _⟩ := newest _ _ _ cut
    obtain ⟨member, _⟩ := search_query_some found
    have front : (qs.take max_queries).length = max_queries := List.length_take_of_le (Nat.le_of_lt long)
    rw [adds_queries, List.take_left' front] at member
    exact apart _ _ _ cut _ member rfl
  · rintro few front q back rfl
    rw [List.length_append, List.length_cons] at few
    have size : (front ++ [q]).length ≤ max_queries := by
      rw [List.length_append, List.length_singleton]
      omega
    have stored : (adds (front ++ [q])).queries = front ++ [q] := by
      rw [adds_queries, List.take_of_length_le size]
    refine ⟨search_query_last stored (apart front q back rfl), by rwa [stored], ?_⟩
    rw [stored, List.rtake, Nat.sub_eq_zero_of_le size, List.drop_zero]

/-- One query for each of a hundred and one questions. -/
def manyQueries : List PyQuery := manyQuestions.map fun key => { destination := key.1, start_time := key.2 }

theorem manyQueries_distinct : (manyQueries.map PyQuery.key).Nodup := by decide +kernel

theorem manyQueries_kept_iff : (∀ front q back, manyQueries = front ++ q :: back →
    Newest front q (adds (front ++ [q]))) ↔ manyQueries.length ≤ max_queries :=
  newest_is_kept_iff manyQueries_distinct

/-- The last of them is not found, right after it has been added. -/
theorem manyQueries_forget_the_last : ∃ front q, manyQueries = front ++ [q] ∧
    (manyQueries.map PyQuery.key).Nodup ∧ (adds manyQueries).search_query q.destination q.start_time = none ∧
    ¬ Newest front q (adds (front ++ [q])) := by
  have shape : manyQueries = manyQueries.dropLast ++ [{ destination := "99".toList, start_time := "08:00".toList }] := by
    decide +kernel
  have missing : (adds manyQueries).search_query "99".toList "08:00".toList = none := by
    rw [search_query, adds_queries]
    decide +kernel
  refine ⟨_, _, shape, manyQueries_distinct, missing, fun newest => ?_⟩
  have found := newest.found
  rw [← shape, missing] at found
  cases found

end QueryManager

/-! ### Answers -/

/-- A payload that the branch `found == 4` can meet: it was read off a datagram, its lists are full,
and its times can be compared. -/
structure PAYLOAD.Complete (p : PAYLOAD) : Prop where
  read : ∃ data r, deserialize data = .ok r ∧ p = { r with found := 4 }
  sized : p.Sized
  long : 2 ≤ p.hops
  told : ∀ t ∈ p.time, Told t

namespace PAYLOAD.Complete
variable {p : PAYLOAD}

theorem reread (complete : p.Complete) : deserialize (serialize p) = .ok p := by
  obtain ⟨data, r, read, rfl⟩ := complete.read
  have sized : r.Sized := ⟨complete.sized.stations, complete.sized.address, complete.sized.routes, complete.sized.time⟩
  have long : 1 ≤ r.hops := Int.le_trans (by decide) complete.long
  exact deserialize_again read sized long (by decide)

theorem dated (complete : p.Complete) : p.Dated := by
  have count := complete.sized.time
  have long := complete.long
  obtain ⟨k, hops⟩ : ∃ k : ℕ, p.hops - 1 = k := ⟨(p.hops - 1).toNat, by omega⟩
  obtain ⟨t, last⟩ : ∃ t, p.time[k]? = some t := ⟨_, List.getElem?_eq_getElem (by omega)⟩
  have timed : Timed t := (complete.told t (List.mem_of_getElem? last)).imp_right .inl
  have minutes := timed.same
  refine ⟨complete.reread, timeToMinutes (fun _ => 0) t, ?_⟩
  rw [last_minutes, hops, pyIndex_nat last]
  exact minutes

end PAYLOAD.Complete

/-- The answer to a question: a complete payload for it. -/
def AnswerTo (key : Text × Text) (a : Text) : Prop := ∃ r : PAYLOAD, r.Complete ∧ r.key = key ∧ serialize r = a

namespace QueryManager

theorem find_modify {α : Type*} {p : α → Bool} {f : α → α} (same : ∀ a, p (f a) = p a) (xs : List α) :
    (xs.modify (xs.findIdx p) f).find? p = (xs.find? p).map f := by
  induction xs with
  | nil => rfl
  | cons x xs ih =>
      rw [List.findIdx_cons]
      cases hit : p x with
      | true =>
          have still : p (f x) = true := (same x).trans hit
          rw [cond_true, List.modify_zero_cons, List.find?_cons_of_pos still, List.find?_cons_of_pos hit]
          rfl
      | false =>
          have missed : ¬ p x = true := by rw [hit]; exact Bool.false_ne_true
          rw [cond_false, List.modify_succ_cons, List.find?_cons_of_neg missed, List.find?_cons_of_neg missed, ih]

theorem find_modify_other {α : Type*} {p p' : α → Bool} {f : α → α}
    (apart : ∀ a, p a = true → p' a = false ∧ p' (f a) = false) (xs : List α) :
    (xs.modify (xs.findIdx p) f).find? p' = xs.find? p' := by
  induction xs with
  | nil => rfl
  | cons x xs ih =>
      rw [List.findIdx_cons]
      cases hit : p x with
      | true =>
          obtain ⟨before, after⟩ := apart x hit
          rw [cond_true, List.modify_zero_cons, List.find?_cons, List.find?_cons, before, after]
      | false => rw [cond_false, List.modify_succ_cons, List.find?_cons, List.find?_cons, ih]

theorem search_answer {store : QueryManager} {destination start_time : Text} {q : PyQuery}
    (found : store.search_query destination start_time = some q) (answers : Text) :
    (store.answer destination start_time answers).search_query destination start_time =
      some { q with answers := some answers } := by
  have changed := find_modify (p := fun q : PyQuery => q.destination = destination && q.start_time = start_time)
    (f := fun q => { q with answers := some answers }) (fun q => rfl) store.queries
  rw [search_query] at found ⊢
  rw [answer, changed, found]
  rfl

/-- An answer to another question changes nothing. -/
theorem search_answer_other {store : QueryManager} {destination start_time destination' start_time' : Text}
    (other : (destination', start_time') ≠ (destination, start_time)) (answers : Text) :
    (store.answer destination start_time answers).search_query destination' start_time' =
      store.search_query destination' start_time' := by
  apply find_modify_other
  intro q asks
  have missed : (q.destination = destination' && q.start_time = start_time' : Bool) = false := by
    rw [Bool.eq_false_iff]
    intro both
    rw [Bool.and_eq_true, decide_eq_true_eq, decide_eq_true_eq] at asks both
    exact other (Prod.ext (both.1.symm.trans asks.1) (both.2.symm.trans asks.2))
  exact ⟨missed, missed⟩

end QueryManager

namespace PyServer
variable {st : PyStation} {s s' : PyServer} {p : PAYLOAD}

/-- What requests and finished payloads make of a station that has just started. -/
inductive Reached (st : PyStation) : PyServer → Prop
  | idle : Reached st .idle
  | request {s : PyServer} (current_time : Text) (received : Option Text) :
      Reached st s → Reached st (s.request st current_time received).1
  | finish {s s' : PyServer} {p : PAYLOAD} : Reached st s → p.Complete → s.finish p = .ok s' → Reached st s'

/-- The question of `p` has the answer `r`, which arrives no later than `p`, and no later than the answer
that it had in `s`. -/
structure Betters (s : PyServer) (p : PAYLOAD) (s' : PyServer) (r : PAYLOAD) : Prop where
  answered : ∃ q a, s'.queries.search_query p.destination p.start_time = some q ∧ q.answers = some a ∧
    deserialize a = .ok r
  complete : r.Complete
  key : r.key = p.key
  no_later : r.NoLater p
  no_loss : ∀ q old, s.queries.search_query p.destination p.start_time = some q → q.answers = some old →
    ∃ r', deserialize old = .ok r' ∧ r.NoLater r'

def Answered (s : PyServer) : Prop := ∀ q ∈ s.queries.queries, ∀ a, q.answers = some a → AnswerTo q.key a

/-- A request puts a query without an answer in the store, if any. -/
theorem request_queries {current_time : Text} {received : Option Text} {q : PyQuery}
    (member : q ∈ (s.request st current_time received).1.queries.queries) :
    q ∈ s.queries.queries ∨ q.answers = none := by
  unfold PyServer.request at member
  split at member
  · exact .inl member
  split at member
  · exact .inl member
  unfold PyServer.question at member
  simp only at member
  split at member
  · rcases QueryManager.mem_add_query member with before | rfl
    · exact .inl before
    · exact .inr rfl
  split at member
  · exact .inl member
  split at member
  · exact .inl member
  · rw [(sendall_close _ _ _).1] at member
    exact .inl member

theorem Answered.better (answered : s.Answered) (complete : p.Complete) {target_query : PyQuery}
    (found : s.queries.search_query p.destination p.start_time = some target_query) :
    ∃ r : PAYLOAD, better target_query.answers p = .ok (serialize r) ∧ r.Complete ∧ r.key = p.key ∧ r.NoLater p ∧
      ∀ a, target_query.answers = some a → ∃ r', deserialize a = .ok r' ∧ r.NoLater r' := by
  obtain ⟨member, same⟩ := QueryManager.search_query_some found
  have old : ∀ a, target_query.answers = some a →
      ∃ r : PAYLOAD, r.Dated ∧ (r.Complete ∧ r.key = p.key) ∧ serialize r = a := by
    intro a has
    obtain ⟨r, whole, key, text⟩ := answered target_query member a has
    exact ⟨r, whole.dated, ⟨whole, key.trans same⟩, text⟩
  obtain ⟨r, best, _, ⟨whole, key⟩, no_later, no_loss⟩ :=
    better_no_later complete.dated (fun r => r.Complete ∧ r.key = p.key) ⟨complete, rfl⟩ old
  exact ⟨r, best, whole, key, no_later, no_loss⟩

theorem Answered.finish (answered : s.Answered) (complete : p.Complete) (ran : s.finish p = .ok s') : s'.Answered := by
  cases searched : s.queries.search_query p.destination p.start_time with
  | none =>
      rw [finish_error searched] at ran
      cases ran
  | some target_query =>
      obtain ⟨r, best, whole, key, _⟩ := answered.better complete searched
      obtain ⟨_, finished, queries, _⟩ := finish_ok searched best
      rw [finished] at ran
      cases ran
      intro q member a has
      rw [queries] at member
      rcases QueryManager.mem_answer member with before | ⟨same, now⟩
      · exact answered q before a has
      · exact ⟨r, whole, key.trans same.symm, Option.some.inj (now.symm.trans has)⟩

theorem Reached.answered (reached : Reached st s) : s.Answered := by
  induction reached with
  | idle => exact fun q impossible => absurd impossible List.not_mem_nil
  | request current_time received _ ih =>
      intro q member a has
      rcases request_queries member with before | blank
      · exact ih q before a has
      · rw [blank] at has
        cases has
  | finish _ complete ran ih => exact ih.finish complete ran

/-- A finished payload leaves the better answer exactly where the store holds its question. Elsewhere
the branch raises. -/
theorem finishing_keeps_the_better_iff (reached : Reached st s) (complete : p.Complete) :
    (∃ s' r, s.finish p = .ok s' ∧ s.Betters p s' r) ↔ s.queries.Holds p.key := by
  cases searched : s.queries.search_query p.destination p.start_time with
  | none =>
      rw [finish_error searched]
      constructor
      · rintro ⟨_, _, ran, _⟩
        cases ran
      · intro holds
        obtain ⟨q, found⟩ := holds.search
        exact absurd (searched.symm.trans found) (Option.some_ne_none q).symm
  | some target_query =>
      obtain ⟨member, same⟩ := QueryManager.search_query_some searched
      obtain ⟨r, best, whole, key, no_later, no_loss⟩ := reached.answered.better complete searched
      obtain ⟨s', ran, queries, _⟩ := finish_ok searched best
      refine ⟨fun _ => ⟨target_query, member, same⟩, fun _ => ⟨s', r, ran, ?_, whole, key, no_later, ?_⟩⟩
      · have stored := QueryManager.search_answer searched (serialize r)
        rw [← queries] at stored
        exact ⟨_, _, stored, rfl, whole.reread⟩
      · intro q old found has
        obtain rfl := Option.some.inj (searched.symm.trans found)
        exact no_loss old has

/-- A station that has been asked for StationB. -/
def askedForB : PyServer :=
  (idle.request pyStationA "12:00".toList (some "GET /?to=StationB&time=08:00 HTTP/1.1".toList)).1

/-- The answer, on its way into the branch. -/
def homeFromB : PAYLOAD := { backFromB with found := 4 }

theorem homeFromB_complete : homeFromB.Complete where
  read := ⟨serialize backFromB, backFromB, by decide +kernel, rfl⟩
  sized := ⟨rfl, rfl, rfl, rfl⟩
  long := by decide
  told := by
    have clocked : ∀ t ∈ homeFromB.time, HHMM t := by decide
    exact fun t member => .inl (clocked t member)

theorem askedForB_is_answered : ∃ s' r, askedForB.finish homeFromB = .ok s' ∧ askedForB.Betters homeFromB s' r := by
  let q : PyQuery := { destination := "StationB".toList, start_time := "08:00".toList }
  have stored : q ∈ askedForB.queries.queries := by decide +kernel
  exact (finishing_keeps_the_better_iff (.request _ _ .idle) homeFromB_complete).mpr ⟨q, stored, rfl⟩

/-- An answer that nobody has asked for. -/
theorem unasked_answer_raises : Reached pyStationA idle ∧ homeFromB.Complete ∧
    idle.finish homeFromB = .error .attributeError ∧
    ¬ ∃ s' r, idle.finish homeFromB = .ok s' ∧ idle.Betters homeFromB s' r := by
  have raises : idle.finish homeFromB = .error .attributeError := finish_error rfl
  refine ⟨.idle, homeFromB_complete, raises, ?_⟩
  rintro ⟨s', r, ran, _⟩
  rw [raises] at ran
  cases ran

end PyServer

end TransitNet

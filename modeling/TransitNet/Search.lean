import TransitNet.Relay

/-! Searches in a soup. Any number of searches run at once; each message carries
the query it belongs to. The results hold of every order of deliveries. -/
namespace Relay
open Soup

variable {Q V : Type*} [DecidableEq V]

structure Task (Q V : Type*) where
  nbrs : V → List V
  goal : Q → V → Bool
  source : Q → V

variable {T : Task Q V}

def Task.valid (T : Task Q V) (m : Q × Phase V) : Prop :=
  m.2.Valid T.nbrs (T.goal m.1) (T.source m.1)

def Task.reaction (T : Task Q V) : Reaction (Q × Phase V) (Q × List V) := fun m =>
  some ((m.2.next T.nbrs (T.goal m.1)).map (Prod.mk m.1), m.2.done.map (Prod.mk m.1))

/-- The message a search starts with. -/
def Task.opening (T : Task Q V) (q : Q) : Q × Phase V := (q, .flood [] (T.source q))

structure Sound (T : Task Q V) (f : Flight (Q × Phase V)) : Prop where
  away : T.goal f.msg.1 (T.source f.msg.1) = false
  valid : T.valid f.msg
  age : f.trail.length = f.msg.2.age

structure Reported (T : Task Q V) (r : Report (Q × Phase V) (Q × List V)) : Prop where
  away : T.goal r.out.1 (T.source r.out.1) = false
  route : Route T.nbrs (T.goal r.out.1) (T.source r.out.1) r.out.2
  age : r.trail.length = 4 * r.out.2.length - 3

/-- No delivery changes the query of a message. -/
theorem query_preserved (P : Q → Prop) :
    Preserves T.reaction (fun f => P f.msg.1) fun r => P r.out.1 := by
  constructor
  · intro f out reports asked reacts g member
    rw [Task.reaction, Option.some.injEq, Prod.mk.injEq] at reacts
    obtain ⟨rfl, rfl⟩ := reacts
    obtain ⟨m, sent, rfl⟩ := mem_spawn.mp member
    obtain ⟨ph, _, rfl⟩ := List.mem_map.mp sent
    exact asked
  · intro f out reports asked reacts r member
    rw [Task.reaction, Option.some.injEq, Prod.mk.injEq] at reacts
    obtain ⟨rfl, rfl⟩ := reacts
    obtain ⟨o, filed, rfl⟩ := mem_file.mp member
    obtain ⟨route, _, rfl⟩ := List.mem_map.mp filed
    exact asked

theorem sound_preserved (loopless : ∀ x, x ∉ T.nbrs x) :
    Preserves T.reaction (Sound T) (Reported T) := by
  constructor
  · intro f out reports sound reacts g member
    rw [Task.reaction, Option.some.injEq, Prod.mk.injEq] at reacts
    obtain ⟨rfl, rfl⟩ := reacts
    obtain ⟨m, sent, rfl⟩ := mem_spawn.mp member
    obtain ⟨ph, next, rfl⟩ := List.mem_map.mp sent
    refine ⟨sound.away, sound.valid.next loopless sound.away next, ?_⟩
    rw [List.length_cons, sound.age, sound.valid.age_next sound.away next]
  · intro f out reports sound reacts r member
    rw [Task.reaction, Option.some.injEq, Prod.mk.injEq] at reacts
    obtain ⟨rfl, rfl⟩ := reacts
    obtain ⟨o, filed, rfl⟩ := mem_file.mp member
    obtain ⟨route, done, rfl⟩ := List.mem_map.mp filed
    obtain ⟨last, found⟩ := sound.valid.done done
    have two := found.two_le sound.away
    refine ⟨sound.away, found, ?_⟩
    rw [List.length_cons, sound.age, last]
    simp only [Phase.age]
    omega

omit [DecidableEq V] in
theorem opening_sound {qs : List Q} (away : ∀ q ∈ qs, T.goal q (T.source q) = false) :
    (launch (qs.map T.opening) : Pool (Q × Phase V) (Q × List V)).Good (Sound T) (Reported T) := by
  apply launch_good
  intro i m member
  obtain ⟨q, asked, rfl⟩ := List.mem_map.mp member
  exact ⟨away q asked, Walk.alone T.nbrs (T.goal q) (T.source q), rfl⟩

/-- Searches die out: deliveries and losses cannot go on for ever. -/
theorem searches_die_out [Fintype V] (loopless : ∀ x, x ∉ T.nbrs x)
    (run : ℕ → Pool (Q × Phase V) (Q × List V)) (good : (run 0).Good (Sound T) (Reported T)) :
    ¬ ∀ n, Carry T.reaction (run n) (run (n + 1)) := by
  refine no_endless_run (fun f => f.msg.2.rank (Fintype.card V))
    (sound_preserved loopless) ?_ run good
  intro f out reports sound reacts g member
  rw [Task.reaction, Option.some.injEq, Prod.mk.injEq] at reacts
  obtain ⟨rfl, rfl⟩ := reacts
  obtain ⟨m, sent, rfl⟩ := mem_spawn.mp member
  obtain ⟨ph, next, rfl⟩ := List.mem_map.mp sent
  exact sound.valid.rank_next sound.away next

/-- The route has been reported, or a message is on its way that may report it. -/
def Pending (q : Q) (route : List V) (s : Pool (Q × Phase V) (Q × List V)) : Prop :=
  (∃ r ∈ s.log, r.out = (q, route)) ∨ ∃ f ∈ s.flying, f.msg.1 = q ∧ f.msg.2.Leads route

theorem Pending.deliver {q : Q} {route : List V} (found : Route T.nbrs (T.goal q) (T.source q) route)
    {s t : Pool (Q × Phase V) (Q × List V)} (good : s.Good (Sound T) (Reported T)) (pending : Pending q route s)
    (step : Deliver T.reaction s t) : Pending q route t := by
  cases step with
  | @mk f rest log out reports handed =>
      rw [Task.reaction, Option.some.injEq, Prod.mk.injEq] at handed
      obtain ⟨rfl, rfl⟩ := handed
      rcases pending with ⟨r, before, same⟩ | ⟨g, flying, rfl, leads⟩
      · exact .inl ⟨r, List.mem_append_left _ before, same⟩
      rcases Multiset.mem_cons.mp flying with rfl | later
      · rcases (good.1 g flying).valid.leads_next found leads with done | ⟨ph', next, leads⟩
        · exact .inl ⟨_, List.mem_append_right _ (mem_file.mpr ⟨_, List.mem_map_of_mem done, rfl⟩), rfl⟩
        · have sent : (⟨g.origin, g.msg :: g.trail, (g.msg.1, ph')⟩ : Flight (Q × Phase V)) ∈
              g.spawn ((g.msg.2.next T.nbrs (T.goal g.msg.1)).map (Prod.mk g.msg.1)) :=
            mem_spawn.mpr ⟨_, List.mem_map_of_mem next, rfl⟩
          exact .inr ⟨_, Multiset.mem_add.mpr (.inr (Multiset.mem_coe.mpr sent)), rfl, leads⟩
      · exact .inr ⟨g, Multiset.mem_add.mpr (.inl later), rfl, leads⟩

theorem pending_all (loopless : ∀ x, x ∉ T.nbrs x) {qs : List Q} (away : ∀ q ∈ qs, T.goal q (T.source q) = false)
    {s : Pool (Q × Phase V) (Q × List V)} (run : Runs T.reaction (launch (qs.map T.opening)) s) {q : Q}
    (asked : q ∈ qs) {route : List V} (found : Route T.nbrs (T.goal q) (T.source q) route) : Pending q route s := by
  induction run with
  | refl =>
      right
      obtain ⟨i, bound, same⟩ := List.getElem_of_mem (List.mem_map_of_mem (f := T.opening) asked)
      refine ⟨⟨i, [], T.opening q⟩, Multiset.mem_coe.mpr (List.mem_mapIdx.mpr ⟨i, bound, by rw [same]⟩), rfl, ?_⟩
      obtain ⟨x, rest, rfl⟩ := List.exists_cons_of_ne_nil (List.ne_nil_of_mem (List.mem_of_head? found.head?))
      cases found.head?
      exact ⟨rest, rfl⟩
  | tail before step ih =>
      exact ih.deliver found (Reaches.good (sound_preserved loopless) (Runs.reaches before) (opening_sound away)) step

/-- When nothing is in flight, each search has reported all its routes, however often its
neighbours are listed. -/
theorem reported_all (loopless : ∀ x, x ∉ T.nbrs x) {qs : List Q} (away : ∀ q ∈ qs, T.goal q (T.source q) = false)
    {s : Pool (Q × Phase V) (Q × List V)} (run : Runs T.reaction (launch (qs.map T.opening)) s)
    (quiet : s.flying = 0) {q : Q} (asked : q ∈ qs) {route : List V}
    (found : Route T.nbrs (T.goal q) (T.source q) route) : ∃ r ∈ s.log, r.out = (q, route) := by
  rcases pending_all loopless away run asked found with reported | ⟨f, flying, _⟩
  · exact reported
  · rw [quiet] at flying
    exact absurd flying (Multiset.notMem_zero f)

section EachOnce
variable [Fintype V]

/-- What the flights that descend from the `i`-th injected message still owe. -/
noncomputable def owedBy (T : Task Q V) (i : ℕ) (f : Flight (Q × Phase V)) : Multiset (Q × List V) :=
  if f.origin = i then
    (f.msg.2.owes T.nbrs (T.goal f.msg.1) (T.source f.msg.1)).map (Prod.mk f.msg.1)
  else 0

def paidBy (i : ℕ) (r : Report (Q × Phase V) (Q × List V)) : Multiset (Q × List V) :=
  if r.origin = i then {r.out} else 0

theorem owedBy_balance (nodup : ∀ x, (T.nbrs x).Nodup) (i : ℕ) (f : Flight (Q × Phase V))
    (out : List (Q × Phase V)) (reports : List (Q × List V)) (sound : Sound T f)
    (reacts : T.reaction f.msg = some (out, reports)) :
    owedBy T i f = ((f.spawn out).map (owedBy T i)).sum + ((f.file reports).map (paidBy i)).sum := by
  rw [Task.reaction, Option.some.injEq, Prod.mk.injEq] at reacts
  obtain ⟨rfl, rfl⟩ := reacts
  have split := sound.valid.owes_next nodup
  have sent : ∀ phs : List (Phase V),
      ((f.spawn (phs.map (Prod.mk f.msg.1))).map (owedBy T i)).sum = if f.origin = i then
        ((phs.map (Phase.owes T.nbrs (T.goal f.msg.1) (T.source f.msg.1))).sum).map
          (Prod.mk f.msg.1) else 0 := by
    intro phs
    induction phs with
    | nil => simp only [Flight.spawn, List.map_nil, List.sum_nil, Multiset.map_zero, ite_self]
    | cons ph phs ih =>
        simp only [Flight.spawn, List.map_cons, List.sum_cons] at ih ⊢
        rw [ih]
        simp only [owedBy]
        split
        · rw [Multiset.map_add]
        · rw [add_zero]
  have filed : ∀ rs : List (List V),
      ((f.file (rs.map (Prod.mk f.msg.1))).map (paidBy i)).sum = if f.origin = i then
        (rs : Multiset (List V)).map (Prod.mk f.msg.1) else 0 := by
    intro rs
    induction rs with
    | nil => simp only [Flight.file, List.map_nil, List.sum_nil, Multiset.coe_nil,
        Multiset.map_zero, ite_self]
    | cons r rs ih =>
        simp only [Flight.file, List.map_cons, List.sum_cons] at ih ⊢
        rw [ih]
        simp only [paidBy]
        split
        · rw [← Multiset.cons_coe, Multiset.map_cons, Multiset.singleton_add]
        · rw [add_zero]
  rw [sent, filed, owedBy]
  split
  · rw [← Multiset.map_add, ← split]
  · rw [add_zero]

theorem sum_mapIdx_pick {α β : Type*} [AddCommMonoid β] (w : α → β) (l : List α) (i : ℕ) :
    (l.mapIdx fun j a => if j = i then w a else 0).sum = (l[i]?.map w).getD 0 := by
  induction l generalizing i with
  | nil => rfl
  | cons a l ih =>
      rw [List.mapIdx_cons, List.sum_cons]
      cases i with
      | zero =>
          have rest : (l.mapIdx fun j b => if j + 1 = 0 then w b else 0).sum = 0 := by
            apply List.sum_eq_zero
            intro x member
            obtain ⟨j, bound, rfl⟩ := List.mem_mapIdx.mp member
            rfl
          rw [rest]
          simp
      | succ i =>
          simp only [Nat.add_right_cancel_iff]
          rw [ih i]
          simp

/-- At the start a search owes all its routes. -/
theorem owes_opening (T : Task Q V) (q : Q) :
    (T.opening q).2.owes T.nbrs (T.goal q) (T.source q) =
      (routes T.nbrs (T.goal q) (T.source q)).val := by
  simp only [Task.opening, Phase.owes]
  congr 1
  apply Finset.filter_true_of_mem
  intro route found
  have front := (mem_routes.mp found).head?
  cases route with
  | nil => cases front
  | cons x rest =>
      cases front
      exact ⟨rest, rfl⟩

/-- When nothing is in flight, each search has reported each of its routes exactly
once, and nothing else. -/
theorem reported_each_once (loopless : ∀ x, x ∉ T.nbrs x) (nodup : ∀ x, (T.nbrs x).Nodup)
    {qs : List Q} (away : ∀ q ∈ qs, T.goal q (T.source q) = false)
    {s : Pool (Q × Phase V) (Q × List V)} (run : Runs T.reaction (launch (qs.map T.opening)) s)
    (quiet : s.flying = 0) (i : ℕ) (q : Q) (asked : qs[i]? = some q) :
    (((s.log.filter fun r => r.origin = i).map Report.out : List (Q × List V)) :
        Multiset (Q × List V)) =
      (routes T.nbrs (T.goal q) (T.source q)).val.map (Prod.mk q) := by
  have kept := run.worth (owedBy T i) (paidBy i) (sound_preserved loopless)
    (owedBy_balance nodup i) (opening_sound away)
  have ended : s.worth (owedBy T i) (paidBy i) =
      ((s.log.filter fun r => r.origin = i).map Report.out : List (Q × List V)) := by
    rw [Pool.worth, quiet, Multiset.map_zero, Multiset.sum_zero, zero_add]
    induction s.log with
    | nil => rfl
    | cons r log ih =>
        rw [List.map_cons, List.sum_cons, ih, paidBy]
        by_cases same : r.origin = i
        · simp only [same, if_true, decide_true, List.filter_cons_of_pos, List.map_cons,
            ← Multiset.cons_coe, Multiset.singleton_add]
        · simp only [same, if_false, decide_false, Bool.false_eq_true, not_false_eq_true,
            List.filter_cons_of_neg, zero_add]
  have started : (launch (qs.map T.opening) : Pool (Q × Phase V) (Q × List V)).worth
      (owedBy T i) (paidBy i) = (routes T.nbrs (T.goal q) (T.source q)).val.map (Prod.mk q) := by
    simp only [Pool.worth, launch, List.map_nil, List.sum_nil, add_zero, Multiset.map_coe,
      Multiset.sum_coe, mapIdx_map_map]
    have picked := sum_mapIdx_pick (fun p => ((T.opening p).2.owes T.nbrs (T.goal p)
      (T.source p)).map (Prod.mk p)) qs i
    rw [asked, Option.map_some, Option.getD_some] at picked
    refine Eq.trans picked ?_
    rw [owes_opening]
  rw [← ended, kept, started]

end EachOnce
end Relay

import TransitNet.Soup
import Mathlib.Data.List.Chain
import Mathlib.Data.Set.Finite.List
import Mathlib.Data.Fintype.Card
import Mathlib.Data.Finset.Card
import Mathlib.Data.Multiset.Bind

/-! Flood and trace, over an arbitrary neighbour relation. A search floods the
simple paths that leave its source. At a goal the path found turns into a token
that goes back to the source, then rides to the goal, then returns home, where
it is reported. Only positions are kept here, no message contents. -/
namespace Relay

variable {V : Type*}

/-- `flood path here`: at `here`, having come along `path`. In the other three
phases the token of a found path is at its `k`-th station, counted from one. -/
inductive Phase (V : Type*)
  | flood (path : List V) (here : V)
  | back (path : List V) (k : ℕ)
  | ride (path : List V) (k : ℕ)
  | home (path : List V) (k : ℕ)
  deriving DecidableEq

/-- A simple path out of the source that has met no goal before `here`. -/
structure Walk (nbrs : V → List V) (goal : V → Bool) (source : V) (path : List V) (here : V) :
    Prop where
  simple : (path ++ [here]).Nodup
  start : (path ++ [here]).head? = some source
  linked : (path ++ [here]).IsChain fun x y => y ∈ nbrs x
  unmet : ∀ y ∈ path, goal y = false

/-- A walk that has just met a goal. -/
def Route (nbrs : V → List V) (goal : V → Bool) (source : V) (route : List V) : Prop :=
  ∃ path here, route = path ++ [here] ∧ goal here = true ∧ Walk nbrs goal source path here

theorem Walk.alone (nbrs : V → List V) (goal : V → Bool) (source : V) : Walk nbrs goal source [] source where
  simple := List.nodup_singleton source
  start := rfl
  linked := List.isChain_singleton source
  unmet _ member := absurd member List.not_mem_nil

theorem Walk.ne_source_of_goal {nbrs : V → List V} {goal : V → Bool} {source here : V}
    {path : List V} (h : Walk nbrs goal source path here) (met : goal here = true)
    (away : goal source = false) : path ≠ [] := by
  rintro rfl
  have same := Option.some.inj h.start
  rw [same, away] at met
  cases met

/-- With one goal at most, a route is any simple path from the source to the goal. -/
theorem route_iff {nbrs : V → List V} {goal : V → Bool} {source : V} {route : List V}
    (single : ∀ x y, goal x = true → goal y = true → x = y) :
    Route nbrs goal source route ↔ route.Nodup ∧ route.head? = some source ∧
      route.IsChain (fun x y => y ∈ nbrs x) ∧ ∃ d, route.getLast? = some d ∧ goal d = true := by
  constructor
  · rintro ⟨path, here, rfl, met, walk⟩
    exact ⟨walk.simple, walk.start, walk.linked, here, List.getLast?_concat, met⟩
  · rintro ⟨simple, start, linked, d, last, met⟩
    obtain ⟨path, rfl⟩ := List.getLast?_eq_some_iff.mp last
    refine ⟨path, d, rfl, met, simple, start, linked, ?_⟩
    intro y member
    cases passed : goal y with
    | false => rfl
    | true =>
        have apart := (List.nodup_append.mp simple).2.2 y member d (by simp)
        exact absurd (single y d passed met) apart

theorem Route.two_le {nbrs : V → List V} {goal : V → Bool} {source : V} {route : List V}
    (h : Route nbrs goal source route) (away : goal source = false) : 2 ≤ route.length := by
  obtain ⟨path, here, rfl, met, walk⟩ := h
  have nonempty := List.length_pos_of_ne_nil (walk.ne_source_of_goal met away)
  simp only [List.length_append, List.length_singleton]
  omega

theorem Route.nodup {nbrs : V → List V} {goal : V → Bool} {source : V} {route : List V}
    (h : Route nbrs goal source route) : route.Nodup := by
  obtain ⟨path, here, rfl, _, walk⟩ := h
  exact walk.simple

theorem Route.head? {nbrs : V → List V} {goal : V → Bool} {source : V} {route : List V}
    (h : Route nbrs goal source route) : route.head? = some source := by
  obtain ⟨path, here, rfl, _, walk⟩ := h
  exact walk.start

theorem Route.linked {nbrs : V → List V} {goal : V → Bool} {source : V} {route : List V}
    (h : Route nbrs goal source route) : route.IsChain fun x y => y ∈ nbrs x := by
  obtain ⟨path, here, rfl, _, walk⟩ := h
  exact walk.linked

/-- Nobody but the last station of a route is a goal. -/
theorem Route.goal_iff_last {nbrs : V → List V} {goal : V → Bool} {source : V} {route : List V}
    (h : Route nbrs goal source route) {k : ℕ} {x : V} (here : route[k]? = some x) :
    goal x = true ↔ k + 1 = route.length := by
  obtain ⟨path, last, rfl, met, walk⟩ := h
  have bound : k < (path ++ [last]).length := (List.getElem?_eq_some_iff.mp here).1
  simp only [List.length_append, List.length_singleton] at bound ⊢
  by_cases inside : k < path.length
  · rw [List.getElem?_append_left inside] at here
    have open_ := walk.unmet x (List.mem_of_getElem? here)
    constructor
    · intro claim; rw [open_] at claim; cases claim
    · intro claim; omega
  · have same : k = path.length := by omega
    subst same
    rw [List.getElem?_concat_length] at here
    cases here
    exact ⟨fun _ => rfl, fun _ => met⟩

/-- The source stands at the front of a route and nowhere else. -/
theorem Route.source_iff_first {nbrs : V → List V} {goal : V → Bool} {source : V} {route : List V}
    (h : Route nbrs goal source route) {k : ℕ} {x : V} (here : route[k]? = some x) :
    x = source ↔ k = 0 := by
  have front : route[0]? = some source := by rw [← List.head?_eq_getElem?]; exact h.head?
  constructor
  · rintro rfl
    by_contra later
    have bound := (List.getElem?_eq_some_iff.mp here).1
    exact List.nodup_iff_getElem?_ne_getElem?.mp h.nodup 0 k (by omega) bound (front.trans here.symm)
  · rintro rfl
    exact Option.some.inj (here.symm.trans front)

section Transition

/-- The messages that one delivery sends on. A flood is not sent to a station
that is already on the path; `here` itself is not consulted. -/
def Phase.next [DecidableEq V] (nbrs : V → List V) (goal : V → Bool) : Phase V → List (Phase V)
  | .flood path here =>
      if goal here then [.back (path ++ [here]) path.length]
      else ((nbrs here).filter (· ∉ path)).map (.flood (path ++ [here]))
  | .back path k => if k ≤ 1 then [.ride path 2] else [.back path (k - 1)]
  | .ride path k => if k = path.length then [.home path (k - 1)] else [.ride path (k + 1)]
  | .home path k => if k ≤ 1 then [] else [.home path (k - 1)]

/-- The route that one delivery reports, if it is the last of its token. -/
def Phase.done : Phase V → List (List V)
  | .home path k => if k ≤ 1 then [path] else []
  | .flood _ _ | .back _ _ | .ride _ _ => []

theorem Phase.done_cases (ph : Phase V) : ph.done = [] ∨ ∃ path, ph.done = [path] := by
  cases ph with
  | flood path here => exact .inl rfl
  | back path k => exact .inl rfl
  | ride path k => exact .inl rfl
  | home path k =>
      rw [Phase.done]
      split
      · exact .inr ⟨path, rfl⟩
      · exact .inl rfl

/-- The station a message is addressed to. -/
def Phase.at : Phase V → Option V
  | .flood _ here => some here
  | .back path k | .ride path k | .home path k => path[k - 1]?

def Phase.Valid (nbrs : V → List V) (goal : V → Bool) (source : V) : Phase V → Prop
  | .flood path here => Walk nbrs goal source path here
  | .back path k | .home path k => Route nbrs goal source path ∧ 1 ≤ k ∧ k + 1 ≤ path.length
  | .ride path k => Route nbrs goal source path ∧ 2 ≤ k ∧ k ≤ path.length

variable {nbrs : V → List V} {goal : V → Bool} {source : V}

/-- Every valid message is addressed to somebody. -/
theorem Phase.Valid.at_isSome {ph : Phase V} (h : ph.Valid nbrs goal source) :
    ∃ x, ph.at = some x := by
  cases ph with
  | flood path here => exact ⟨here, rfl⟩
  | back path k => exact ⟨_, List.getElem?_eq_getElem (by have := h.2; omega)⟩
  | ride path k => exact ⟨_, List.getElem?_eq_getElem (by have := h.2; omega)⟩
  | home path k => exact ⟨_, List.getElem?_eq_getElem (by have := h.2; omega)⟩

theorem Walk.step (loopless : ∀ x, x ∉ nbrs x) {path : List V} {here y : V}
    (h : Walk nbrs goal source path here) (unmet : goal here = false)
    (link : y ∈ nbrs here) (fresh : y ∉ path) : Walk nbrs goal source (path ++ [here]) y where
  simple := by
    have other : y ≠ here := by rintro rfl; exact loopless y link
    refine List.nodup_append.mpr ⟨h.simple, List.nodup_singleton y, ?_⟩
    intro a old b new
    rw [List.mem_singleton] at new
    subst new
    rcases List.mem_append.mp old with inside | last
    · rintro rfl; exact fresh inside
    · rw [List.mem_singleton] at last
      subst last
      exact other.symm
  start := by
    rw [List.head?_append_of_ne_nil _ (by simp)]
    exact h.start
  linked := by
    rw [List.isChain_append]
    refine ⟨h.linked, List.isChain_singleton y, ?_⟩
    intro a last b first
    rw [List.getLast?_concat, Option.mem_def, Option.some.injEq] at last
    rw [List.head?_cons, Option.mem_def, Option.some.injEq] at first
    subst last first
    exact link
  unmet := by
    intro z member
    rcases List.mem_append.mp member with inside | last
    · exact h.unmet z inside
    · rw [List.mem_singleton] at last
      subst last
      exact unmet

/-- Deliveries of valid messages send valid messages. -/
theorem Phase.Valid.next [DecidableEq V] (loopless : ∀ x, x ∉ nbrs x) (away : goal source = false)
    {ph ph' : Phase V} (h : ph.Valid nbrs goal source) (sent : ph' ∈ ph.next nbrs goal) :
    ph'.Valid nbrs goal source := by
  cases ph with
  | flood path here =>
      by_cases met : goal here = true
      · simp only [Phase.next, met, if_true, List.mem_singleton] at sent
        subst sent
        have nonempty := List.length_pos_of_ne_nil (h.ne_source_of_goal met away)
        refine ⟨⟨path, here, rfl, met, h⟩, nonempty, ?_⟩
        rw [List.length_append, List.length_singleton]
      · simp only [Phase.next, met, if_false, Bool.false_eq_true, List.mem_map, List.mem_filter,
          decide_eq_true_eq] at sent
        obtain ⟨y, ⟨link, fresh⟩, rfl⟩ := sent
        exact h.step loopless (Bool.eq_false_iff.mpr met) link fresh
  | back path k =>
      have two := h.1.two_le away
      have bounds := h.2
      simp only [Phase.next] at sent
      split at sent
      · rw [List.mem_singleton] at sent
        subst sent
        exact ⟨h.1, le_refl 2, two⟩
      · rw [List.mem_singleton] at sent
        subst sent
        exact ⟨h.1, by omega, by omega⟩
  | ride path k =>
      have bounds := h.2
      simp only [Phase.next] at sent
      split at sent
      · rw [List.mem_singleton] at sent
        subst sent
        exact ⟨h.1, by omega, by omega⟩
      · rw [List.mem_singleton] at sent
        subst sent
        exact ⟨h.1, by omega, by omega⟩
  | home path k =>
      have bounds := h.2
      simp only [Phase.next] at sent
      split at sent
      · cases sent
      · rw [List.mem_singleton] at sent
        subst sent
        exact ⟨h.1, by omega, by omega⟩

theorem Phase.Valid.done {ph : Phase V} (h : ph.Valid nbrs goal source) {route : List V}
    (filed : route ∈ ph.done) : ph = .home route 1 ∧ Route nbrs goal source route := by
  cases ph with
  | flood path here => cases filed
  | back path k => cases filed
  | ride path k => cases filed
  | home path k =>
      have bounds := h.2
      simp only [Phase.done] at filed
      split at filed
      · rw [List.mem_singleton] at filed
        subst filed
        exact ⟨by rw [show k = 1 by omega], h.1⟩
      · cases filed

/-- The deliveries that lie behind a valid message. -/
def Phase.age : Phase V → ℕ
  | .flood path _ => path.length
  | .back path k => 2 * path.length - 1 - k
  | .ride path k => 2 * path.length - 3 + k
  | .home path k => 4 * path.length - 3 - k

theorem Phase.Valid.age_next [DecidableEq V] (away : goal source = false) {ph ph' : Phase V}
    (h : ph.Valid nbrs goal source) (sent : ph' ∈ ph.next nbrs goal) : ph'.age = ph.age + 1 := by
  cases ph with
  | flood path here =>
      simp only [Phase.next] at sent
      split at sent
      · rw [List.mem_singleton] at sent
        subst sent
        simp only [Phase.age, List.length_append, List.length_singleton]
        omega
      · obtain ⟨y, _, rfl⟩ := List.mem_map.mp sent
        simp only [Phase.age, List.length_append, List.length_singleton]
  | back path k =>
      have two := h.1.two_le away
      have bounds := h.2
      simp only [Phase.next] at sent
      split at sent <;> (rw [List.mem_singleton] at sent; subst sent; simp only [Phase.age]; omega)
  | ride path k =>
      have bounds := h.2
      simp only [Phase.next] at sent
      split at sent <;> (rw [List.mem_singleton] at sent; subst sent; simp only [Phase.age]; omega)
  | home path k =>
      have bounds := h.2
      simp only [Phase.next] at sent
      split at sent
      · cases sent
      · rw [List.mem_singleton] at sent
        subst sent
        simp only [Phase.age]
        omega

/-- Bounds the deliveries that can still follow in a network of `n` stations. -/
def Phase.rank (n : ℕ) : Phase V → ℕ
  | .flood path _ => 3 * n + 3 + (n - path.length)
  | .back path k => 2 * path.length + 2 + k
  | .ride path k => 2 * path.length + 1 - k
  | .home _ k => k

theorem Phase.Valid.rank_next [DecidableEq V] [Fintype V] (away : goal source = false) {ph ph' : Phase V}
    (h : ph.Valid nbrs goal source) (sent : ph' ∈ ph.next nbrs goal) :
    ph'.rank (Fintype.card V) < ph.rank (Fintype.card V) := by
  cases ph with
  | flood path here =>
      have small := h.simple.length_le_card
      simp only [List.length_append, List.length_singleton] at small
      simp only [Phase.next] at sent
      split at sent
      · rw [List.mem_singleton] at sent
        subst sent
        simp only [Phase.rank, List.length_append, List.length_singleton]
        omega
      · obtain ⟨y, _, rfl⟩ := List.mem_map.mp sent
        simp only [Phase.rank, List.length_append, List.length_singleton]
        omega
  | back path k =>
      have two := h.1.two_le away
      have bounds := h.2
      simp only [Phase.next] at sent
      split at sent <;> (rw [List.mem_singleton] at sent; subst sent; simp only [Phase.rank]; omega)
  | ride path k =>
      have bounds := h.2
      simp only [Phase.next] at sent
      split at sent <;> (rw [List.mem_singleton] at sent; subst sent; simp only [Phase.rank]; omega)
  | home path k =>
      have bounds := h.2
      simp only [Phase.next] at sent
      split at sent
      · cases sent
      · rw [List.mem_singleton] at sent
        subst sent
        simp only [Phase.rank]
        omega

end Transition

section Owed
variable {nbrs : V → List V} {goal : V → Bool} {source : V}

theorem routes_finite [Fintype V] (nbrs : V → List V) (goal : V → Bool) (source : V) :
    {route | Route nbrs goal source route}.Finite :=
  (List.finite_length_le V (Fintype.card V)).subset fun _ h => h.nodup.length_le_card

/-- All simple paths from the source to a goal. -/
noncomputable def routes [Fintype V] (nbrs : V → List V) (goal : V → Bool) (source : V) : Finset (List V) :=
  (routes_finite nbrs goal source).toFinset

@[simp] theorem mem_routes [Fintype V] {route : List V} :
    route ∈ routes nbrs goal source ↔ Route nbrs goal source route := by
  simp only [routes, Set.Finite.mem_toFinset, Set.mem_ofPred_eq]

/-- The routes that a message has still to report: a token its own, a flood
all the routes that extend its path. -/
noncomputable def Phase.owes [DecidableEq V] [Fintype V] (nbrs : V → List V) (goal : V → Bool)
    (source : V) : Phase V → Multiset (List V)
  | .flood path here => ((routes nbrs goal source).filter (path ++ [here] <+: ·)).val
  | .back path _ | .ride path _ | .home path _ => {path}

/-- A route extends a walk that stands at a goal only by being it. -/
theorem Walk.extends_goal {path route : List V} {here : V} (h : Walk nbrs goal source path here)
    (met : goal here = true) :
    Route nbrs goal source route ∧ path ++ [here] <+: route ↔ route = path ++ [here] := by
  constructor
  · rintro ⟨found, tail, rfl⟩
    have spot : (path ++ [here] ++ tail)[path.length]? = some here := by
      rw [List.append_assoc, List.getElem?_append_right (le_refl _), Nat.sub_self]
      rfl
    have last := (found.goal_iff_last spot).mp met
    simp only [List.length_append, List.length_singleton] at last
    rw [List.length_eq_zero_iff.mp (by omega : tail.length = 0), List.append_nil]
  · rintro rfl
    exact ⟨⟨path, here, rfl, met, h⟩, List.prefix_rfl⟩

/-- A route extends a walk that has met no goal yet through exactly one fresh neighbour. -/
theorem Walk.extends_open {path route : List V} {here : V} (unmet : goal here = false) :
    Route nbrs goal source route ∧ path ++ [here] <+: route ↔
      ∃ y, (y ∈ nbrs here ∧ y ∉ path) ∧
        Route nbrs goal source route ∧ path ++ [here] ++ [y] <+: route := by
  constructor
  · rintro ⟨found, tail, rfl⟩
    cases tail with
    | nil =>
        obtain ⟨front, last, same, met, _⟩ := found
        rw [List.append_nil] at same
        obtain ⟨_, ends⟩ := List.append_inj' same rfl
        rw [List.cons.injEq] at ends
        rw [← ends.1, unmet] at met
        cases met
    | cons y rest =>
        have whole : path ++ [here] ++ y :: rest = path ++ [here] ++ [y] ++ rest := by simp
        have linked := found.linked
        have simple := found.nodup
        rw [List.append_assoc, List.singleton_append, List.isChain_append_cons_cons] at linked
        rw [List.append_assoc] at simple
        have apart := (List.nodup_append.mp simple).2.2
        refine ⟨y, ⟨linked.2.1, fun inside => ?_⟩, found, ⟨rest, whole.symm⟩⟩
        exact apart y inside y (by simp) rfl
  · rintro ⟨y, _, found, longer⟩
    exact ⟨found, (List.prefix_append _ _).trans longer⟩

theorem prefix_concat_inj {path route : List V} {y z : V} (hy : path ++ [y] <+: route)
    (hz : path ++ [z] <+: route) : y = z := by
  have same := List.prefix_of_prefix_length_le hy hz (by simp)
  have equal := same.eq_of_length (by simp)
  simpa only [List.append_cancel_left_eq, List.cons.injEq, and_true] using equal

/-- What a message owes is what its delivery reports and the messages it sends owe. -/
theorem Phase.Valid.owes_next [DecidableEq V] [Fintype V] (nodup : ∀ x, (nbrs x).Nodup)
    {ph : Phase V} (h : ph.Valid nbrs goal source) :
    ph.owes nbrs goal source =
      ((ph.next nbrs goal).map (Phase.owes nbrs goal source)).sum + (ph.done : Multiset (List V)) := by
  cases ph with
  | flood path here =>
      simp only [Phase.done, Multiset.coe_nil, add_zero]
      by_cases met : goal here = true
      · simp only [Phase.next, met, if_true, List.map_cons, List.map_nil, List.sum_singleton,
          Phase.owes]
        apply (Multiset.Nodup.ext (Finset.nodup _) (Multiset.nodup_singleton _)).mpr
        intro route
        rw [Finset.mem_val, Finset.mem_filter, mem_routes, Multiset.mem_singleton]
        exact h.extends_goal met
      · simp only [Phase.next, met, if_false, Bool.false_eq_true, List.map_map]
        rw [← Multiset.sum_coe, ← Multiset.map_coe]
        change _ = Multiset.bind ((nbrs here).filter fun y => decide (y ∉ path))
          (Phase.owes nbrs goal source ∘ Phase.flood (path ++ [here]))
        apply (Multiset.Nodup.ext (Finset.nodup _) ?_).mpr
        · intro route
          simp only [Multiset.mem_bind, Multiset.mem_coe, List.mem_filter, decide_eq_true_eq,
            Phase.owes, Function.comp_apply, Finset.mem_val, Finset.mem_filter, mem_routes]
          exact Walk.extends_open (Bool.eq_false_iff.mpr met)
        · apply Multiset.nodup_bind.mpr
          refine ⟨fun y _ => Finset.nodup _, _, rfl, ?_⟩
          apply List.Nodup.pairwise_of_forall_ne ((nodup here).filter _)
          intro y _ z _ apart
          apply Multiset.disjoint_left.mpr
          intro route viaY viaZ
          simp only [Function.comp_apply, Phase.owes, Finset.mem_val, Finset.mem_filter] at viaY viaZ
          exact apart (prefix_concat_inj viaY.2 viaZ.2)
  | back path k =>
      simp only [Phase.next, Phase.done, Multiset.coe_nil, add_zero]
      split <;> simp only [List.map_cons, List.map_nil, List.sum_singleton, Phase.owes]
  | ride path k =>
      simp only [Phase.next, Phase.done, Multiset.coe_nil, add_zero]
      split <;> simp only [List.map_cons, List.map_nil, List.sum_singleton, Phase.owes]
  | home path k =>
      simp only [Phase.next, Phase.done]
      split
      · simp only [List.map_nil, List.sum_nil, zero_add, Phase.owes, Multiset.coe_singleton]
      · simp only [List.map_cons, List.map_nil, List.sum_singleton, Phase.owes, Multiset.coe_nil,
          add_zero]

/-- The message may still report the route. -/
def Phase.Leads : Phase V → List V → Prop
  | .flood path here, route => path ++ [here] <+: route
  | .back path _, route | .ride path _, route | .home path _, route => path = route

/-- A message that may report a route does so, or sends one that may. -/
theorem Phase.Valid.leads_next [DecidableEq V] {ph : Phase V} (h : ph.Valid nbrs goal source) {route : List V}
    (found : Route nbrs goal source route) (leads : ph.Leads route) :
    route ∈ ph.done ∨ ∃ ph' ∈ ph.next nbrs goal, ph'.Leads route := by
  cases ph with
  | flood path here =>
      right
      rw [Phase.next]
      by_cases met : goal here = true
      · rw [if_pos met]
        exact ⟨_, List.mem_singleton_self _, ((h.extends_goal met).mp ⟨found, leads⟩).symm⟩
      · obtain ⟨y, ⟨link, fresh⟩, _, longer⟩ :=
          (Walk.extends_open (Bool.eq_false_iff.mpr met)).mp ⟨found, leads⟩
        rw [if_neg met]
        exact ⟨_, List.mem_map_of_mem (List.mem_filter.mpr ⟨link, decide_eq_true fresh⟩), longer⟩
  | back path k =>
      right
      rw [Phase.next]
      split <;> exact ⟨_, List.mem_singleton_self _, leads⟩
  | ride path k =>
      right
      rw [Phase.next]
      split <;> exact ⟨_, List.mem_singleton_self _, leads⟩
  | home path k =>
      rw [Phase.next, Phase.done]
      split
      · exact .inl (List.mem_singleton.mpr leads.symm)
      · exact .inr ⟨_, List.mem_singleton_self _, leads⟩

end Owed
end Relay

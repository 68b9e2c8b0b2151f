import Mathlib.Data.Bool.Basic
import Mathlib.Data.List.Induction
import Mathlib.Logic.Relation
import Mathlib.Order.Basic

/-! Transitive closure in place: one matrix is updated while it is read, in three nested loops. -/
namespace Closure

section Loops
variable {α σ : Type*} [Preorder σ] {step : σ → α → σ}

theorem foldl_grows (grows : ∀ s a, s ≤ step s a) (xs : List α) (s : σ) : s ≤ xs.foldl step s := by
  induction xs generalizing s with
  | nil => exact le_refl s
  | cons a xs ih => exact (grows s a).trans (ih (step s a))

/-- A loop whose body only adds keeps what its body has added for each item. -/
theorem foldl_meets (grows : ∀ s a, s ≤ step s a) {xs : List α} {a : α} (member : a ∈ xs) (s : σ) :
    ∃ t, s ≤ t ∧ step t a ≤ xs.foldl step s := by
  induction xs generalizing s with
  | nil => exact absurd member List.not_mem_nil
  | cons b xs ih =>
      rcases List.mem_cons.mp member with rfl | later
      · exact ⟨s, le_refl s, foldl_grows grows xs (step s a)⟩
      · obtain ⟨t, before, after⟩ := ih later (step s b)
        exact ⟨t, (grows s b).trans before, after⟩

omit [Preorder σ] in
theorem foldl_keeps {P : σ → Prop} (keeps : ∀ s a, P s → P (step s a)) (xs : List α) {s : σ} (start : P s) :
    P (xs.foldl step s) := by
  induction xs generalizing s with
  | nil => exact start
  | cons a xs ih => exact ih (keeps s a start)

end Loops

variable {V : Type*}

theorem le_true {w w' : V → V → Bool} (le : w ≤ w') {a b : V} (linked : w a b = true) : w' a b = true :=
  Bool.eq_true_of_true_le (linked ▸ le a b)

/-- A way on which every stop between lies in `S`. -/
inductive Via (adj : V → V → Bool) (S : List V) : V → V → Prop
  | edge {i j : V} : adj i j = true → Via adj S i j
  | hop {i k j : V} : Via adj S i k → k ∈ S → Via adj S k j → Via adj S i j

/-- One more stop is used once, or not at all. -/
theorem Via.peel {adj : V → V → Bool} {S : List V} {k i j : V} (via : Via adj (S ++ [k]) i j) :
    Via adj S i j ∨ Via adj S i k ∧ Via adj S k j := by
  induction via with
  | edge linked => exact .inl (.edge linked)
  | @hop i m j _ stop _ ih₁ ih₂ =>
      rcases List.mem_append.mp stop with old | new
      · rcases ih₁ with left | ⟨left, middle⟩ <;> rcases ih₂ with right | ⟨middle', right⟩
        · exact .inl (.hop left old right)
        · exact .inr ⟨.hop left old middle', right⟩
        · exact .inr ⟨left, .hop middle old right⟩
        · exact .inr ⟨left, right⟩
      · obtain rfl := List.mem_singleton.mp new
        exact .inr ⟨ih₁.elim id And.left, ih₂.elim id And.right⟩

theorem via_of_transGen {adj : V → V → Bool} {S : List V} (all : ∀ v, v ∈ S) {i j : V}
    (way : Relation.TransGen (fun a b => adj a b = true) i j) : Via adj S i j := by
  induction way with
  | single linked => exact .edge linked
  | tail _ linked ih => exact .hop ih (all _) (.edge linked)

variable [DecidableEq V]

/-- The innermost body. -/
def relax (k i j : V) (w : V → V → Bool) : V → V → Bool :=
  if w i j then w else Function.update w i (Function.update (w i) j (w i k && w k j))

/-- The two inner loops. -/
def sweep (vs : List V) (k : V) (w : V → V → Bool) : V → V → Bool :=
  vs.foldl (fun w i => vs.foldl (fun w j => relax k i j w) w) w

/-- The three loops. -/
def closure (vs : List V) (adj : V → V → Bool) : V → V → Bool := vs.foldl (fun w k => sweep vs k w) adj

theorem relax_apply (k i j a b : V) (w : V → V → Bool) :
    relax k i j w a b = if a = i ∧ b = j then w i j || (w i k && w k j) else w a b := by
  unfold relax
  by_cases linked : w i j = true
  · rw [if_pos linked, linked, Bool.true_or]
    split
    · rename_i here
      rw [here.1, here.2, linked]
    · rfl
  · rw [if_neg linked, Bool.eq_false_iff.mpr linked, Bool.false_or, Function.update_apply]
    by_cases row : a = i
    · rw [row, if_pos rfl, Function.update_apply]
      exact if_congr (and_iff_right rfl).symm rfl rfl
    · rw [if_neg row, if_neg fun here => row here.1]

theorem le_relax (k i j : V) (w : V → V → Bool) : w ≤ relax k i j w := by
  intro a b
  rw [relax_apply]
  split
  · rename_i here
    rw [here.1, here.2]
    exact Bool.left_le_or _ _
  · exact le_refl _

theorem le_row (vs : List V) (k : V) (w : V → V → Bool) (i : V) :
    w ≤ vs.foldl (fun w j => relax k i j w) w :=
  foldl_grows (fun w j => le_relax k i j w) vs w

/-- After a sweep every way through `k` is there, for all that the matrix has changed in between. -/
theorem sweep_meets {vs : List V} {k i j : V} (row : i ∈ vs) (column : j ∈ vs) {w : V → V → Bool}
    (linked : w i j = true ∨ w i k = true ∧ w k j = true) : sweep vs k w i j = true := by
  obtain ⟨t, before, after⟩ := foldl_meets (fun w i => le_row vs k w i) row w
  obtain ⟨u, first, last⟩ := foldl_meets (fun w j => le_relax k i j w) column t
  refine le_true (last.trans after) ?_
  rw [relax_apply, if_pos ⟨rfl, rfl⟩, Bool.or_eq_true, Bool.and_eq_true]
  have sofar := before.trans first
  exact linked.imp (le_true sofar) fun both => ⟨le_true sofar both.1, le_true sofar both.2⟩

/-- The loops find every way through the stops that they have gone over. -/
theorem closure_meets {vs : List V} (all : ∀ v, v ∈ vs) {adj : V → V → Bool} (S : List V) {i j : V}
    (via : Via adj S i j) : S.foldl (fun w k => sweep vs k w) adj i j = true := by
  induction S using List.reverseRecOn generalizing i j with
  | nil =>
      cases via with
      | edge linked => exact linked
      | hop _ stop _ => exact absurd stop List.not_mem_nil
  | append_singleton S k ih =>
      rw [List.foldl_append]
      exact sweep_meets (all i) (all j) (via.peel.imp ih fun both => ⟨ih both.1, ih both.2⟩)

/-- Nothing is put in that is no way. -/
theorem closure_sound {vs : List V} {adj : V → V → Bool} {i j : V} (linked : closure vs adj i j = true) :
    Relation.TransGen (fun a b => adj a b = true) i j := by
  let Ways (w : V → V → Bool) : Prop := ∀ a b, w a b = true → Relation.TransGen (fun a b => adj a b = true) a b
  have relaxed : ∀ k i j w, Ways w → Ways (relax k i j w) := by
    intro k i j w ways a b linked
    rw [relax_apply] at linked
    split at linked
    · rename_i here
      obtain ⟨rfl, rfl⟩ := here
      rw [Bool.or_eq_true, Bool.and_eq_true] at linked
      exact linked.elim (ways a b) fun both => (ways a k both.1).trans (ways k b both.2)
    · exact ways a b linked
  have swept : ∀ w k, Ways w → Ways (sweep vs k w) := fun w k ways =>
    foldl_keeps (fun w i ways => foldl_keeps (fun w j ways => relaxed k i j w ways) vs ways) vs ways
  exact foldl_keeps (P := Ways) swept vs (fun a b linked => .single linked) i j linked

/-- The matrix that is left is the transitive closure. -/
theorem closure_iff {vs : List V} (all : ∀ v, v ∈ vs) {adj : V → V → Bool} {i j : V} :
    closure vs adj i j = true ↔ Relation.TransGen (fun a b => adj a b = true) i j :=
  ⟨closure_sound, fun way => closure_meets all vs (via_of_transGen all way)⟩

end Closure

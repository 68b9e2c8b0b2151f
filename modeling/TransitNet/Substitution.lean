import TransitNet.Words
import Mathlib.Data.List.Nodup

/-! Replacing in a text what matches a pattern of plain letters: the first place where it stands, or
every place, as an editor of streams does. -/
namespace Substitution
open Words

variable {α : Type*} [DecidableEq α]

/-- `s/pattern/replacement/` -/
def first (pattern replacement : List α) : List α → List α
  | [] => if pattern = [] then replacement else []
  | c :: s =>
      if pattern <+: c :: s then replacement ++ (c :: s).drop pattern.length
      else c :: first pattern replacement s

/-- `s/^pattern/replacement/` -/
def front (pattern replacement s : List α) : List α :=
  if pattern <+: s then replacement ++ s.drop pattern.length else s

/-- What `every` makes of the text when so many letters of it belong to a match. -/
def everyAfter (pattern replacement : List α) : ℕ → List α → List α
  | _, [] => []
  | k + 1, _ :: s => everyAfter pattern replacement k s
  | 0, c :: s =>
      if pattern <+: c :: s then replacement ++ everyAfter pattern replacement (pattern.length - 1) s
      else c :: everyAfter pattern replacement 0 s

/-- `s/pattern/replacement/g` -/
def every (pattern replacement : List α) : List α → List α := everyAfter pattern replacement 0

variable {pattern replacement w s : List α} {c : α}

omit [DecidableEq α] in
/-- A pattern without the letter that stands between two words lies in one of them. -/
theorem prefix_word (clean : c ∉ pattern) : pattern <+: w ++ c :: s ↔ pattern <+: w := by
  induction pattern generalizing w with
  | nil => exact iff_of_true (List.nil_prefix) List.nil_prefix
  | cons a pattern ih =>
      have other : a ≠ c := fun same => clean (same ▸ List.mem_cons_self)
      have rest : c ∉ pattern := fun member => clean (List.mem_cons_of_mem a member)
      cases w with
      | nil =>
          rw [List.nil_append, List.cons_prefix_cons]
          exact iff_of_false (fun both => other both.1) (by simp)
      | cons b w => rw [List.cons_append, List.cons_prefix_cons, List.cons_prefix_cons, ih rest]

omit [DecidableEq α] in
theorem prefix_spaced (clean : c ∉ pattern) {ws : List (List α)} :
    pattern <+: w ++ spaced c ws ↔ pattern <+: w := by
  cases ws with
  | nil => rw [spaced_nil, List.append_nil]
  | cons u ws => rw [spaced_cons, prefix_word clean]

/-! ### The first word of its kind -/

theorem first_skip (clean : c ∉ w) : first (c :: pattern) replacement (w ++ s) =
    w ++ first (c :: pattern) replacement s := by
  induction w with
  | nil => rfl
  | cons a w ih =>
      have other : ¬ (c :: pattern) <+: a :: (w ++ s) := by
        rw [List.cons_prefix_cons]
        rintro ⟨rfl, _⟩
        exact clean List.mem_cons_self
      rw [List.cons_append, first, if_neg other,
        ih fun member => clean (List.mem_cons_of_mem a member), List.cons_append]

/-- A word is replaced where it stands first among words that do not begin with it unless they are it. -/
theorem first_spaced {u v : List α} (plain : c ∉ u) {ws : List (List α)} (clean : ∀ x ∈ ws, c ∉ x)
    (whole : ∀ x ∈ ws, u <+: x → x = u) :
    first (c :: u) (c :: v) (spaced c ws) = spaced c (ws.replace u v) := by
  induction ws with
  | nil => rfl
  | cons x ws ih =>
      have rest := ih (fun y member => clean y (List.mem_cons_of_mem x member))
        fun y member => whole y (List.mem_cons_of_mem x member)
      have here : c :: u <+: c :: (x ++ spaced c ws) ↔ x = u := by
        rw [List.cons_prefix_cons, and_iff_right rfl, prefix_spaced plain]
        exact ⟨whole x List.mem_cons_self, fun same => same ▸ List.prefix_rfl⟩
      rw [spaced_cons, first, List.replace_cons]
      by_cases same : x = u
      · rw [if_pos (here.mpr same), same, beq_self_eq_true, List.length_cons, List.drop_succ_cons, List.drop_left,
          spaced_cons, List.cons_append]
      · rw [if_neg fun found => same (here.mp found), first_skip (clean x List.mem_cons_self), rest,
          beq_false_of_ne fun equal => same equal.symm, spaced_cons]

/-- Words that differ are replaced one after another. -/
theorem map_replace {β : Type*} [DecidableEq β] {f g : β → List α} {b : β} {xs : List β} (once : xs.Nodup)
    (apart : ∀ x ∈ xs, f x = f b → x = b) :
    (xs.map f).replace (f b) (g b) = xs.map fun x => if x = b then g x else f x := by
  induction xs with
  | nil => rfl
  | cons x xs ih =>
      obtain ⟨fresh, once⟩ := List.nodup_cons.mp once
      have rest := ih once fun y member => apart y (List.mem_cons_of_mem x member)
      rw [List.map_cons, List.replace_cons, List.map_cons]
      by_cases same : x = b
      · subst same
        simp only [beq_self_eq_true, if_pos]
        refine congrArg (List.cons (g x)) (List.map_congr_left fun y member => ?_)
        rw [if_neg]
        rintro rfl
        exact fresh member
      · have other : f b ≠ f x := fun equal => same (apart x List.mem_cons_self equal.symm)
        rw [beq_false_of_ne other, if_neg same, rest]

/-! ### The word in front -/

theorem front_spaced {u v : List α} (plain : c ∉ u) (clean : c ∉ w) {ws : List (List α)} (some : ws ≠ []) :
    front (u ++ [c]) v (w ++ spaced c ws) = if w = u then v ++ (spaced c ws).tail else w ++ spaced c ws := by
  obtain ⟨x, ws, rfl⟩ := List.exists_cons_of_ne_nil some
  have matches_iff : u ++ [c] <+: w ++ spaced c (x :: ws) ↔ w = u := by
    constructor
    · rintro ⟨rest, same⟩
      rw [spaced_cons, List.append_assoc, List.singleton_append] at same
      have left := congrArg (List.takeWhile (· ≠ c)) same
      have inside : ∀ {y : List α}, c ∉ y → ∀ a ∈ y, decide (a ≠ c) = true := fun free a member =>
        decide_eq_true fun same => free (same ▸ member)
      have stop : ∀ t : List α, (c :: t).takeWhile (· ≠ c) = [] := fun t => List.takeWhile_cons_of_neg (by simp)
      rw [List.takeWhile_append_of_pos (inside plain), List.takeWhile_append_of_pos (inside clean), stop, stop,
        List.append_nil, List.append_nil] at left
      exact left.symm
    · rintro rfl
      exact ⟨x ++ spaced c ws, by rw [spaced_cons, List.append_assoc, List.singleton_append]⟩
  rw [front]
  simp only [matches_iff]
  by_cases same : w = u
  · subst same
    rw [if_pos rfl, if_pos rfl, spaced_cons, List.tail_cons, List.length_append, List.length_singleton,
      ← List.drop_drop, List.drop_left, List.drop_succ_cons, List.drop_zero]
  · rw [if_neg same, if_neg same]

/-! ### Every place -/

theorem everyAfter_letter (clean : c ∉ pattern) {k : ℕ} (inside : k ≤ w.length) :
    everyAfter pattern replacement k (w ++ c :: s) =
      everyAfter pattern replacement k w ++ everyAfter pattern replacement 0 (c :: s) := by
  induction w generalizing k with
  | nil =>
      obtain rfl := Nat.le_zero.mp inside
      rfl
  | cons a w ih =>
      cases k with
      | succ k => exact ih (Nat.le_of_succ_le_succ inside)
      | zero =>
          have within : pattern <+: a :: (w ++ c :: s) ↔ pattern <+: a :: w := by
            rw [← List.cons_append, prefix_word clean]
          rw [List.cons_append, everyAfter, everyAfter]
          by_cases found : pattern <+: a :: w
          · have short := found.length_le
            rw [List.length_cons] at short
            rw [if_pos found, if_pos (within.mpr found), ih (Nat.sub_le_of_le_add short), List.append_assoc]
          · rw [if_neg found, if_neg fun more => found (within.mp more), ih (Nat.zero_le _), List.cons_append]

theorem every_cons (clean : c ∉ pattern) (some : pattern ≠ []) :
    every pattern replacement (c :: s) = c :: every pattern replacement s := by
  have other : ¬ pattern <+: c :: s := by
    obtain ⟨a, pattern, rfl⟩ := List.exists_cons_of_ne_nil some
    rw [List.cons_prefix_cons]
    rintro ⟨rfl, _⟩
    exact clean List.mem_cons_self
  rw [every, everyAfter, if_neg other]

/-- Words are treated one by one. -/
theorem every_spaced (clean : c ∉ pattern) (some : pattern ≠ []) (ws : List (List α)) :
    every pattern replacement (w ++ spaced c ws) =
      every pattern replacement w ++ spaced c (ws.map (every pattern replacement)) := by
  induction ws generalizing w with
  | nil => rw [spaced_nil, List.map_nil, spaced_nil, List.append_nil, List.append_nil]
  | cons x ws ih =>
      rw [spaced_cons, every, everyAfter_letter clean (Nat.zero_le _), ← every, every_cons clean some, ih, List.map_cons,
        spaced_cons]

theorem every_absent (absent : ¬ pattern <:+: w) : every pattern replacement w = w := by
  induction w with
  | nil => rfl
  | cons a w ih =>
      have here : ¬ pattern <+: a :: w := fun found => absent found.isInfix
      rw [every, everyAfter, if_neg here, ← every,
        ih fun found => absent (List.infix_cons found)]

theorem every_front (some : pattern ≠ []) : every pattern replacement (pattern ++ w) =
    replacement ++ every pattern replacement w := by
  have skip : ∀ u : List α, everyAfter pattern replacement u.length (u ++ w) = everyAfter pattern replacement 0 w := by
    intro u
    induction u with
    | nil => rfl
    | cons a u ih => exact ih
  obtain ⟨a, u, same⟩ := List.exists_cons_of_ne_nil some
  have here : pattern <+: a :: (u ++ w) := ⟨w, by rw [same, List.cons_append]⟩
  have length : pattern.length - 1 = u.length := by rw [same, List.length_cons, Nat.add_sub_cancel]
  have split : pattern ++ w = a :: (u ++ w) := by rw [same, List.cons_append]
  rw [split, every, everyAfter, if_pos here, length, skip]

end Substitution

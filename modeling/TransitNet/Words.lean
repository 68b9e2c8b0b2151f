import Mathlib.Data.List.TakeWhile

/-! Words of a text: maximal runs of letters that are not separators. `next`
cuts off the first word and the separator that ends it; `split` cuts a whole
text. Both skip leading separators, so runs of separators count as one. -/
namespace Words

variable {α : Type*} (sep : α → Bool)

/-- The first word, if there is one, and the text behind its closing separator. -/
def next (s : List α) : Option (List α) × List α :=
  match s.dropWhile sep with
  | [] => (none, [])
  | c :: t => (some (c :: t.takeWhile (!sep ·)), (t.dropWhile (!sep ·)).tail)

/-- `splitAfter read s`: the words of `s`, the first continuing the letters `read` so far. -/
def splitAfter : List α → List α → List (List α)
  | read, [] => if read.isEmpty then [] else [read]
  | read, c :: s =>
      if sep c then (if read.isEmpty then splitAfter [] s else read :: splitAfter [] s)
      else splitAfter (read ++ [c]) s

def split (s : List α) : List (List α) := splitAfter sep [] s

/-- A word: letters only, and at least one. -/
structure Word (w : List α) : Prop where
  nonempty : w ≠ []
  clean : ∀ c ∈ w, sep c = false

variable {sep}

instance (w : List α) : Decidable (Word sep w) :=
  decidable_of_iff ((!w.isEmpty && w.all (!sep ·)) = true) (by
    simp only [Bool.and_eq_true, Bool.not_eq_true', List.isEmpty_eq_false_iff, List.all_eq_true]
    exact ⟨fun h => ⟨h.1, h.2⟩, fun h => ⟨h.nonempty, h.clean⟩⟩)

/-- With fewer separators a word stays a word. -/
theorem Word.mono {sep' : α → Bool} {w : List α} (h : Word sep w)
    (fewer : ∀ {c}, sep c = false → sep' c = false) : Word sep' w :=
  ⟨h.nonempty, fun c member => fewer (h.clean c member)⟩

theorem Word.not_mem {w : List α} (h : Word sep w) {c : α} (stop : sep c = true) : c ∉ w := by
  intro member
  rw [h.clean c member] at stop
  cases stop

theorem next_sep {c : α} (h : sep c = true) (s : List α) : next sep (c :: s) = next sep s := by
  simp only [next, List.dropWhile_cons, h, if_true]

theorem takeWhile_letters {c : α} {w : List α} (letters : ∀ a ∈ w, sep a = false) (h : sep c = true) (s : List α) :
    (w ++ c :: s).takeWhile (!sep ·) = w := by
  have inside : ∀ a ∈ w, (!sep a) = true := by
    intro a member
    rw [letters a member, Bool.not_false]
  rw [List.takeWhile_append_of_pos inside, List.takeWhile_cons_of_neg (by rw [h]; exact Bool.false_ne_true),
    List.append_nil]

theorem dropWhile_letters {c : α} {w : List α} (letters : ∀ a ∈ w, sep a = false) (h : sep c = true) (s : List α) :
    (w ++ c :: s).dropWhile (!sep ·) = c :: s := by
  have inside : ∀ a ∈ w, (!sep a) = true := by
    intro a member
    rw [letters a member, Bool.not_false]
  rw [List.dropWhile_append_of_pos inside, List.dropWhile_cons_of_neg (by rw [h]; exact Bool.false_ne_true)]

theorem next_word {w : List α} (hw : Word sep w) {c : α} (h : sep c = true) (s : List α) :
    next sep (w ++ c :: s) = (some w, s) := by
  cases w with
  | nil => exact absurd rfl hw.nonempty
  | cons d w =>
      have first : sep d = false := hw.clean d List.mem_cons_self
      have letters : ∀ a ∈ w, sep a = false := fun a member => hw.clean a (List.mem_cons_of_mem d member)
      simp only [next, List.cons_append, List.dropWhile_cons, first, Bool.false_eq_true, if_false,
        takeWhile_letters letters h, dropWhile_letters letters h, List.tail_cons]

/-- What `next` cuts off is a word of the text. -/
theorem next_some {s w rest : List α} (cut : next sep s = (some w, rest)) :
    Word sep w ∧ (∀ c ∈ w, c ∈ s) ∧ ∀ c ∈ rest, c ∈ s := by
  have within : ∀ c ∈ s.dropWhile sep, c ∈ s := fun c member => (List.dropWhile_sublist sep).mem member
  cases start : s.dropWhile sep with
  | nil => simp only [next, start, Prod.mk.injEq, reduceCtorEq, false_and] at cut
  | cons c t =>
      simp only [next, start, Prod.mk.injEq, Option.some.injEq] at cut
      obtain ⟨rfl, rfl⟩ := cut
      rw [start] at within
      have letter : sep c = false := by
        have front := List.head?_dropWhile_not sep s
        rw [start, List.head?_cons] at front
        simpa using front
      refine ⟨⟨List.cons_ne_nil _ _, ?_⟩, ?_, ?_⟩
      · intro d member
        rcases List.mem_cons.mp member with rfl | later
        · exact letter
        · simpa using List.mem_takeWhile_imp later
      · intro d member
        rcases List.mem_cons.mp member with rfl | later
        · exact within d List.mem_cons_self
        · exact within d (List.mem_cons_of_mem c ((List.takeWhile_sublist _).mem later))
      · intro d member
        exact within d (List.mem_cons_of_mem c ((List.dropWhile_sublist _).mem (List.mem_of_mem_tail member)))

theorem splitAfter_letters {w : List α} (hw : ∀ c ∈ w, sep c = false) (read s : List α) :
    splitAfter sep read (w ++ s) = splitAfter sep (read ++ w) s := by
  induction w generalizing read with
  | nil => rw [List.nil_append, List.append_nil]
  | cons c w ih =>
      rw [List.cons_append, splitAfter, hw c List.mem_cons_self, if_neg Bool.false_ne_true,
        ih (fun a member => hw a (List.mem_cons_of_mem c member)), List.append_assoc,
        List.singleton_append]

theorem split_sep {c : α} (h : sep c = true) (s : List α) : split sep (c :: s) = split sep s := by
  simp only [split, splitAfter, h, if_true, List.isEmpty_nil]

theorem split_word {w : List α} (hw : Word sep w) {c : α} (h : sep c = true) (s : List α) :
    split sep (w ++ c :: s) = w :: split sep s := by
  rw [split, splitAfter_letters hw.clean, List.nil_append, splitAfter, if_pos h]
  cases w with
  | nil => exact absurd rfl hw.nonempty
  | cons d w => rfl

theorem split_last {w : List α} (hw : Word sep w) : split sep w = [w] := by
  have whole := splitAfter_letters hw.clean [] []
  rw [List.append_nil, List.nil_append] at whole
  rw [split, whole, splitAfter]
  cases w with
  | nil => exact absurd rfl hw.nonempty
  | cons d w => rfl

theorem next_pad {c : α} (h : sep c = true) (n : ℕ) (s : List α) :
    next sep (List.replicate n c ++ s) = next sep s := by
  induction n with
  | zero => rfl
  | succ n ih => rw [List.replicate_succ, List.cons_append, next_sep h, ih]

theorem split_pad {c : α} (h : sep c = true) (n : ℕ) (s : List α) :
    split sep (List.replicate n c ++ s) = split sep s := by
  induction n with
  | zero => rfl
  | succ n ih => rw [List.replicate_succ, List.cons_append, split_sep h, ih]

/-- Words laid out with a separator before each. -/
def spaced (c : α) (ws : List (List α)) : List α := ws.flatMap (c :: ·)

@[simp] theorem spaced_nil (c : α) : spaced c [] = [] := rfl

@[simp] theorem spaced_cons (c : α) (w : List α) (ws : List (List α)) :
    spaced c (w :: ws) = c :: (w ++ spaced c ws) := rfl

theorem spaced_append (c : α) (us ws : List (List α)) :
    spaced c (us ++ ws) = spaced c us ++ spaced c ws := List.flatMap_append

theorem split_spaced {c : α} (h : sep c = true) {ws : List (List α)} (clean : ∀ w ∈ ws, Word sep w) :
    split sep (spaced c ws) = ws := by
  induction ws with
  | nil => rfl
  | cons w ws ih =>
      have hw := clean w List.mem_cons_self
      have rest := ih fun u member => clean u (List.mem_cons_of_mem w member)
      rw [spaced_cons, split_sep h]
      cases ws with
      | nil => rw [spaced_nil, List.append_nil, split_last hw]
      | cons u us =>
          rw [spaced_cons, split_sep h] at rest
          rw [spaced_cons, split_word hw h, rest]

/-- The text behind the first `n` words and the separator that ends the last of them. -/
def skip (sep : α → Bool) : ℕ → List α → List α
  | 0, s => s
  | n + 1, s => skip sep n (next sep s).2

theorem next_none {s rest : List α} (cut : next sep s = (none, rest)) : split sep s = [] ∧ rest = [] := by
  induction s with
  | nil =>
      cases cut
      exact ⟨rfl, rfl⟩
  | cons c s ih =>
      by_cases separates : sep c = true
      · rw [next_sep separates] at cut
        rw [split_sep separates]
        exact ih cut
      · simp only [next, List.dropWhile_cons, Bool.eq_false_iff.mpr separates, Bool.false_eq_true,
          if_false, Prod.mk.injEq, reduceCtorEq, false_and] at cut

/-- The words of a text are its first word and the words behind it. -/
theorem split_next {s w rest : List α} (cut : next sep s = (some w, rest)) :
    split sep s = w :: split sep rest := by
  induction s with
  | nil => cases cut
  | cons c s ih =>
      by_cases separates : sep c = true
      · rw [next_sep separates] at cut
        rw [split_sep separates]
        exact ih cut
      · have letter : sep c = false := Bool.eq_false_iff.mpr separates
        have kept : ∀ d ∈ s.takeWhile (!sep ·), sep d = false := by
          intro d member
          simpa using List.mem_takeWhile_imp member
        have word : Word sep (c :: s.takeWhile (!sep ·)) := by
          refine ⟨List.cons_ne_nil _ _, fun d member => ?_⟩
          rcases List.mem_cons.mp member with rfl | later
          · exact letter
          · exact kept d later
        have whole := List.takeWhile_append_dropWhile (p := (!sep ·)) (l := s)
        simp only [next, List.dropWhile_cons, letter, Bool.false_eq_true, if_false, Prod.mk.injEq,
          Option.some.injEq] at cut
        obtain ⟨rfl, rfl⟩ := cut
        cases behind : s.dropWhile (!sep ·) with
        | nil =>
            rw [behind, List.append_nil] at whole
            rw [whole] at word ⊢
            exact split_last word
        | cons d rest =>
            have stop : sep d = true := by
              have front := List.head?_dropWhile_not (!sep ·) s
              rw [behind, List.head?_cons] at front
              simpa using front
            rw [behind] at whole
            have cut := split_word word stop rest
            rw [List.cons_append, whole] at cut
            exact cut

theorem skip_add (sep : α → Bool) (m n : ℕ) (s : List α) : skip sep (m + n) s = skip sep n (skip sep m s) := by
  induction m generalizing s with
  | zero => rw [Nat.zero_add, skip]
  | succ m ih => rw [Nat.succ_add, skip, ih, skip]

theorem split_skip (sep : α → Bool) (n : ℕ) (s : List α) :
    split sep (skip sep n s) = (split sep s).drop n := by
  induction n generalizing s with
  | zero => rfl
  | succ n ih =>
      rw [skip, ih]
      cases cut : next sep s with
      | mk word rest =>
          cases word with
          | none =>
              obtain ⟨nothing, rfl⟩ := next_none cut
              rw [nothing, List.drop_nil]
              exact List.drop_nil
          | some w => rw [split_next cut, List.drop_succ_cons]

theorem length_spaced (c : α) (ws : List (List α)) : ws.length ≤ (spaced c ws).length := by
  induction ws with
  | nil => exact Nat.le_refl 0
  | cons w ws ih =>
      simp only [spaced_cons, List.length_cons, List.length_append]
      omega

theorem mem_splitAfter {read s w : List α} (clean : ∀ c ∈ read, sep c = false)
    (member : w ∈ splitAfter sep read s) : Word sep w := by
  have whole : ∀ {r : List α}, (∀ c ∈ r, sep c = false) → ¬ r.isEmpty = true → Word sep r := by
    intro r letters some
    rw [List.isEmpty_iff] at some
    exact ⟨some, letters⟩
  induction s generalizing read with
  | nil =>
      rw [splitAfter] at member
      split at member
      · cases member
      · rename_i some
        rw [List.mem_singleton.mp member]
        exact whole clean some
  | cons c s ih =>
      have nothing : ∀ d ∈ ([] : List α), sep d = false := fun _ absent => absurd absent List.not_mem_nil
      rw [splitAfter] at member
      split at member
      · split at member
        · exact ih nothing member
        · rename_i some
          rcases List.mem_cons.mp member with rfl | later
          · exact whole clean some
          · exact ih nothing later
      · rename_i letter
        refine ih (fun d inside => ?_) member
        rcases List.mem_append.mp inside with old | new
        · exact clean d old
        · rw [List.mem_singleton.mp new]
          exact Bool.eq_false_iff.mpr letter

/-- `split` gives words. -/
theorem mem_split {s w : List α} (member : w ∈ split sep s) : Word sep w :=
  mem_splitAfter (fun _ absent => absurd absent List.not_mem_nil) member

theorem splitAfter_within {read s w : List α} (member : w ∈ splitAfter sep read s) :
    ∀ c ∈ w, c ∈ read ∨ c ∈ s := by
  induction s generalizing read with
  | nil =>
      rw [splitAfter] at member
      split at member
      · cases member
      · rw [List.mem_singleton.mp member]
        exact fun c inside => .inl inside
  | cons d s ih =>
      have behind : ∀ c, c ∈ ([] : List α) ∨ c ∈ s → c ∈ read ∨ c ∈ d :: s := by
        rintro c (absent | later)
        · exact absurd absent List.not_mem_nil
        · exact .inr (List.mem_cons_of_mem d later)
      rw [splitAfter] at member
      split at member
      · split at member
        · exact fun c inside => behind c (ih member c inside)
        · rcases List.mem_cons.mp member with rfl | later
          · exact fun c inside => .inl inside
          · exact fun c inside => behind c (ih later c inside)
      · intro c inside
        rcases ih member c inside with early | late
        · rcases List.mem_append.mp early with old | new
          · exact .inl old
          · exact .inr (List.mem_singleton.mp new ▸ List.mem_cons_self)
        · exact .inr (List.mem_cons_of_mem d late)

/-- The letters of the words are letters of the text. -/
theorem split_within {s w : List α} (member : w ∈ split sep s) : ∀ c ∈ w, c ∈ s := fun c inside =>
  (splitAfter_within member c inside).resolve_left List.not_mem_nil

/-- A text that begins with a letter: that letter begins the first word, and the rest is in the text. -/
theorem split_letter {c : α} (letter : sep c = false) (s : List α) :
    ∃ w rest, split sep (c :: s) = (c :: w) :: rest ∧ ∀ v ∈ w :: rest, ∀ d ∈ v, d ∈ s := by
  have front : (c :: s).dropWhile sep = c :: s :=
    List.dropWhile_cons_of_neg (by rw [letter]; exact Bool.false_ne_true)
  have cut : next sep (c :: s) = (some (c :: s.takeWhile (!sep ·)), (s.dropWhile (!sep ·)).tail) := by
    rw [next, front]
  refine ⟨_, _, split_next cut, fun v member d inside => ?_⟩
  rcases List.mem_cons.mp member with rfl | later
  · exact (List.takeWhile_prefix _).mem inside
  · exact (List.dropWhile_suffix _).mem (List.mem_of_mem_tail (split_within later d inside))

/-- A letter of a joined text. -/
theorem mem_intercalate {c d : α} {ws : List (List α)} :
    d ∈ [c].intercalate ws → d = c ∨ ∃ w ∈ ws, d ∈ w := by
  induction ws with
  | nil => exact fun inside => absurd inside List.not_mem_nil
  | cons w ws ih =>
      cases ws with
      | nil =>
          rw [List.intercalate_singleton]
          exact fun inside => .inr ⟨w, List.mem_cons_self, inside⟩
      | cons v ws =>
          rw [List.intercalate_cons_cons, List.append_assoc, List.mem_append, List.mem_append, List.mem_singleton]
          rintro (first | here | later)
          · exact .inr ⟨w, List.mem_cons_self, first⟩
          · exact .inl here
          · exact (ih later).imp_right fun ⟨u, member, letter⟩ => ⟨u, List.mem_cons_of_mem w member, letter⟩

theorem mem_intercalate_of_mem (c : α) {d : α} {w : List α} {ws : List (List α)} (member : w ∈ ws) (inside : d ∈ w) :
    d ∈ [c].intercalate ws := by
  induction ws with
  | nil => cases member
  | cons v ws ih =>
      cases ws with
      | nil =>
          rw [List.intercalate_singleton]
          exact List.mem_singleton.mp member ▸ inside
      | cons u ws =>
          rw [List.intercalate_cons_cons]
          rcases List.mem_cons.mp member with rfl | later
          · exact List.mem_append_left _ (List.mem_append_left _ inside)
          · exact List.mem_append_right _ (ih later)

theorem intercalate_concat_nil (c : α) {ws : List (List α)} (some : ws ≠ []) :
    [c].intercalate (ws ++ [[]]) = [c].intercalate ws ++ [c] := by
  induction ws with
  | nil => exact absurd rfl some
  | cons w ws ih =>
      cases ws with
      | nil => simp
      | cons v ws =>
          rw [List.cons_append, List.cons_append, List.intercalate_cons_cons, List.intercalate_cons_cons,
            ← List.cons_append, ih (List.cons_ne_nil v ws)]
          simp only [List.append_assoc]

/-- A text is cut in one way at the last place where a character stands. -/
theorem cut_last {c : α} {a a' b b' : List α} (hb : c ∉ b) (hb' : c ∉ b') (same : a ++ c :: b = a' ++ c :: b') :
    a = a' ∧ b = b' := by
  obtain ⟨front, rfl, rest⟩ | ⟨front, rfl, rest⟩ := List.append_eq_append_iff.mp same
  · cases front with
    | nil => exact ⟨(List.append_nil a).symm, List.tail_eq_of_cons_eq rest⟩
    | cons d front =>
        rw [List.cons_append, List.cons.injEq] at rest
        exact absurd (rest.2 ▸ List.mem_append_right front List.mem_cons_self) hb
  · cases front with
    | nil => exact ⟨List.append_nil a', (List.tail_eq_of_cons_eq rest).symm⟩
    | cons d front =>
        rw [List.cons_append, List.cons.injEq] at rest
        exact absurd (rest.2 ▸ List.mem_append_right front List.mem_cons_self) hb'

/-- A text is cut in one way at the first place where a separator stands. -/
theorem cut_first {c c' : α} {w w' s s' : List α} (hw : ∀ a ∈ w, sep a = false) (hw' : ∀ a ∈ w', sep a = false)
    (hc : sep c = true) (hc' : sep c' = true) (same : w ++ c :: s = w' ++ c' :: s') :
    w = w' ∧ c = c' ∧ s = s' := by
  have front := congrArg (List.takeWhile (!sep ·)) same
  rw [takeWhile_letters hw hc, takeWhile_letters hw' hc'] at front
  subst front
  cases List.append_cancel_left same
  exact ⟨rfl, rfl, rfl⟩

end Words

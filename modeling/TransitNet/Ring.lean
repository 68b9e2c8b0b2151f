import Mathlib.Data.Finset.Card

/-! Rings: a new item goes to the slot that was written longest ago. A ring that is only
written when the item is missing holds the last items that were missed. -/
namespace Ring

variable {α : Type*}

/-- The items from the newest to the oldest; `next` is the slot that is written next. -/
def recent (items : List α) (next : ℕ) : List α :=
  (items.take next).reverse ++ (items.drop next).reverse

theorem recent_perm (items : List α) (next : ℕ) : (recent items next).Perm items := by
  have halves := (List.reverse_perm (items.take next)).append (List.reverse_perm (items.drop next))
  rwa [List.take_append_drop] at halves

theorem mem_recent {items : List α} {next : ℕ} {x : α} : x ∈ recent items next ↔ x ∈ items :=
  (recent_perm items next).mem_iff

/-- Writing a slot and moving on pushes the oldest item out. -/
theorem recent_push {items : List α} {next : ℕ} (room : next < items.length) (x : α) :
    recent (items.set next x) ((next + 1) % items.length) = x :: (recent items next).dropLast := by
  obtain ⟨front, y, back, rfl, rfl⟩ : ∃ front y back, items = front ++ y :: back ∧ front.length = next :=
    ⟨items.take next, items[next], items.drop (next + 1), by rw [List.getElem_cons_drop,
      List.take_append_drop], List.length_take_of_le (Nat.le_of_lt room)⟩
  have written : (front ++ y :: back).set front.length x = front ++ x :: back := by
    rw [List.set_append_right _ _ (Nat.le_refl _), Nat.sub_self, List.set_cons_zero]
  have old : (recent (front ++ y :: back) front.length).dropLast = front.reverse ++ back.reverse := by
    rw [recent, List.take_left, List.drop_left, List.reverse_cons, ← List.append_assoc, List.dropLast_concat]
  rw [written, old, recent]
  cases back with
  | nil =>
      rw [List.length_append, List.length_singleton, Nat.mod_self]
      simp
  | cons z back =>
      have further : (front.length + 1) % (front ++ y :: z :: back).length = (front ++ [x]).length := by
        rw [Nat.mod_eq_of_lt (by simp), List.length_append, List.length_singleton]
      have shape : front ++ x :: z :: back = front ++ [x] ++ z :: back := by
        rw [List.append_assoc, List.singleton_append]
      rw [further, shape, List.take_left, List.drop_left]
      simp

variable [DecidableEq α]

/-- The items missed so far, the newest first: an item is missed if it is not among the last `n`. -/
def missed (n : ℕ) (before : List α) (x : α) : List α :=
  if x ∈ before.take n then before else x :: before

theorem take_missed {n : ℕ} (pos : 0 < n) {before : List α} (full : n ≤ before.length) (x : α) :
    (missed n before x).take n =
      if x ∈ before.take n then before.take n else x :: (before.take n).dropLast := by
  rw [missed]
  split
  · rfl
  · obtain ⟨m, rfl⟩ := Nat.exists_eq_succ_of_ne_zero (Nat.ne_of_gt pos)
    rw [Nat.succ_eq_add_one, List.take_succ_cons, List.dropLast_eq_take, List.take_take,
      List.length_take_of_le full, Nat.succ_sub_one, Nat.min_eq_left (Nat.le_succ m)]

/-- No item is missed twice among the last. -/
theorem nodup_missed {n : ℕ} {before : List α} (once : (before.take n).Nodup) (x : α) :
    ((missed n before x).take n).Nodup := by
  rw [missed]
  split
  · exact once
  · rename_i absent
    cases n with
    | zero => exact List.nodup_nil
    | succ n =>
        have fewer : (before.take n).Sublist (before.take (n + 1)) :=
          (List.take_prefix_take_left (Nat.le_succ n)).sublist
        rw [List.take_succ_cons, List.nodup_cons]
        exact ⟨fun member => absent (fewer.mem member), once.sublist fewer⟩

theorem length_missed {n : ℕ} {before : List α} (full : n ≤ before.length) (x : α) :
    n ≤ (missed n before x).length := by
  rw [missed]
  split
  · exact full
  · exact Nat.le_succ_of_le full

theorem length_le_of_few {n : ℕ} {front xs : List α} (few : xs.toFinset.card ≤ n) (once : front.Nodup)
    (same : ∀ x, x ∈ front ↔ x ∈ xs) : front.length ≤ n := by
  rw [← List.toFinset_card_of_nodup once]
  refine (Finset.card_le_card fun y member => ?_).trans few
  rw [List.mem_toFinset] at member ⊢
  exact (same y).mp member

/-- Where no more than `n` different items come, each is missed once. -/
theorem missed_few {n : ℕ} {blank : α} {xs : List α} (few : xs.toFinset.card ≤ n) (named : blank ∉ xs) :
    ∃ front, xs.foldl (missed n) (List.replicate n blank) = front ++ List.replicate n blank ∧
      front.Nodup ∧ ∀ x, x ∈ front ↔ x ∈ xs := by
  induction xs using List.reverseRecOn with
  | nil => exact ⟨[], rfl, List.nodup_nil, fun x => Iff.rfl⟩
  | append_singleton xs x ih =>
      have fewer : xs.toFinset.card ≤ n := by
        refine (Finset.card_le_card fun y member => ?_).trans few
        rw [List.mem_toFinset] at member ⊢
        exact List.mem_append_left [x] member
      obtain ⟨front, whole, once, same⟩ := ih fewer fun member => named (List.mem_append_left [x] member)
      have size := length_le_of_few fewer once same
      have other : x ≠ blank := fun blank => named (blank ▸ List.mem_append_right xs List.mem_cons_self)
      have known : x ∈ (front ++ List.replicate n blank).take n ↔ x ∈ front := by
        rw [List.take_append, List.take_of_length_le size, List.mem_append, or_iff_left]
        exact fun padded => other (List.eq_of_mem_replicate (List.mem_of_mem_take padded))
      rw [List.foldl_append, List.foldl_cons, List.foldl_nil, whole, missed]
      split
      · rename_i again
        refine ⟨front, rfl, once, fun y => ?_⟩
        rw [List.mem_append, same, List.mem_singleton]
        refine (or_iff_left_of_imp ?_).symm
        rintro rfl
        exact (same y).mp (known.mp again)
      · rename_i first
        refine ⟨x :: front, rfl, List.nodup_cons.mpr ⟨fun member => first (known.mpr member), once⟩, fun y => ?_⟩
        rw [List.mem_cons, List.mem_append, same, List.mem_singleton, or_comm]

/-- Then all of them are among the last `n`. -/
theorem mem_missed_few {n : ℕ} {blank : α} {xs : List α} (few : xs.toFinset.card ≤ n) (named : blank ∉ xs)
    {x : α} (member : x ∈ xs) : x ∈ (xs.foldl (missed n) (List.replicate n blank)).take n := by
  obtain ⟨front, whole, once, same⟩ := missed_few few named
  rw [whole, List.take_append, List.take_of_length_le (length_le_of_few few once same)]
  exact List.mem_append_left _ ((same x).mpr member)

end Ring

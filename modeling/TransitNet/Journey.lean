import Mathlib.Data.List.Basic
import Mathlib.Order.Defs.LinearOrder

/-! Journeys. A traveller goes along a path leg by leg; the time of arrival
decides what the next leg is. -/
namespace Journey

variable {V T R : Type*}

/-- `leg x y t`: when and how a traveller arrives at `y` who is at `x` at `t`. The
list has one entry for each leg of the path. -/
def ridden (leg : V → V → T → T × R) : T → List V → List (T × R)
  | t, x :: y :: rest => leg x y t :: ridden leg (leg x y t).1 (y :: rest)
  | _, [_] => []
  | _, [] => []

/-- The time at the first station, then the arrivals. -/
def times (leg : V → V → T → T × R) (t : T) (path : List V) : List T :=
  t :: (ridden leg t path).map Prod.fst

variable {leg : V → V → T → T × R}

theorem length_ridden (t : T) (path : List V) : (ridden leg t path).length = path.length - 1 := by
  induction path generalizing t with
  | nil => rfl
  | cons x path ih =>
      cases path with
      | nil => rfl
      | cons y rest =>
          rw [ridden, List.length_cons, ih]
          rfl

/-- Each leg is the one that the arrival before it gives. -/
theorem ridden_get {path : List V} {k : ℕ} {t s : T} {x y : V} (start : path[k]? = some x)
    (onward : path[k + 1]? = some y) (now : (times leg t path)[k]? = some s) :
    (ridden leg t path)[k]? = some (leg x y s) := by
  induction path generalizing t k with
  | nil => cases start
  | cons a path ih =>
      cases path with
      | nil => cases onward
      | cons b rest =>
          cases k with
          | zero =>
              cases start
              cases onward
              cases now
              rfl
          | succ k =>
              rw [ridden, List.getElem?_cons_succ]
              exact ih start onward now

theorem mem_ridden {t : T} {path : List V} {r : T × R} (member : r ∈ ridden leg t path) :
    ∃ x y s, r = leg x y s := by
  induction path generalizing t with
  | nil => cases member
  | cons x path ih =>
      cases path with
      | nil => cases member
      | cons y rest =>
          rcases List.mem_cons.mp member with rfl | later
          · exact ⟨x, y, t, rfl⟩
          · exact ih later

/-- The time at the end of a path. -/
def arrival (leg : V → V → T → T × R) : T → List V → T
  | t, x :: y :: rest => arrival leg (leg x y t).1 (y :: rest)
  | t, _ => t

theorem times_getLast (t : T) (path : List V) : (times leg t path).getLast? = some (arrival leg t path) := by
  induction path generalizing t with
  | nil => rfl
  | cons x path ih =>
      cases path with
      | nil => rfl
      | cons y rest => exact ih (leg x y t).1

/-- What each leg keeps between two travellers, the journey keeps. -/
theorem arrival_related {before : T → T → Prop} {path : List V}
    (kept : ∀ x ∈ path, ∀ y t t', before t t' → before (leg x y t).1 (leg x y t').1) {t t' : T}
    (h : before t t') : before (arrival leg t path) (arrival leg t' path) := by
  induction path generalizing t t' with
  | nil => exact h
  | cons x path ih =>
      cases path with
      | nil => exact h
      | cons y rest =>
          have first := kept x List.mem_cons_self y t t' h
          exact ih (fun z member => kept z (List.mem_cons_of_mem x member)) first

section Rides
variable {M : Type*} [LE M]

/-- A ride along a path, from one time to another. `boards x y d a`: something leaves `x` at `d`, and is at
`y` at `a`. -/
inductive Ride (value : T → M) (boards : V → V → T → T → Prop) : T → List V → T → Prop
  | arrived (t : T) (x : V) : Ride value boards t [x] t
  | board {x y : V} {rest : List V} {t d a a' : T} : boards x y d a → value t ≤ value d →
      Ride value boards a (y :: rest) a' → Ride value boards t (x :: y :: rest) a'

variable {value : T → M} {boards : V → V → T → T → Prop}

/-- A ride ends when it starts, or with something boarded. -/
theorem Ride.ends {t a : T} {path : List V} (ride : Ride value boards t path a) :
    a = t ∨ ∃ x y d, boards x y d a := by
  induction ride with
  | arrived t x => exact .inl rfl
  | board boards late _ ih =>
      right
      rcases ih with rfl | later
      · exact ⟨_, _, _, boards⟩
      · exact later

/-- Only the values of good times matter. -/
theorem Ride.congr {value' : T → M} {good : T → Prop} (told : ∀ x y d a, boards x y d a → good d ∧ good a)
    (same : ∀ t, good t → value t = value' t) {t a : T} {path : List V} (ride : Ride value boards t path a)
    (start : good t) : Ride value' boards t path a := by
  induction ride with
  | arrived t x => exact .arrived t x
  | board boards late _ ih =>
      obtain ⟨departs, arrives⟩ := told _ _ _ _ boards
      rw [same _ start, same _ departs] at late
      exact .board boards late (ih arrives)

/-- A journey is a ride, or it is lost on the way and stays so. -/
theorem arrival_ride {lost : T} (legs : ∀ x y t, (leg x y t).1 = lost ∨
      ∃ d, boards x y d (leg x y t).1 ∧ value t ≤ value d)
    (stays : ∀ x y, (leg x y lost).1 = lost) (t : T) (x : V) (path : List V) :
    arrival leg t (x :: path) = lost ∨ Ride value boards t (x :: path) (arrival leg t (x :: path)) := by
  have never : ∀ path : List V, arrival leg lost path = lost := by
    intro path
    induction path with
    | nil => rfl
    | cons x path ih =>
        cases path with
        | nil => rfl
        | cons y rest =>
            rw [arrival, stays]
            exact ih
  induction path generalizing t x with
  | nil => exact .inr (.arrived t x)
  | cons y rest ih =>
      rw [arrival]
      rcases legs x y t with missed | ⟨d, boards, late⟩
      · left
        rw [missed]
        exact never (y :: rest)
      · exact (ih (leg x y t).1 y).imp_right (.board boards late)

end Rides

/-- Where each leg is as early as whatever can be boarded, the journey is as early as any ride. -/
theorem arrival_le {M : Type*} [Preorder M] {value : T → M} {boards : V → V → T → T → Prop}
    (soon : ∀ x y t d a, boards x y d a → value t ≤ value d → value (leg x y t).1 ≤ value a)
    {path : List V} {t t' a : T} (ride : Ride value boards t' path a) (earlier : value t ≤ value t') :
    value (arrival leg t path) ≤ value a := by
  induction ride generalizing t with
  | arrived t' x => exact earlier
  | board boards late _ ih => exact ih (soon _ _ _ _ _ boards (le_trans earlier late))

/-- Slots that are filled from the front: the first `k` hold their final value. -/
def filling {α : Type*} (k : ℕ) (final initial : List α) : List α := final.take k ++ initial.drop k

theorem filling_zero {α : Type*} (final initial : List α) : filling 0 final initial = initial := by
  rw [filling, List.take_zero, List.drop_zero, List.nil_append]

theorem length_filling {α : Type*} (k : ℕ) {final initial : List α}
    (same : final.length = initial.length) : (filling k final initial).length = initial.length := by
  rw [filling, List.length_append, List.length_take, List.length_drop]
  omega

theorem filling_old {α : Type*} {k i : ℕ} {final initial : List α} (old : i < k)
    (bound : i < final.length) : (filling k final initial)[i]? = final[i]? := by
  rw [filling, List.getElem?_append_left (by rw [List.length_take]; omega), List.getElem?_take,
    if_pos old]

/-- Filling the next slot. -/
theorem filling_set {α : Type*} {k : ℕ} {final : List α} (initial : List α) {a : α}
    (same : final.length = initial.length) (next : final[k]? = some a) :
    (filling k final initial).set k a = filling (k + 1) final initial := by
  have bound := (List.getElem?_eq_some_iff.mp next).1
  have size : (final.take k).length = k := by rw [List.length_take]; omega
  rw [filling, filling, List.set_append_right k a (by omega), size, Nat.sub_self,
    List.drop_eq_getElem_cons (show k < initial.length by omega), List.set_cons_zero,
    List.take_add_one, next, Option.toList_some, List.append_assoc, List.singleton_append]

theorem filling_all {α : Type*} (final initial : List α) (same : final.length = initial.length) :
    filling final.length final initial = final := by
  rw [filling, List.take_length, same, List.drop_length, List.append_nil]

theorem mem_filling {α : Type*} {k : ℕ} {final initial : List α} {a : α}
    (member : a ∈ filling k final initial) : a ∈ final ∨ a ∈ initial := by
  rcases List.mem_append.mp member with old | rest
  · exact .inl (List.mem_of_mem_take old)
  · exact .inr (List.mem_of_mem_drop rest)

end Journey

import Mathlib.Algebra.Order.Floor.Semiring
import Mathlib.Data.Int.Log
import Mathlib.Data.Rat.Floor
import Mathlib.Tactic.Linarith
import Mathlib.Tactic.Positivity
import Mathlib.Tactic.FieldSimp
import Mathlib.Tactic.Ring

/-! Arithmetic in which every result is rounded to 53 significant bits. The numbers are exact, and their
exponents have no bounds. -/
namespace Rounding

/-- To the nearest integer, from between two to the even one. -/
def roundEven (q : ℚ) : ℤ :=
  let r := q - ⌊q⌋
  if r < 1 / 2 then ⌊q⌋ else if 1 / 2 < r then ⌊q⌋ + 1 else if 2 ∣ ⌊q⌋ then ⌊q⌋ else ⌊q⌋ + 1

/-- The distance of the numbers of 53 bits that are as large as `q`. -/
def ulp (q : ℚ) : ℚ := 2 ^ (Int.log 2 |q| - 52)

def double (q : ℚ) : ℚ := roundEven (q / ulp q) * ulp q

theorem abs_roundEven_sub_le (q : ℚ) : |(roundEven q : ℚ) - q| ≤ 1 / 2 := by
  have low := Int.floor_le q
  have high := Int.lt_floor_add_one q
  unfold roundEven
  dsimp only
  split
  · rw [abs_le]
    constructor <;> linarith
  · split
    · push_cast
      rw [abs_le]
      constructor <;> linarith
    · split
      · rw [abs_le]
        constructor <;> linarith
      · push_cast
        rw [abs_le]
        constructor <;> linarith

theorem ulp_pos (q : ℚ) : 0 < ulp q := zpow_pos (by norm_num) _

theorem ulp_le {q : ℚ} (some : q ≠ 0) : ulp q ≤ |q| / 2 ^ 52 := by
  have log := Int.zpow_log_le_self (b := 2) (by norm_num) (abs_pos.mpr some)
  have split : ulp q = 2 ^ Int.log 2 |q| / 2 ^ 52 := by
    rw [ulp, zpow_sub₀ (by norm_num)]
    norm_num
  rw [split]
  exact div_le_div_of_nonneg_right (by exact_mod_cast log) (by positivity)

/-- No result is off by more than its 53rd bit. -/
theorem abs_double_sub_le (q : ℚ) : |double q - q| ≤ |q| / 2 ^ 53 := by
  by_cases some : q = 0
  · subst some
    have zero : double 0 = 0 := by simp [double, roundEven]
    rw [zero, sub_zero, abs_zero, zero_div]
  · have pos := ulp_pos q
    have scaled : double q - q = (roundEven (q / ulp q) - q / ulp q) * ulp q := by
      rw [double, sub_mul, div_mul_cancel₀ _ pos.ne']
    rw [scaled, abs_mul, abs_of_pos pos]
    calc |(roundEven (q / ulp q) : ℚ) - q / ulp q| * ulp q
        ≤ 1 / 2 * ulp q := mul_le_mul_of_nonneg_right (abs_roundEven_sub_le _) pos.le
      _ ≤ 1 / 2 * (|q| / 2 ^ 52) := mul_le_mul_of_nonneg_left (ulp_le some) (by norm_num)
      _ = |q| / 2 ^ 53 := by ring

/-! ### Integers are exact -/

theorem roundEven_intCast (k : ℤ) : roundEven (k : ℚ) = k := by
  have zero : (k : ℚ) - ⌊(k : ℚ)⌋ = 0 := by rw [Int.floor_intCast, sub_self]
  unfold roundEven
  dsimp only
  rw [zero, if_pos (by norm_num), Int.floor_intCast]

theorem double_natCast {k : ℕ} (small : k < 2 ^ 53) : double k = k := by
  have log : Int.log 2 |(k : ℚ)| = Nat.log 2 k := by rw [Nat.abs_cast, Int.log_natCast]
  have bound : Nat.log 2 k ≤ 52 := by
    rcases Nat.eq_zero_or_pos k with rfl | pos
    · rw [Nat.log_zero_right]
      exact Nat.zero_le 52
    · exact Nat.lt_succ_iff.mp (Nat.log_lt_of_lt_pow pos.ne' small)
  obtain ⟨d, whole⟩ := Nat.exists_eq_add_of_le bound
  have unit : ulp (k : ℚ) = (2 ^ d)⁻¹ := by
    have down : (Nat.log 2 k : ℤ) - 52 = -(d : ℤ) := by omega
    rw [ulp, log, down, zpow_neg, zpow_natCast]
  have shifted : (k : ℚ) * 2 ^ d = ((k * 2 ^ d : ℕ) : ℤ) := by push_cast; rfl
  rw [double, unit, div_inv_eq_mul, shifted, roundEven_intCast, ← shifted, mul_inv_cancel_right₀ (by positivity)]

/-! ### How far off a whole computation is -/

/-- The first number stands for the second. -/
def Near (ε a b : ℚ) : Prop := |a - b| ≤ ε

namespace Near
variable {ε δ a b c d : ℚ}

theorem exact (a : ℚ) : Near 0 a a := by
  rw [Near, sub_self, abs_zero]

theorem mono (near : Near ε a b) (le : ε ≤ δ) : Near δ a b := le_trans near le

theorem add (near : Near ε a b) (near' : Near δ c d) : Near (ε + δ) (a + c) (b + d) := by
  have apart : a + c - (b + d) = (a - b) + (c - d) := by ring
  rw [Near, apart]
  exact (abs_add_le _ _).trans (add_le_add near near')

theorem neg (near : Near ε a b) : Near ε (-a) (-b) := by
  have apart : -a - -b = -(a - b) := by ring
  rwa [Near, apart, abs_neg]

theorem sub (near : Near ε a b) (near' : Near δ c d) : Near (ε + δ) (a - c) (b - d) := by
  rw [sub_eq_add_neg, sub_eq_add_neg]
  exact near.add near'.neg

theorem abs (near : Near ε a b) : Near ε |a| |b| := (abs_abs_sub_abs_le a b).trans near

theorem mul (near : Near ε a b) {k : ℚ} (nonneg : 0 ≤ k) : Near (ε * k) (a * k) (b * k) := by
  rw [Near, ← sub_mul, abs_mul, abs_of_nonneg nonneg]
  exact mul_le_mul_of_nonneg_right near nonneg

/-- Rounding takes it off by one bit more. -/
theorem double (near : Near ε a b) {n : ℕ} (small : |b| + ε ≤ 2 ^ n) :
    Near (ε + 2 ^ n / 2 ^ 53) (Rounding.double a) b := by
  have size : |a| ≤ 2 ^ n := by
    have apart := abs_sub_abs_le_abs_sub a b
    have off : |a - b| ≤ ε := near
    linarith
  have rounded := abs_double_sub_le a
  have apart : Rounding.double a - b = (Rounding.double a - a) + (a - b) := by ring
  rw [Near, apart]
  refine (abs_add_le _ _).trans ?_
  have bit : |a| / 2 ^ 53 ≤ 2 ^ n / 2 ^ 53 := div_le_div_of_nonneg_right size (by positivity)
  have off : |a - b| ≤ ε := near
  linarith

theorem roundEven {k : ℤ} (near : Near ε a k) (close : ε < 1 / 2) : Rounding.roundEven a = k := by
  have half := abs_le.mp (abs_roundEven_sub_le a)
  have off := abs_le.mp near
  have low : (k : ℚ) - 1 < Rounding.roundEven a := by linarith
  have high : (Rounding.roundEven a : ℚ) < k + 1 := by linarith
  have low' : k - 1 < Rounding.roundEven a := by exact_mod_cast low
  have high' : Rounding.roundEven a < k + 1 := by exact_mod_cast high
  omega

/-- What is cut off behind the point may be nearly one. -/
theorem floor {k : ℕ} (near : Near ε a k) (close : ε < 1) : k - 1 ≤ ⌊a⌋₊ ∧ ⌊a⌋₊ ≤ k := by
  have off := abs_le.mp near
  constructor
  · cases k with
    | zero => exact Nat.zero_le _
    | succ k =>
        refine Nat.le_floor ?_
        push_cast at off ⊢
        linarith
  · have high : a < (k : ℚ) + 1 := by linarith
    exact Nat.lt_succ_iff.mp (Nat.floor_lt' (Nat.succ_ne_zero k) |>.mpr (by push_cast; exact high))

end Near
end Rounding

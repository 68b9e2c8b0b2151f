import TransitNet.Generator
import TransitNet.Rounding

/-! The buses that the generator of networks draws for a station, from the morning on, each for some
neighbour. How long they take is computed with doubles. -/
namespace TransitNet
namespace Generator
open Rounding

variable {n : ℕ}

def RANDOM_LAT (r : ℕ) : ℚ := double (-double (319 / 10) + double ((r % 40 : ℕ) / 100))

def RANDOM_LON (r : ℕ) : ℚ := double (double (1158 / 10) + double ((r % 40 : ℕ) / 100))

/-- The arrays `x` and `y`. -/
structure Places (n : ℕ) where
  x : Fin n → ℚ
  y : Fin n → ℚ

def places (rand : ℕ → ℕ) (t : ℕ) : Places n where
  x i := RANDOM_LON (rand (t + 2 * i))
  y i := RANDOM_LAT (rand (t + 2 * i + 1))

def distance (p : Places n) (i j : Fin n) : ℚ :=
  double (double (|double (p.x i - p.x j)| + |double (p.y i - p.y j)|) * 100)

/-- One line of a timetable, before it is printed. -/
structure Bus (n : ℕ) where
  j : Fin n
  departs : ℕ
  arrives : ℕ

/-- What the two generators have different numbers for. The first bus leaves once for each neighbour after
the opening. -/
structure Hours where
  opening : ℕ
  tlast : ℕ
  early : opening + 26 * 26 < tlast
  day : tlast ≤ 22 * 60

/-- In buildrandomtimetables. -/
def fromSix : Hours := ⟨6 * 60, 21 * 60, by decide, by decide⟩

/-- In buildlinetimetables. -/
def fromFive : Hours := ⟨5 * 60, 22 * 60, by decide, by decide⟩

/-- The sum is a double, of which `arrives` keeps what stands before the point. -/
def arrival (p : Places n) (i j : Fin n) (departs skew : ℕ) : ℕ :=
  ⌊double (double (departs + distance p i j) + skew)⌋₊

section Loops
variable [NeZero n] (rand : ℕ → ℕ) (tlast : ℕ) (adj : Adjacency n) (p : Places n)

/-- The loop for one station, if it ends within so many passes: what it prints, and the place in the
sequence. Between two buses pass `tdelta` minutes and some more. -/
def buses (i : Fin n) (tdelta : ℕ) : ℕ → ℕ → ℕ → Option (List (Bus n) × ℕ)
  | 0, t, departs => if departs < tlast then none else some ([], t)
  | passes + 1, t, departs =>
      if departs < tlast then
        let j := Fin.ofNat n (rand t)
        if adj i j then
          let skew := rand (t + 1) % 3
          let bus : Bus n := ⟨j, departs, arrival p i j departs skew⟩
          let departs := departs + (tdelta + skew + rand (t + 2) % 5 + 2)
          (buses i tdelta passes (t + 3) departs).map fun r => (bus :: r.1, r.2)
        else buses i tdelta passes (t + 1) departs
      else some ([], t)

/-- `nn`. -/
def neighbours (i : Fin n) : ℕ := (List.finRange n).countP fun j => adj i j

end Loops

section Stations
variable [NeZero n] (rand : ℕ → ℕ) (hours : Hours) (adj : Adjacency n) (p : Places n)

/-- The timetable of one station. A station without neighbours is a division by zero. -/
def build_timetable (passes t : ℕ) (i : Fin n) : Option (List (Bus n) × ℕ) :=
  let nn := neighbours adj i
  if nn = 0 then none else buses rand hours.tlast adj p i (60 / nn) passes t (hours.opening + nn)

/-- One station after the other. -/
def build_timetables (passes : ℕ) : List (Fin n) → ℕ → Option (List (Fin n × List (Bus n)) × ℕ)
  | [], t => some ([], t)
  | i :: is, t =>
      match build_timetable rand hours adj p passes t i with
      | none => none
      | some (timetable, t) => (build_timetables passes is t).map fun r => ((i, timetable) :: r.1, r.2)

end Stations

/-! ### How far it is -/

def apart (a b : ℕ) : ℕ := (((a % 40 : ℕ) : ℤ) - (b % 40 : ℕ)).natAbs

/-- Hundredths of a degree between two stations, along the one axis and the other. -/
def hundredths (rand : ℕ → ℕ) (t : ℕ) (i j : Fin n) : ℕ :=
  apart (rand (t + 2 * i)) (rand (t + 2 * j)) + apart (rand (t + 2 * i + 1)) (rand (t + 2 * j + 1))

theorem rand_mod_40 (r : ℕ) : (0 : ℚ) ≤ (r % 40 : ℕ) ∧ ((r % 40 : ℕ) : ℚ) ≤ 39 :=
  ⟨Nat.cast_nonneg _, by exact_mod_cast Nat.le_of_lt_succ (Nat.mod_lt r (by norm_num))⟩

theorem near_RANDOM_LON (r : ℕ) : Near (1 / 10 ^ 9) (RANDOM_LON r) (1158 / 10 + (r % 40 : ℕ) / 100) := by
  obtain ⟨low, high⟩ := rand_mod_40 r
  have first := (Near.exact (1158 / 10)).double (n := 7) (by norm_num)
  have second := (Near.exact ((r % 40 : ℕ) / 100 : ℚ)).double (n := 7)
    (by rw [abs_of_nonneg (by positivity)]; linarith)
  refine ((first.add second).double (n := 7) ?_).mono (by norm_num)
  rw [abs_of_nonneg (by positivity)]
  norm_num
  linarith

theorem near_RANDOM_LAT (r : ℕ) : Near (1 / 10 ^ 9) (RANDOM_LAT r) (-(319 / 10) + (r % 40 : ℕ) / 100) := by
  obtain ⟨low, high⟩ := rand_mod_40 r
  have first := ((Near.exact (319 / 10)).double (n := 7) (by norm_num)).neg
  have second := (Near.exact ((r % 40 : ℕ) / 100 : ℚ)).double (n := 7)
    (by rw [abs_of_nonneg (by positivity)]; linarith)
  refine ((first.add second).double (n := 7) ?_).mono (by norm_num)
  rw [abs_of_neg (by linarith)]
  norm_num
  linarith

section Distance
variable (rand : ℕ → ℕ) (t : ℕ) (i j : Fin n)

theorem hundredths_le : hundredths rand t i j ≤ 78 := by
  unfold hundredths apart
  omega

/-- The difference of two coordinates that have been drawn. -/
theorem near_apart {x x' c : ℚ} {a b : ℕ} (near : Near (1 / 10 ^ 9) x (c + (a % 40 : ℕ) / 100))
    (near' : Near (1 / 10 ^ 9) x' (c + (b % 40 : ℕ) / 100)) :
    Near (1 / 10 ^ 8) |double (x - x')| (apart a b / 100) := by
  have exact : (apart a b / 100 : ℚ) = |c + (a % 40 : ℕ) / 100 - (c + (b % 40 : ℕ) / 100)| := by
    rw [apart, add_sub_add_left_eq_sub, ← sub_div, abs_div, abs_of_pos (by norm_num : (0 : ℚ) < 100), Nat.cast_natAbs]
    push_cast
    rfl
  obtain ⟨low, high⟩ := rand_mod_40 a
  obtain ⟨low', high'⟩ := rand_mod_40 b
  rw [exact]
  refine (((near.sub near').double (n := 7) ?_).mono (by norm_num)).abs
  rw [add_sub_add_left_eq_sub, ← sub_div]
  have small : |((a % 40 : ℕ) - (b % 40 : ℕ) : ℚ) / 100| ≤ 39 / 100 := by
    rw [abs_le]
    constructor <;> linarith
  norm_num at small ⊢
  linarith

theorem near_distance : Near (1 / 10 ^ 5) (distance (places rand t) i j) (hundredths rand t i j) := by
  have east := near_apart (near_RANDOM_LON (rand (t + 2 * i))) (near_RANDOM_LON (rand (t + 2 * j)))
  have north := near_apart (near_RANDOM_LAT (rand (t + 2 * i + 1))) (near_RANDOM_LAT (rand (t + 2 * j + 1)))
  have bound : (hundredths rand t i j : ℚ) ≤ 78 := by exact_mod_cast hundredths_le rand t i j
  have nonneg : (0 : ℚ) ≤ hundredths rand t i j := Nat.cast_nonneg _
  have whole : (hundredths rand t i j / 100 : ℚ) = apart (rand (t + 2 * i)) (rand (t + 2 * j)) / 100 +
      apart (rand (t + 2 * i + 1)) (rand (t + 2 * j + 1)) / 100 := by rw [hundredths, Nat.cast_add, add_div]
  have sum := (east.add north).double (n := 7) (by
    rw [← whole, abs_of_nonneg (by positivity)]
    norm_num
    linarith)
  rw [← whole] at sum
  have scaled := sum.mul (k := 100) (by norm_num)
  rw [div_mul_cancel₀ _ (by norm_num : (100 : ℚ) ≠ 0)] at scaled
  refine (scaled.double (n := 7) ?_).mono (by norm_num)
  rw [abs_of_nonneg nonneg]
  norm_num
  linarith

/-- A bus takes a minute for each hundredth of a degree and is late by `skew`, but the minute at which it
arrives may be cut off before it is full. -/
theorem arrival_bounds {departs skew : ℕ} (day : departs ≤ 1440) (late : skew ≤ 2) :
    departs + hundredths rand t i j + skew ≤ arrival (places rand t) i j departs skew + 1 ∧
      arrival (places rand t) i j departs skew ≤ departs + hundredths rand t i j + skew := by
  have bound : (hundredths rand t i j : ℚ) ≤ 78 := by exact_mod_cast hundredths_le rand t i j
  have day' : (departs : ℚ) ≤ 1440 := by exact_mod_cast day
  have late' : (skew : ℚ) ≤ 2 := by exact_mod_cast late
  have first := ((Near.exact (departs : ℚ)).add (near_distance rand t i j)).double (n := 11) (by
    rw [abs_of_nonneg (by positivity)]
    norm_num
    linarith)
  have second := (first.add (Near.exact (skew : ℚ))).double (n := 11) (by
    rw [abs_of_nonneg (by positivity)]
    norm_num
    linarith)
  have whole : ((departs + hundredths rand t i j + skew : ℕ) : ℚ) = departs + hundredths rand t i j + skew := by
    push_cast
    rfl
  rw [← whole] at second
  obtain ⟨low, high⟩ := second.floor (by norm_num)
  exact ⟨Nat.sub_le_iff_le_add.mp low, high⟩

/-- Stations that have been drawn at one place are no minutes apart. -/
theorem distance_zero (together : hundredths rand t i j = 0) : distance (places rand t) i j = 0 := by
  have zero : double 0 = 0 := double_natCast (k := 0) (by decide)
  have same : rand (t + 2 * i) % 40 = rand (t + 2 * j) % 40 ∧ rand (t + 2 * i + 1) % 40 = rand (t + 2 * j + 1) % 40 := by
    unfold hundredths apart at together
    omega
  have x : (places rand t).x i = (places rand t).x j := by simp only [places, RANDOM_LON, same.1]
  have y : (places rand t).y i = (places rand t).y j := by simp only [places, RANDOM_LAT, same.2]
  rw [distance, x, y, sub_self, sub_self, zero, abs_zero, add_zero, zero, zero_mul, zero]

/-- No bus arrives before it has left. -/
theorem le_arrival {departs skew : ℕ} (day : departs ≤ 1440) (late : skew ≤ 2) :
    departs ≤ arrival (places rand t) i j departs skew := by
  by_cases moves : hundredths rand t i j + skew = 0
  · have exact := double_natCast (show departs < 2 ^ 53 by omega)
    have none : skew = 0 := by omega
    rw [arrival, distance_zero rand t i j (by omega), add_zero, exact, none, Nat.cast_zero, add_zero, exact,
      Nat.floor_natCast]
  · have bounds := arrival_bounds rand t i j day late
    omega

end Distance

/-! ### What the loop prints -/

/-- The buses from some time on. -/
inductive Service (tlast : ℕ) (adj : Adjacency n) (p : Places n) (i : Fin n) (tdelta : ℕ) :
    ℕ → List (Bus n) → Prop
  | done {departs : ℕ} : tlast ≤ departs → Service tlast adj p i tdelta departs []
  | bus {departs skew wait : ℕ} {j : Fin n} {bs : List (Bus n)} : departs < tlast → adj i j = true → skew ≤ 2 →
      wait ≤ 4 → Service tlast adj p i tdelta (departs + (tdelta + skew + wait + 2)) bs →
        Service tlast adj p i tdelta departs (⟨j, departs, arrival p i j departs skew⟩ :: bs)

theorem buses_service [NeZero n] {rand : ℕ → ℕ} {tlast : ℕ} {adj : Adjacency n} {p : Places n} {i : Fin n}
    {tdelta passes t departs : ℕ} {r : List (Bus n) × ℕ}
    (printed : buses rand tlast adj p i tdelta passes t departs = some r) :
    Service tlast adj p i tdelta departs r.1 := by
  induction passes generalizing t departs r with
  | zero =>
      rw [buses] at printed
      split at printed
      · cases printed
      · rename_i late
        cases printed
        exact .done (Nat.le_of_not_lt late)
  | succ passes ih =>
      rw [buses] at printed
      split at printed
      · rename_i early
        dsimp only at printed
        split at printed
        · rename_i linked
          obtain ⟨rest, later, rfl⟩ := Option.map_eq_some_iff.mp printed
          have skew := Nat.mod_lt (rand (t + 1)) (show 0 < 3 by decide)
          have wait := Nat.mod_lt (rand (t + 2)) (show 0 < 5 by decide)
          exact .bus early linked (Nat.le_of_lt_succ skew) (Nat.le_of_lt_succ wait) (ih later)
        · exact ih printed
      · rename_i late
        cases printed
        exact .done (Nat.le_of_not_lt late)

namespace Service
variable {rand : ℕ → ℕ} {s tlast tdelta departs : ℕ} {adj : Adjacency n} {p : Places n} {i : Fin n}
  {bs : List (Bus n)}

theorem early (service : Service tlast adj p i tdelta departs bs) :
    ∀ b ∈ bs, departs ≤ b.departs ∧ b.departs < tlast ∧ adj i b.j = true := by
  induction service with
  | done => exact fun b none => absurd none List.not_mem_nil
  | bus early linked _ _ _ ih =>
      intro b member
      rcases List.mem_cons.mp member with rfl | later
      · exact ⟨Nat.le_refl _, early, linked⟩
      · exact ⟨Nat.le_of_add_right_le (ih b later).1, (ih b later).2⟩

theorem length_le (service : Service tlast adj p i tdelta departs bs) : bs.length ≤ tlast - departs := by
  induction service with
  | done => exact Nat.zero_le _
  | bus early _ _ _ _ ih =>
      rw [List.length_cons]
      omega

/-- Whoever comes by day does not wait long for the next bus. -/
theorem frequent (service : Service tlast adj p i tdelta departs bs) {m : ℕ} (open_ : departs ≤ m)
    (day : m + (tdelta + 8) < tlast) : ∃ b ∈ bs, m ≤ b.departs ∧ b.departs ≤ m + (tdelta + 8) := by
  induction service with
  | done late => omega
  | @bus departs skew wait j bs early linked _ _ rest ih =>
      rcases Nat.lt_or_ge departs m with later | now
      · rcases Nat.lt_or_ge m (departs + (tdelta + skew + wait + 2)) with between | after
        · -- the next bus is the one that is waited for
          cases rest with
          | done late => omega
          | bus =>
              refine ⟨_, List.mem_cons_of_mem _ List.mem_cons_self, between.le, ?_⟩
              dsimp only
              omega
        · obtain ⟨b, member, bounds⟩ := ih after
          exact ⟨b, List.mem_cons_of_mem _ member, bounds⟩
      · exact ⟨_, List.mem_cons_self, now, by dsimp only; omega⟩

section Drawn
variable (rand s)

theorem rides (service : Service tlast adj (places rand s) i tdelta departs bs) (day : tlast ≤ 1440) :
    ∀ b ∈ bs, b.departs ≤ b.arrives ∧ b.departs + hundredths rand s i b.j ≤ b.arrives + 1 ∧
      b.arrives ≤ b.departs + hundredths rand s i b.j + 2 := by
  induction service with
  | done => exact fun b none => absurd none List.not_mem_nil
  | @bus departs skew wait j bs early _ late _ _ ih =>
      intro b member
      rcases List.mem_cons.mp member with rfl | later
      · have bounds := arrival_bounds rand s i j (early.le.trans day) late
        refine ⟨le_arrival rand s i j (early.le.trans day) late, ?_⟩
        dsimp only
        omega
      · exact ih b later

/-- Later buses leave later, and none of them overtakes one to the same station. -/
theorem ordered (service : Service tlast adj (places rand s) i tdelta departs bs) (day : tlast ≤ 1440) :
    bs.Pairwise fun b c => b.departs + tdelta + 2 ≤ c.departs ∧ (b.j = c.j → b.arrives < c.arrives) := by
  induction service with
  | done => exact .nil
  | @bus departs skew wait j bs early _ late _ rest ih =>
      refine .cons (fun c member => ?_) ih
      have after := (rest.early c member).1
      have ride := rest.rides rand s day c member
      have bounds := arrival_bounds rand s i j (early.le.trans day) late
      refine ⟨by dsimp only; omega, fun same => ?_⟩
      dsimp only at same ⊢
      subst same
      omega

end Drawn
end Service

/-! ### When it ends -/

section Ends
variable [NeZero n] {rand : ℕ → ℕ} {tlast : ℕ} {adj : Adjacency n} {p : Places n} {i : Fin n} {tdelta : ℕ}

theorem buses_mono {passes passes' t departs : ℕ} {r : List (Bus n) × ℕ}
    (printed : buses rand tlast adj p i tdelta passes t departs = some r) (le : passes ≤ passes') :
    buses rand tlast adj p i tdelta passes' t departs = some r := by
  induction passes generalizing passes' t departs r with
  | zero =>
      rw [buses] at printed
      split at printed
      · cases printed
      · rename_i late
        cases passes' with
        | zero => rwa [buses, if_neg late]
        | succ passes' => rwa [buses, if_neg late]
  | succ passes ih =>
      obtain ⟨passes', rfl⟩ := Nat.exists_eq_add_of_le' (Nat.le_of_add_left_le le : 1 ≤ passes')
      have fewer := Nat.le_of_succ_le_succ le
      rw [buses] at printed ⊢
      split at printed
      · rename_i early
        rw [if_pos early]
        dsimp only at printed ⊢
        split at printed
        · rename_i linked
          obtain ⟨rest, later, rfl⟩ := Option.map_eq_some_iff.mp printed
          rw [if_pos linked, ih later fewer]
          rfl
        · rename_i missed
          rw [if_neg missed]
          exact ih printed fewer
      · rename_i late
        rwa [if_neg late]

/-- A pass that draws a neighbour. -/
theorem buses_hit {t departs : ℕ} (early : departs < tlast) (linked : adj i (Fin.ofNat n (rand t)) = true)
    (rest : ∃ passes r, buses rand tlast adj p i tdelta passes (t + 3)
      (departs + (tdelta + rand (t + 1) % 3 + rand (t + 2) % 5 + 2)) = some r) :
    ∃ passes r, buses rand tlast adj p i tdelta passes t departs = some r := by
  obtain ⟨passes, r, later⟩ := rest
  refine ⟨passes + 1, ?_⟩
  rw [buses, if_pos early]
  dsimp only
  rw [if_pos linked, later]
  exact ⟨_, rfl⟩

/-- As long as neighbours are drawn again and again the loop ends. -/
theorem buses_end (rich : ∀ t, ∃ k, adj i (Fin.ofNat n (rand (t + k))) = true) (t departs : ℕ) :
    ∃ passes r, buses rand tlast adj p i tdelta passes t departs = some r := by
  -- induction on the minutes that are left
  generalize left : tlast - departs = m
  induction m using Nat.strong_induction_on generalizing t departs with
  | _ m ih =>
      by_cases early : departs < tlast
      · have rest : ∀ t, ∃ passes r, buses rand tlast adj p i tdelta passes (t + 3)
            (departs + (tdelta + rand (t + 1) % 3 + rand (t + 2) % 5 + 2)) = some r := fun t =>
          ih (tlast - (departs + (tdelta + rand (t + 1) % 3 + rand (t + 2) % 5 + 2))) (by omega) (t + 3) _ rfl
        obtain ⟨k, hit⟩ := rich t
        induction k generalizing t with
        | zero => exact buses_hit early hit (rest t)
        | succ k next =>
            by_cases linked : adj i (Fin.ofNat n (rand t)) = true
            · exact buses_hit early linked (rest t)
            · rw [Nat.add_comm k 1, ← Nat.add_assoc] at hit
              obtain ⟨passes, r, later⟩ := next (t + 1) hit
              refine ⟨passes + 1, r, ?_⟩
              rw [buses, if_pos early]
              dsimp only
              rwa [if_neg linked]
      · refine ⟨0, ([], t), ?_⟩
        rw [buses, if_neg early]

end Ends

end Generator
end TransitNet

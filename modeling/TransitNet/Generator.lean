import TransitNet.Closure
import Mathlib.Algebra.Ring.Nat
import Mathlib.Data.Finset.Lattice.Fold
import Mathlib.Data.Fintype.Prod
import Mathlib.Data.List.FinRange

/-! The generator of networks: which stations are neighbours of each other. The numbers that `rand()`
returns are a sequence, and a program is at some place in it. -/
namespace TransitNet
namespace Generator

variable {n : ℕ}

/-- Which stations are adjacent. -/
abbrev Adjacency (n : ℕ) := Fin n → Fin n → Bool

/-- What `new2D` allocates. -/
def new2D : Adjacency n := fun _ _ => false

/-- The closure is computed in `w`, and then searched for a pair that is not linked. -/
def Warshall (adj : Adjacency n) : Bool :=
  let w := Closure.closure (List.finRange n) adj
  (List.finRange n).all fun i => (List.finRange n).all fun j => w i j

/-- `adj[i][j] = adj[j][i] = true`. -/
def link (adj : Adjacency n) (i j : Fin n) : Adjacency n := fun a b =>
  adj a b || a = i && b = j || a = j && b = i

/-- One pass of the loop, up to its test. -/
def pass (adj : Adjacency n) (i j : Fin n) : Adjacency n := if i = j ∨ adj i j then adj else link adj i j

/-- The loop, if it ends within so many passes: the matrix, and the place in the sequence. What stands
behind `continue` is the test of the loop. -/
def build_routes [NeZero n] (rand : ℕ → ℕ) : ℕ → ℕ → Adjacency n → Option (Adjacency n × ℕ)
  | 0, _, _ => none
  | passes + 1, t, adj =>
      let adj := pass adj (Fin.ofNat n (rand t)) (Fin.ofNat n (rand (t + 1)))
      if Warshall adj then some (adj, t + 2) else build_routes rand passes (t + 2) adj

/-- Each station but the last is linked to the next. -/
def build_linear_routes (adj : Adjacency n) : Adjacency n := fun a b =>
  adj a b || a.val + 1 = b.val || b.val + 1 = a.val

/-- There is a way from every station to every other. -/
def Connected (adj : Adjacency n) : Prop := ∀ i j, Relation.TransGen (fun a b => adj a b = true) i j

/-- Lines go both ways, and from one station to another. -/
structure Undirected (adj : Adjacency n) : Prop where
  both : ∀ i j, adj i j = true → adj j i = true
  loopless : ∀ i, adj i i = false

/-- `Warshall` tells whether all stations are connected. -/
theorem Warshall_iff {adj : Adjacency n} : Warshall adj = true ↔ Connected adj := by
  simp only [Warshall, List.all_eq_true, Connected]
  constructor
  · intro all i j
    exact (Closure.closure_iff List.mem_finRange).mp (all i (List.mem_finRange i) j (List.mem_finRange j))
  · intro all i _ j _
    exact (Closure.closure_iff List.mem_finRange).mpr (all i j)

theorem new2D_undirected : Undirected (new2D (n := n)) := ⟨fun _ _ => id, fun _ => rfl⟩

theorem link_apply {adj : Adjacency n} {i j a b : Fin n} :
    link adj i j a b = true ↔ adj a b = true ∨ a = i ∧ b = j ∨ a = j ∧ b = i := by
  simp only [link, Bool.or_eq_true, Bool.and_eq_true, decide_eq_true_eq, or_assoc]

theorem pass_apply {adj : Adjacency n} (undirected : Undirected adj) {i j a b : Fin n} :
    pass adj i j a b = true ↔ adj a b = true ∨ i ≠ j ∧ (a = i ∧ b = j ∨ a = j ∧ b = i) := by
  unfold pass
  by_cases same : i = j
  · rw [if_pos (.inl same), or_iff_left fun more => more.1 same]
  by_cases known : adj i j = true
  · rw [if_pos (.inr known), iff_self_or]
    rintro ⟨_, ⟨rfl, rfl⟩ | ⟨rfl, rfl⟩⟩
    · exact known
    · exact undirected.both _ _ known
  · rw [if_neg fun either => either.elim same known, link_apply, and_iff_right same]

theorem Undirected.pass {adj : Adjacency n} (undirected : Undirected adj) (i j : Fin n) :
    Undirected (pass adj i j) where
  both a b linked := by
    rw [pass_apply undirected] at linked ⊢
    exact linked.imp (undirected.both a b) fun more => ⟨more.1, more.2.symm.imp And.symm And.symm⟩
  loopless a := by
    rw [Bool.eq_false_iff, ne_eq, pass_apply undirected, undirected.loopless a]
    rintro (impossible | ⟨other, ⟨rfl, rfl⟩ | ⟨rfl, rfl⟩⟩)
    · cases impossible
    · exact other rfl
    · exact other rfl

section Draws
variable [NeZero n] (rand : ℕ → ℕ) (t : ℕ)

/-- The stations that the `k`-th pass draws. -/
def drawn (k : ℕ) : Fin n × Fin n := (Fin.ofNat n (rand (t + 2 * k)), Fin.ofNat n (rand (t + 2 * k + 1)))

/-- The matrix after so many passes. -/
def laid (adj : Adjacency n) : ℕ → Adjacency n
  | 0 => adj
  | k + 1 => pass (laid adj k) (drawn rand t k).1 (drawn rand t k).2

/-- The two have been drawn together in the first `m` passes. -/
def Drawn (m : ℕ) (a b : Fin n) : Prop := a ≠ b ∧ ∃ k < m, drawn rand t k = (a, b) ∨ drawn rand t k = (b, a)

variable {rand t} {adj : Adjacency n}

theorem laid_undirected (undirected : Undirected adj) (k : ℕ) : Undirected (laid rand t adj k) := by
  induction k with
  | zero => exact undirected
  | succ k ih => exact ih.pass _ _

theorem laid_apply (k : ℕ) {a b : Fin n} : laid rand t new2D k a b = true ↔ Drawn rand t k a b := by
  induction k with
  | zero =>
      constructor
      · intro impossible
        cases impossible
      · rintro ⟨_, k, impossible, _⟩
        exact absurd impossible (Nat.not_lt_zero k)
  | succ k ih =>
      rw [laid, pass_apply (laid_undirected new2D_undirected k), ih]
      constructor
      · rintro (⟨other, i, early, drew⟩ | ⟨other, ⟨rfl, rfl⟩ | ⟨rfl, rfl⟩⟩)
        · exact ⟨other, i, Nat.lt_succ_of_lt early, drew⟩
        · exact ⟨other, k, Nat.lt_succ_self k, .inl rfl⟩
        · exact ⟨other.symm, k, Nat.lt_succ_self k, .inr rfl⟩
      · rintro ⟨other, i, early, drew⟩
        rcases Nat.lt_succ_iff_lt_or_eq.mp early with before | rfl
        · exact .inl ⟨other, i, before, drew⟩
        · rcases drew with drew | drew
          · rw [drew]
            exact .inr ⟨other, .inl ⟨rfl, rfl⟩⟩
          · rw [drew]
            exact .inr ⟨other.symm, .inr ⟨rfl, rfl⟩⟩

theorem Drawn.mono {m m' : ℕ} (le : m ≤ m') {a b : Fin n} (drawn : Drawn rand t m a b) : Drawn rand t m' a b := by
  obtain ⟨other, k, early, drew⟩ := drawn
  exact ⟨other, k, early.trans_le le, drew⟩

/-- What the first pass leaves is where the others begin. -/
theorem laid_first (adj : Adjacency n) (k : ℕ) : laid rand t adj (k + 1) =
    laid rand (t + 2) (pass adj (Fin.ofNat n (rand t)) (Fin.ofNat n (rand (t + 1)))) k := by
  induction k with
  | zero => rfl
  | succ k ih =>
      have later : (drawn rand t (k + 1) : Fin n × Fin n) = drawn rand (t + 2) k := by
        have place : t + 2 * (k + 1) = t + 2 + 2 * k := by omega
        unfold drawn
        rw [place]
      rw [laid, ih, later]
      rfl

/-- The loop ends with the first pass after which all stations are connected. -/
theorem build_routes_eq (rand : ℕ → ℕ) (passes t : ℕ) (adj : Adjacency n) :
    (∃ m < passes, build_routes rand passes t adj = some (laid rand t adj (m + 1), t + 2 * (m + 1)) ∧
      Connected (laid rand t adj (m + 1)) ∧ ∀ k < m, ¬ Connected (laid rand t adj (k + 1))) ∨
    build_routes rand passes t adj = none ∧ ∀ k < passes, ¬ Connected (laid rand t adj (k + 1)) := by
  induction passes generalizing t adj with
  | zero => exact .inr ⟨rfl, fun k impossible => absurd impossible (Nat.not_lt_zero k)⟩
  | succ passes ih =>
      rw [build_routes]
      by_cases connected : Warshall (pass adj (Fin.ofNat n (rand t)) (Fin.ofNat n (rand (t + 1)))) = true
      · refine .inl ⟨0, Nat.succ_pos passes, if_pos connected, Warshall_iff.mp connected, ?_⟩
        exact fun k impossible => absurd impossible (Nat.not_lt_zero k)
      · have first : ¬ Connected (laid rand t adj 1) := fun all => connected (Warshall_iff.mpr all)
        rw [if_neg connected]
        have before : ∀ m, (∀ k < m, ¬ Connected (laid rand (t + 2)
            (pass adj (Fin.ofNat n (rand t)) (Fin.ofNat n (rand (t + 1)))) (k + 1))) →
              ∀ k < m + 1, ¬ Connected (laid rand t adj (k + 1)) := by
          intro m none k early
          cases k with
          | zero => exact first
          | succ k =>
              rw [laid_first adj (k + 1)]
              exact none k (Nat.lt_of_succ_lt_succ early)
        rcases ih (t + 2) (pass adj (Fin.ofNat n (rand t)) (Fin.ofNat n (rand (t + 1)))) with
          ⟨m, early, ended, all, none⟩ | ⟨endless, none⟩
        · refine .inl ⟨m + 1, Nat.succ_lt_succ early, ?_, ?_, before m none⟩
          · rw [ended, laid_first adj (m + 1), Nat.mul_succ 2 (m + 1), Nat.add_right_comm, Nat.add_assoc]
          · rw [laid_first adj (m + 1)]
            exact all
        · exact .inr ⟨endless, before passes none⟩

/-- The pairs drawn in the first `m` passes connect all stations. -/
def Joined (n : ℕ) [NeZero n] (rand : ℕ → ℕ) (t m : ℕ) : Prop :=
  ∀ i j : Fin n, Relation.TransGen (Drawn rand t m) i j

theorem connected_laid (k : ℕ) : Connected (laid rand t (new2D (n := n)) k) ↔ Joined n rand t k := by
  have same : (fun a b => laid rand t (new2D (n := n)) k a b = true) = Drawn rand t k := by
    funext a b
    exact propext (laid_apply k)
  unfold Connected Joined
  rw [same]

theorem Joined.mono {m m' : ℕ} (le : m ≤ m') (joined : Joined n rand t m) : Joined n rand t m' := fun i j =>
  Relation.TransGen.mono (fun _ _ drawn => drawn.mono le) i j (joined i j)

end Draws

/-- Wherever in the sequence one begins, every two stations are drawn together sooner or later. -/
def Fair (n : ℕ) [NeZero n] (rand : ℕ → ℕ) : Prop := ∀ (t : ℕ) (a b : Fin n), ∃ k, drawn rand t k = (a, b)

theorem Fair.joined [NeZero n] {rand : ℕ → ℕ} (fair : Fair n rand) (two : 2 ≤ n) (t : ℕ) :
    ∃ passes, Joined n rand t passes := by
  choose k drew using fair t
  refine ⟨Finset.univ.sup fun pair : Fin n × Fin n => k pair.1 pair.2 + 1, ?_⟩
  have apart : ∀ a b : Fin n, a ≠ b → Drawn rand t (Finset.univ.sup fun pair : Fin n × Fin n => k pair.1 pair.2 + 1) a b := by
    intro a b other
    refine ⟨other, k a b, ?_, .inl (drew a b)⟩
    exact Finset.le_sup (f := fun pair : Fin n × Fin n => k pair.1 pair.2 + 1) (Finset.mem_univ (a, b))
  intro i j
  by_cases same : i = j
  · subst same
    have : Nontrivial (Fin n) := Fin.nontrivial_iff_two_le.mpr two
    obtain ⟨other, ne⟩ := exists_ne i
    exact (Relation.TransGen.single (apart i other ne.symm)).tail (apart other i ne)
  · exact .single (apart i j same)

theorem build_routes_mono [NeZero n] {rand : ℕ → ℕ} {t passes passes' : ℕ} {adj : Adjacency n} {r : Adjacency n × ℕ}
    (found : build_routes rand passes t adj = some r) (le : passes ≤ passes') :
    build_routes rand passes' t adj = some r := by
  induction passes generalizing passes' t adj with
  | zero => cases found
  | succ passes ih =>
      obtain ⟨passes', rfl⟩ := Nat.exists_eq_add_of_le' (Nat.le_of_add_left_le le : 1 ≤ passes')
      rw [build_routes] at found ⊢
      split at found
      · rename_i connected
        rwa [if_pos connected]
      · rename_i open_
        rw [if_neg open_]
        exact ih found (Nat.le_of_succ_le_succ le)

/-- What is left when `build_routes` ends. -/
theorem build_routes_sound [NeZero n] {rand : ℕ → ℕ} {t passes t' : ℕ} {adj : Adjacency n}
    (found : build_routes rand passes t new2D = some (adj, t')) : Undirected adj ∧ Connected adj ∧
      ∃ m < passes, t' = t + 2 * (m + 1) ∧ (∀ a b, adj a b = true ↔ Drawn rand t (m + 1) a b) ∧
        ∀ k < m, ¬ Joined n rand t (k + 1) := by
  rcases build_routes_eq (n := n) rand passes t new2D with ⟨m, early, ended, all, none⟩ | ⟨endless, _⟩
  · rw [ended] at found
    cases found
    refine ⟨laid_undirected new2D_undirected _, all, m, early, rfl, fun a b => laid_apply _, fun k before => ?_⟩
    rw [← connected_laid]
    exact none k before
  · rw [endless] at found
    cases found

/-- `build_routes` ends, with lines between exactly those that have been drawn, at the first pass after
which there is a way from every station to every other; and it ends within so many passes exactly if
what is drawn in them connects all stations. -/
theorem build_routes_ends_when_connected [NeZero n] (rand : ℕ → ℕ) (t passes : ℕ) :
    (∀ (adj : Adjacency n) (t' : ℕ), build_routes rand passes t new2D = some (adj, t') →
      Undirected adj ∧ Connected adj ∧ ∃ m < passes, t' = t + 2 * (m + 1) ∧
        (∀ a b, adj a b = true ↔ Drawn rand t (m + 1) a b) ∧ ∀ k < m, ¬ Joined n rand t (k + 1)) ∧
    ((∃ r : Adjacency n × ℕ, build_routes rand passes t new2D = some r) ↔
      0 < passes ∧ Joined n rand t passes) := by
  refine ⟨fun adj t' found => build_routes_sound found, ?_⟩
  rcases build_routes_eq (n := n) rand passes t new2D with ⟨m, early, ended, all, none⟩ | ⟨endless, none⟩
  · refine ⟨fun _ => ⟨Nat.zero_lt_of_lt early, ?_⟩, fun _ => ⟨_, ended⟩⟩
    exact ((connected_laid _).mp all).mono early
  · constructor
    · rintro ⟨r, found⟩
      rw [endless] at found
      cases found
    · rintro ⟨some, joined⟩
      obtain ⟨k, rfl⟩ := Nat.exists_eq_succ_of_ne_zero (Nat.ne_of_gt some)
      exact absurd ((connected_laid _).mpr joined) (none k (Nat.lt_succ_self k))

/-- Three times tails, and twice heads. -/
def coins (t : ℕ) : ℕ := if t % 5 < 3 then 0 else 1

theorem coins_connect : 0 < 4 ∧ Joined 2 coins 1 4 :=
  (build_routes_ends_when_connected coins 1 4).2.mp (Option.isSome_iff_exists.mp (by decide))

/-- Along a line everybody is connected. -/
theorem build_linear_routes_connected (two : 2 ≤ n) : Undirected (build_linear_routes (new2D (n := n))) ∧
    Connected (build_linear_routes (new2D (n := n))) := by
  have linked : ∀ a b : Fin n, build_linear_routes new2D a b = true ↔ a.val + 1 = b.val ∨ b.val + 1 = a.val := by
    intro a b
    simp only [build_linear_routes, new2D, Bool.false_or, Bool.or_eq_true, decide_eq_true_eq]
  have both : ∀ a b : Fin n, build_linear_routes new2D a b = true → build_linear_routes new2D b a = true := by
    intro a b
    rw [linked, linked]
    exact Or.symm
  have onward : ∀ (d : ℕ) (a b : Fin n), a.val + (d + 1) = b.val →
      Relation.TransGen (fun a b => build_linear_routes (new2D (n := n)) a b = true) a b := by
    intro d
    induction d with
    | zero => exact fun a b next => .single ((linked a b).mpr (.inl next))
    | succ d ih =>
        intro a b apart
        have short : a.val + 1 < n := by omega
        exact .head ((linked a ⟨a.val + 1, short⟩).mpr (.inl rfl)) (ih ⟨a.val + 1, short⟩ b (by simp only; omega))
  have back : ∀ a b : Fin n, a.val < b.val →
      Relation.TransGen (fun a b => build_linear_routes (new2D (n := n)) a b = true) b a := by
    intro a b before
    refine Relation.transGen_swap.mp (Relation.TransGen.mono (fun c d => both c d) a b ?_)
    exact onward (b.val - a.val - 1) a b (by omega)
  refine ⟨⟨both, fun i => ?_⟩, fun i j => ?_⟩
  · rw [Bool.eq_false_iff, ne_eq, linked]
    omega
  · rcases Nat.lt_trichotomy i.val j.val with before | same | after
    · exact onward (j.val - i.val - 1) i j (by omega)
    · obtain rfl := Fin.ext same
      -- to a neighbour, and home
      by_cases last : i.val + 1 < n
      · exact (onward 0 i ⟨i.val + 1, last⟩ rfl).trans (back i ⟨i.val + 1, last⟩ (Nat.lt_succ_self i.val))
      · have other : (⟨i.val - 1, by omega⟩ : Fin n).val < i.val := by simp only; omega
        exact (back _ i other).trans (onward 0 _ i (by simp only; omega))
    · exact back j i after

end Generator
end TransitNet

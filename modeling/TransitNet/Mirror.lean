import TransitNet.Soup

/-! Two soups of which one does in other words what the other does, soups that come to rest, and soups that
never do. -/
namespace Soup

variable {τ ρ τ' ρ' : Type*} {Valid : τ → Prop} {g : τ → τ'} {h : ρ → ρ'} {small : Reaction τ ρ}
  {big : Reaction τ' ρ'}

/-- On the images of the messages in `Valid`, `big` does what `small` does, and fails where it fails. -/
def Mirrors (Valid : τ → Prop) (g : τ → τ') (h : ρ → ρ') (small : Reaction τ ρ) (big : Reaction τ' ρ') : Prop :=
  ∀ m, Valid m → big (g m) = (small m).map fun r => (r.1.map g, r.2.map h)

theorem Mirrors.simulates (mirrors : Mirrors Valid g h small big) : Simulates Valid g h small big := by
  intro m out' reports' valid reacts
  rw [mirrors m valid] at reacts
  obtain ⟨⟨out, reports⟩, handed, same⟩ := Option.map_eq_some_iff.mp reacts
  cases same
  exact ⟨out, reports, handed, rfl, rfl⟩

theorem Mirrors.deliver (mirrors : Mirrors Valid g h small big) {s t : Pool τ ρ}
    (valid : ∀ f ∈ s.flying, Valid f.msg) (step : Deliver small s t) : Deliver big (s.map g h) (t.map g h) := by
  cases step with
  | @mk f rest log out reports handed =>
      have reacts : big (f.map g).msg = some (out.map g, reports.map h) := by
        have image := mirrors f.msg (valid f (Multiset.mem_cons_self f rest))
        rw [handed] at image
        exact image
      have step : Deliver big ⟨f.map g ::ₘ rest.map (Flight.map g), log.map (Report.map g h)⟩ _ := .mk reacts
      rw [spawn_map, file_map] at step
      simp only [Pool.map, Multiset.map_cons, Multiset.map_add, Multiset.map_coe, List.map_append]
      exact step

theorem Mirrors.step (mirrors : Mirrors Valid g h small big) {s t : Pool τ ρ}
    (valid : ∀ f ∈ s.flying, Valid f.msg) (step : Step small s t) : Step big (s.map g h) (t.map g h) := by
  cases step with
  | deliver step => exact .deliver (mirrors.deliver valid step)
  | lose f rest log =>
      simp only [Pool.map, Multiset.map_cons]
      exact .lose _ _ _
  | duplicate f rest log =>
      simp only [Pool.map, Multiset.map_cons]
      exact .duplicate _ _ _

section Runs
variable {P : Flight τ → Prop} {Q : Report τ ρ → Prop}

/-- Every run has an image. -/
theorem Mirrors.reaches (mirrors : Mirrors Valid g h small big) (keeps : Preserves small P Q)
    (valid : ∀ f, P f → Valid f.msg) {s t : Pool τ ρ} (good : s.Good P Q) (run : Reaches small s t) :
    Reaches big (s.map g h) (t.map g h) := by
  induction run with
  | refl => exact .refl
  | tail before step ih =>
      have held := Reaches.good keeps before good
      exact ih.tail (mirrors.step (fun f member => valid f (held.1 f member)) step)

theorem Mirrors.runs (mirrors : Mirrors Valid g h small big) (keeps : Preserves small P Q)
    (valid : ∀ f, P f → Valid f.msg) {s t : Pool τ ρ} (good : s.Good P Q) (run : Runs small s t) :
    Runs big (s.map g h) (t.map g h) := by
  induction run with
  | refl => exact .refl
  | tail before step ih =>
      have held := Reaches.good keeps (Runs.reaches before) good
      exact ih.tail (mirrors.deliver (fun f member => valid f (held.1 f member)) step)

end Runs

section Rest
variable {react : Reaction τ ρ} {P : Flight τ → Prop} {Q : Report τ ρ → Prop}

/-- Where every message can be handed over, and sends messages of lower rank only, a soup can be
brought to rest without losing anything. -/
theorem comes_to_rest (rank : Flight τ → ℕ) (keeps : Preserves react P Q)
    (lower : ∀ f out reports, P f → react f.msg = some (out, reports) → ∀ g ∈ f.spawn out, rank g < rank f)
    (handed : ∀ f, P f → ∃ r, react f.msg = some r) {s : Pool τ ρ} (good : s.Good P Q) :
    ∃ t, Runs react s t ∧ t.flying = 0 := by
  -- induction along the hydra order of the ranks in flight
  have founded : WellFounded (Relation.CutExpand fun m n : ℕ => m < n) := Nat.lt_wfRel.wf.cutExpand
  generalize ranked : s.flying.map rank = ranks
  induction ranks using founded.induction generalizing s with
  | _ ranks ih =>
      by_cases quiet : s.flying = 0
      · exact ⟨s, .refl, quiet⟩
      obtain ⟨f, member⟩ := Multiset.exists_mem_of_ne_zero quiet
      obtain ⟨rest, whole⟩ := Multiset.exists_cons_of_mem member
      obtain ⟨⟨out, reports⟩, reacts⟩ := handed f (good.1 f member)
      obtain ⟨flying, log⟩ := s
      subst whole ranked
      have step : Deliver react ⟨f ::ₘ rest, log⟩ ⟨rest + f.spawn out, log ++ f.file reports⟩ := .mk reacts
      have smaller := (Carry.deliver step).cutExpand rank fun f member out reports =>
        lower f out reports (good.1 f member)
      have kept := (Step.deliver step).good keeps good
      obtain ⟨t, run, still⟩ := ih _ smaller kept rfl
      exact ⟨t, .head step run, still⟩

end Rest

section Breeding
variable {react : Reaction τ ρ} {P : Flight τ → Prop} {size : Flight τ → ℕ} {s t : Pool τ ρ}

/-- Whatever is delivered of this kind leaves one of its kind behind that is larger. -/
def Breeds (react : Reaction τ ρ) (P : Flight τ → Prop) (size : Flight τ → ℕ) : Prop :=
  ∀ f out reports, P f → react f.msg = some (out, reports) → ∃ g ∈ f.spawn out, P g ∧ size f < size g

theorem Breeds.deliver (breeds : Breeds react P size) (step : Deliver react s t) (alive : ∃ f ∈ s.flying, P f) :
    ∃ f ∈ t.flying, P f := by
  cases step with
  | @mk f rest log out reports handed =>
      obtain ⟨f', member, kind⟩ := alive
      rcases Multiset.mem_cons.mp member with rfl | other
      · obtain ⟨g, sent, kind', _⟩ := breeds f' out reports kind handed
        exact ⟨g, Multiset.mem_add.mpr (.inr (Multiset.mem_coe.mpr sent)), kind'⟩
      · exact ⟨f', Multiset.mem_add.mpr (.inl other), kind⟩

/-- The kind does not die out, in whatever order messages are delivered. -/
theorem Breeds.runs (breeds : Breeds react P size) (run : Runs react s t) (alive : ∃ f ∈ s.flying, P f) :
    ∃ f ∈ t.flying, P f := by
  induction run with
  | refl => exact alive
  | tail _ step ih => exact breeds.deliver step ih

/-- It grows beyond every bound, or until it cannot be handed over. -/
theorem Breeds.outgrows (breeds : Breeds react P size) (alive : ∃ f ∈ s.flying, P f) (bound : ℕ) :
    ∃ t, Runs react s t ∧ ∃ f ∈ t.flying, P f ∧ (react f.msg = none ∨ bound ≤ size f) := by
  obtain ⟨f, member, kind⟩ := alive
  -- induction on what is missing to the bound
  generalize missing : bound - size f = k
  induction k using Nat.strong_induction_on generalizing s f with
  | _ k ih =>
      cases handed : react f.msg with
      | none => exact ⟨s, .refl, f, member, kind, .inl handed⟩
      | some r =>
          by_cases there : bound ≤ size f
          · exact ⟨s, .refl, f, member, kind, .inr there⟩
          obtain ⟨rest, whole⟩ := Multiset.exists_cons_of_mem member
          obtain ⟨g, sent, kind', larger⟩ := breeds f r.1 r.2 kind handed
          obtain ⟨flying, log⟩ := s
          subst whole
          have step : Deliver react ⟨f ::ₘ rest, log⟩ ⟨rest + f.spawn r.1, log ++ f.file r.2⟩ := .mk handed
          have next : g ∈ (⟨rest + f.spawn r.1, log ++ f.file r.2⟩ : Pool τ ρ).flying :=
            Multiset.mem_add.mpr (.inr (Multiset.mem_coe.mpr sent))
          obtain ⟨t, run, found⟩ := ih (bound - size g) (by omega) g next kind' rfl
          exact ⟨t, .head step run, found⟩

end Breeding
end Soup

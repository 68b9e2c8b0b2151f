import Mathlib.Logic.Hydra
import Mathlib.Logic.Relation
import Mathlib.Order.WellFounded
import Mathlib.Algebra.BigOperators.Group.Multiset.Basic
import Mathlib.Tactic.Abel

/-! Message soups. A pool of messages is in flight; delivering one removes it,
puts the messages it gives rise to in flight and files its reports. Every
message carries the number of the injected message it descends from and the
deliveries that led to it; both are history variables that no reaction reads. -/
namespace Soup

variable {τ ρ : Type*}

structure Flight (τ : Type*) where
  origin : ℕ
  trail : List τ
  msg : τ

structure Report (τ ρ : Type*) where
  origin : ℕ
  trail : List τ
  out : ρ

structure Pool (τ ρ : Type*) where
  flying : Multiset (Flight τ)
  log : List (Report τ ρ)

/-- What one delivery does: messages sent and results reported. `none` is a
message that cannot be handed over at all. -/
abbrev Reaction (τ ρ : Type*) := τ → Option (List τ × List ρ)

def launch (inits : List τ) : Pool τ ρ :=
  ⟨(inits.mapIdx fun i m => (⟨i, [], m⟩ : Flight τ) : List (Flight τ)), []⟩

def Flight.spawn (f : Flight τ) (out : List τ) : List (Flight τ) :=
  out.map fun m => ⟨f.origin, f.msg :: f.trail, m⟩

def Flight.file (f : Flight τ) (reports : List ρ) : List (Report τ ρ) :=
  reports.map fun r => ⟨f.origin, f.msg :: f.trail, r⟩

inductive Deliver (react : Reaction τ ρ) : Pool τ ρ → Pool τ ρ → Prop
  | mk {f : Flight τ} {rest : Multiset (Flight τ)} {log : List (Report τ ρ)} {out : List τ}
      {reports : List ρ} (handed : react f.msg = some (out, reports)) :
      Deliver react ⟨f ::ₘ rest, log⟩ ⟨rest + f.spawn out, log ++ f.file reports⟩

/-- A step of an unreliable carrier: messages may also be lost or duplicated. -/
inductive Step (react : Reaction τ ρ) : Pool τ ρ → Pool τ ρ → Prop
  | deliver {s t : Pool τ ρ} (step : Deliver react s t) : Step react s t
  | lose (f : Flight τ) (rest : Multiset (Flight τ)) (log : List (Report τ ρ)) :
      Step react ⟨f ::ₘ rest, log⟩ ⟨rest, log⟩
  | duplicate (f : Flight τ) (rest : Multiset (Flight τ)) (log : List (Report τ ρ)) :
      Step react ⟨f ::ₘ rest, log⟩ ⟨f ::ₘ f ::ₘ rest, log⟩

/-- A step of a carrier that may lose messages, but does not duplicate any. -/
inductive Carry (react : Reaction τ ρ) : Pool τ ρ → Pool τ ρ → Prop
  | deliver {s t : Pool τ ρ} (step : Deliver react s t) : Carry react s t
  | lose (f : Flight τ) (rest : Multiset (Flight τ)) (log : List (Report τ ρ)) :
      Carry react ⟨f ::ₘ rest, log⟩ ⟨rest, log⟩

theorem Carry.step {react : Reaction τ ρ} {s t : Pool τ ρ} (carry : Carry react s t) :
    Step react s t := by
  cases carry with
  | deliver step => exact .deliver step
  | lose f rest log => exact .lose f rest log

/-- Runs that lose and duplicate at will. -/
def Reaches (react : Reaction τ ρ) : Pool τ ρ → Pool τ ρ → Prop :=
  Relation.ReflTransGen (Step react)

/-- Runs in which every message is delivered at most once and none is lost. -/
def Runs (react : Reaction τ ρ) : Pool τ ρ → Pool τ ρ → Prop :=
  Relation.ReflTransGen (Deliver react)

theorem Runs.reaches {react : Reaction τ ρ} {s t : Pool τ ρ} (run : Runs react s t) :
    Reaches react s t :=
  Relation.ReflTransGen.mono (fun _ _ step => Step.deliver step) s t run

theorem Runs.forward {react : Reaction τ ρ} {s : Pool τ ρ} {i : ℕ} {trail : List τ} {m m' : τ}
    {log : List (Report τ ρ)} (run : Runs react s ⟨{⟨i, trail, m⟩}, log⟩)
    (reacts : react m = some ([m'], [])) : Runs react s ⟨{⟨i, m :: trail, m'⟩}, log⟩ := by
  have step : Deliver react ⟨⟨i, trail, m⟩ ::ₘ 0, log⟩ _ := Deliver.mk reacts
  simp only [Flight.spawn, Flight.file, List.map_cons, List.map_nil, List.append_nil, zero_add] at step
  exact run.tail step

theorem Runs.stop {react : Reaction τ ρ} {s : Pool τ ρ} {f : Flight τ} {log : List (Report τ ρ)}
    {reports : List ρ} (run : Runs react s ⟨{f}, log⟩) (reacts : react f.msg = some ([], reports)) :
    Runs react s ⟨0, log ++ f.file reports⟩ := by
  have step : Deliver react ⟨f ::ₘ 0, log⟩ _ := Deliver.mk reacts
  exact run.tail step

theorem mem_launch {inits : List τ} {f : Flight τ}
    (member : f ∈ (launch inits : Pool τ ρ).flying) : f.trail = [] ∧ f.msg ∈ inits := by
  obtain ⟨i, bound, rfl⟩ := List.mem_mapIdx.mp (Multiset.mem_coe.mp member)
  exact ⟨rfl, List.getElem_mem bound⟩

theorem mem_spawn {f g : Flight τ} {out : List τ} :
    g ∈ f.spawn out ↔ ∃ m ∈ out, g = ⟨f.origin, f.msg :: f.trail, m⟩ := by
  simp only [Flight.spawn, List.mem_map]
  exact exists_congr fun m => and_congr_right fun _ => eq_comm

theorem mem_file {f : Flight τ} {r : Report τ ρ} {reports : List ρ} :
    r ∈ f.file reports ↔ ∃ o ∈ reports, r = ⟨f.origin, f.msg :: f.trail, o⟩ := by
  simp only [Flight.file, List.mem_map]
  exact exists_congr fun o => and_congr_right fun _ => eq_comm

section Invariant
variable {react : Reaction τ ρ} {P : Flight τ → Prop} {Q : Report τ ρ → Prop}

/-- An invariant of single flights: reactions of good flights send good flights
and file good reports. -/
structure Preserves (react : Reaction τ ρ) (P : Flight τ → Prop) (Q : Report τ ρ → Prop) : Prop where
  sent : ∀ f out reports, P f → react f.msg = some (out, reports) → ∀ g ∈ f.spawn out, P g
  filed : ∀ f out reports, P f → react f.msg = some (out, reports) → ∀ r ∈ f.file reports, Q r

theorem Preserves.and {P' : Flight τ → Prop} {Q' : Report τ ρ → Prop} (h : Preserves react P Q)
    (h' : Preserves react P' Q') :
    Preserves react (fun f => P f ∧ P' f) fun r => Q r ∧ Q' r where
  sent f out reports good reacts g member :=
    ⟨h.sent f out reports good.1 reacts g member, h'.sent f out reports good.2 reacts g member⟩
  filed f out reports good reacts r member :=
    ⟨h.filed f out reports good.1 reacts r member, h'.filed f out reports good.2 reacts r member⟩

def Pool.Good (P : Flight τ → Prop) (Q : Report τ ρ → Prop) (s : Pool τ ρ) : Prop :=
  (∀ f ∈ s.flying, P f) ∧ ∀ r ∈ s.log, Q r

theorem Step.good (keeps : Preserves react P Q) {s t : Pool τ ρ} (step : Step react s t)
    (good : s.Good P Q) : t.Good P Q := by
  cases step with
  | deliver step =>
      cases step with
      | @mk f rest log out reports handed =>
          have pf := good.1 f (Multiset.mem_cons_self f rest)
          constructor
          · intro g member
            rcases Multiset.mem_add.mp member with old | new
            · exact good.1 g (Multiset.mem_cons_of_mem old)
            · exact keeps.sent f out reports pf handed g (Multiset.mem_coe.mp new)
          · intro r member
            rcases List.mem_append.mp member with old | new
            · exact good.2 r old
            · exact keeps.filed f out reports pf handed r new
  | lose f rest log => exact ⟨fun g member => good.1 g (Multiset.mem_cons_of_mem member), good.2⟩
  | duplicate f rest log =>
      refine ⟨fun g member => ?_, good.2⟩
      rcases Multiset.mem_cons.mp member with rfl | later
      · exact good.1 g (Multiset.mem_cons_self g rest)
      · exact good.1 g later

theorem Reaches.good (keeps : Preserves react P Q) {s t : Pool τ ρ} (run : Reaches react s t)
    (good : s.Good P Q) : t.Good P Q := by
  induction run with
  | refl => exact good
  | tail _ step ih => exact step.good keeps ih

theorem launch_good {inits : List τ} (good : ∀ i, ∀ m ∈ inits, P ⟨i, [], m⟩) :
    (launch inits : Pool τ ρ).Good P Q := by
  constructor
  · intro f member
    obtain ⟨empty, inits⟩ := mem_launch member
    obtain ⟨origin, trail, msg⟩ := f
    cases empty
    exact good origin msg inits
  · intro r member
    exact absurd member List.not_mem_nil

end Invariant

section Lineage

/-- A delivery history, latest first: it begins with an injected message, and each
later message was sent by the delivery of the one before it. -/
inductive Lineage (react : Reaction τ ρ) (inits : List τ) : List τ → Prop
  | init {m : τ} : m ∈ inits → Lineage react inits [m]
  | sent {m parent : τ} {older out : List τ} {reports : List ρ} :
      Lineage react inits (parent :: older) → react parent = some (out, reports) → m ∈ out →
      Lineage react inits (m :: parent :: older)

variable {react : Reaction τ ρ} {inits : List τ}

/-- The report's last delivery really filed it, and its trail is a lineage. -/
def Filed (react : Reaction τ ρ) (inits : List τ) (r : Report τ ρ) : Prop :=
  Lineage react inits r.trail ∧ ∃ m older out reports, r.trail = m :: older ∧
    react m = some (out, reports) ∧ r.out ∈ reports

theorem lineage_preserved :
    Preserves react (fun f => Lineage react inits (f.msg :: f.trail)) (Filed react inits) := by
  constructor
  · intro f out reports line handed g member
    obtain ⟨m, sent, rfl⟩ := mem_spawn.mp member
    exact .sent line handed sent
  · intro f out reports line handed r member
    obtain ⟨o, filed, rfl⟩ := mem_file.mp member
    exact ⟨line, f.msg, f.trail, out, reports, rfl, handed, filed⟩

theorem Reaches.lineage {s : Pool τ ρ} (run : Reaches react (launch inits) s) :
    s.Good (fun f => Lineage react inits (f.msg :: f.trail)) (Filed react inits) :=
  run.good lineage_preserved (launch_good fun _ _ member => .init member)

/-- An invariant of single messages holds of every member of a lineage. -/
theorem Lineage.all {P : τ → Prop} (start : ∀ m ∈ inits, P m)
    (next : ∀ m out reports, P m → react m = some (out, reports) → ∀ n ∈ out, P n)
    {line : List τ} (h : Lineage react inits line) : ∀ m ∈ line, P m := by
  induction h with
  | init member =>
      intro m only
      rw [List.mem_singleton] at only
      exact only ▸ start _ member
  | @sent m parent older out reports line handed sent ih =>
      intro n member
      rcases List.mem_cons.mp member with rfl | later
      · exact next parent out reports (ih parent List.mem_cons_self) handed n sent
      · exact ih n later

end Lineage

section Schedule
variable (react : Reaction τ ρ)

/-- Delivers the message in front of a line; what it sends takes its place. -/
def serve (line : List (Flight τ) × List (Report τ ρ)) : Option (List (Flight τ) × List (Report τ ρ)) :=
  match line.1 with
  | [] => none
  | f :: rest => (react f.msg).map fun r => (f.spawn r.1 ++ rest, line.2 ++ f.file r.2)

def serves : ℕ → List (Flight τ) × List (Report τ ρ) → Option (List (Flight τ) × List (Report τ ρ))
  | 0, line => some line
  | n + 1, line => (serve react line).bind (serves n)

def pool (line : List (Flight τ) × List (Report τ ρ)) : Pool τ ρ := ⟨line.1, line.2⟩

variable {react}

theorem serve_deliver {line line' : List (Flight τ) × List (Report τ ρ)} (served : serve react line = some line') :
    Deliver react (pool line) (pool line') := by
  obtain ⟨flying, log⟩ := line
  cases flying with
  | nil => cases served
  | cons f rest =>
      obtain ⟨⟨out, reports⟩, handed, rfl⟩ := Option.map_eq_some_iff.mp served
      have step : Deliver react ⟨f ::ₘ (rest : Multiset (Flight τ)), log⟩
          ⟨(rest : Multiset (Flight τ)) + f.spawn out, log ++ f.file reports⟩ := .mk handed
      rw [add_comm, Multiset.coe_add] at step
      exact step

/-- A schedule that can be computed is a run. -/
theorem serves_runs {n : ℕ} {line line' : List (Flight τ) × List (Report τ ρ)}
    (served : serves react n line = some line') : Runs react (pool line) (pool line') := by
  induction n generalizing line with
  | zero =>
      cases served
      exact .refl
  | succ n ih =>
      obtain ⟨next, first, later⟩ := Option.bind_eq_some_iff.mp served
      exact Relation.ReflTransGen.head (serve_deliver first) (ih later)

end Schedule

section Conservation
variable {react : Reaction τ ρ} {β : Type*}

/-- The value of a pool: what is in flight still owes, and what is filed has paid. -/
def Pool.worth (owed : Flight τ → Multiset β) (paid : Report τ ρ → Multiset β) (s : Pool τ ρ) :
    Multiset β :=
  (s.flying.map owed).sum + (s.log.map paid).sum

theorem Deliver.worth {owed : Flight τ → Multiset β} {paid : Report τ ρ → Multiset β}
    {s t : Pool τ ρ} (step : Deliver react s t)
    (balance : ∀ f ∈ s.flying, ∀ out reports, react f.msg = some (out, reports) →
      owed f = ((f.spawn out).map owed).sum + ((f.file reports).map paid).sum) :
    t.worth owed paid = s.worth owed paid := by
  cases step with
  | @mk f rest log out reports handed =>
      have same := balance f (Multiset.mem_cons_self f rest) out reports handed
      simp only [Pool.worth, Multiset.map_add, Multiset.sum_add, Multiset.map_cons,
        Multiset.sum_cons, List.map_append, List.sum_append, Multiset.map_coe, Multiset.sum_coe, same]
      abel

/-- Whatever the order of deliveries, the worth of the pool never changes. -/
theorem Runs.worth (owed : Flight τ → Multiset β) (paid : Report τ ρ → Multiset β)
    {P : Flight τ → Prop} {Q : Report τ ρ → Prop} (keeps : Preserves react P Q)
    (balance : ∀ f out reports, P f → react f.msg = some (out, reports) →
      owed f = ((f.spawn out).map owed).sum + ((f.file reports).map paid).sum)
    {s t : Pool τ ρ} (run : Runs react s t) (good : s.Good P Q) :
    t.worth owed paid = s.worth owed paid := by
  induction run with
  | refl => rfl
  | @tail u v before step ih =>
      have held := Reaches.good keeps (Runs.reaches before) good
      rw [step.worth fun f member out reports => balance f out reports (held.1 f member), ih]

end Conservation

section Termination
variable {react : Reaction τ ρ}

/-- If every reaction sends messages of lower rank only, each delivery or loss is a
move of the hydra game on the ranks in flight. -/
theorem Carry.cutExpand (rank : Flight τ → ℕ) {s t : Pool τ ρ} (step : Carry react s t)
    (lower : ∀ f ∈ s.flying, ∀ out reports, react f.msg = some (out, reports) →
      ∀ g ∈ f.spawn out, rank g < rank f) :
    Relation.CutExpand (· < ·) (t.flying.map rank) (s.flying.map rank) := by
  cases step with
  | deliver step =>
      cases step with
      | @mk f rest log out reports handed =>
          refine ⟨((f.spawn out : List (Flight τ)) : Multiset (Flight τ)).map rank, rank f, ?_, ?_⟩
          · intro n member
            obtain ⟨g, sent, rfl⟩ := Multiset.mem_map.mp member
            exact lower f (Multiset.mem_cons_self f rest) out reports handed g (Multiset.mem_coe.mp sent)
          · rw [Multiset.map_add, Multiset.map_cons, add_assoc, add_comm _ {rank f}, ← add_assoc,
              add_comm _ {rank f}, Multiset.singleton_add]
  | lose f rest log =>
      refine ⟨0, rank f, by simp, ?_⟩
      rw [Multiset.map_cons, add_zero, add_comm, Multiset.singleton_add]

/-- No infinite run without duplication: deliveries and losses use the ranks up. -/
theorem no_endless_run {P : Flight τ → Prop} {Q : Report τ ρ → Prop} (rank : Flight τ → ℕ)
    (keeps : Preserves react P Q)
    (lower : ∀ f out reports, P f → react f.msg = some (out, reports) →
      ∀ g ∈ f.spawn out, rank g < rank f)
    (run : ℕ → Pool τ ρ) (good : (run 0).Good P Q) : ¬ ∀ n, Carry react (run n) (run (n + 1)) := by
  intro moves
  have held : ∀ n, (run n).Good P Q := by
    intro n
    induction n with
    | zero => exact good
    | succ n ih => exact (moves n).step.good keeps ih
  have down : ∀ n, Relation.CutExpand (· < ·) ((run (n + 1)).flying.map rank)
      ((run n).flying.map rank) := by
    intro n
    exact (moves n).cutExpand rank fun f member out reports => lower f out reports ((held n).1 f member)
  have founded : WellFounded (Relation.CutExpand fun m n : ℕ => m < n) := Nat.lt_wfRel.wf.cutExpand
  exact (wellFounded_iff_isEmpty_descending_chain.mp founded).false
    ⟨fun n => (run n).flying.map rank, down⟩

end Termination

section Simulation
variable {τ' ρ' : Type*}

def Flight.map (g : τ → τ') (f : Flight τ) : Flight τ' := ⟨f.origin, f.trail.map g, g f.msg⟩

def Report.map (g : τ → τ') (h : ρ → ρ') (r : Report τ ρ) : Report τ' ρ' :=
  ⟨r.origin, r.trail.map g, h r.out⟩

def Pool.map (g : τ → τ') (h : ρ → ρ') (s : Pool τ ρ) : Pool τ' ρ' :=
  ⟨s.flying.map (Flight.map g), s.log.map (Report.map g h)⟩

theorem spawn_map (g : τ → τ') (f : Flight τ) (out : List τ) :
    (f.map g).spawn (out.map g) = (f.spawn out).map (Flight.map g) := by
  simp only [Flight.spawn, List.map_map]
  rfl

theorem file_map (g : τ → τ') (h : ρ → ρ') (f : Flight τ) (reports : List ρ) :
    (f.map g).file (reports.map h) = (f.file reports).map (Report.map g h) := by
  simp only [Flight.file, List.map_map]
  rfl

theorem mapIdx_map_map {α β γ δ : Type*} (l : List α) (pre : α → β) (number : ℕ → β → γ)
    (post : γ → δ) :
    ((l.map pre).mapIdx number).map post = l.mapIdx fun i a => post (number i (pre a)) := by
  apply List.ext_getElem?
  intro i
  simp only [List.getElem?_map, List.getElem?_mapIdx, Option.map_map]
  rfl

theorem launch_map (g : τ → τ') (h : ρ → ρ') (inits : List τ) :
    (launch (inits.map g) : Pool τ' ρ') = (launch inits : Pool τ ρ).map g h := by
  have left := mapIdx_map_map inits g (fun i m => (⟨i, [], m⟩ : Flight τ')) id
  have right := mapIdx_map_map inits id (fun i m => (⟨i, [], m⟩ : Flight τ)) (Flight.map g)
  rw [List.map_id] at left right
  simp only [launch, Pool.map, Multiset.map_coe, List.map_nil, left, right]
  rfl

/-- `small` does through `g` and `h` everything that `big` does on the messages in `Valid`. -/
def Simulates (Valid : τ → Prop) (g : τ → τ') (h : ρ → ρ') (small : Reaction τ ρ)
    (big : Reaction τ' ρ') : Prop :=
  ∀ m out' reports', Valid m → big (g m) = some (out', reports') →
    ∃ out reports, small m = some (out, reports) ∧ out' = out.map g ∧ reports' = reports.map h

variable {Valid : τ → Prop} {g : τ → τ'} {h : ρ → ρ'} {small : Reaction τ ρ} {big : Reaction τ' ρ'}

/-- What is seen in flight belongs to a flight. -/
theorem flight_of_map {β : Type*} {see : Flight τ → β} {s : Pool τ ρ} {b : β} {rest : Multiset β}
    (same : s.flying.map see = b ::ₘ rest) :
    ∃ f others, s = ⟨f ::ₘ others, s.log⟩ ∧ see f = b ∧ others.map see = rest := by
  classical
  obtain ⟨f, member, image, others⟩ := (Multiset.map_eq_cons _ _ _ _).mpr same
  refine ⟨f, s.flying.erase f, ?_, image, others⟩
  rw [Multiset.cons_erase member]

theorem cons_of_map_flying {s : Pool τ ρ} {f' : Flight τ'} {rest' : Multiset (Flight τ')}
    {log' : List (Report τ' ρ')} (same : s.map g h = ⟨f' ::ₘ rest', log'⟩) :
    ∃ f rest, s = ⟨f ::ₘ rest, s.log⟩ ∧ f.map g = f' ∧ rest.map (Flight.map g) = rest' ∧
      s.log.map (Report.map g h) = log' := by
  obtain ⟨f, rest, whole, image, others⟩ := flight_of_map (congrArg Pool.flying same)
  exact ⟨f, rest, whole, image, others, congrArg Pool.log same⟩

theorem Simulates.deliver (sim : Simulates Valid g h small big) {s : Pool τ ρ} {t' : Pool τ' ρ'}
    (valid : ∀ f ∈ s.flying, Valid f.msg) (step : Deliver big (s.map g h) t') :
    ∃ t, Deliver small s t ∧ t' = t.map g h := by
  generalize image : s.map g h = s' at step
  cases step with
  | @mk f' rest' log' out' reports' handed =>
      obtain ⟨f, rest, whole, rfl, rfl, rfl⟩ := cons_of_map_flying image
      have member : f ∈ s.flying := by rw [whole]; exact Multiset.mem_cons_self f rest
      obtain ⟨out, reports, reacts, rfl, rfl⟩ := sim f.msg out' reports' (valid f member) handed
      refine ⟨⟨rest + f.spawn out, s.log ++ f.file reports⟩, ?_, ?_⟩
      · rw [whole]; exact .mk reacts
      · simp only [Pool.map, Multiset.map_add, spawn_map, file_map, Multiset.map_coe, List.map_append]

theorem Simulates.step (sim : Simulates Valid g h small big) {s : Pool τ ρ} {t' : Pool τ' ρ'}
    (valid : ∀ f ∈ s.flying, Valid f.msg) (step : Step big (s.map g h) t') :
    ∃ t, Step small s t ∧ t' = t.map g h := by
  generalize image : s.map g h = s' at step
  cases step with
  | deliver step =>
      obtain ⟨t, moved, same⟩ := sim.deliver valid (image ▸ step)
      exact ⟨t, .deliver moved, same⟩
  | lose f' rest' log' =>
      obtain ⟨f, rest, whole, rfl, rfl, rfl⟩ := cons_of_map_flying image
      refine ⟨⟨rest, s.log⟩, ?_, rfl⟩
      rw [whole]; exact .lose f rest s.log
  | duplicate f' rest' log' =>
      obtain ⟨f, rest, whole, rfl, rfl, rfl⟩ := cons_of_map_flying image
      refine ⟨⟨f ::ₘ f ::ₘ rest, s.log⟩, ?_, ?_⟩
      · rw [whole]; exact .duplicate f rest s.log
      · simp only [Pool.map, Multiset.map_cons]

theorem Simulates.carry (sim : Simulates Valid g h small big) {s : Pool τ ρ} {t' : Pool τ' ρ'}
    (valid : ∀ f ∈ s.flying, Valid f.msg) (step : Carry big (s.map g h) t') :
    ∃ t, Carry small s t ∧ t' = t.map g h := by
  generalize image : s.map g h = s' at step
  cases step with
  | deliver step =>
      obtain ⟨t, moved, same⟩ := sim.deliver valid (image ▸ step)
      exact ⟨t, .deliver moved, same⟩
  | lose f' rest' log' =>
      obtain ⟨f, rest, whole, rfl, rfl, rfl⟩ := cons_of_map_flying image
      refine ⟨⟨rest, s.log⟩, ?_, rfl⟩
      rw [whole]; exact .lose f rest s.log

/-- An endless run of the simulated system is the image of an endless run. -/
theorem Simulates.endless (sim : Simulates Valid g h small big)
    {P : Flight τ → Prop} {Q : Report τ ρ → Prop} (keeps : Preserves small P Q)
    (valid : ∀ f, P f → Valid f.msg) {s : Pool τ ρ} (good : s.Good P Q) {run' : ℕ → Pool τ' ρ'}
    (start : run' 0 = s.map g h) (moves : ∀ n, Carry big (run' n) (run' (n + 1))) :
    ∃ run : ℕ → Pool τ ρ, run 0 = s ∧ ∀ n, Carry small (run n) (run (n + 1)) := by
  have step : ∀ n (t : { t : Pool τ ρ // t.Good P Q ∧ run' n = t.map g h }),
      ∃ u : { u : Pool τ ρ // u.Good P Q ∧ run' (n + 1) = u.map g h }, Carry small t.1 u.1 := by
    rintro n ⟨t, held, image⟩
    obtain ⟨u, moved, same⟩ := sim.carry (fun f member => valid f (held.1 f member)) (image ▸ moves n)
    exact ⟨⟨u, moved.step.good keeps held, same⟩, moved⟩
  choose next moved using step
  exact ⟨fun n => (Nat.rec ⟨s, good, start⟩ next n : { t : Pool τ ρ // t.Good P Q ∧ run' n = t.map g h }).1,
    rfl, fun n => moved n _⟩

/-- Every run of the simulated system from an image is the image of a run. -/
theorem Simulates.reaches (sim : Simulates Valid g h small big)
    {P : Flight τ → Prop} {Q : Report τ ρ → Prop} (keeps : Preserves small P Q)
    (valid : ∀ f, P f → Valid f.msg) {s : Pool τ ρ} {t' : Pool τ' ρ'} (good : s.Good P Q)
    (run : Reaches big (s.map g h) t') : ∃ t, Reaches small s t ∧ t' = t.map g h := by
  induction run with
  | refl => exact ⟨s, .refl, rfl⟩
  | tail _ step ih =>
      obtain ⟨t, before, rfl⟩ := ih
      have held := before.good keeps good
      obtain ⟨u, moved, same⟩ := sim.step (fun f member => valid f (held.1 f member)) step
      exact ⟨u, before.tail moved, same⟩

theorem Simulates.runs (sim : Simulates Valid g h small big)
    {P : Flight τ → Prop} {Q : Report τ ρ → Prop} (keeps : Preserves small P Q)
    (valid : ∀ f, P f → Valid f.msg) {s : Pool τ ρ} {t' : Pool τ' ρ'} (good : s.Good P Q)
    (run : Runs big (s.map g h) t') : ∃ t, Runs small s t ∧ t' = t.map g h := by
  induction run with
  | refl => exact ⟨s, .refl, rfl⟩
  | tail _ step ih =>
      obtain ⟨t, before, rfl⟩ := ih
      have held := Reaches.good keeps (Runs.reaches before) good
      obtain ⟨u, moved, same⟩ := sim.deliver (fun f member => valid f (held.1 f member)) step
      exact ⟨u, before.tail moved, same⟩

end Simulation
end Soup

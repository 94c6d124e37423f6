/-
# Runs of partial transition systems

A system is given by a partial step function `step : σ → α → Option σ`: the
action `a` is refused in the state `s` when `step s a = none`.  A run is the
execution of a finite schedule of actions.

The rules of this file are the ones every development over such a system needs:

* `HoldsAlong.of_step` : what every step preserves holds along every run;
* `holdsAlong_of_meetsAlong` : the same when the steps only preserve it under a
  condition on the state and the action, and the run meets that condition;
* `meetsAlong_of_meetsAlong`, `meetsAlong_iff_meetsAlong` : the same for one condition and another;
* `holdsAlong_iff_meetsAlong_of_meetsAlong`, `holdsAlong_iff_meetsAlong` : the exact
  version, for a condition that every step meets precisely when it preserves the property.
-/
import Mathlib

namespace TransitionRun

variable {σ α : Type*}

/-! ## Runs -/

/-- Execute a schedule of actions; `none` when some action is refused. -/
def run (step : σ → α → Option σ) : σ → List α → Option σ
  | s, [] => some s
  | s, a :: as => (step s a).bind fun s' => run step s' as

@[simp] theorem run_nil (step : σ → α → Option σ) (s : σ) : run step s [] = some s := rfl

variable {C D : σ → α → Prop} {I P : σ → Prop} {as : List α} {s t : σ}

theorem run_cons_eq_some {step : σ → α → Option σ} {a : α} :
    run step s (a :: as) = some t ↔ ∃ s', step s a = some s' ∧ run step s' as = some t := by
  simp [run, Option.bind_eq_some_iff]

/-! ## Properties along a run -/

/-- The property holds in every state the schedule visits. -/
def HoldsAlong (step : σ → α → Option σ) (P : σ → Prop) : σ → List α → Prop
  | s, [] => P s
  | s, a :: as => P s ∧ ∀ s', step s a = some s' → HoldsAlong step P s' as

/-- Every step the schedule takes meets the condition on the state before it and
the action. -/
def MeetsAlong (step : σ → α → Option σ) (C : σ → α → Prop) : σ → List α → Prop
  | _, [] => True
  | s, a :: as => ∀ s', step s a = some s' → C s a ∧ MeetsAlong step C s' as

/-- Whether the steps of a schedule meet a condition is found by taking them. -/
instance decidableMeetsAlong {step : σ → α → Option σ} {C : σ → α → Prop}
    [∀ s a, Decidable (C s a)] : ∀ s as, Decidable (MeetsAlong step C s as)
  | _, [] => isTrue trivial
  | s, a :: as =>
    match hstep : step s a with
    | none => isTrue fun s' hs' => by rw [hstep] at hs'; cases hs'
    | some t =>
      have : Decidable (MeetsAlong step C t as) := decidableMeetsAlong t as
      decidable_of_iff (C s a ∧ MeetsAlong step C t as)
        ⟨fun h s' hs' => Option.some.inj (hstep.symm.trans hs') ▸ h, fun h => h t hstep⟩

theorem MeetsAlong.cons {step : σ → α → Option σ} {a : α}
    (hstep : step s a = some t) (hC : C s a) (hrest : MeetsAlong step C t as) :
    MeetsAlong step C s (a :: as) := by
  intro s' hs'
  rw [hstep, Option.some.injEq] at hs'
  exact ⟨hC, hs' ▸ hrest⟩

theorem MeetsAlong.and {step : σ → α → Option σ}
    (hC : MeetsAlong step C s as) (hD : MeetsAlong step D s as) :
    MeetsAlong step (fun s a => C s a ∧ D s a) s as := by
  induction as generalizing s with
  | nil => trivial
  | cons a as ih =>
    intro s' hs'
    obtain ⟨hCa, hCrest⟩ := hC s' hs'
    obtain ⟨hDa, hDrest⟩ := hD s' hs'
    exact ⟨⟨hCa, hDa⟩, ih hCrest hDrest⟩

theorem MeetsAlong.of_append {step : σ → α → Option σ} {bs : List α}
    (h : MeetsAlong step C s (as ++ bs)) (hrun : run step s as = some t) : MeetsAlong step C t bs := by
  induction as generalizing s with
  | nil =>
    rw [run_nil, Option.some.injEq] at hrun
    exact hrun ▸ h
  | cons a as ih =>
    obtain ⟨s', hstep, hrest⟩ := run_cons_eq_some.mp hrun
    exact ih (h s' hstep).2 hrest

theorem HoldsAlong.start {step : σ → α → Option σ} (h : HoldsAlong step P s as) : P s := by
  cases as with
  | nil => exact h
  | cons a as => exact h.1

theorem HoldsAlong.finish {step : σ → α → Option σ}
    (h : HoldsAlong step P s as) (hrun : run step s as = some t) : P t := by
  induction as generalizing s with
  | nil =>
    rw [run_nil, Option.some.injEq] at hrun
    exact hrun ▸ h
  | cons a as ih =>
    obtain ⟨s', hstep, hrest⟩ := run_cons_eq_some.mp hrun
    exact ih (h.2 s' hstep) hrest

theorem HoldsAlong.imp {step : σ → α → Option σ} {Q : σ → Prop} (hPQ : ∀ s, P s → Q s)
    (h : HoldsAlong step P s as) : HoldsAlong step Q s as := by
  induction as generalizing s with
  | nil => exact hPQ s h
  | cons a as ih => exact ⟨hPQ s h.1, fun s' hstep => ih (h.2 s' hstep)⟩

/-- **The conditional invariant rule.**  If a step preserves `P` whenever it meets
the condition `C`, then `P` holds along every run whose steps meet `C`. -/
theorem holdsAlong_of_meetsAlong {step : σ → α → Option σ}
    (hstep : ∀ s a s', P s → C s a → step s a = some s' → P s')
    (hs : P s) (hC : MeetsAlong step C s as) :
    HoldsAlong step P s as := by
  induction as generalizing s with
  | nil => exact hs
  | cons a as ih =>
    refine ⟨hs, fun s' h => ?_⟩
    obtain ⟨hCa, hCrest⟩ := hC s' h
    exact ih (hstep s a s' hs hCa h) hCrest

/-- **The invariant rule.**  What every step preserves holds along every run. -/
theorem HoldsAlong.of_step {step : σ → α → Option σ}
    (hstep : ∀ s a s', P s → step s a = some s' → P s')
    (hs : P s) (as : List α) : HoldsAlong step P s as := by
  induction as generalizing s with
  | nil => exact hs
  | cons a as ih => exact ⟨hs, fun s' h => ih (hstep s a s' hs h)⟩

theorem run_invariant {step : σ → α → Option σ} (hstep : ∀ s a s', P s → step s a = some s' → P s')
    (hs : P s) (hrun : run step s as = some t) : P t :=
  (HoldsAlong.of_step hstep hs as).finish hrun

/-- A run that loses a property has a step that loses it. -/
theorem exists_leaving_step {step : σ → α → Option σ}
    (hs : P s) (hrun : run step s as = some t) (ht : ¬ P t) :
    ∃ before a after u u', as = before ++ a :: after ∧ run step s before = some u ∧
      step u a = some u' ∧ P u ∧ ¬ P u' := by
  induction as generalizing s with
  | nil =>
    rw [run_nil, Option.some.injEq] at hrun
    exact absurd (hrun ▸ hs) ht
  | cons a as ih =>
    obtain ⟨s', hstep, hrest⟩ := run_cons_eq_some.mp hrun
    by_cases hs' : P s'
    · obtain ⟨before, b, after, u, u', has, hbefore, hu⟩ := ih hs' hrest
      refine ⟨a :: before, b, after, u, u', ?_, ?_, hu⟩
      · rw [has, List.cons_append]
      · exact run_cons_eq_some.mpr ⟨s', hstep, hbefore⟩
    · exact ⟨[], a, as, s, s', rfl, rfl, hstep, hs, hs'⟩

theorem meetsAlong_of_forall {step : σ → α → Option σ} {A : α → Prop} (s : σ)
    (hA : ∀ a ∈ as, A a) : MeetsAlong step (fun _ a => A a) s as := by
  induction as generalizing s with
  | nil => trivial
  | cons a as ih =>
    obtain ⟨ha, has⟩ := List.forall_mem_cons.mp hA
    exact fun s' _ => ⟨ha, ih s' has⟩

/-- **The conditional rule for steps.**  If, from states that satisfy the invariant `I`, a step that meets
`C` meets `D` and keeps `I`, then a run whose steps meet `C` meets `D`. -/
theorem meetsAlong_of_meetsAlong {step : σ → α → Option σ}
    (hstep : ∀ s a s', I s → C s a → step s a = some s' → D s a ∧ I s')
    (hIs : I s) (h : MeetsAlong step C s as) : MeetsAlong step D s as := by
  induction as generalizing s with
  | nil => trivial
  | cons a as ih =>
    intro s' hs'
    obtain ⟨hC, hrest⟩ := h s' hs'
    obtain ⟨hD, hIs'⟩ := hstep s a s' hIs hC hs'
    exact ⟨hD, ih hIs' hrest⟩

/-- **The exact rule for steps.**  If, from states that satisfy the invariant `I`, a step meets `D`
precisely when it meets `C`, and a step that meets it keeps `I`, then a run meets `D` precisely when it
meets `C`. -/
theorem meetsAlong_iff_meetsAlong {step : σ → α → Option σ}
    (hI : ∀ s a s', I s → D s a → step s a = some s' → I s')
    (hexact : ∀ s a s', I s → step s a = some s' → (D s a ↔ C s a))
    (hIs : I s) (as : List α) : MeetsAlong step D s as ↔ MeetsAlong step C s as := by
  induction as generalizing s with
  | nil => exact Iff.rfl
  | cons a as ih =>
    constructor
    · intro h s' hstep
      obtain ⟨hD, hrest⟩ := h s' hstep
      exact ⟨(hexact s a s' hIs hstep).mp hD, (ih (hI s a s' hIs hD hstep)).mp hrest⟩
    · intro h s' hstep
      obtain ⟨hC, hrest⟩ := h s' hstep
      have hD : D s a := (hexact s a s' hIs hstep).mpr hC
      exact ⟨hD, (ih (hI s a s' hIs hD hstep)).mpr hrest⟩

/-- **The exact rule, under a condition.**  If, from states that satisfy the invariant `I` and the
property `P`, a step that meets `D` leads to a state with `P` precisely when it meets `C`, and keeps `I`
when it does, then `P` holds along a run whose steps meet `D` precisely when they meet `C`. -/
theorem holdsAlong_iff_meetsAlong_of_meetsAlong {step : σ → α → Option σ}
    (hI : ∀ s a s', D s a → I s → P s → P s' → step s a = some s' → I s')
    (hexact : ∀ s a s', D s a → I s → P s → step s a = some s' → (P s' ↔ C s a))
    (hIs : I s) (hPs : P s) (hD : MeetsAlong step D s as) :
    HoldsAlong step P s as ↔ MeetsAlong step C s as := by
  induction as generalizing s with
  | nil => exact ⟨fun _ => trivial, fun _ => hPs⟩
  | cons a as ih =>
    constructor
    · rintro ⟨-, h⟩ s' hstep
      obtain ⟨hDa, hDrest⟩ := hD s' hstep
      have hP' : P s' := (h s' hstep).start
      exact ⟨(hexact s a s' hDa hIs hPs hstep).mp hP',
        (ih (hI s a s' hDa hIs hPs hP' hstep) hP' hDrest).mp (h s' hstep)⟩
    · intro h
      refine ⟨hPs, fun s' hstep => ?_⟩
      obtain ⟨hDa, hDrest⟩ := hD s' hstep
      obtain ⟨hCa, hrest⟩ := h s' hstep
      have hP' : P s' := (hexact s a s' hDa hIs hPs hstep).mpr hCa
      exact (ih (hI s a s' hDa hIs hPs hP' hstep) hP' hDrest).mpr hrest

/-- **The exact rule, for some actions.**  If, from states that satisfy the invariant `I` and the
property `P`, a step of an action in `A` leads to a state with `P` precisely when it meets the
condition `C`, then `P` holds along a run of such actions precisely when its steps meet `C`. -/
theorem holdsAlong_iff_meetsAlong_of_forall {step : σ → α → Option σ} {A : α → Prop}
    (hI : ∀ s a s', A a → I s → step s a = some s' → I s')
    (hexact : ∀ s a s', A a → I s → P s → step s a = some s' → (P s' ↔ C s a))
    (hIs : I s) (hPs : P s) (hA : ∀ a ∈ as, A a) :
    HoldsAlong step P s as ↔ MeetsAlong step C s as :=
  holdsAlong_iff_meetsAlong_of_meetsAlong (fun s a s' ha hs _ _ => hI s a s' ha hs) hexact hIs hPs
    (meetsAlong_of_forall s hA)

/-- **The exact rule.**  If, from states that satisfy the invariant `I` and the
property `P`, a step leads to a state with `P` precisely when it meets the
condition `C`, then `P` holds along a run precisely when its steps meet `C`. -/
theorem holdsAlong_iff_meetsAlong {step : σ → α → Option σ}
    (hI : ∀ s a s', I s → step s a = some s' → I s')
    (hexact : ∀ s a s', I s → P s → step s a = some s' → (P s' ↔ C s a))
    (hIs : I s) (hPs : P s) (as : List α) :
    HoldsAlong step P s as ↔ MeetsAlong step C s as := by
  apply holdsAlong_iff_meetsAlong_of_forall (A := fun _ => True) (I := I)
  · intro s a s' _ hs hstep
    exact hI s a s' hs hstep
  · intro s a s' _ hs hP hstep
    exact hexact s a s' hs hP hstep
  · exact hIs
  · exact hPs
  · exact fun _ _ => trivial

end TransitionRun

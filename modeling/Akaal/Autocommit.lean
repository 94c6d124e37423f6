/-
# Statements that take effect one by one

Statements that are executed one after another, each in a transaction of its own, up to the first one
that raises; what was executed before it stays.

* `restores_cons_iff` : what is left of a state when one of the statements raises, statement by
  statement.
-/
import Mathlib.Logic.Basic

namespace Autocommit

variable {σ ε : Type*}

/-- The statements in order, up to the first one that raises. -/
def execute : List (σ → Except ε σ) → σ → Except ε Unit × σ
  | [], s => (.ok (), s)
  | st :: sts, s =>
    match st s with
    | .error e => (.error e, s)
    | .ok s' => execute sts s'

/-- A call that raises leaves everything as it was. -/
def Atomic (call : σ → Except ε Unit × σ) (s : σ) : Prop :=
  ∀ e, (call s).1 = .error e → (call s).2 = s

/-- When one of the statements raises from a state, it leaves another state. -/
def Restores (sts : List (σ → Except ε σ)) (s target : σ) : Prop :=
  ∀ e, (execute sts s).1 = .error e → (execute sts s).2 = target

theorem restores_nil (s target : σ) : Restores ([] : List (σ → Except ε σ)) s target := nofun

/-- **Statement by statement**: one that raises leaves the state before it, and after one that does not
raise the others decide. -/
theorem restores_cons_iff (st : σ → Except ε σ) (sts : List (σ → Except ε σ)) (s target : σ) :
    Restores (st :: sts) s target ↔
      (∀ e, st s = .error e → s = target) ∧ ∀ s', st s = .ok s' → Restores sts s' target := by
  unfold Restores
  rw [execute]
  cases st s with
  | error e =>
    constructor
    · intro h
      exact ⟨fun _ _ => h e rfl, nofun⟩
    · rintro ⟨h, -⟩ _ -
      exact h e rfl
  | ok s' =>
    constructor
    · intro h
      refine ⟨nofun, ?_⟩
      rintro _ ⟨⟩
      exact h
    · rintro ⟨-, h⟩
      exact h s' rfl

end Autocommit

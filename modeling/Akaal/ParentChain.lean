/-
# Chains of parents

A partial function `next` on a type leads from each element to at most one other.  A walk follows it
from an element on, keeps what it has visited, and gives up when it meets an element again or when it
has taken too many steps.

* `mem_walk_iff` : a walk that ends has visited what the element reaches.
-/
import Mathlib

namespace ParentChain

variable {α : Type*} (next : α → Option α)

/-! ## Chains -/

/-- What an element reaches in a number of steps. -/
def reach : ℕ → α → Option α
  | 0, x => some x
  | n + 1, x => (next x).bind (reach n)

/-! ## Walks -/

/-- Why a walk gives up. -/
inductive WalkError (α : Type*) where
  | cycle (x : α)
  | depth
  deriving DecidableEq

variable [DecidableEq α]

/-- Walk on from an element, with what has been visited, for at most a number of steps. -/
def walk : ℕ → List α → Option α → Except (WalkError α) (List α)
  | _, visited, none => .ok visited
  | 0, visited, some x => if x ∈ visited then .error (.cycle x) else .error .depth
  | n + 1, visited, some x =>
    if x ∈ visited then .error (.cycle x) else walk n (x :: visited) (next x)

@[simp] theorem walk_none (n : ℕ) (visited : List α) : walk next n visited none = .ok visited := by
  cases n <;> rfl

/-- A walk that ends has visited what it started with and what the element reaches. -/
theorem mem_walk_iff {n : ℕ} {visited vs : List α} {x : α}
    (h : walk next n visited (some x) = .ok vs) (y : α) :
    y ∈ vs ↔ y ∈ visited ∨ ∃ k, reach next k x = some y := by
  induction n generalizing visited x with
  | zero =>
    rw [walk] at h
    split_ifs at h
  | succ n ih =>
    rw [walk] at h
    split_ifs at h
    -- The element itself is reached in no step, the others in one step more.
    have hreach : (∃ k, reach next k x = some y) ↔
        x = y ∨ ∃ k, (next x).bind (reach next k) = some y := by
      constructor
      · rintro ⟨k, hk⟩
        cases k with
        | zero => exact .inl (Option.some.inj hk)
        | succ k => exact .inr ⟨k, hk⟩
      · rintro (rfl | ⟨k, hk⟩)
        · exact ⟨0, rfl⟩
        · exact ⟨k + 1, hk⟩
    rw [hreach]
    cases hnext : next x with
    | none =>
      rw [hnext, walk_none, Except.ok.injEq] at h
      rw [← h]
      simp [eq_comm, or_comm]
    | some z =>
      rw [hnext] at h
      rw [ih h, List.mem_cons, or_assoc, or_left_comm, eq_comm]
      rfl

end ParentChain

/-
# Interleaved calls over a store

Calls run one atomic step at a time, in any order, over a store that they share and that may change
outside of them.  What a call relies on must withstand the steps of the others.

* `Rules` : what the steps of one call owe to itself and to the others;
* `together_step` : one step, of any call or outside of them, keeps what all rely on;
* `holdsAlong_together` : so does every interleaving.
-/
import Akaal.TransitionRun

open TransitionRun

namespace InterleavedCalls

variable {σ κ ι ε : Type*}

/-- The store and where each call stands. -/
structure Config (σ κ ι : Type*) where
  store : σ
  calls : ι → κ

/-- Who takes the next step: a call, or something outside. -/
inductive Action (ι ε : Type*) where
  | exec (i : ι)
  | outside (e : ε)

section Steps

variable [DecidableEq ι] (exec : σ → κ → Option (σ × κ)) (outside : σ → ε → σ)

/-- One step of an interleaving; a call that has ended takes none. -/
def step (c : Config σ κ ι) : Action ι ε → Option (Config σ κ ι)
  | .exec i => (exec c.store (c.calls i)).map fun next =>
    { store := next.1, calls := Function.update c.calls i next.2 }
  | .outside e => some { c with store := outside c.store e }

/-- What the steps owe: the store changes as calls rely on, a call that takes a step stays as it should
be, and it stays apart from the others. -/
structure Rules (Rely : σ → σ → Prop) (Good : σ → κ → Prop) (Apart : κ → κ → Prop) : Prop where
  stable : ∀ {s s' k}, Rely s s' → Good s k → Good s' k
  outside : ∀ s e, Rely s (outside s e)
  rely : ∀ {s k s' k'}, Good s k → exec s k = some (s', k') → Rely s s'
  good : ∀ {s k s' k'}, Good s k → exec s k = some (s', k') → Good s' k'
  apart : ∀ {s k s' k' l}, Good s k → Good s l → Apart k l → exec s k = some (s', k') → Apart k' l
  symm : ∀ {k l}, Apart k l → Apart l k

/-- All calls are as they should be, and any two are apart. -/
structure Together (Good : σ → κ → Prop) (Apart : κ → κ → Prop) (c : Config σ κ ι) : Prop where
  good : ∀ i, Good c.store (c.calls i)
  apart : ∀ i j, i ≠ j → Apart (c.calls i) (c.calls j)

variable {exec outside} {Rely : σ → σ → Prop} {Good : σ → κ → Prop} {Apart : κ → κ → Prop}

/-- **One step** keeps what all calls rely on. -/
theorem together_step (hrules : Rules exec outside Rely Good Apart) {c c' : Config σ κ ι}
    {a : Action ι ε} (hc : Together Good Apart c) (h : step exec outside c a = some c') :
    Together Good Apart c' := by
  cases a with
  | outside e =>
    cases h
    exact ⟨fun i => hrules.stable (hrules.outside c.store e) (hc.good i), hc.apart⟩
  | exec i =>
    obtain ⟨⟨s', k'⟩, hexec, rfl⟩ := Option.map_eq_some_iff.mp h
    have hrely := hrules.rely (hc.good i) hexec
    have hmoved : ∀ j, j ≠ i → Apart k' (c.calls j) := fun j hj =>
      hrules.apart (hc.good i) (hc.good j) (hc.apart i j hj.symm) hexec
    constructor
    · intro j
      dsimp only
      by_cases hj : j = i
      · subst hj
        rw [Function.update_self]
        exact hrules.good (hc.good j) hexec
      · rw [Function.update_of_ne hj]
        exact hrules.stable hrely (hc.good j)
    · intro j l hne
      dsimp only
      by_cases hj : j = i
      · subst hj
        rw [Function.update_self, Function.update_of_ne hne.symm]
        exact hmoved l hne.symm
      · rw [Function.update_of_ne hj]
        by_cases hl : l = i
        · subst hl
          rw [Function.update_self]
          exact hrules.symm (hmoved j hj)
        · rw [Function.update_of_ne hl]
          exact hc.apart j l hne

/-- **Every interleaving** keeps what all calls rely on. -/
theorem holdsAlong_together (hrules : Rules exec outside Rely Good Apart) {c : Config σ κ ι}
    (hc : Together Good Apart c) (schedule : List (Action ι ε)) :
    HoldsAlong (step exec outside) (Together Good Apart) c schedule :=
  HoldsAlong.of_step (fun _ _ _ hc h => together_step hrules hc h) hc schedule

end Steps

end InterleavedCalls

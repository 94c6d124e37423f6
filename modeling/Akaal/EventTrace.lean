/-
# Traces of machines that answer every call

A machine is given by a total step `step : σ → α → ε × σ`: in the state `s` the call `a` has an
answer and leads to a state.  The trace of a schedule is the list of its answers.

* `trace_append`, `final_append` : a schedule splits at a cut;
* `trace_eq_append_cons` : a cut of the trace is a cut of the schedule.
-/
import Mathlib

namespace EventTrace

variable {σ α ε : Type*}

/-- The state a schedule ends in. -/
def final (step : σ → α → ε × σ) (s : σ) (as : List α) : σ := as.foldl (fun t a => (step t a).2) s

/-- The answers of a schedule. -/
def trace (step : σ → α → ε × σ) : σ → List α → List ε
  | _, [] => []
  | s, a :: as => (step s a).1 :: trace step (step s a).2 as

variable {step : σ → α → ε × σ}

@[simp] theorem final_cons (s : σ) (a : α) (as : List α) :
    final step s (a :: as) = final step (step s a).2 as := rfl

@[simp] theorem trace_cons (s : σ) (a : α) (as : List α) :
    trace step s (a :: as) = (step s a).1 :: trace step (step s a).2 as := rfl

/-- The state after two schedules, one after the other. -/
theorem final_append (s : σ) (as bs : List α) :
    final step s (as ++ bs) = final step (final step s as) bs := List.foldl_append

/-- The answers of two schedules, one after the other. -/
theorem trace_append (s : σ) (as bs : List α) :
    trace step s (as ++ bs) = trace step s as ++ trace step (final step s as) bs := by
  induction as generalizing s with
  | nil => rfl
  | cons a as ih => rw [List.cons_append, trace_cons, ih, trace_cons, List.cons_append, final_cons]

/-- **A cut of the trace is a cut of the schedule.** -/
theorem trace_eq_append_cons {s : σ} {as : List α} {es es' : List ε} {e : ε}
    (h : trace step s as = es ++ e :: es') :
    ∃ bs a bs', as = bs ++ a :: bs' ∧ trace step s bs = es ∧ (step (final step s bs) a).1 = e ∧
      trace step (step (final step s bs) a).2 bs' = es' := by
  induction es generalizing s as with
  | nil =>
    cases as with
    | nil => cases h
    | cons a as =>
      rw [trace_cons, List.nil_append, List.cons.injEq] at h
      exact ⟨[], a, as, rfl, rfl, h.1, h.2⟩
  | cons d es ih =>
    cases as with
    | nil => cases h
    | cons a as =>
      rw [trace_cons, List.cons_append, List.cons.injEq] at h
      obtain ⟨bs, b, bs', has, htrace, hanswer, hrest⟩ := ih h.2
      refine ⟨a :: bs, b, bs', ?_, ?_, hanswer, hrest⟩
      · rw [has, List.cons_append]
      · rw [trace_cons, htrace, h.1]

end EventTrace

/-
# Writing a batch with retries

`TransportAuthority._write_batch_with_retry` of `transport/api.py`: each attempt checks the
fencing token and the authorization, writes the batch, checks them again and commits; a
failed attempt is rolled back if the writer's flag says that a transaction is open, its
outcome is looked up, and the next attempt follows.

What the environment decides in an attempt is an `Attempt`; a script gives one for each
attempt number.

* `retrySafe_iff` : a call that returns has committed the batch, and one that raises a fencing
  error leaves nothing to become durable, exactly when every attempt meets `AttemptSafe`;
* `not_retrySafe_of_fenced_write` : a token that becomes invalid between the write and the
  commit leaves the rows in the open transaction.
-/
import Akaal.TargetWriter

namespace Transport

variable {ρ : Type*}

/-! ## The call -/

/-- The arguments of the call, and what the writer promises about repeated writes. -/
structure RetryCall (ρ : Type*) extends WriteRequest ρ where
  partitionId : String
  tableName : String
  idempotency : IdempotencyMode
  /-- Whether writing the batch twice is the same as writing it once. -/
  idempotentWrite : Bool

/-- What happens during one attempt. -/
structure Attempt where
  isCancelled : Bool
  tokenBeforeWrite : Bool
  authorizedBeforeWrite : Bool
  write : WriteScript
  tokenBeforeCommit : Bool
  authorizedBeforeCommit : Bool
  commit : CommitOutcome
  rollback : RollbackOutcome
  verify : Except String CommitOutcomeState

/-- How an attempt ends: the call returns or raises, or the attempt failed with an error. -/
inductive AttemptResult where
  | returned (written : ℕ)
  | raised (e : TransportError)
  | failed (lastError : String)

/-- The error of `_validate_security`. -/
def revokedError : TransportError :=
  .fencing "Execution authorization revoked during active transport execution"

/-- The error of a rollback that fails once the token is invalid. -/
def fencingRollbackError (e : TransportError) : TransportError :=
  .fencing (s!"Fencing token invalid before commit and target rollback failed ({e.text}); " ++
    "target transaction state is UNKNOWN.")

/-- The error of a rollback that fails while a failure is handled. -/
def rollbackFailedError (e : TransportError) : TransportError :=
  .write s!"Target writer rollback failed ({e.text}); target transaction state is UNKNOWN."

/-- The error of a batch whose outcome is unknown. -/
def RetryCall.ambiguousError (call : RetryCall ρ) : TransportError :=
  .ambiguousCommit (s!"Uncertain commit outcome for partition '{call.partitionId}' " ++
    s!"on table '{call.tableName}'")

/-- The modes for which the outcome of a failed attempt is looked up. -/
def verifies : IdempotencyMode → Bool
  | .operationIdempotent => false
  | _ => true

/-- The body of the `try`: write, check the token and the authorization again, commit. -/
def tryWrite (call : RetryCall ρ) (a : Attempt) (w : TargetWriter ρ) :
    TargetWriter ρ × Except TransportError ℕ :=
  match w.writeBatch call.toWriteRequest a.write with
  | (w, .error e) => (w, .error e)
  | (w, .ok written) =>
    if !a.tokenBeforeCommit then
      if w.inTransaction then
        match w.rollback a.rollback with
        | (w, none) => (w, .error (.fencing "Fencing token invalid before commit"))
        | (w, some e) => (w, .error (fencingRollbackError e))
      else (w, .error (.fencing "Fencing token invalid before commit"))
    else if !a.authorizedBeforeCommit then
      -- a rollback that fails here is only logged
      (if w.inTransaction then (w.rollback a.rollback).1 else w, .error revokedError)
    else
      match w.commit a.commit with
      | (w, none) => (w, .ok written)
      | (w, some e) => (w, .error e)

/-- Looking up the outcome of a failed attempt. -/
def verifyOutcome (call : RetryCall ρ) (a : Attempt) (e : TransportError) : AttemptResult :=
  if verifies call.idempotency then
    match a.verify with
    | .error message => .raised (.external message)
    | .ok .committed => .returned call.batch.rows.length
    | .ok .unknownCommitOutcome => .raised call.ambiguousError
    | .ok .notCommitted => .failed e.text
  else .failed e.text

/-- The `except` clause. -/
def handleFailure (call : RetryCall ρ) (a : Attempt) (w : TargetWriter ρ) (e : TransportError) :
    TargetWriter ρ × AttemptResult :=
  if e.isFencing || e.isCancelled then (w, .raised e)
  else if w.inTransaction then
    match w.rollback a.rollback with
    | (w, some rollbackError) => (w, .raised (rollbackFailedError rollbackError))
    | (w, none) => (w, verifyOutcome call a e)
  else (w, verifyOutcome call a e)

/-- One attempt. -/
def attemptOnce (call : RetryCall ρ) (a : Attempt) (w : TargetWriter ρ) :
    TargetWriter ρ × AttemptResult :=
  if a.isCancelled then (w, .raised (.cancelled "Cancelled during retry backoff"))
  else if !a.tokenBeforeWrite then (w, .raised (.fencing "Fencing token invalid before write"))
  else if !a.authorizedBeforeWrite then (w, .raised revokedError)
  else
    match tryWrite call a w with
    | (w, .ok written) => (w, .returned written)
    | (w, .error e) => handleFailure call a w e

/-- The attempts from number `k` on, with `n` left. -/
def retryFrom (call : RetryCall ρ) (maxAttempts : ℕ) (script : ℕ → Attempt) :
    ℕ → ℕ → TargetWriter ρ → TargetWriter ρ × Except TransportError ℕ
  | 0, _, w => (w, .ok 0)
  | n + 1, k, w =>
    match attemptOnce call (script k) w with
    | (w, .returned written) => (w, .ok written)
    | (w, .raised e) => (w, .error e)
    | (w, .failed lastError) =>
      if n = 0 then (w, .error (.retryExhausted maxAttempts lastError))
      else retryFrom call maxAttempts script n (k + 1) w

/-- `_write_batch_with_retry`. -/
def writeBatchWithRetry (call : RetryCall ρ) (maxAttempts : ℤ) (script : ℕ → Attempt)
    (w : TargetWriter ρ) : TargetWriter ρ × Except TransportError ℕ :=
  retryFrom call maxAttempts.toNat script maxAttempts.toNat 1 w

/-! ## What a call is to guarantee -/

/-- The rows are the batch: each row once, or at least once if repeating a write does not
matter. -/
def RetryCall.IsBatch (call : RetryCall ρ) (rows : List ρ) : Prop :=
  if call.idempotentWrite then call.batch.rows ⊆ rows else rows.Perm call.batch.rows

/-- A call that returns has committed the batch, and after one that raises a fencing error
no later operation makes a row of it durable. -/
def RetrySafe (call : RetryCall ρ) (result : TargetWriter ρ × Except TransportError ℕ) : Prop :=
  (∀ written, result.2 = .ok written → call.IsBatch result.1.durable) ∧
    ∀ message, result.2 = .error (.fencing message) → NothingLater result.1

/-! ## When it does -/

/-- The checks before the write pass. -/
def Attempt.Starts (a : Attempt) : Prop :=
  a.isCancelled = false ∧ a.tokenBeforeWrite = true ∧ a.authorizedBeforeWrite = true

/-- The checks before the commit pass. -/
def Attempt.Cleared (a : Attempt) : Prop :=
  a.tokenBeforeCommit = true ∧ a.authorizedBeforeCommit = true

/-- The condition on one attempt, given the writer before it. -/
structure AttemptSafe (call : RetryCall ρ) (a : Attempt) (w : TargetWriter ρ) : Prop where
  /-- Fenced before the write: nothing is pending from earlier attempts. -/
  early : a.isCancelled = false → ¬ a.Starts → w.pending = []
  /-- Fenced after the write: it left nothing pending, or the writer's flag was already set
  and the rollback discards what is pending. -/
  late : a.Starts → ∀ w' written, w.writeBatch call.toWriteRequest a.write = (w', .ok written) →
    ¬ a.Cleared →
      w'.pending = [] ∨ (w'.inTransaction = true ∧ (w'.rollback a.rollback).1.pending = [])
  /-- Committed: what is durable and pending once the batch is written is the batch. -/
  commits : a.Starts → ∀ w' written,
    w.writeBatch call.toWriteRequest a.write = (w', .ok written) → a.Cleared →
      (w'.commit a.commit).2 = none → call.IsBatch (w'.durable ++ w'.pending)
  /-- Looked up as committed: the answer is right. -/
  truthful : a.Starts → ∀ w' e, tryWrite call a w = (w', .error e) → e.isFencing = false →
    (w'.inTransaction = true → (w'.rollback a.rollback).2 = none) →
      verifies call.idempotency = true → a.verify = .ok .committed → call.IsBatch w'.durable

/-- Every attempt that is made, of the `n` from number `k` on, meets the condition. -/
def AttemptsSafe (call : RetryCall ρ) (script : ℕ → Attempt) : ℕ → ℕ → TargetWriter ρ → Prop
  | 0, _, _ => True
  | n + 1, k, w =>
    AttemptSafe call (script k) w ∧ ∀ w' e, attemptOnce call (script k) w = (w', .failed e) →
        AttemptsSafe call script n (k + 1) w'

/-! ## What the parts of an attempt do -/

variable {a : Attempt} {e : TransportError} {w w' : TargetWriter ρ} {written : ℕ}

/-- The fallback raises what the database raised. -/
theorem upsertRows_error {applied : ℕ} {outcome : ℕ → FallbackRow} {i : ℕ} {rows put : List ρ}
    (h : upsertRows applied outcome i written rows = (put, .error e)) :
    e.isFencing = false ∧ e.isCancelled = false := by
  induction rows generalizing i written put with
  | nil => simp [upsertRows] at h
  | cons row rows ih =>
    cases ho : outcome i with
    | updated n =>
      simp only [upsertRows, ho, Prod.mk.injEq] at h
      exact ih (Prod.ext rfl h.2)
    | inserted =>
      simp only [upsertRows, ho, Prod.mk.injEq] at h
      exact ih (Prod.ext rfl h.2)
    | unmeasured matched =>
      simp only [upsertRows, ho, Prod.mk.injEq] at h
      exact ih (Prod.ext rfl h.2)
    | failed message =>
      simp only [upsertRows, ho, Prod.mk.injEq, Except.error.injEq] at h
      exact h.2 ▸ ⟨rfl, rfl⟩

theorem TargetWriter.execute_error {request : WriteRequest ρ} {outcome : ExecuteOutcome}
    (h : (w.execute request outcome).2 = .error e) : e.isFencing = false ∧ e.isCancelled = false := by
  cases outcome with
  | executed rowcount => simp [TargetWriter.execute] at h
  | failed message applied fallback =>
    simp only [TargetWriter.execute] at h
    split_ifs at h
    · rcases hu : upsertRows applied fallback 0 0 request.batch.rows with ⟨put, e' | n⟩
      · rw [hu] at h
        exact upsertRows_error (hu.trans (Prod.ext rfl h))
      · simp [hu] at h
    · exact Except.error.inj h ▸ ⟨rfl, rfl⟩

/-- The errors of `write_batch` are neither fencing errors nor cancellations of the
transport. -/
theorem TargetWriter.writeBatch_error {request : WriteRequest ρ} {script : WriteScript}
    (h : w.writeBatch request script = (w', .error e)) :
    e.isFencing = false ∧ e.isCancelled = false := by
  have herror : (w.writeBatch request script).2 = .error e := by rw [h]
  unfold TargetWriter.writeBatch at herror
  split_ifs at herror
  · exact Except.error.inj herror ▸ ⟨rfl, rfl⟩
  · rcases w.connect_cases script.connect with ⟨w₁, hw₁, -⟩ | ⟨w₁, hw₁, -⟩
    · rw [hw₁] at herror
      exact TargetWriter.execute_error herror
    · rw [hw₁] at herror
      exact Except.error.inj herror ▸ ⟨rfl, rfl⟩

theorem TargetWriter.commit_error {outcome : CommitOutcome} (h : w.commit outcome = (w', some e)) :
    e.isFencing = false ∧ e.isCancelled = false := by
  cases outcome with
  | stale =>
    rw [← Option.some.inj (Prod.mk.inj h).2]
    exact ⟨rfl, rfl⟩
  | committed =>
    simp only [TargetWriter.commit] at h
    split_ifs at h <;> simp at h
  | failed message effect =>
    simp only [TargetWriter.commit] at h
    split_ifs at h
    · cases effect <;> simp only [Prod.mk.injEq, Option.some.injEq] at h <;>
        exact h.2 ▸ ⟨rfl, rfl⟩
    · simp at h

theorem TargetWriter.commit_durable (hw : w.Sound) (outcome : CommitOutcome)
    (h : (w.commit outcome).2 = none) :
    (w.commit outcome).1.durable = w.durable ++ w.pending := by
  have hnil : w.connected = false → w.pending = [] := by
    intro hc
    by_contra hne
    simp [hw hne] at hc
  cases outcome with
  | stale => simp [TargetWriter.commit] at h
  | committed =>
    simp only [TargetWriter.commit]
    by_cases hc : w.connected = true
    · rw [if_pos hc]
      rfl
    · rw [if_neg hc, hnil (Bool.eq_false_of_not_eq_true hc), List.append_nil]
      rfl
  | failed message effect =>
    simp only [TargetWriter.commit] at h ⊢
    by_cases hc : w.connected = true
    · rw [if_pos hc] at h
      cases effect <;> simp at h
    · rw [if_neg hc, hnil (Bool.eq_false_of_not_eq_true hc), List.append_nil]
      rfl

theorem TargetWriter.rollback_pending (h : w.pending = [])
    (outcome : RollbackOutcome) : (w.rollback outcome).1.pending = [] :=
  (later_of_pending_eq_nil h (.rollback outcome)).1

/-- Fencing between the write and the commit raises a fencing error, and leaves nothing
pending exactly when the write did not, or the rollback discards it. -/
theorem tryWrite_of_not_cleared (call : RetryCall ρ)
    (h : w.writeBatch call.toWriteRequest a.write = (w', .ok written)) (hcleared : ¬ a.Cleared) :
    ∃ w'' message, tryWrite call a w = (w'', .error (.fencing message)) ∧ (w''.pending = [] ↔
        w'.pending = [] ∨ (w'.inTransaction = true ∧ (w'.rollback a.rollback).1.pending = [])) := by
  have hrolled : w'.inTransaction = true → ((w'.rollback a.rollback).1.pending = [] ↔
        w'.pending = [] ∨ (w'.inTransaction = true ∧ (w'.rollback a.rollback).1.pending = [])) := by
    intro hflag
    refine ⟨fun hp => .inr ⟨hflag, hp⟩, ?_⟩
    rintro (hp | ⟨-, hp⟩)
    · exact TargetWriter.rollback_pending hp _
    · exact hp
  have hkept : ¬ w'.inTransaction = true → (w'.pending = [] ↔
        w'.pending = [] ∨ (w'.inTransaction = true ∧ (w'.rollback a.rollback).1.pending = [])) := by
    intro hflag
    refine ⟨.inl, ?_⟩
    rintro (hp | ⟨hset, -⟩)
    · exact hp
    · exact absurd hset hflag
  unfold tryWrite
  rw [h]
  by_cases htoken : a.tokenBeforeCommit = true
  · have hauth : a.authorizedBeforeCommit = false := by
      by_contra hne
      exact hcleared ⟨htoken, by simpa using hne⟩
    simp only [htoken, hauth, Bool.not_true, Bool.not_false, Bool.false_eq_true, if_false, if_true]
    by_cases hflag : w'.inTransaction = true
    · exact ⟨_, _, rfl, by rw [if_pos hflag]; exact hrolled hflag⟩
    · exact ⟨_, _, rfl, by rw [if_neg hflag]; exact hkept hflag⟩
  · simp only [htoken, Bool.not_false, if_true]
    by_cases hflag : w'.inTransaction = true
    · have hr := hrolled hflag
      rw [if_pos hflag]
      rcases hroll : w'.rollback a.rollback with ⟨w'', _ | e⟩
      · rw [hroll] at hr
        exact ⟨w'', _, rfl, by simpa [hroll] using hr⟩
      · rw [hroll] at hr
        exact ⟨w'', _, rfl, by simpa [hroll] using hr⟩
    · exact ⟨w', _, by rw [if_neg hflag], hkept hflag⟩

/-- Without fencing the `try` ends as the commit does. -/
theorem tryWrite_of_cleared (call : RetryCall ρ)
    (h : w.writeBatch call.toWriteRequest a.write = (w', .ok written)) (hcleared : a.Cleared) :
    tryWrite call a w = ((w'.commit a.commit).1,
        match (w'.commit a.commit).2 with
        | none => .ok written
        | some e => .error e) := by
  unfold tryWrite
  rw [h]
  simp only [hcleared.1, hcleared.2, Bool.not_true, Bool.false_eq_true, if_false]
  rcases w'.commit a.commit with ⟨w'', _ | e⟩ <;> rfl

/-! ## One attempt -/

theorem tryWrite_error_isCancelled {call : RetryCall ρ}
    (h : tryWrite call a w = (w', .error e)) : e.isCancelled = false := by
  rcases hwrite : w.writeBatch call.toWriteRequest a.write with ⟨w₁, e₁ | written⟩
  · have htry : tryWrite call a w = (w₁, .error e₁) := by rw [tryWrite, hwrite]
    rw [htry, Prod.mk.injEq, Except.error.injEq] at h
    exact h.2 ▸ (TargetWriter.writeBatch_error hwrite).2
  · by_cases hcleared : a.Cleared
    · rw [tryWrite_of_cleared call hwrite hcleared] at h
      rcases hcommit : w₁.commit a.commit with ⟨w₂, _ | e₂⟩
      · simp [hcommit] at h
      · rw [hcommit, Prod.mk.injEq, Except.error.injEq] at h
        exact h.2 ▸ (TargetWriter.commit_error hcommit).2
    · obtain ⟨w'', message, htry, -⟩ := tryWrite_of_not_cleared call hwrite hcleared
      rw [htry, Prod.mk.injEq, Except.error.injEq] at h
      exact h.2 ▸ rfl

/-- The answer to a failed attempt: the call returns exactly when the outcome is looked up
and is "committed"; it raises no fencing error. -/
theorem verifyOutcome_cases (call : RetryCall ρ) (a : Attempt) (e : TransportError) :
    ((∃ n, verifyOutcome call a e = .returned n) ↔
        verifies call.idempotency = true ∧ a.verify = .ok .committed) ∧
      ∀ message, verifyOutcome call a e ≠ .raised (.fencing message) := by
  unfold verifyOutcome
  by_cases hv : verifies call.idempotency = true
  · rw [if_pos hv]
    rcases a.verify with m | o
    · simp
    · cases o <;> simp [RetryCall.ambiguousError, hv]
  · rw [if_neg hv]
    simp [hv]

/-- A handled failure: the call returns exactly when the rollback (if there is one) succeeds
and the outcome is looked up as "committed"; nothing more becomes durable, and no fencing
error is raised. -/
theorem handleFailure_cases (call : RetryCall ρ) (a : Attempt) (w : TargetWriter ρ)
    (hfencing : e.isFencing = false) (hcancelled : e.isCancelled = false) :
    ((∃ n, (handleFailure call a w e).2 = .returned n) ↔
        (w.inTransaction = true → (w.rollback a.rollback).2 = none) ∧
          verifies call.idempotency = true ∧ a.verify = .ok .committed) ∧
      (handleFailure call a w e).1.durable = w.durable ∧
      ∀ message, (handleFailure call a w e).2 ≠ .raised (.fencing message) := by
  obtain ⟨hreturns, hraises⟩ := verifyOutcome_cases call a e
  unfold handleFailure
  simp only [hfencing, hcancelled, Bool.or_false, Bool.false_eq_true, if_false]
  by_cases hflag : w.inTransaction = true
  · have hdurable := w.rollback_durable a.rollback
    rw [if_pos hflag]
    rcases hroll : w.rollback a.rollback with ⟨w', _ | e'⟩
    · rw [hroll] at hdurable
      exact ⟨by simpa [hflag] using hreturns, hdurable, hraises⟩
    · rw [hroll] at hdurable
      exact ⟨by simp [hflag], hdurable, by simp [rollbackFailedError]⟩
  · rw [if_neg hflag]
    exact ⟨by simpa [hflag] using hreturns, rfl, hraises⟩

/-- An attempt that makes the call return leaves the batch durable, and one that makes it
raise a fencing error leaves nothing pending. -/
def Settles (call : RetryCall ρ) (result : TargetWriter ρ × AttemptResult) : Prop :=
  (∀ n, result.2 = .returned n → call.IsBatch result.1.durable) ∧
    ∀ message, result.2 = .raised (.fencing message) → result.1.pending = []

/-- The handling of a failure settles the batch exactly when the outcome it looks up as
"committed" is so. -/
theorem settles_handleFailure_iff {call : RetryCall ρ}
    (hfencing : e.isFencing = false) (hcancelled : e.isCancelled = false) :
    Settles call (handleFailure call a w e) ↔
      ((w.inTransaction = true → (w.rollback a.rollback).2 = none) →
        verifies call.idempotency = true → a.verify = .ok .committed → call.IsBatch w.durable) := by
  obtain ⟨hreturns, hdurable, hraises⟩ := handleFailure_cases call a w hfencing hcancelled
  unfold Settles
  rw [hdurable]
  constructor
  · rintro ⟨hbatch, -⟩ hroll hv hverify
    obtain ⟨n, hn⟩ := hreturns.mpr ⟨hroll, hv, hverify⟩
    exact hbatch n hn
  · intro h
    refine ⟨fun n hn => ?_, fun message hm => absurd hm (hraises message)⟩
    obtain ⟨hroll, hv, hverify⟩ := hreturns.mp ⟨n, hn⟩
    exact h hroll hv hverify

/-- An attempt that passes its first checks ends as its `try` does, or as the handling of the
failure does. -/
theorem attemptOnce_of_starts {call : RetryCall ρ} (hstarts : a.Starts) (w : TargetWriter ρ) :
    attemptOnce call a w =
      match tryWrite call a w with
      | (w, .ok written) => (w, .returned written)
      | (w, .error e) => handleFailure call a w e := by
  obtain ⟨hcancelled, htoken, hauthorized⟩ := hstarts
  simp only [attemptOnce, hcancelled, htoken, hauthorized, Bool.not_true, Bool.false_eq_true,
    if_false]

theorem attemptOnce_of_not_starts (call : RetryCall ρ) (hstarts : ¬ a.Starts) (w : TargetWriter ρ) :
    ∃ e, attemptOnce call a w = (w, .raised e) ∧ (e.isFencing = true ↔ a.isCancelled = false) := by
  unfold attemptOnce
  by_cases hcancelled : a.isCancelled = true
  · exact ⟨_, by rw [if_pos hcancelled], by simp [hcancelled, TransportError.isFencing]⟩
  · rw [if_neg hcancelled]
    by_cases htoken : a.tokenBeforeWrite = true
    · have hauthorized : a.authorizedBeforeWrite = false := by
        by_contra hne
        exact hstarts ⟨by simpa using hcancelled, htoken, by simpa using hne⟩
      simp only [htoken, hauthorized, Bool.not_true, Bool.not_false, Bool.false_eq_true, if_false,
        if_true]
      exact ⟨_, rfl, by simpa [revokedError, TransportError.isFencing] using hcancelled⟩
    · simp only [htoken, Bool.not_false, if_true]
      exact ⟨_, rfl, by simpa [TransportError.isFencing] using hcancelled⟩

/-- An attempt that fails with something other than a fencing error. -/
theorem attemptSafe_iff_of_error {call : RetryCall ρ}
    (hstarts : a.Starts) (htry : tryWrite call a w = (w', .error e))
    (hfencing : e.isFencing = false) :
    AttemptSafe call a w ↔ Settles call (attemptOnce call a w) := by
  have hcancelled := tryWrite_error_isCancelled htry
  rw [attemptOnce_of_starts hstarts, htry]
  dsimp only
  rw [settles_handleFailure_iff hfencing hcancelled]
  constructor
  · intro h
    exact h.truthful hstarts w' e htry hfencing
  · intro h
    refine ⟨fun _ hnot => absurd hstarts hnot, ?_, ?_, ?_⟩
    · intro _ w₁ written hwrite hcleared
      obtain ⟨w'', message, htry', -⟩ := tryWrite_of_not_cleared call hwrite hcleared
      rw [htry, Prod.mk.injEq, Except.error.injEq] at htry'
      simp [htry'.2, TransportError.isFencing] at hfencing
    · intro _ w₁ written hwrite hcleared hcommit
      rw [tryWrite_of_cleared call hwrite hcleared, hcommit] at htry
      simp at htry
    · intro _ w₂ e₂ htry₂ hf₂ hroll hv hverify
      rw [htry, Prod.mk.injEq, Except.error.injEq] at htry₂
      rw [← htry₂.1] at hroll ⊢
      exact h hroll hv hverify

/-- **One attempt**: it meets the condition exactly when it settles the batch. -/
theorem attemptSafe_iff (call : RetryCall ρ) (a : Attempt) (hw : w.Sound) :
    AttemptSafe call a w ↔ Settles call (attemptOnce call a w) := by
  by_cases hstarts : a.Starts
  · rcases hwrite : w.writeBatch call.toWriteRequest a.write with ⟨w₁, e₁ | written⟩
    · have htry : tryWrite call a w = (w₁, .error e₁) := by rw [tryWrite, hwrite]
      exact attemptSafe_iff_of_error hstarts htry (TargetWriter.writeBatch_error hwrite).1
    · by_cases hcleared : a.Cleared
      · have htry := tryWrite_of_cleared call hwrite hcleared
        rcases hcommit : w₁.commit a.commit with ⟨w₂, _ | e₂⟩
        · -- committed
          rw [hcommit] at htry
          have hsound : w₁.Sound := by
            have h := hw.writeBatch call.toWriteRequest a.write
            rwa [hwrite] at h
          have hdurable := TargetWriter.commit_durable hsound a.commit (by rw [hcommit])
          rw [hcommit] at hdurable
          rw [attemptOnce_of_starts hstarts, htry]
          constructor
          · intro h
            refine ⟨fun n _ => ?_, by simp⟩
            show call.IsBatch w₂.durable
            rw [hdurable]
            exact h.commits hstarts w₁ written hwrite hcleared (by rw [hcommit])
          · rintro ⟨hbatch, -⟩
            have hbatch' : call.IsBatch w₂.durable := hbatch written rfl
            refine ⟨fun _ hnot => absurd hstarts hnot, ?_, ?_, ?_⟩
            · intro _ _ _ _ hnot
              exact absurd hcleared hnot
            · intro _ w' n hwrite' _ _
              rw [hwrite, Prod.mk.injEq] at hwrite'
              rw [← hwrite'.1, ← hdurable]
              exact hbatch'
            · intro _ w' e' htry'
              rw [htry] at htry'
              simp at htry'
        · rw [hcommit] at htry
          exact attemptSafe_iff_of_error hstarts htry (TargetWriter.commit_error hcommit).1
      · -- fenced between the write and the commit
        obtain ⟨w₂, message, htry, hpending⟩ := tryWrite_of_not_cleared call hwrite hcleared
        have hhandle : handleFailure call a w₂ (.fencing message) =
            (w₂, .raised (.fencing message)) := rfl
        rw [attemptOnce_of_starts hstarts, htry]
        dsimp only
        rw [hhandle]
        constructor
        · intro h
          refine ⟨by simp, fun _ _ => ?_⟩
          exact hpending.mpr (h.late hstarts w₁ written hwrite hcleared)
        · rintro ⟨-, hsettled⟩
          refine ⟨fun _ hnot => absurd hstarts hnot, ?_, ?_, ?_⟩
          · intro _ w' n hwrite' _
            rw [hwrite, Prod.mk.injEq] at hwrite'
            rw [← hwrite'.1]
            exact hpending.mp (hsettled message rfl)
          · intro _ _ _ _ hc
            exact absurd hc hcleared
          · intro _ w' e' htry' hf
            rw [htry, Prod.mk.injEq, Except.error.injEq] at htry'
            simp [← htry'.2, TransportError.isFencing] at hf
  · -- not made
    obtain ⟨e, honce, hfencing⟩ := attemptOnce_of_not_starts call hstarts w
    rw [honce]
    constructor
    · intro h
      refine ⟨by simp, fun message hm => ?_⟩
      have he : e = .fencing message := by simpa using hm
      exact h.early (hfencing.mp (by rw [he]; rfl)) hstarts
    · rintro ⟨-, hsettled⟩
      refine ⟨fun hcancelled _ => ?_, ?_, ?_, ?_⟩
      · have hf := hfencing.mpr hcancelled
        cases e <;> simp only [TransportError.isFencing, Bool.false_eq_true] at hf
        exact hsettled _ rfl
      · exact fun h => absurd h hstarts
      · exact fun h => absurd h hstarts
      · exact fun h => absurd h hstarts

theorem sound_attemptOnce (call : RetryCall ρ) (a : Attempt) (hw : w.Sound) :
    (attemptOnce call a w).1.Sound := by
  by_cases hstarts : a.Starts
  · have htry : (tryWrite call a w).1.Sound := by
      have hwritten := hw.writeBatch call.toWriteRequest a.write
      unfold tryWrite
      rcases hwrite : w.writeBatch call.toWriteRequest a.write with ⟨w₁, e₁ | written⟩
      · rwa [hwrite] at hwritten
      · rw [hwrite] at hwritten
        have hroll := hwritten.rollback a.rollback
        have hcommit := hwritten.commit a.commit
        dsimp only at hroll hcommit ⊢
        split_ifs
        · rcases hr : w₁.rollback a.rollback with ⟨w₂, _ | e⟩ <;> rwa [hr] at hroll
        · exact hwritten
        · exact hroll
        · exact hwritten
        · rcases hc : w₁.commit a.commit with ⟨w₂, _ | e⟩ <;> rwa [hc] at hcommit
    rw [attemptOnce_of_starts hstarts]
    rcases htry' : tryWrite call a w with ⟨w₁, e₁ | written⟩
    · rw [htry'] at htry
      have hroll := htry.rollback a.rollback
      unfold handleFailure
      dsimp only at hroll ⊢
      split_ifs
      · exact htry
      · rcases hr : w₁.rollback a.rollback with ⟨w₂, _ | e⟩ <;> rwa [hr] at hroll
      · exact htry
    · rwa [htry'] at htry
  · obtain ⟨e, honce, -⟩ := attemptOnce_of_not_starts call hstarts w
    rw [honce]
    exact hw

/-! ## The whole call -/

/-- From any attempt on, the call is safe exactly when the attempts that are made meet the
condition. -/
theorem retrySafe_retryFrom_iff (call : RetryCall ρ) (maxAttempts : ℕ) (script : ℕ → Attempt)
    (n : ℕ) : ∀ (k : ℕ) {w : TargetWriter ρ}, w.Sound →
      (RetrySafe call (retryFrom call maxAttempts script (n + 1) k w) ↔
        AttemptsSafe call script (n + 1) k w) := by
  induction n with
  | zero =>
    intro k w hw
    have hattempt := attemptSafe_iff call (script k) hw
    have hsound := sound_attemptOnce call (script k) hw
    rw [AttemptsSafe, hattempt]
    simp only [retryFrom, AttemptsSafe, implies_true, and_true]
    rcases honce : attemptOnce call (script k) w with ⟨w', m | e | last⟩
    · simp [RetrySafe, Settles]
    · rw [honce] at hsound
      have hsettled : NothingLater w' ↔ w'.pending = [] := nothingLater_iff hsound
      simp [RetrySafe, Settles, hsettled]
    · simp [RetrySafe, Settles]
  | succ n ih =>
    intro k w hw
    have hattempt := attemptSafe_iff call (script k) hw
    have hsound := sound_attemptOnce call (script k) hw
    rw [AttemptsSafe, hattempt, retryFrom]
    rcases honce : attemptOnce call (script k) w with ⟨w', m | e | last⟩
    · simp [RetrySafe, Settles]
    · rw [honce] at hsound
      have hsettled : NothingLater w' ↔ w'.pending = [] := nothingLater_iff hsound
      simp [RetrySafe, Settles, hsettled]
    · -- the attempt failed, and the next one follows
      rw [honce] at hsound
      have hnext : RetrySafe call (retryFrom call maxAttempts script (n + 1) (k + 1) w') ↔
          AttemptsSafe call script (n + 1) (k + 1) w' := ih (k + 1) hsound
      simp only [Nat.add_eq_zero_iff, one_ne_zero, and_false, if_false]
      rw [hnext]
      simp [Settles]

/-- A batch of one row for a table with a key, written by the generic SQL writer. -/
def oneRowCall : RetryCall ℕ where
  batch :=
    { metadata :=
        { batchId := "sql-batch-1", partitionId := "part-items-full", tableName := "items"
          schemaName := "main", sequenceNumber := 1, rowCount := 1, sizeBytes := 10 }
      rows := [1]
      columnNames := ["id"] }
  pkColumns := ["id"]
  partitionId := "part-items-full"
  tableName := "items"
  idempotency := .conditionallyIdempotent
  idempotentWrite := false

/-- Every check passes, the write and the commit succeed. -/
def smoothAttempt : Attempt where
  isCancelled := false
  tokenBeforeWrite := true
  authorizedBeforeWrite := true
  write := { fencingValid := true, connect := .fresh, execute := .executed (some 1) }
  tokenBeforeCommit := true
  authorizedBeforeCommit := true
  commit := .committed
  rollback := .done
  verify := .ok .unknownCommitOutcome

/-- The token becomes invalid between the write and the commit. -/
def fencedAttempt : Attempt := { smoothAttempt with tokenBeforeCommit := false }

end Transport

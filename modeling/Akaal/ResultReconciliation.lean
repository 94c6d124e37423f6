/-
# Checkpoints and results under a lease

The two consumers of leases besides their validation: `CheckpointManager.record_checkpoint` of
`akaalPipeline/recovery/checkpoints.py` and `ResultReconciler.reconcile_result` of
`akaalPipeline/execution/result_reconciliation.py`, with the verification of receipts of
`akaalPipeline/security/receipts.py`.

* `recordCheckpoint_ok` : an accepted checkpoint presents the lease and the epoch of the row;
* `reconcileResult_ok` : so does an accepted result.

`==` on values, `str` of a value that is no text and the signature under the receipt secret are
parameters; the errors name the check that fails.
-/
import Akaal.LeaseManager
import Akaal.StateClaims

namespace PipelineLeases

/-! ## Checks in order -/

/-- Checks made one after the other: each fails or not, and has its own error. -/
def check {ε : Type*} : List (Bool × ε) → Except ε Unit
  | [] => .ok ()
  | (fails, error) :: rest => if fails then .error error else check rest

theorem check_eq_ok_iff {ε : Type*} (checks : List (Bool × ε)) :
    check checks = .ok () ↔ ∀ c ∈ checks, c.1 = false := by
  induction checks with
  | nil => exact iff_of_true rfl fun c hc => absurd hc List.not_mem_nil
  | cons c rest ih =>
    obtain ⟨fails, error⟩ := c
    rw [check, List.forall_mem_cons, ← ih]
    cases fails with
    | true =>
      rw [if_pos rfl]
      refine iff_of_false (fun h => ?_) fun h => Bool.false_ne_true h.1.symm
      cases h
    | false =>
      rw [if_neg Bool.false_ne_true]
      exact (and_iff_right rfl).symm

theorem check_bind_eq_ok {ε α : Type} {checks : List (Bool × ε)} {next : Unit → Except ε α} {a : α}
    (h : (check checks >>= next) = .ok a) : (∀ c ∈ checks, c.1 = false) ∧ next () = .ok a := by
  rw [← check_eq_ok_iff]
  cases hcheck : check checks with
  | error e =>
    rw [hcheck] at h
    cases h
  | ok _ =>
    rw [hcheck] at h
    exact ⟨rfl, h⟩

/-! ## Checkpoints -/

/-- `CheckpointCandidate`; a row of `checkpoints` has the same fields. -/
structure CheckpointCandidate where
  checkpointId : String
  attemptId : String
  engineInvocationId : String
  leaseId : String
  fenceEpoch : ℤ
  graphNodeId : String
  initializationFingerprint : String
  engineBinding : String
  checkpointPayloadReference : String
  createdAt : String
  deriving DecidableEq

/-- The reasons of a `CheckpointRejectedError`. -/
inductive CheckpointRejected where
  | noActiveLease
  | leaseIdMismatch
  | fenceEpochMismatch
  | candidateFingerprintMismatch
  | storedFingerprintMismatch
  | expectedFingerprintMismatch
  | duplicateCheckpoint
  deriving DecidableEq

/-- The two checkpoints agree on everything but the time of creation. -/
def CheckpointCandidate.sameContent (row candidate : CheckpointCandidate) : Bool :=
  { row with createdAt := candidate.createdAt } = candidate

/-- `record_checkpoint`. -/
def recordCheckpoint (t : LeaseTable) (checkpoints : PyDict CheckpointCandidate)
    (candidate : CheckpointCandidate) (expectedInitializationFingerprint : String) :
    Except CheckpointRejected (PyDict CheckpointCandidate) :=
  match t.getLease candidate.attemptId with
  | none => .error .noActiveLease
  | some lease => do
      check [
        (lease.leaseId ≠ candidate.leaseId, .leaseIdMismatch),
        (lease.fenceEpoch ≠ candidate.fenceEpoch, .fenceEpochMismatch),
        (candidate.initializationFingerprint ≠ lease.initializationFingerprint,
          .candidateFingerprintMismatch),
        (lease.initializationFingerprint ≠ expectedInitializationFingerprint,
          .storedFingerprintMismatch),
        (candidate.initializationFingerprint ≠ expectedInitializationFingerprint,
          .expectedFingerprintMismatch)]
      match checkpoints.get? candidate.checkpointId with
      | some row =>
        -- the same content again is accepted and changes nothing
        if row.sameContent candidate then .ok checkpoints else .error .duplicateCheckpoint
      | none => .ok (checkpoints.set candidate.checkpointId candidate)

/-- **Checkpoints under a lease.**  An accepted checkpoint presents the lease and the epoch of the row
of its attempt. -/
theorem recordCheckpoint_ok {t : LeaseTable} {checkpoints checkpoints' : PyDict CheckpointCandidate}
    {candidate : CheckpointCandidate} {expected : String}
    (h : recordCheckpoint t checkpoints candidate expected = .ok checkpoints') :
    ∃ lease, t.get? candidate.attemptId = some lease ∧ lease.leaseId = candidate.leaseId ∧
      lease.fenceEpoch = candidate.fenceEpoch := by
  rw [recordCheckpoint, LeaseTable.getLease] at h
  cases hlease : t.get? candidate.attemptId with
  | none =>
    rw [hlease] at h
    cases h
  | some lease =>
    rw [hlease] at h
    obtain ⟨hchecks, -⟩ := check_bind_eq_ok h
    rw [List.forall_mem_cons, List.forall_mem_cons] at hchecks
    exact ⟨lease, rfl, not_not.mp (of_decide_eq_false hchecks.1),
      not_not.mp (of_decide_eq_false hchecks.2.1)⟩

/-! ## Results -/

/-- `EngineInvocationResult`, with the fields that the pipeline reads. -/
structure EngineInvocationResult where
  invocationId : String
  attemptId : String
  leaseId : String
  fenceEpoch : ℤ
  isSuccess : Bool
  initializationFingerprint : Option String := none
  graphNodeId : Option String := none
  bindingId : Option String := none
  contractVersion : Option String := some "1.0.0"
  resultPayload : PyValue := .dict []
  errorCode : Option String := none
  errorMessage : Option String := none
  isInProgress : Bool := false

/-- What `reconcile_result` expects of a result. -/
structure Expected where
  initializationFingerprint : String
  invocationId : Option String := none
  attemptId : Option String := none
  leaseId : Option String := none
  graphNodeId : Option String := none
  bindingId : Option String := none
  contractVersion : Option String := none
  migrationId : Option String := none

/-- The reasons of a `StaleResultError`. -/
inductive StaleReason where
  | attemptIdMismatch
  | invocationIdMismatch
  | graphNodeIdMismatch
  | noActiveLease
  | expectedLeaseIdMismatch
  | storedLeaseIdMismatch
  | fenceEpochMismatch
  | missingFingerprint
  | leaseFingerprintMismatch
  | expectedFingerprintMismatch
  | missingBindingId
  | bindingIdMismatch
  | missingContractVersion
  | contractVersionMismatch
  | malformedPayload
  | missingReceipt
  | receiptRunMismatch
  | receiptEpochMismatch
  | receiptMigrationMissing
  | receiptMigrationMismatch
  | payloadMigrationMismatch
  | receiptNodeMismatch
  | receiptFingerprintMismatch
  | resultFingerprintMismatch
  | receiptStatusMissing
  | receiptStatusMismatch
  | receiptSignatureMissing
  | receiptSignatureInvalid
  deriving DecidableEq

/-- The exceptions of `reconcile_result`. -/
inductive ReconcileError where
  /-- `StaleResultError`. -/
  | stale (reason : StaleReason)
  /-- `compare_digest` on a text that is not ASCII. -/
  | typeError
  deriving DecidableEq

/-- What an accepted result says. -/
inductive Reconciled where
  | failed (errorCode errorMessage : String)
  | succeeded (resultPayload : PyValue)

/-- What the interpreter and the environment give: `==` on values, `str` of a value that is no text,
and the signature of a message unless the secret is provisioned as empty. -/
structure ReceiptCheck where
  equal : PyValue → PyValue → Bool
  str : PyValue → String
  signature : Option (String → String)

open StateStore (truthy)

/-- `a or b`. -/
def orElse (a b : PyValue) : PyValue := if truthy a then a else b

/-- `items.get(key)`. -/
def getKey (items : List (String × PyValue)) (key : String) : PyValue :=
  (items.lookup key).getD .none

/-- An optional text is true, and the value given is another. -/
def differs (expected : Option String) (given : Option String) : Bool :=
  expected.any fun e => e ≠ "" && given ≠ some e

/-- An optional text is missing or empty. -/
def missing (text : Option String) : Bool := !text.any (· ≠ "")

section Receipts

variable (receiptCheck : ReceiptCheck)

/-- `str(v)`. -/
def ReceiptCheck.text : PyValue → String
  | .str s => s
  | v => receiptCheck.str v

/-- The message that a receipt signs. -/
def ReceiptCheck.message (receipt : List (String × PyValue)) : String :=
  let field := fun key => receiptCheck.text ((receipt.lookup key).getD (.str ""))
  let fencingEpoch := getKey receipt "gateway_fencing_epoch"
  String.intercalate ":" [
    field "gateway_migration_id",
    field "gateway_run_id",
    field "gateway_operation_id",
    if truthy fencingEpoch then receiptCheck.text fencingEpoch else "0",
    field "gateway_status_code",
    field "initialization_fingerprint",
    field "gateway_job_id"]

/-- `verify_execution_receipt`. -/
def ReceiptCheck.verifyExecutionReceipt (receipt : List (String × PyValue)) :
    Except ReconcileError Bool :=
  match receiptCheck.signature with
  | none => .ok false
  | some signature =>
    match orElse (getKey receipt "receipt_signature") (getKey receipt "signature") with
    | .str sig =>
      if sig = "" then .ok false
      else if sig.toList.any fun c => 127 < c.toNat then .error .typeError
      else .ok (sig = signature (receiptCheck.message receipt))
    | _ => .ok false

/-- The checks of the receipt of a result. -/
def ReceiptCheck.checkReceipt (result : EngineInvocationResult) (expected : Expected)
    (payload receipt : List (String × PyValue)) : Except ReconcileError Unit := do
  let ne := fun (v : PyValue) (text : String) => !receiptCheck.equal v (.str text)
  let get := getKey receipt
  let run := orElse (get "gateway_run_id") (get "run_id")
  let epoch :=
    (receipt.lookup "gateway_fencing_epoch").getD (get "fencing_epoch")
  let migration := orElse (get "gateway_migration_id") (get "migration_id")
  let payloadMigration := getKey payload "migration_id"
  let node := orElse (orElse (get "gateway_job_id") (get "graph_node_id")) (get "job_id")
  let fingerprint := orElse (get "initialization_fingerprint") (get "fingerprint")
  let status := orElse (orElse (get "gateway_status_code") (get "status_code")) (get "status")
  let signature := orElse (get "receipt_signature") (get "signature")
  check [
    (!truthy run || ne run result.attemptId, .stale .receiptRunMismatch),
    (epoch matches .none || !receiptCheck.equal epoch (.int result.fenceEpoch),
      .stale .receiptEpochMismatch),
    (!truthy migration, .stale .receiptMigrationMissing),
    (expected.migrationId.any fun id => id ≠ "" && ne migration id,
      .stale .receiptMigrationMismatch),
    (truthy payloadMigration && !receiptCheck.equal migration payloadMigration,
      .stale .payloadMigrationMismatch),
    (result.graphNodeId.any fun id => id ≠ "" && (!truthy node || ne node id),
      .stale .receiptNodeMismatch),
    (!truthy fingerprint || ne fingerprint expected.initializationFingerprint,
      .stale .receiptFingerprintMismatch),
    (result.initializationFingerprint.any fun fp => fp ≠ "" && ne fingerprint fp,
      .stale .resultFingerprintMismatch),
    (!truthy status, .stale .receiptStatusMissing),
    (result.isSuccess && ne status "SUCCESS", .stale .receiptStatusMismatch),
    (!truthy signature, .stale .receiptSignatureMissing)]
  if ← receiptCheck.verifyExecutionReceipt receipt then .ok ()
  else .error (.stale .receiptSignatureInvalid)

/-- `reconcile_result`. -/
def ReceiptCheck.reconcileResult (t : LeaseTable) (result : EngineInvocationResult)
    (expected : Expected) : Except ReconcileError Reconciled := do
  check [
    (differs expected.attemptId (some result.attemptId), .stale .attemptIdMismatch),
    (differs expected.invocationId (some result.invocationId), .stale .invocationIdMismatch),
    (differs expected.graphNodeId result.graphNodeId, .stale .graphNodeIdMismatch)]
  match t.getLease result.attemptId with
  | none => .error (.stale .noActiveLease)
  | some lease => do
      check [
        (differs expected.leaseId (some result.leaseId), .stale .expectedLeaseIdMismatch),
        (lease.leaseId ≠ result.leaseId, .stale .storedLeaseIdMismatch),
        (lease.fenceEpoch ≠ result.fenceEpoch, .stale .fenceEpochMismatch),
        (missing result.initializationFingerprint, .stale .missingFingerprint),
        (result.initializationFingerprint ≠ some lease.initializationFingerprint,
          .stale .leaseFingerprintMismatch),
        (lease.initializationFingerprint ≠ expected.initializationFingerprint,
          .stale .expectedFingerprintMismatch),
        (expected.bindingId.isSome && missing result.bindingId, .stale .missingBindingId),
        (expected.bindingId.any fun id => result.bindingId ≠ some id, .stale .bindingIdMismatch),
        (expected.contractVersion.isSome && missing result.contractVersion,
          .stale .missingContractVersion),
        (expected.contractVersion.any fun version => result.contractVersion ≠ some version,
          .stale .contractVersionMismatch)]
      match result.resultPayload with
      | .dict payload =>
        match orElse (getKey payload "engine_execution_receipt")
            (getKey payload "execution_receipt") with
        | .dict receipt => do
            check [(receipt.isEmpty, .stale .missingReceipt)]
            receiptCheck.checkReceipt result expected payload receipt
            if result.isSuccess then .ok (.succeeded result.resultPayload)
            else .ok (.failed (if missing result.errorCode then "ENGINE_ERROR"
                else result.errorCode.getD "")
              (if missing result.errorMessage then "Physical engine task failed."
                else result.errorMessage.getD ""))
        | _ => .error (.stale .missingReceipt)
      | _ => .error (.stale .malformedPayload)

/-- **Results under a lease.**  An accepted result presents the lease and the epoch of the row of its
attempt. -/
theorem reconcileResult_ok {t : LeaseTable} {result : EngineInvocationResult} {expected : Expected}
    {reconciled : Reconciled}
    (h : receiptCheck.reconcileResult t result expected = .ok reconciled) :
    ∃ lease, t.get? result.attemptId = some lease ∧ lease.leaseId = result.leaseId ∧
      lease.fenceEpoch = result.fenceEpoch := by
  rw [ReceiptCheck.reconcileResult] at h
  replace h := (check_bind_eq_ok h).2
  rw [LeaseTable.getLease] at h
  cases hlease : t.get? result.attemptId with
  | none =>
    rw [hlease] at h
    cases h
  | some lease =>
    rw [hlease] at h
    obtain ⟨hchecks, -⟩ := check_bind_eq_ok h
    rw [List.forall_mem_cons, List.forall_mem_cons, List.forall_mem_cons] at hchecks
    exact ⟨lease, rfl, not_not.mp (of_decide_eq_false hchecks.2.1),
      not_not.mp (of_decide_eq_false hchecks.2.2.1)⟩

end Receipts

end PipelineLeases

/-
# The durability authority

`DurabilityAuthority` of `akaalEngine/durability/api.py` over its tables.  Most operations are one
transaction; `stage_pending_rollback`, `record_rollback_failure` and `rollback_batch` execute their
statements on a connection in autocommit mode, so that each takes effect on its own.

* `perform` : the operations that are one transaction;
* `perform_checkpoints` : what they do to the checkpoints;
* `RollbackCall.perform` : the rollback operations, statement by statement;
* `RollbackStatement.execute` : a statement of these.

How SQLite sets a member of a JSON text and how error texts are redacted is left open.  The reads and
the insert of `append_record` are one step.
-/
import Akaal.CheckpointRegistry
import Akaal.IdempotencyRegistry
import Akaal.Autocommit

open CDC JsonText Autocommit

namespace Durability

/-! ## Tables -/

/-- The tables of the authority. -/
structure DurabilityTables where
  checkpoints : CheckpointTable
  idempotency : IdempotencyTable
  journal : JournalTables
  epochs : EpochTable

/-- The tables of a new database. -/
def DurabilityTables.empty : DurabilityTables :=
  ⟨PyDict.empty, PyDict.empty, ⟨[], []⟩, PyDict.empty⟩

/-- What may be raised. -/
inductive AuthorityError where
  | save (error : SaveError)
  | append (error : AppendError)
  | transition (error : TransitionError)
  | sqlite
  | malformedJson
  | unknownBatch (batchId : String)
  | ambiguousBatch (batchId : String) (migrationIds : List String)

/-! ## Operations that are one transaction -/

/-- The operations that are one transaction. -/
inductive AuthorityCall where
  | issueFencingToken (resourceId workerId now : String)
  | saveCheckpoint (checkpoint : MigrationCheckpoint) (token : FencingToken) (now : String)
      (fits : Bool)
  | saveRowPosition (migrationId tableName : String) (position : RowPosition) (token : FencingToken)
      (now : String) (fits : Bool)
  | appendJournalRecord (call : JournalTables.AppendCall)
  | compactJournal (safeSequenceBoundary : ℤ) (now : String)
  | purgeExpiredJournalRecords (cutoff now : String)
  | transitionIdempotencyState (call : TransitionCall)
  | saveCheckpointWithJournal (checkpoint : MigrationCheckpoint) (token : FencingToken) (now : String)
      (fits : Bool) (call : JournalTables.AppendCall)
  | transitionIdempotencyWithCheckpoint (call : TransitionCall) (checkpoint : MigrationCheckpoint)
      (token : FencingToken) (now : String) (fits : Bool)

section Operations

variable (rt : DigestRuntime) (signingKey anchorKey : List UInt8) (t : DurabilityTables)

/-- `save_checkpoint`, on the tables. -/
def saveCheckpointIn (checkpoint : MigrationCheckpoint) (token : FencingToken) (now : String)
    (fits : Bool) : Except AuthorityError DurabilityTables :=
  match saveCheckpoint rt signingKey t.epochs t.checkpoints checkpoint token now fits with
  | .error e => .error (.save e)
  | .ok checkpoints => .ok { t with checkpoints := checkpoints }

/-- `append_record`, on the tables. -/
def appendRecordIn (call : JournalTables.AppendCall) : Except AuthorityError DurabilityTables :=
  match t.journal.appendRecord rt call with
  | (.error e, _) => .error (.append e)
  | (.ok _, journal) => .ok { t with journal := journal }

/-- `transition_state`, on the tables. -/
def transitionStateIn (call : TransitionCall) : Except AuthorityError DurabilityTables :=
  match transitionState t.idempotency call with
  | .error e => .error (.transition e)
  | .ok idempotency => .ok { t with idempotency := idempotency }

/-- An operation that is one transaction; it leaves the tables as they are when it raises. -/
def perform : AuthorityCall → Except AuthorityError DurabilityTables
  | .issueFencingToken resourceId workerId now =>
    .ok { t with epochs := (issueToken rt signingKey t.epochs resourceId workerId now).2 }
  | .saveCheckpoint checkpoint token now fits =>
    saveCheckpointIn rt signingKey t checkpoint token now fits
  | .saveRowPosition migrationId tableName position token now fits =>
    match saveRowPosition rt signingKey t.epochs t.checkpoints migrationId tableName position token
      now fits with
    | .error e => .error (.save e)
    | .ok checkpoints => .ok { t with checkpoints := checkpoints }
  | .appendJournalRecord call => appendRecordIn rt t call
  | .compactJournal safeSequenceBoundary now =>
    .ok { t with journal := (t.journal.compactJournal rt anchorKey safeSequenceBoundary now).2 }
  | .purgeExpiredJournalRecords cutoff now =>
    .ok { t with journal := (t.journal.purgeExpiredRecords rt anchorKey cutoff now).2 }
  | .transitionIdempotencyState call => transitionStateIn t call
  | .saveCheckpointWithJournal checkpoint token now fits call => do
      let t ← saveCheckpointIn rt signingKey t checkpoint token now fits
      appendRecordIn rt t call
  | .transitionIdempotencyWithCheckpoint call checkpoint token now fits => do
      let t ← transitionStateIn t call
      saveCheckpointIn rt signingKey t checkpoint token now fits

end Operations

/-- The checkpoint that a call saves. -/
def AuthorityCall.saved : AuthorityCall → Option MigrationCheckpoint
  | .saveCheckpoint checkpoint _ _ _ | .saveCheckpointWithJournal checkpoint _ _ _ _
  | .transitionIdempotencyWithCheckpoint _ checkpoint _ _ _ => some checkpoint
  | _ => none

section Checkpoints

variable {rt : DigestRuntime} {signingKey anchorKey : List UInt8} {t t' : DurabilityTables}

/-- `save_checkpoint` writes the checkpoints only. -/
theorem saveCheckpointIn_eq_ok_iff {checkpoint : MigrationCheckpoint} {token : FencingToken}
    {now : String} {fits : Bool} :
    saveCheckpointIn rt signingKey t checkpoint token now fits = .ok t' ↔
      ∃ checkpoints, saveCheckpoint rt signingKey t.epochs t.checkpoints checkpoint token now fits =
        .ok checkpoints ∧ t' = { t with checkpoints := checkpoints } := by
  unfold saveCheckpointIn
  cases saveCheckpoint rt signingKey t.epochs t.checkpoints checkpoint token now fits with
  | error e => simp
  | ok checkpoints => simp [eq_comm]

theorem appendRecordIn_eq_ok {call : JournalTables.AppendCall} (h : appendRecordIn rt t call = .ok t') :
    t' = { t with journal := (t.journal.appendRecord rt call).2 } := by
  unfold appendRecordIn at h
  cases hresult : t.journal.appendRecord rt call with
  | mk result journal =>
    rw [hresult] at h
    cases result with
    | error e => cases h
    | ok row =>
      cases h
      rfl

theorem transitionStateIn_eq_ok {call : TransitionCall} (h : transitionStateIn t call = .ok t') :
    ∃ idempotency, t' = { t with idempotency := idempotency } := by
  unfold transitionStateIn at h
  cases hresult : transitionState t.idempotency call with
  | error e =>
    rw [hresult] at h
    cases h
  | ok idempotency =>
    rw [hresult] at h
    cases h
    exact ⟨idempotency, rfl⟩

/-- **What an operation does to the checkpoints**: nothing, or it saves one, or a position. -/
theorem perform_checkpoints {call : AuthorityCall} (h : perform rt signingKey anchorKey t call = .ok t') :
    t'.checkpoints = t.checkpoints ∨
    (∃ checkpoint token now fits, call.saved = some checkpoint ∧
      saveCheckpoint rt signingKey t.epochs t.checkpoints checkpoint token now fits =
        .ok t'.checkpoints) ∨
    ∃ migrationId tableName position token now fits,
      call = .saveRowPosition migrationId tableName position token now fits ∧
      saveRowPosition rt signingKey t.epochs t.checkpoints migrationId tableName position token now
        fits = .ok t'.checkpoints := by
  cases call with
  | issueFencingToken resourceId workerId now =>
    cases h
    exact .inl rfl
  | saveCheckpoint checkpoint token now fits =>
    obtain ⟨checkpoints, hsaved, rfl⟩ := saveCheckpointIn_eq_ok_iff.mp h
    exact .inr (.inl ⟨checkpoint, token, now, fits, rfl, hsaved⟩)
  | saveRowPosition migrationId tableName position token now fits =>
    rw [perform] at h
    cases hsaved : saveRowPosition rt signingKey t.epochs t.checkpoints migrationId tableName position
        token now fits with
    | error e =>
      rw [hsaved] at h
      cases h
    | ok checkpoints =>
      rw [hsaved] at h
      cases h
      exact .inr (.inr ⟨migrationId, tableName, position, token, now, fits, rfl, hsaved⟩)
  | appendJournalRecord call =>
    obtain rfl := appendRecordIn_eq_ok h
    exact .inl rfl
  | compactJournal safeSequenceBoundary now =>
    cases h
    exact .inl rfl
  | purgeExpiredJournalRecords cutoff now =>
    cases h
    exact .inl rfl
  | transitionIdempotencyState call =>
    obtain ⟨idempotency, rfl⟩ := transitionStateIn_eq_ok h
    exact .inl rfl
  | saveCheckpointWithJournal checkpoint token now fits call =>
    obtain ⟨u, hsave, happend⟩ := Traversal.bind_eq_ok_iff.mp h
    obtain ⟨checkpoints, hsaved, rfl⟩ := saveCheckpointIn_eq_ok_iff.mp hsave
    obtain rfl := appendRecordIn_eq_ok happend
    exact .inr (.inl ⟨checkpoint, token, now, fits, rfl, hsaved⟩)
  | transitionIdempotencyWithCheckpoint call checkpoint token now fits =>
    obtain ⟨u, htransition, hsave⟩ := Traversal.bind_eq_ok_iff.mp h
    obtain ⟨idempotency, rfl⟩ := transitionStateIn_eq_ok htransition
    obtain ⟨checkpoints, hsaved, rfl⟩ := saveCheckpointIn_eq_ok_iff.mp hsave
    exact .inr (.inl ⟨checkpoint, token, now, fits, rfl, hsaved⟩)

end Checkpoints

/-! ## Rollbacks -/

/-- A statement of a rollback operation. -/
inductive RollbackStatement where
  | setStatus (status batchId now : String)
  | abandon (batchId now : String)
  | append (call : JournalTables.AppendCall)

/-- What SQLite and the redaction of error texts do. -/
structure RollbackRuntime where
  /-- `json_set(text, '$.status', status)`; `none` when it raises. -/
  jsonSetStatus : String → String → Option String
  /-- `_sanitize_text` -/
  sanitizeText : String → String

section Rollbacks

variable (rt : DigestRuntime) (rb : RollbackRuntime)

/-- A row of `checkpoints` with its status set in the JSON text. -/
def withStatus (status batchId now : String) (row : CheckpointRow) : CheckpointRow :=
  if row.jobId = batchId then
    { row with
      checkpointJson := (rb.jsonSetStatus row.checkpointJson status).getD row.checkpointJson
      updatedAt := now }
  else row

/-- `UPDATE checkpoints SET checkpoint_json = json_set(…), updated_at = ? WHERE job_id = ?`. -/
def setStatus (status batchId now : String) (checkpoints : CheckpointTable) :
    Except AuthorityError CheckpointTable :=
  if checkpoints.items.any fun item =>
      item.2.jobId = batchId && (rb.jsonSetStatus item.2.checkpointJson status).isNone then
    .error .malformedJson
  else .ok (checkpoints.mapValues (withStatus rb status batchId now))

/-- `UPDATE idempotency_records SET state = 'ABANDONED', updated_at = ? WHERE idempotency_key = ?`. -/
def abandon (batchId now : String) (table : IdempotencyTable) : IdempotencyTable :=
  match table.get? batchId with
  | none => table
  | some row => table.set batchId { row with state := .abandoned, updatedAt := now }

/-- A statement in autocommit mode; one that SQLite fails raises without an effect. -/
def RollbackStatement.execute (fails : RollbackStatement → Bool) (statement : RollbackStatement)
    (t : DurabilityTables) : Except AuthorityError DurabilityTables :=
  if fails statement then .error .sqlite
  else
    match statement with
    | .setStatus status batchId now =>
      match Durability.setStatus rb status batchId now t.checkpoints with
      | .error e => .error e
      | .ok checkpoints => .ok { t with checkpoints := checkpoints }
    | .abandon batchId now => .ok { t with idempotency := Durability.abandon batchId now t.idempotency }
    | .append call => appendRecordIn rt t call

/-- `verify_batch_exists`. -/
def verifyBatchExists (t : DurabilityTables) (batchId : String) : Bool :=
  (t.checkpoints.items.any fun item => item.2.jobId = batchId) ||
    (t.idempotency.get? batchId).isSome ||
    t.journal.records.any fun row => row.operationId = batchId

/-- The migrations that a batch belongs to. -/
def batchMigrationIds (t : DurabilityTables) (batchId : String) : List String :=
  let checkpoints := (t.checkpoints.items.filter fun item => item.2.jobId = batchId).map Prod.fst
  let idempotency := (t.idempotency.get? batchId).toList.map IdempotencyRow.migrationId
  let journal := (t.journal.records.filter fun row => row.operationId = batchId).map
    JournalRow.migrationId
  ((checkpoints ++ idempotency ++ journal).filter fun id => id ≠ "").dedup

/-- `get_batch_migration_id(batch_id) or ""`. -/
def getBatchMigrationId (t : DurabilityTables) (batchId : String) : Except AuthorityError String :=
  match batchMigrationIds t batchId with
  | [] => .ok ""
  | [migrationId] => .ok migrationId
  | migrationIds =>
    .error (.ambiguousBatch batchId (migrationIds.insertionSort fun id id' => id ≤ id'))

/-- A rollback operation, the times at which its statements are written, and whether the quota leaves
room for its record. -/
inductive RollbackCall where
  | stagePendingRollback (batchId now appendedAt : String) (fits : Bool)
  | recordRollbackFailure (batchId errorMsg now appendedAt : String) (fits : Bool)
  | rollbackBatch (batchId now appendedAt : String) (fits : Bool)

/-- The record of `stage_pending_rollback`. -/
def pendingRollbackRecord (batchId appendedAt : String) (fits : Bool) (migrationId : String) :
    JournalTables.AppendCall where
  operationId := "pending-rollback-" ++ batchId
  operationType := "PENDING_ROLLBACK"
  payload := textDict [("batch_id", .str batchId), ("action", .str "STAGE_PENDING_ROLLBACK")]
  migrationId := migrationId
  now := appendedAt
  fits := fits

/-- The record of `record_rollback_failure`. -/
def rollbackFailedRecord (batchId errorMsg appendedAt : String) (fits : Bool) (migrationId : String) :
    JournalTables.AppendCall where
  operationId := "rollback-failed-" ++ batchId
  operationType := "ROLLBACK_FAILED"
  payload := textDict [("batch_id", .str batchId), ("error", .str (rb.sanitizeText errorMsg))]
  migrationId := migrationId
  now := appendedAt
  fits := fits

/-- The record of `rollback_batch`. -/
def tombstoneRecord (batchId appendedAt : String) (fits : Bool) (migrationId : String) :
    JournalTables.AppendCall where
  operationId := "rollback-" ++ batchId
  operationType := "ROLLBACK_BATCH"
  payload := textDict [("batch_id", .str batchId), ("action", .str "ROLLBACK_TOMBSTONE")]
  migrationId := migrationId
  now := appendedAt
  fits := fits

/-- The statements of `stage_pending_rollback`. -/
def stagePendingRollback (batchId now appendedAt : String) (fits : Bool) (migrationId : String) :
    List RollbackStatement :=
  [.setStatus "PENDING_ROLLBACK" batchId now,
    .append (pendingRollbackRecord batchId appendedAt fits migrationId)]

/-- The statements of `record_rollback_failure`. -/
def recordRollbackFailure (batchId errorMsg now appendedAt : String) (fits : Bool)
    (migrationId : String) : List RollbackStatement :=
  [.setStatus "ROLLBACK_FAILED" batchId now,
    .append (rollbackFailedRecord rb batchId errorMsg appendedAt fits migrationId)]

/-- The statements of `rollback_batch`. -/
def rollbackBatch (batchId now appendedAt : String) (fits : Bool) (migrationId : String) :
    List RollbackStatement :=
  [.setStatus "ROLLED_BACK" batchId now, .abandon batchId now,
    .append (tombstoneRecord batchId appendedAt fits migrationId)]

/-- The batch of a rollback operation. -/
def RollbackCall.batchId : RollbackCall → String
  | .stagePendingRollback batchId _ _ _ => batchId
  | .recordRollbackFailure batchId _ _ _ _ => batchId
  | .rollbackBatch batchId _ _ _ => batchId

/-- The statements of a rollback operation. -/
def RollbackCall.statements (migrationId : String) : RollbackCall → List RollbackStatement
  | .stagePendingRollback batchId now appendedAt fits =>
    Durability.stagePendingRollback batchId now appendedAt fits migrationId
  | .recordRollbackFailure batchId errorMsg now appendedAt fits =>
    Durability.recordRollbackFailure rb batchId errorMsg now appendedAt fits migrationId
  | .rollbackBatch batchId now appendedAt fits =>
    Durability.rollbackBatch batchId now appendedAt fits migrationId

/-- What a rollback operation checks before its first statement: the migration of its batch. -/
def RollbackCall.check (t : DurabilityTables) : RollbackCall → Except AuthorityError String
  | .rollbackBatch batchId _ _ _ =>
    if verifyBatchExists t batchId then getBatchMigrationId t batchId
    else .error (.unknownBatch batchId)
  | call => getBatchMigrationId t call.batchId

/-- A rollback operation. -/
def RollbackCall.perform (fails : RollbackStatement → Bool) (call : RollbackCall)
    (t : DurabilityTables) : Except AuthorityError Unit × DurabilityTables :=
  match call.check t with
  | .error e => (.error e, t)
  | .ok migrationId =>
    Autocommit.execute ((call.statements rb migrationId).map (RollbackStatement.execute rt rb fails)) t

end Rollbacks

/-! ## Steps -/

/-- What any worker does next: an operation that is one transaction, or a statement of a rollback
operation, which SQLite may fail. -/
inductive AuthorityAction where
  | call (call : AuthorityCall)
  | statement (statement : RollbackStatement) (fails : Bool)

/-- The tables after a step; what raises leaves them as they are. -/
def authorityStep (rt : DigestRuntime) (rb : RollbackRuntime) (signingKey anchorKey : List UInt8)
    (t : DurabilityTables) : AuthorityAction → Option DurabilityTables
  | .call call => some ((perform rt signingKey anchorKey t call).toOption.getD t)
  | .statement statement fails =>
    some ((statement.execute rt rb (fun _ => fails) t).toOption.getD t)

end Durability

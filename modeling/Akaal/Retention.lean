/-
# Operational retention

`OperationalRetentionService` of `akaalPipeline/operations/retention.py`: the old rows of a tenant are
sorted into protected and eligible ones, class by class, and the eligible ones are deleted in batches, as
far as a limit allows.

* `pruned_of_deleteAll` : what is deleted was eligible, in a place of its batch below the limit;
* `reaches_active_iff` : the states of a migration from which it can become active;
* `retains_iff` : no row in use is deleted, whatever statements fail, precisely when none stands
  unguarded in such a place;
* `not_retains_of_running` : the journal of a running operation is deleted.

Which statements fail, and with what text, is a parameter; texts of times are compared as SQLite does.
-/
import Akaal.JsonReader
import Akaal.MigrationAggregate
import Akaal.ScheduleOccurrences
import Akaal.Traversal

open JsonText MigrationState ScheduleOccurrences

namespace Retention

/-! ## Tables -/

/-- The classes of data that retention knows. -/
inductive DataClass where
  | operationJournal
  | idempotencyRecords
  | lifecycleHistory
  | outboxEvents
  | checkpoints
  | immutableArtifacts
  | auditTrail
  | scheduleOccurrences
  deriving DecidableEq

/-- The name of a class, which is that of its table. -/
def DataClass.name : DataClass → String
  | .operationJournal => "operation_journal"
  | .idempotencyRecords => "idempotency_records"
  | .lifecycleHistory => "lifecycle_history"
  | .outboxEvents => "outbox_events"
  | .checkpoints => "checkpoints"
  | .immutableArtifacts => "immutable_artifacts"
  | .auditTrail => "audit_trail"
  | .scheduleOccurrences => "schedule_occurrences"

/-- All classes. -/
def DataClass.all : List DataClass :=
  [operationJournal, idempotencyRecords, lifecycleHistory, outboxEvents, checkpoints,
    immutableArtifacts, auditTrail, scheduleOccurrences]

instance : Fintype DataClass where
  elems := ⟨DataClass.all, by decide⟩
  complete := fun c => by cases c <;> decide

/-- The class with a name, if any. -/
def DataClass.named (name : String) : Option DataClass := all.find? fun c => c.name = name

/-- `OperationStatus`. -/
inductive OperationStatus where
  | accepted
  | running
  | succeeded
  | failed
  | cancelled
  deriving DecidableEq

/-- The statuses in which an operation has ended. -/
def OperationStatus.isTerminal : OperationStatus → Bool
  | .succeeded | .failed | .cancelled => true
  | .accepted | .running => false

/-- The status of an outbox event. -/
inductive OutboxStatus where
  | pending
  | published
  deriving DecidableEq

/-- A row of `operation_journal`. -/
structure OperationRow where
  operationId : String
  tenantId : String
  idempotencyKey : Option String
  status : OperationStatus
  error : Option String
  createdAt : String

/-- A row of `idempotency_records`. -/
structure IdempotencyRow where
  recordId : String
  idempotencyKey : String
  tenantId : String
  createdAt : String

/-- A row of `lifecycle_history`. -/
structure HistoryRow where
  historyId : String
  migrationId : String
  tenantId : String
  timestamp : String

/-- A row of `outbox_events`. -/
structure OutboxRow where
  eventId : String
  tenantId : String
  aggregateId : String
  status : OutboxStatus
  createdAt : String

/-- A row of `checkpoints`. -/
structure CheckpointRow where
  checkpointId : String
  tenantId : String
  migrationId : String
  createdAt : String

/-- A row of `immutable_artifacts`. -/
structure ArtifactRow where
  artifactId : String
  tenantId : String
  createdAt : String

/-- A row of `audit_trail`. -/
structure AuditTrailRow where
  auditId : String
  tenantId : String
  createdAt : String

/-- A row of `schedule_occurrences`. -/
structure OccurrenceRow where
  occurrenceId : String
  tenantId : String
  status : OccurrenceStatus
  createdAt : String

/-- The rows of a class, with the columns that retention reads. -/
def Row : DataClass → Type
  | .operationJournal => OperationRow
  | .idempotencyRecords => IdempotencyRow
  | .lifecycleHistory => HistoryRow
  | .outboxEvents => OutboxRow
  | .checkpoints => CheckpointRow
  | .immutableArtifacts => ArtifactRow
  | .auditTrail => AuditTrailRow
  | .scheduleOccurrences => OccurrenceRow

/-- The primary key of a row. -/
def rowId : (c : DataClass) → Row c → String
  | .operationJournal => OperationRow.operationId
  | .idempotencyRecords => IdempotencyRow.recordId
  | .lifecycleHistory => HistoryRow.historyId
  | .outboxEvents => OutboxRow.eventId
  | .checkpoints => CheckpointRow.checkpointId
  | .immutableArtifacts => ArtifactRow.artifactId
  | .auditTrail => AuditTrailRow.auditId
  | .scheduleOccurrences => OccurrenceRow.occurrenceId

/-- The tenant of a row. -/
def rowTenant : (c : DataClass) → Row c → String
  | .operationJournal => OperationRow.tenantId
  | .idempotencyRecords => IdempotencyRow.tenantId
  | .lifecycleHistory => HistoryRow.tenantId
  | .outboxEvents => OutboxRow.tenantId
  | .checkpoints => CheckpointRow.tenantId
  | .immutableArtifacts => ArtifactRow.tenantId
  | .auditTrail => AuditTrailRow.tenantId
  | .scheduleOccurrences => OccurrenceRow.tenantId

/-- The time that is compared with the cutoff. -/
def rowTime : (c : DataClass) → Row c → String
  | .operationJournal => OperationRow.createdAt
  | .idempotencyRecords => IdempotencyRow.createdAt
  | .lifecycleHistory => HistoryRow.timestamp
  | .outboxEvents => OutboxRow.createdAt
  | .checkpoints => CheckpointRow.createdAt
  | .immutableArtifacts => ArtifactRow.createdAt
  | .auditTrail => AuditTrailRow.createdAt
  | .scheduleOccurrences => OccurrenceRow.createdAt

/-- A table: rows under distinct primary keys. -/
structure Table (c : DataClass) where
  rows : List (Row c)
  distinct : (rows.map (rowId c)).Nodup

/-- A row of `migrations`. -/
structure MigrationRow where
  migrationId : String
  tenantId : String
  state : MigrationLifecycleState
  deriving DecidableEq

/-- `RetentionProtectionClass`, as far as rows are counted under it. -/
inductive ProtectionClass where
  | evidenceProtected
  | recoverySensitive
  | governanceSensitive
  | activeReferenceProtected
  | idempotencySafety
  deriving DecidableEq

/-- The value of a protection class. -/
def ProtectionClass.value : ProtectionClass → String
  | .evidenceProtected => "EVIDENCE_PROTECTED"
  | .recoverySensitive => "RECOVERY_SENSITIVE"
  | .governanceSensitive => "GOVERNANCE_SENSITIVE"
  | .activeReferenceProtected => "ACTIVE_REFERENCE_PROTECTED"
  | .idempotencySafety => "IDEMPOTENCY_SAFETY"

/-- `RetentionExecutionResult`, as it is also journaled in `retention_operations`. -/
structure ExecutionResult where
  retentionOpId : String
  tenantId : String
  status : String
  cutoffTime : String
  dataClasses : List String
  consideredCount : ℕ
  eligibleCount : ℕ
  deletedCount : ℕ
  protectedCount : ℕ
  failedCount : ℕ
  protectionBreakdown : PyDict ℕ
  errorDetails : Option String
  startedAt : String
  completedAt : String

/-- The database; a journaled operation comes with its workspace, its project and its initiator. -/
structure Database where
  migrations : List MigrationRow
  tables : (c : DataClass) → Table c
  retentionOperations : List (ExecutionResult × String × Option String × String)

/-- `RetentionPolicy`. -/
structure RetentionPolicy where
  cutoffTime : String
  tenantId : String
  workspaceId : Option String
  projectId : Option String
  dataClasses : List String

/-! ## Candidates -/

/-- `ACTIVE_MIGRATION_STATES`. -/
def activeMigrationStates : List MigrationLifecycleState :=
  [.initialized, .active, .pausing, .paused, .configuring, .governancePending, .authorized, .planned]

section Candidates

variable (policy : RetentionPolicy) (db : Database)

/-- `active_migration_ids`. -/
def activeMigrationIds : List String :=
  (db.migrations.filter fun m => m.tenantId = policy.tenantId && m.state ∈ activeMigrationStates).map
    MigrationRow.migrationId

/-- `value is True`. -/
def isTrue : Option PyValue → Bool
  | some (.bool true) => true
  | _ => false

/-- Whether an error requires reconciliation; what is no such dictionary does not. -/
def requiresReconciliation (err : String) : Bool :=
  match loads err with
  | some (.dict errDict) =>
    match (List.lookup "details" errDict).getD (.dict []) with
    | .dict details =>
      isTrue (List.lookup "reconciliation_required" details) ||
        isTrue (List.lookup "reconciliation_required" errDict)
    | _ => false
  | _ => false

/-- The operations that have failed and require reconciliation. -/
def ambiguousOperations : List OperationRow :=
  (db.tables .operationJournal).rows.filter fun r : OperationRow =>
    r.tenantId = policy.tenantId && r.status = .failed && r.error.any requiresReconciliation

/-- `ambiguous_op_ids`. -/
def ambiguousOpIds : List String := (ambiguousOperations policy db).map OperationRow.operationId

/-- `ambiguous_idem_keys`. -/
def ambiguousIdemKeys : List String :=
  ((ambiguousOperations policy db).filterMap OperationRow.idempotencyKey).filter (· ≠ "")

/-- What protects a row, if anything does. -/
def protection : (c : DataClass) → Row c → Option ProtectionClass
  | .operationJournal => fun r : OperationRow =>
    if r.operationId ∈ ambiguousOpIds policy db then some .activeReferenceProtected else none
  | .idempotencyRecords => fun r : IdempotencyRow =>
    if r.idempotencyKey ∈ ambiguousIdemKeys policy db then some .idempotencySafety else none
  | .lifecycleHistory => fun r : HistoryRow =>
    if r.migrationId ∈ activeMigrationIds policy db then some .activeReferenceProtected else none
  | .outboxEvents => fun r : OutboxRow =>
    if r.status = .pending ∨ r.aggregateId ∈ activeMigrationIds policy db then
      some .activeReferenceProtected
    else none
  | .checkpoints => fun r : CheckpointRow =>
    if r.migrationId ∈ activeMigrationIds policy db then some .recoverySensitive else none
  | .immutableArtifacts => fun _ => some .evidenceProtected
  | .auditTrail => fun _ => some .governanceSensitive
  | .scheduleOccurrences => fun r : OccurrenceRow =>
    if r.status ∈ [OccurrenceStatus.pending, .claimed, .dispatched] then
      some .activeReferenceProtected
    else none

/-- The rows that are considered: those of the tenant that are older than the cutoff. -/
def consideredRows (c : DataClass) : List (Row c) :=
  (db.tables c).rows.filter fun r =>
    rowTenant c r = policy.tenantId && rowTime c r < policy.cutoffTime

/-- `_analyze_candidates`, as far as it has come. -/
structure Analysis where
  totalConsidered : ℕ
  totalEligible : ℕ
  totalProtected : ℕ
  protectionBreakdown : PyDict ℕ
  eligibleByClass : PyDict (List String)

/-- Before the first class. -/
def Analysis.start : Analysis where
  totalConsidered := 0
  totalEligible := 0
  totalProtected := 0
  protectionBreakdown := ((((PyDict.empty.set "EVIDENCE_PROTECTED" 0).set "RECOVERY_SENSITIVE" 0).set
    "GOVERNANCE_SENSITIVE" 0).set "ACTIVE_REFERENCE_PROTECTED" 0).set "IDEMPOTENCY_SAFETY" 0
  eligibleByClass := PyDict.empty

/-- One row of a class: it is counted as protected, or as eligible and listed. -/
def analyzeRow (name : String) (c : DataClass) (a : Analysis) (r : Row c) : Analysis :=
  match protection policy db c r with
  | some p =>
    { a with
      totalConsidered := a.totalConsidered + 1
      totalProtected := a.totalProtected + 1
      protectionBreakdown := a.protectionBreakdown.set p.value
        ((a.protectionBreakdown.get? p.value).getD 0 + 1) }
  | none =>
    { a with
      totalConsidered := a.totalConsidered + 1
      totalEligible := a.totalEligible + 1
      eligibleByClass := a.eligibleByClass.set name
        ((a.eligibleByClass.get? name).getD [] ++ [rowId c r]) }

/-- One class; a name of none is only listed. -/
def analyzeClass (a : Analysis) (name : String) : Analysis :=
  let a' := { a with eligibleByClass := a.eligibleByClass.set name [] }
  match DataClass.named name with
  | none => a'
  | some c => (consideredRows policy db c).foldl (analyzeRow policy db name c) a'

/-- `_analyze_candidates`. -/
def analyzeCandidates : Analysis := policy.dataClasses.foldl (analyzeClass policy db) Analysis.start

end Candidates

/-! ## Deletions -/

/-- The rows that a `DELETE` leaves. -/
def Table.delete {c : DataClass} (t : Table c) (tenantId : String) (ids : List String) : Table c where
  rows := t.rows.filter fun r => ¬ (rowTenant c r = tenantId ∧ rowId c r ∈ ids)
  distinct := t.distinct.sublist (List.filter_sublist.map _)

/-- The exception of `execute`: `ValueError` of `range`. -/
inductive RetentionException where
  | zeroStep
  deriving DecidableEq

section Deletions

-- the text of the error that a `DELETE` from a table raises for ids, if it raises one
variable (refuses : String → List String → Option String)

/-- The classes whose rows are deleted. -/
def DataClass.isPrunable : DataClass → Bool
  | .immutableArtifacts | .auditTrail => false
  | _ => true

/-- `_delete_batch`: the database and the number of rows that are deleted. -/
def deleteBatch (dclass : String) (ids : List String) (tenantId : String) (db : Database) :
    Except String (Database × ℕ) :=
  if ids = [] then .ok (db, 0)
  else
    match DataClass.named dclass with
    | none => .ok (db, 0)
    | some c =>
      if c.isPrunable then
        match refuses dclass ids with
        | some exc => .error exc
        | none =>
          let t := (db.tables c).delete tenantId ids
          .ok ({ db with tables := Function.update db.tables c t },
            (db.tables c).rows.length - t.rows.length)
      else .ok (db, 0)

/-- How far `execute` has come. -/
structure Progress where
  db : Database
  deletedTotal : ℕ
  failedTotal : ℕ
  status : String
  errMsg : Option String

/-- Before the first batch. -/
def Progress.start (db : Database) : Progress where
  db := db
  deletedTotal := 0
  failedTotal := 0
  status := "COMPLETED"
  errMsg := none

/-- Whether the limit is reached. -/
def limitReached (maxRecords : Option ℤ) (deletedTotal : ℕ) : Bool :=
  maxRecords.any fun m : ℤ => m ≤ deletedTotal

/-- A batch, cut to what the limit leaves. -/
def cutChunk (maxRecords : Option ℤ) (deletedTotal : ℕ) (chunk : List String) : List String :=
  match maxRecords with
  | none => chunk
  | some m => if m < deletedTotal + chunk.length then chunk.take (m - deletedTotal).toNat else chunk

/-- One batch: the ids from a place on. -/
def deleteChunk (tenantId : String) (batchSize : ℕ) (maxRecords : Option ℤ) (dclass : String)
    (eligibleIds : List String) (p : Progress) (i : ℕ) : Progress :=
  let chunk := cutChunk maxRecords p.deletedTotal ((eligibleIds.drop i).take batchSize)
  match deleteBatch refuses dclass chunk tenantId p.db with
  | .ok (db, delCount) => { p with db := db, deletedTotal := p.deletedTotal + delCount }
  | .error exc =>
    { p with
      failedTotal := p.failedTotal + chunk.length
      status := "PARTIALLY_FAILED"
      errMsg := some ("Error pruning " ++ dclass ++ ": " ++ exc) }

/-- The batches of a class, until the limit is reached. -/
def deleteClass (tenantId : String) (batchSize : ℕ) (maxRecords : Option ℤ) (dclass : String)
    (eligibleIds : List String) : Progress → List ℕ → Progress
  | p, [] => p
  | p, i :: is =>
    if limitReached maxRecords p.deletedTotal then p
    else deleteClass tenantId batchSize maxRecords dclass eligibleIds
      (deleteChunk refuses tenantId batchSize maxRecords dclass eligibleIds p i) is

/-- `range(0, n, batch_size)`. -/
def batchStarts (n : ℕ) (batchSize : ℤ) : Except RetentionException (List ℕ) :=
  if batchSize = 0 then .error .zeroStep
  else if batchSize < 0 then .ok []
  else .ok ((List.range ((n + batchSize.toNat - 1) / batchSize.toNat)).map (· * batchSize.toNat))

/-- The classes, until the limit is reached. -/
def deleteAll (tenantId : String) (batchSize : ℤ) (maxRecords : Option ℤ) :
    Progress → List (String × List String) → Except RetentionException Progress
  | p, [] => .ok p
  | p, (dclass, eligibleIds) :: classes =>
    if eligibleIds = [] then deleteAll tenantId batchSize maxRecords p classes
    else
      match batchStarts eligibleIds.length batchSize with
      | .error e => .error e
      | .ok starts =>
        let p' := deleteClass refuses tenantId batchSize.toNat maxRecords dclass eligibleIds p starts
        if limitReached maxRecords p'.deletedTotal then .ok p'
        else deleteAll tenantId batchSize maxRecords p' classes

/-- The arguments of `execute` beside the policy and the database, with the id and the times that it
draws. -/
structure ExecuteCall where
  actorId : Option String
  batchSize : ℤ
  maxRecords : Option ℤ
  retentionOpId : String
  nowIso : String
  completedIso : String

/-- `execute`. -/
def execute (policy : RetentionPolicy) (call : ExecuteCall) (db : Database) :
    Except RetentionException (Database × ExecutionResult) := do
  let analysis := analyzeCandidates policy db
  let p ← deleteAll refuses policy.tenantId call.batchSize call.maxRecords (Progress.start db)
    analysis.eligibleByClass.items
  let result : ExecutionResult :=
    { retentionOpId := call.retentionOpId
      tenantId := policy.tenantId
      status := p.status
      cutoffTime := policy.cutoffTime
      dataClasses := policy.dataClasses
      consideredCount := analysis.totalConsidered
      eligibleCount := analysis.totalEligible
      deletedCount := p.deletedTotal
      protectedCount := analysis.totalProtected
      failedCount := p.failedTotal
      protectionBreakdown := analysis.protectionBreakdown
      errorDetails := p.errMsg
      startedAt := call.nowIso
      completedAt := call.completedIso }
  let journaled := (result, policy.workspaceId.filter (· ≠ "") |>.getD "default-workspace",
    policy.projectId, call.actorId.getD "system-retention")
  return ({ p.db with retentionOperations := p.db.retentionOperations ++ [journaled] }, result)

end Deletions

/-! ## The analysis -/

section Analyses

variable (policy : RetentionPolicy) (db : Database)

/-- The rows of a class that nothing protects. -/
def eligibleRows (c : DataClass) : List (Row c) :=
  (consideredRows policy db c).filter fun r => (protection policy db c r).isNone

/-- The ids that are eligible under a name. -/
def eligibleIds (name : String) : List String :=
  match DataClass.named name with
  | none => []
  | some c => (eligibleRows policy db c).map (rowId c)

variable {policy db}

/-- Every row that is considered is counted once more. -/
theorem total_analyzeRow {name : String} {c : DataClass} {a : Analysis}
    (h : a.totalConsidered = a.totalEligible + a.totalProtected) (r : Row c) :
    (analyzeRow policy db name c a r).totalConsidered =
      (analyzeRow policy db name c a r).totalEligible +
        (analyzeRow policy db name c a r).totalProtected := by
  rw [analyzeRow]
  cases protection policy db c r with
  | none =>
    dsimp only
    omega
  | some p =>
    dsimp only
    omega

/-- The eligible rows of a class are listed after those that are listed. -/
theorem get?_analyzeRows {name : String} {c : DataClass} (rows : List (Row c)) (a : Analysis)
    {ids : List String} (h : a.eligibleByClass.get? name = some ids) (key : String) :
    (rows.foldl (analyzeRow policy db name c) a).eligibleByClass.get? key =
      if key = name then
        some (ids ++ (rows.filter fun r => (protection policy db c r).isNone).map (rowId c))
      else a.eligibleByClass.get? key := by
  induction rows generalizing a ids with
  | nil =>
    split_ifs with hkey
    · rw [hkey, List.foldl_nil, h]
      simp
    · rfl
  | cons r rows ih =>
    rw [List.foldl_cons]
    cases hr : protection policy db c r with
    | none =>
      have hstep : (analyzeRow policy db name c a r).eligibleByClass =
          a.eligibleByClass.set name (ids ++ [rowId c r]) := by
        rw [analyzeRow, hr, h]
        rfl
      rw [ih _ (by rw [hstep]; exact PyDict.get?_set _ _ _), hstep,
        List.filter_cons_of_pos (by rw [hr]; rfl)]
      split_ifs with hkey
      · rw [List.map_cons, List.append_assoc, List.singleton_append]
      · exact PyDict.get?_set_of_ne _ _ hkey
    | some p =>
      have hstep : (analyzeRow policy db name c a r).eligibleByClass = a.eligibleByClass := by
        rw [analyzeRow, hr]
      rw [ih _ (by rw [hstep]; exact h), hstep,
        List.filter_cons_of_neg (by rw [hr]; exact Bool.false_ne_true)]

theorem get?_analyzeClass (a : Analysis) (name key : String) :
    (analyzeClass policy db a name).eligibleByClass.get? key =
      if key = name then some (eligibleIds policy db name) else a.eligibleByClass.get? key := by
  rw [analyzeClass, eligibleIds]
  cases hname : DataClass.named name with
  | none =>
    dsimp only
    split_ifs with hkey
    · rw [hkey, PyDict.get?_set]
    · exact PyDict.get?_set_of_ne _ _ hkey
  | some c =>
    dsimp only
    rw [get?_analyzeRows _ _ (PyDict.get?_set _ _ _), List.nil_append]
    split_ifs with hkey
    · rfl
    · exact PyDict.get?_set_of_ne _ _ hkey

/-- **The analysis** lists the eligible rows of every class of the policy. -/
theorem mem_eligibleByClass_iff {name : String} {ids : List String} :
    (name, ids) ∈ (analyzeCandidates policy db).eligibleByClass.items ↔
      name ∈ policy.dataClasses ∧ ids = eligibleIds policy db name := by
  have hfold : ∀ (names : List String) (a : Analysis),
      (names.foldl (analyzeClass policy db) a).eligibleByClass.get? name =
        if name ∈ names then some (eligibleIds policy db name) else a.eligibleByClass.get? name := by
    intro names
    induction names with
    | nil => exact fun _ => rfl
    | cons first names ih =>
      intro a
      rw [List.foldl_cons, ih, get?_analyzeClass]
      by_cases hmem : name ∈ names
      · rw [if_pos hmem, if_pos (List.mem_cons_of_mem _ hmem)]
      · by_cases hfirst : name = first
        · rw [if_neg hmem, if_pos hfirst, if_pos (List.mem_cons.mpr (Or.inl hfirst)), hfirst]
        · rw [if_neg hmem, if_neg hfirst, if_neg]
          exact fun h => (List.mem_cons.mp h).elim hfirst hmem
  rw [PyDict.mem_items_iff, analyzeCandidates, hfold]
  split_ifs with hmem
  · rw [Option.some.injEq, eq_comm]
    exact (and_iff_right hmem).symm
  · exact iff_of_false (fun h => by cases h) fun h => hmem h.1

/-- **What is considered** is eligible or protected. -/
theorem total_analyzeCandidates (policy : RetentionPolicy) (db : Database) :
    (analyzeCandidates policy db).totalConsidered =
      (analyzeCandidates policy db).totalEligible + (analyzeCandidates policy db).totalProtected := by
  have hrows : ∀ {name : String} {c : DataClass} (rows : List (Row c)) (a : Analysis),
      a.totalConsidered = a.totalEligible + a.totalProtected →
        (rows.foldl (analyzeRow policy db name c) a).totalConsidered =
          (rows.foldl (analyzeRow policy db name c) a).totalEligible +
            (rows.foldl (analyzeRow policy db name c) a).totalProtected := by
    intro name c rows
    induction rows with
    | nil => exact fun _ h => h
    | cons r rows ih => exact fun a h => ih _ (total_analyzeRow h r)
  have hclasses : ∀ (names : List String) (a : Analysis),
      a.totalConsidered = a.totalEligible + a.totalProtected →
        (names.foldl (analyzeClass policy db) a).totalConsidered =
          (names.foldl (analyzeClass policy db) a).totalEligible +
            (names.foldl (analyzeClass policy db) a).totalProtected := by
    intro names
    induction names with
    | nil => exact fun _ h => h
    | cons name names ih =>
      intro a h
      refine ih _ ?_
      rw [analyzeClass]
      cases DataClass.named name with
      | none => exact h
      | some c => exact hrows _ _ h
  exact hclasses _ _ rfl

end Analyses

/-! ## What is deleted -/

/-- The number of rows of all classes. -/
def Database.size (db : Database) : ℕ := ∑ c : DataClass, (db.tables c).rows.length

/-- A row stands in a place of its batch from which it may be deleted: among the eligible rows of a class
of the policy, below the limit within a batch. -/
def Reached (policy : RetentionPolicy) (batchSize : ℕ) (maxRecords : Option ℤ) (db : Database)
    (c : DataClass) (r : Row c) : Prop :=
  c.name ∈ policy.dataClasses ∧ ∃ i : ℕ, (eligibleRows policy db c)[i]? = some r ∧
    ∀ m ∈ maxRecords, ((i % batchSize : ℕ) : ℤ) < m

/-- What holds while rows are deleted: rows are left as they were, those that are deleted were reached,
and they are counted up to the limit. -/
structure Pruned (policy : RetentionPolicy) (batchSize : ℕ) (maxRecords : Option ℤ) (db : Database)
    (p : Progress) : Prop where
  rows : ∀ c, (p.db.tables c).rows.Sublist (db.tables c).rows
  reached : ∀ c, ∀ r ∈ (db.tables c).rows, r ∉ (p.db.tables c).rows →
    Reached policy batchSize maxRecords db c r
  size : p.db.size + p.deletedTotal = db.size
  limit : ∀ m ∈ maxRecords, (p.deletedTotal : ℤ) ≤ max m 0

section Deleting

variable {refuses : String → List String → Option String} {policy : RetentionPolicy} {db : Database}
  {batchSize : ℕ} {maxRecords : Option ℤ} {p : Progress}

variable {c : DataClass} {n : ℕ} {tenantId : String}

theorem name_of_named {name : String} (h : DataClass.named name = some c) :
    c.name = name := of_decide_eq_true (List.find?_some h :)

theorem named_name (c : DataClass) : DataClass.named c.name = some c := by
  cases c <;> rfl

theorem Table.eq_of_rowId (t : Table c) {r r' : Row c} (hr : r ∈ t.rows)
    (hr' : r' ∈ t.rows) (h : rowId c r = rowId c r') : r = r' :=
  List.inj_on_of_nodup_map t.distinct hr hr' h

theorem Table.mem_delete_iff {t : Table c} {ids : List String}
    {r : Row c} : r ∈ (t.delete tenantId ids).rows ↔
      r ∈ t.rows ∧ ¬ (rowTenant c r = tenantId ∧ rowId c r ∈ ids) := by
  rw [Table.delete, List.mem_filter, decide_eq_true_iff]

theorem Table.length_delete (t : Table c) (tenantId : String) (ids : List String) :
    t.rows.length ≤ (t.delete tenantId ids).rows.length + ids.length := by
  have hsplit := List.length_eq_length_filter_add (l := t.rows)
    fun r => decide (¬ (rowTenant c r = tenantId ∧ rowId c r ∈ ids))
  have hsub : ((t.rows.filter fun r =>
      !decide (¬ (rowTenant c r = tenantId ∧ rowId c r ∈ ids))).map (rowId c)) ⊆ ids := by
    intro id hid
    obtain ⟨r, hr, rfl⟩ := List.mem_map.mp hid
    have hcond := (List.mem_filter.mp hr).2
    simp only [not_not, Bool.not_eq_true', decide_eq_false_iff_not] at hcond
    exact hcond.2
  have hnodup : ((t.rows.filter fun r =>
      !decide (¬ (rowTenant c r = tenantId ∧ rowId c r ∈ ids))).map (rowId c)).Nodup :=
    t.distinct.sublist (List.filter_sublist.map _)
  have hle := (hnodup.subperm hsub).length_le
  rw [List.length_map] at hle
  change t.rows.length ≤ (t.rows.filter _).length + ids.length
  omega

theorem size_update (db : Database) (c : DataClass) (t : Table c) :
    Database.size { db with tables := Function.update db.tables c t } + (db.tables c).rows.length =
      db.size + t.rows.length := by
  have hupdate : (fun k => (Function.update db.tables c t k).rows.length) =
      Function.update (fun k => (db.tables k).rows.length) c t.rows.length := by
    funext k
    exact Function.apply_update (fun k (t : Table k) => t.rows.length) db.tables c t k
  rw [Database.size, Database.size, hupdate, Finset.sum_update_of_mem (Finset.mem_univ c),
    ← Finset.add_sum_erase Finset.univ _ (Finset.mem_univ c), Finset.sdiff_singleton_eq_erase]
  ring

/-- What a batch does: nothing, or it deletes rows of one class. -/
theorem deleteBatch_spec {dclass : String} {ids : List String} {db' : Database}
    (h : deleteBatch refuses dclass ids tenantId db = .ok (db', n)) :
    db' = db ∧ n = 0 ∨ ∃ c, DataClass.named dclass = some c ∧
      db' = { db with tables := Function.update db.tables c ((db.tables c).delete tenantId ids) } ∧
      n = (db.tables c).rows.length - ((db.tables c).delete tenantId ids).rows.length := by
  rw [deleteBatch] at h
  split_ifs at h
  · cases h
    exact .inl ⟨rfl, rfl⟩
  · split at h
    · cases h
      exact .inl ⟨rfl, rfl⟩
    · rename_i c hc
      split_ifs at h
      · split at h
        · cases h
        · cases h
          exact .inr ⟨c, hc, rfl, rfl⟩
      · cases h
        exact .inl ⟨rfl, rfl⟩

theorem cutChunk_spec {deletedTotal : ℕ} (hlimit : limitReached maxRecords deletedTotal = false)
    (chunk : List String) : ∃ n, cutChunk maxRecords deletedTotal chunk = chunk.take n ∧
      ∀ m ∈ maxRecords, ((chunk.take n).length + deletedTotal : ℤ) ≤ m := by
  cases maxRecords with
  | none => exact ⟨chunk.length, (List.take_length).symm, fun m hm => by cases hm⟩
  | some m =>
    have hlt : ¬ m ≤ deletedTotal := of_decide_eq_false hlimit
    rw [cutChunk]
    split_ifs with hcut
    · refine ⟨(m - deletedTotal).toNat, rfl, fun k hk => ?_⟩
      cases hk
      have hle := List.length_take_le (m - deletedTotal).toNat chunk
      omega
    · refine ⟨chunk.length, (List.take_length).symm, fun k hk => ?_⟩
      cases hk
      rw [List.take_length]
      omega

theorem mem_rows_of_eligible {r : Row c} (h : r ∈ eligibleRows policy db c) :
    r ∈ (db.tables c).rows :=
  List.mem_of_mem_filter (List.mem_of_mem_filter h)

/-- A row whose key stands in a batch is reached. -/
theorem reached_of_mem_chunk {name : String} (hname : name ∈ policy.dataClasses)
    (hc : DataClass.named name = some c) {r : Row c} (hr : r ∈ (db.tables c).rows) {k : ℕ}
    (hid : rowId c r ∈ (((eligibleIds policy db name).drop (k * batchSize)).take batchSize).take n)
    (hlimit : ∀ m ∈ maxRecords, (((((eligibleIds policy db name).drop (k * batchSize)).take
      batchSize).take n).length : ℤ) ≤ m) :
    Reached policy batchSize maxRecords db c r := by
  obtain ⟨j, hj, hget⟩ := List.mem_iff_getElem.mp hid
  have hids : eligibleIds policy db name = (eligibleRows policy db c).map (rowId c) := by
    rw [eligibleIds, hc]
  have hjBatch : j < batchSize := by
    have hle := List.length_take_le n (((eligibleIds policy db name).drop (k * batchSize)).take batchSize)
    have hle' := List.length_take_le batchSize ((eligibleIds policy db name).drop (k * batchSize))
    simp only [List.length_take] at hj
    omega
  rw [List.getElem_take, List.getElem_take, List.getElem_drop] at hget
  have hplace : (eligibleIds policy db name)[k * batchSize + j]? = some (rowId c r) :=
    List.getElem?_eq_some_iff.mpr ⟨_, hget⟩
  rw [hids, List.getElem?_map] at hplace
  obtain ⟨r', hr', hsame⟩ := Option.map_eq_some_iff.mp hplace
  obtain rfl := (db.tables c).eq_of_rowId (mem_rows_of_eligible (List.mem_of_getElem? hr')) hr hsame
  refine ⟨by rwa [name_of_named hc], k * batchSize + j, hr', fun m hm => ?_⟩
  rw [Nat.mul_add_mod_of_lt hjBatch]
  have hm' := hlimit m hm
  omega

/-- **A batch** deletes rows that it reaches. -/
theorem Pruned.deleteChunk {name : String} {k : ℕ}
    (h : Pruned policy batchSize maxRecords db p) (hname : name ∈ policy.dataClasses)
    (hlimit : limitReached maxRecords p.deletedTotal = false) :
    Pruned policy batchSize maxRecords db (deleteChunk refuses policy.tenantId batchSize maxRecords name
      (eligibleIds policy db name) p (k * batchSize)) := by
  obtain ⟨n, hcut, hbound⟩ := cutChunk_spec hlimit
    (((eligibleIds policy db name).drop (k * batchSize)).take batchSize)
  rw [Retention.deleteChunk, hcut]
  cases hbatch : deleteBatch refuses name
      ((((eligibleIds policy db name).drop (k * batchSize)).take batchSize).take n) policy.tenantId
      p.db with
  | error exc => exact ⟨h.rows, h.reached, h.size, h.limit⟩
  | ok result =>
    obtain ⟨db', delCount⟩ := result
    rcases deleteBatch_spec hbatch with ⟨rfl, rfl⟩ | ⟨c, hc, rfl, rfl⟩
    · exact ⟨h.rows, h.reached, h.size, h.limit⟩
    · have hsize := size_update p.db c ((p.db.tables c).delete policy.tenantId
        ((((eligibleIds policy db name).drop (k * batchSize)).take batchSize).take n))
      have hlength := (p.db.tables c).length_delete policy.tenantId
        ((((eligibleIds policy db name).drop (k * batchSize)).take batchSize).take n)
      have hle : ((p.db.tables c).delete policy.tenantId
          ((((eligibleIds policy db name).drop (k * batchSize)).take batchSize).take n)).rows.length ≤
          (p.db.tables c).rows.length := List.filter_sublist.length_le
      refine ⟨fun d => ?_, fun d r hr hdeleted => ?_, ?_, fun m hm => ?_⟩
      · by_cases hd : d = c
        · subst hd
          change (Function.update p.db.tables d _ d).rows.Sublist _
          rw [Function.update_self]
          exact List.filter_sublist.trans (h.rows d)
        · change (Function.update p.db.tables c _ d).rows.Sublist _
          rw [Function.update_of_ne hd]
          exact h.rows d
      · replace hdeleted : r ∉ (Function.update p.db.tables c _ d).rows := hdeleted
        by_cases hd : d = c
        · subst hd
          rw [Function.update_self, Table.mem_delete_iff] at hdeleted
          by_cases hkept : r ∈ (p.db.tables d).rows
          · push Not at hdeleted
            exact reached_of_mem_chunk hname hc hr (hdeleted hkept).2 fun m hm => by
              have hm' := hbound m hm
              omega
          · exact h.reached d r hr hkept
        · rw [Function.update_of_ne hd] at hdeleted
          exact h.reached d r hr hdeleted
      · have hstart := h.size
        dsimp only at hsize ⊢
        omega
      · have hm' := hbound m hm
        change ((p.deletedTotal + _ : ℕ) : ℤ) ≤ max m 0
        omega

/-- **The batches of a class** delete rows that they reach. -/
theorem Pruned.deleteClass {name : String} (hname : name ∈ policy.dataClasses) :
    ∀ {starts : List ℕ} {p : Progress}, (∀ i ∈ starts, ∃ k, i = k * batchSize) →
      Pruned policy batchSize maxRecords db p →
        Pruned policy batchSize maxRecords db (deleteClass refuses policy.tenantId batchSize maxRecords
          name (eligibleIds policy db name) p starts)
  | [], _, _, h => h
  | i :: starts, p, hstarts, h => by
    obtain ⟨⟨k, rfl⟩, hrest⟩ := List.forall_mem_cons.mp hstarts
    rw [Retention.deleteClass]
    split_ifs with hlimit
    · exact h
    · exact Pruned.deleteClass hname hrest (h.deleteChunk hname (Bool.eq_false_of_not_eq_true hlimit))

theorem mem_batchStarts {size : ℤ} {starts : List ℕ} (h : batchStarts n size = .ok starts) :
    ∀ i ∈ starts, ∃ k, i = k * size.toNat := by
  rw [batchStarts] at h
  split_ifs at h
  · obtain rfl := Except.ok.inj h
    exact List.forall_mem_nil _
  · obtain rfl := Except.ok.inj h
    intro i hi
    obtain ⟨k, -, rfl⟩ := List.mem_map.mp hi
    exact ⟨k, rfl⟩

/-- **The classes** delete rows that they reach. -/
theorem Pruned.deleteAll {size : ℤ} : ∀ {classes : List (String × List String)} {p p' : Progress},
      (∀ item ∈ classes, item.1 ∈ policy.dataClasses ∧ item.2 = eligibleIds policy db item.1) →
      Pruned policy size.toNat maxRecords db p →
      deleteAll refuses policy.tenantId size maxRecords p classes = .ok p' →
        Pruned policy size.toNat maxRecords db p'
  | [], p, p', _, hp, h => by
    obtain rfl := Except.ok.inj h
    exact hp
  | (name, ids) :: classes, p, p', hclasses, hp, h => by
    obtain ⟨⟨hname, hids⟩, hrest⟩ := List.forall_mem_cons.mp hclasses
    replace hids : ids = eligibleIds policy db name := hids
    subst hids
    rw [Retention.deleteAll] at h
    split_ifs at h
    · exact Pruned.deleteAll hrest hp h
    · cases hstarts : batchStarts (eligibleIds policy db name).length size with
      | error e =>
        rw [hstarts] at h
        cases h
      | ok starts =>
        rw [hstarts] at h
        dsimp only at h
        have hbatches := mem_batchStarts hstarts
        split_ifs at h
        · obtain rfl := Except.ok.inj h
          exact hp.deleteClass hname hbatches
        · exact Pruned.deleteAll hrest (hp.deleteClass hname hbatches) h

theorem pruned_start (policy : RetentionPolicy) (batchSize : ℕ) (maxRecords : Option ℤ)
    (db : Database) : Pruned policy batchSize maxRecords db (Progress.start db) where
  rows _ := List.Sublist.refl _
  reached _ _ hr hdeleted := absurd hr hdeleted
  size := rfl
  limit m _ := le_max_right m 0

/-- **An execution** that returns has gone through the classes, and reports what was analyzed. -/
theorem execute_spec {call : ExecuteCall} {db' : Database} {result : ExecutionResult}
    (h : execute refuses policy call db = .ok (db', result)) :
    ∃ p, deleteAll refuses policy.tenantId call.batchSize call.maxRecords (Progress.start db)
        (analyzeCandidates policy db).eligibleByClass.items = .ok p ∧
      db'.tables = p.db.tables ∧ result.deletedCount = p.deletedTotal ∧
      result.consideredCount = (analyzeCandidates policy db).totalConsidered ∧
      result.eligibleCount = (analyzeCandidates policy db).totalEligible ∧
      result.protectedCount = (analyzeCandidates policy db).totalProtected := by
  obtain ⟨p, hp, h⟩ := Traversal.bind_eq_ok_iff.mp h
  cases h
  exact ⟨p, hp, rfl, rfl, rfl, rfl, rfl⟩

/-- **What is deleted** was reached. -/
theorem pruned_of_deleteAll {size : ℤ}
    (h : deleteAll refuses policy.tenantId size maxRecords (Progress.start db)
      (analyzeCandidates policy db).eligibleByClass.items = .ok p) :
    Pruned policy size.toNat maxRecords db p :=
  Pruned.deleteAll (fun _ hitem => mem_eligibleByClass_iff.mp hitem) (pruned_start _ _ _ db) h

theorem deleteAll_of_nonpos {size : ℤ} (hsize : size ≤ 0) :
    ∀ {classes : List (String × List String)} {p p' : Progress},
      deleteAll refuses tenantId size maxRecords p classes = .ok p' → p' = p
  | [], _, _, h => (Except.ok.inj h).symm
  | (name, ids) :: classes, p, p', h => by
    rw [deleteAll] at h
    split_ifs at h
    · exact deleteAll_of_nonpos hsize h
    · rcases hsize.eq_or_lt with rfl | hneg
      · rw [batchStarts, if_pos rfl] at h
        cases h
      · rw [batchStarts, if_neg hneg.ne, if_pos hneg] at h
        replace h : (if limitReached maxRecords p.deletedTotal then Except.ok p
          else deleteAll refuses tenantId size maxRecords p classes) = .ok p' := h
        split_ifs at h
        · exact (Except.ok.inj h).symm
        · exact deleteAll_of_nonpos hsize h

end Deleting

/-! ## Rows in use -/

/-- The states that a migration can come to. -/
def Reaches (a b : MigrationLifecycleState) : Prop :=
  Relation.ReflTransGen (fun s t => t ∈ s.validTransitions) a b

/-- **A migration can become active** in every state but those after its completion. -/
theorem reaches_active_iff (s : MigrationLifecycleState) :
    Reaches s .active ↔ s ≠ .completed ∧ s ≠ .archived := by
  have hclosed : ∀ a b, Reaches a b → a = .completed ∨ a = .archived → b = .completed ∨ b = .archived := by
    intro a b h
    induction h with
    | refl => exact id
    | tail _ hstep ih =>
      intro ha
      rcases ih ha with rfl | rfl
      · exact Or.inr (List.mem_singleton.mp hstep)
      · cases hstep
  constructor
  · intro h
    constructor
    · rintro rfl
      rcases hclosed _ _ h (Or.inl rfl) with hactive | hactive <;> cases hactive
    · rintro rfl
      rcases hclosed _ _ h (Or.inr rfl) with hactive | hactive <;> cases hactive
  · rintro ⟨hcompleted, harchived⟩
    have hinitialized : Reaches .initialized .active := .single (by decide)
    cases s with
    | completed => exact absurd rfl hcompleted
    | archived => exact absurd rfl harchived
    | active => exact .refl
    | initialized => exact hinitialized
    | discovered => exact .head (b := .planned) (by decide) (.head (by decide) hinitialized)
    | pausing => exact .single (by decide)
    | paused => exact .single (by decide)
    | cancellationPending => exact .single (by decide)
    | _ => exact .head (by decide) hinitialized

/-- A row is in use: an operation that has not ended, a checkpoint or an entry of the history of a
migration that can become active, a pending event, an occurrence that has not ended. -/
def InUse (db : Database) : (c : DataClass) → Row c → Prop
  | .operationJournal => fun r : OperationRow => r.status.isTerminal = false
  | .lifecycleHistory => fun r : HistoryRow =>
    ∃ m ∈ db.migrations, m.migrationId = r.migrationId ∧ Reaches m.state .active
  | .checkpoints => fun r : CheckpointRow =>
    ∃ m ∈ db.migrations, m.migrationId = r.migrationId ∧ Reaches m.state .active
  | .outboxEvents => fun r : OutboxRow => r.status = .pending
  | .scheduleOccurrences => fun r : OccurrenceRow => r.status.isTerminal = false
  | _ => fun _ => False

/-- A migration that retention does not take for active although it can become so. -/
def Overlooked (policy : RetentionPolicy) (db : Database) (migrationId : String) : Prop :=
  ∃ m ∈ db.migrations, m.migrationId = migrationId ∧ m.state ≠ .completed ∧ m.state ≠ .archived ∧
    (m.state ∉ activeMigrationStates ∨ m.tenantId ≠ policy.tenantId)

/-- A row in use that nothing guards: the operation has not ended, or the migration is overlooked. -/
def Unguarded (policy : RetentionPolicy) (db : Database) : (c : DataClass) → Row c → Prop
  | .operationJournal => fun r : OperationRow => r.status.isTerminal = false
  | .lifecycleHistory => fun r : HistoryRow => Overlooked policy db r.migrationId
  | .checkpoints => fun r : CheckpointRow => Overlooked policy db r.migrationId
  | _ => fun _ => False

section InUse

variable {policy : RetentionPolicy} {db : Database}

theorem overlooked_iff {migrationId : String} (h : migrationId ∉ activeMigrationIds policy db) :
    (∃ m ∈ db.migrations, m.migrationId = migrationId ∧ Reaches m.state .active) ↔
      Overlooked policy db migrationId := by
  constructor
  · rintro ⟨m, hm, rfl, hreaches⟩
    obtain ⟨hcompleted, harchived⟩ := (reaches_active_iff m.state).mp hreaches
    refine ⟨m, hm, rfl, hcompleted, harchived, ?_⟩
    by_contra hactive
    push Not at hactive
    refine h (List.mem_map.mpr ⟨m, List.mem_filter.mpr ⟨hm, ?_⟩, rfl⟩)
    simp [hactive.1, hactive.2]
  · rintro ⟨m, hm, rfl, hcompleted, harchived, -⟩
    exact ⟨m, hm, rfl, (reaches_active_iff m.state).mpr ⟨hcompleted, harchived⟩⟩

/-- **An eligible row is in use** precisely when nothing guards it. -/
theorem inUse_iff_unguarded {c : DataClass} {r : Row c} (h : r ∈ eligibleRows policy db c) :
    InUse db c r ↔ Unguarded policy db c r := by
  have hnone : protection policy db c r = none := Option.isNone_iff_eq_none.mp (List.mem_filter.mp h).2
  cases c with
  | operationJournal => exact Iff.rfl
  | lifecycleHistory =>
    refine overlooked_iff fun hmem => ?_
    have hsome : protection policy db .lifecycleHistory r = some .activeReferenceProtected := if_pos hmem
    rw [hsome] at hnone
    cases hnone
  | checkpoints =>
    refine overlooked_iff fun hmem => ?_
    have hsome : protection policy db .checkpoints r = some .recoverySensitive := if_pos hmem
    rw [hsome] at hnone
    cases hnone
  | outboxEvents =>
    refine iff_of_false (fun hpending => ?_) id
    have hsome : protection policy db .outboxEvents r = some .activeReferenceProtected :=
      if_pos (Or.inl hpending)
    rw [hsome] at hnone
    cases hnone
  | scheduleOccurrences =>
    refine iff_of_false (fun hopen => ?_) id
    replace hopen : (OccurrenceRow.status r).isTerminal = false := hopen
    have hstatus : OccurrenceRow.status r ∈ [OccurrenceStatus.pending, .claimed, .dispatched] := by
      generalize OccurrenceRow.status r = status at hopen ⊢
      cases status with
      | pending => simp
      | claimed => simp
      | dispatched => simp
      | _ => cases hopen
    have hsome : protection policy db .scheduleOccurrences r = some .activeReferenceProtected :=
      if_pos hstatus
    rw [hsome] at hnone
    cases hnone
  | idempotencyRecords => exact Iff.rfl
  | immutableArtifacts => exact Iff.rfl
  | auditTrail => exact Iff.rfl

end InUse

/-! ## Rows that are reached are deleted -/

section Reaching

variable {refuses : String → List String → Option String} {tenantId : String} {maxRecords : Option ℤ}

variable {batchSize i : ℕ} {c : DataClass} {dclass : String} {p : Progress}

/-- What every batch keeps is kept by the batches of a class. -/
theorem deleteClass_keeps {P : Progress → Prop} {ids : List String}
    (hstep : ∀ p i, P p → P (deleteChunk refuses tenantId batchSize maxRecords dclass ids p i)) :
    ∀ {starts : List ℕ} {p : Progress}, P p →
      P (deleteClass refuses tenantId batchSize maxRecords dclass ids p starts)
  | [], _, h => h
  | i :: starts, p, h => by
    rw [deleteClass]
    split_ifs
    · exact h
    · exact deleteClass_keeps hstep (hstep p i h)

/-- What every batch keeps is kept by the classes. -/
theorem deleteAll_keeps {P : Progress → Prop} {size : ℤ} (hstep : ∀ dclass ids p i, P p →
      P (deleteChunk refuses tenantId size.toNat maxRecords dclass ids p i)) :
    ∀ {classes : List (String × List String)} {p p' : Progress}, P p →
      deleteAll refuses tenantId size maxRecords p classes = .ok p' → P p'
  | [], p, p', hp, h => by
    obtain rfl := Except.ok.inj h
    exact hp
  | (name, ids) :: classes, p, p', hp, h => by
    rw [deleteAll] at h
    split_ifs at h
    · exact deleteAll_keeps hstep hp h
    · cases hstarts : batchStarts ids.length size with
      | error e =>
        rw [hstarts] at h
        cases h
      | ok starts =>
        rw [hstarts] at h
        dsimp only at h
        have hp' : P (deleteClass refuses tenantId size.toNat maxRecords name ids p starts) :=
          deleteClass_keeps (hstep name ids) hp
        split_ifs at h
        · obtain rfl := Except.ok.inj h
          exact hp'
        · exact deleteAll_keeps hstep hp' h

theorem not_mem_deleteChunk {ids : List String} {r : Row c} (h : r ∉ (p.db.tables c).rows) :
    r ∉ ((deleteChunk refuses tenantId batchSize maxRecords dclass ids p i).db.tables c).rows := by
  rw [deleteChunk]
  cases hbatch : deleteBatch refuses dclass (cutChunk maxRecords p.deletedTotal
      ((ids.drop i).take batchSize)) tenantId p.db with
  | error exc => exact h
  | ok result =>
    obtain ⟨db', delCount⟩ := result
    rcases deleteBatch_spec hbatch with ⟨rfl, rfl⟩ | ⟨d, -, rfl, rfl⟩
    · exact h
    · by_cases hd : c = d
      · subst hd
        change r ∉ (Function.update p.db.tables c _ c).rows
        rw [Function.update_self, Table.mem_delete_iff]
        exact fun hr => h hr.1
      · change r ∉ (Function.update p.db.tables d _ c).rows
        rw [Function.update_of_ne hd]
        exact h

/-- Statements fail unless they delete a row. -/
def refusesOthers {c : DataClass} (r : Row c) (dclass : String) (ids : List String) : Option String :=
  if dclass = c.name ∧ rowId c r ∈ ids then none else some "database is locked"

/-- As long as a row is left, none is deleted, when statements fail unless they delete it. -/
theorem deleteChunk_refusesOthers {ids : List String}
    {r : Row c} (htenant : rowTenant c r = tenantId)
    (h : r ∈ (p.db.tables c).rows → p.deletedTotal = 0)
    (hr : r ∈ ((deleteChunk (refusesOthers r) tenantId batchSize maxRecords dclass ids p i).db.tables
      c).rows) :
    (deleteChunk (refusesOthers r) tenantId batchSize maxRecords dclass ids p i).deletedTotal = 0 := by
  have hleft : r ∈ (p.db.tables c).rows := by
    by_contra hnot
    exact not_mem_deleteChunk hnot hr
  rw [deleteChunk] at hr ⊢
  generalize hchunk : cutChunk maxRecords p.deletedTotal ((ids.drop i).take batchSize) = chunk at hr ⊢
  rw [deleteBatch] at hr ⊢
  by_cases hempty : chunk = []
  · rw [if_pos hempty]
    exact h hleft
  rw [if_neg hempty] at hr ⊢
  cases hnamed : DataClass.named dclass with
  | none => exact h hleft
  | some d =>
    rw [hnamed] at hr
    dsimp only at hr ⊢
    split_ifs at hr ⊢
    swap
    · exact h hleft
    by_cases hthis : dclass = c.name ∧ rowId c r ∈ chunk
    · have hrefuses : refusesOthers r dclass chunk = none := if_pos hthis
      obtain rfl : d = c := by
        rw [hthis.1, named_name] at hnamed
        exact (Option.some.inj hnamed).symm
      rw [hrefuses] at hr
      replace hr : r ∈ (Function.update p.db.tables d _ d).rows := hr
      rw [Function.update_self, Table.mem_delete_iff] at hr
      exact absurd ⟨htenant, hthis.2⟩ hr.2
    · have hrefuses : refusesOthers r dclass chunk = some "database is locked" := if_neg hthis
      rw [hrefuses]
      exact h hleft

/-- A row whose key stands in a batch is deleted by it. -/
theorem not_mem_deleteChunk_of_mem {ids : List String}
    {r : Row c} (htenant : rowTenant c r = tenantId) (hprunable : c.isPrunable)
    (hid : rowId c r ∈ cutChunk maxRecords p.deletedTotal ((ids.drop i).take batchSize)) :
    r ∉ ((deleteChunk (refusesOthers r) tenantId batchSize maxRecords c.name ids p i).db.tables
      c).rows := by
  rw [deleteChunk]
  generalize cutChunk maxRecords p.deletedTotal ((ids.drop i).take batchSize) = chunk at hid ⊢
  have hrefuses : refusesOthers r c.name chunk = none := if_pos ⟨rfl, hid⟩
  rw [deleteBatch, if_neg (List.ne_nil_of_mem hid), named_name]
  dsimp only
  rw [if_pos hprunable, hrefuses]
  change r ∉ (Function.update p.db.tables c _ c).rows
  rw [Function.update_self, Table.mem_delete_iff]
  exact fun hr => hr.2 ⟨htenant, hid⟩

theorem mem_cutChunk {ids : List String} {id : String} (hpos : 0 < batchSize)
    (hi : ids[i]? = some id) (hlimit : ∀ m ∈ maxRecords, ((i % batchSize : ℕ) : ℤ) < m) :
    id ∈ cutChunk maxRecords 0 ((ids.drop (i / batchSize * batchSize)).take batchSize) := by
  have hplace : ((ids.drop (i / batchSize * batchSize)).take batchSize)[i % batchSize]? = some id := by
    rw [List.getElem?_take, if_pos (Nat.mod_lt i hpos), List.getElem?_drop, Nat.div_add_mod' i batchSize,
      hi]
  cases maxRecords with
  | none => exact List.mem_of_getElem? hplace
  | some m =>
    have hm := hlimit m rfl
    rw [cutChunk]
    split_ifs
    · refine List.mem_of_getElem? (i := i % batchSize) ?_
      rw [List.getElem?_take, if_pos (by omega), hplace]
    · exact List.mem_of_getElem? hplace

theorem exists_batchStart {n : ℕ} {size : ℤ} (hsize : 0 < size) (hi : i < n) :
    ∃ starts, batchStarts n size = .ok starts ∧ i / size.toNat * size.toNat ∈ starts := by
  have hpos : 0 < size.toNat := by omega
  rw [batchStarts, if_neg hsize.ne', if_neg (not_lt.mpr hsize.le)]
  refine ⟨_, rfl, List.mem_map.mpr ⟨i / size.toNat, List.mem_range.mpr ?_, rfl⟩⟩
  have hle := Nat.div_mul_le_self i size.toNat
  rw [← Nat.succ_le_iff, Nat.le_div_iff_mul_le hpos, Nat.succ_mul]
  omega

theorem not_limitReached {n : ℕ} (h : ∀ m ∈ maxRecords, (n : ℤ) < m) :
    limitReached maxRecords 0 = false := by
  cases maxRecords with
  | none => rfl
  | some m =>
    have hm := h m rfl
    exact decide_eq_false (by omega)

/-- **The batches of a class** delete a row that they reach, when other statements fail. -/
theorem not_mem_deleteClass {ids : List String} {r : Row c}
    (htenant : rowTenant c r = tenantId) (hprunable : c.isPrunable) (hpos : 0 < batchSize)
    (hi : ids[i]? = some (rowId c r)) (hlimit : ∀ m ∈ maxRecords, ((i % batchSize : ℕ) : ℤ) < m) :
    ∀ {starts : List ℕ} {p : Progress}, i / batchSize * batchSize ∈ starts →
      (r ∈ (p.db.tables c).rows → p.deletedTotal = 0) →
        r ∉ ((deleteClass (refusesOthers r) tenantId batchSize maxRecords c.name ids p starts).db.tables
          c).rows
  | [], _, hstart, _ => absurd hstart List.not_mem_nil
  | start :: starts, p, hstart, hp => by
    rw [deleteClass]
    split_ifs with hreached
    · intro hr
      rw [hp hr, not_limitReached hlimit] at hreached
      cases hreached
    · by_cases hhere : start = i / batchSize * batchSize
      · -- this batch deletes the row, and the others leave it deleted
        refine deleteClass_keeps (P := fun p => r ∉ (p.db.tables c).rows)
          (fun _ _ h => not_mem_deleteChunk h) ?_
        by_cases hr : r ∈ (p.db.tables c).rows
        · refine not_mem_deleteChunk_of_mem htenant hprunable ?_
          rw [hp hr, hhere]
          exact mem_cutChunk hpos hi hlimit
        · exact not_mem_deleteChunk hr
      · refine not_mem_deleteClass htenant hprunable hpos hi hlimit
          ((List.mem_cons.mp hstart).resolve_left (Ne.symm hhere)) ?_
        exact deleteChunk_refusesOthers htenant hp

theorem exists_deleteAll {size : ℤ} (hsize : 0 < size) :
    ∀ {classes : List (String × List String)} {p : Progress},
      ∃ p', deleteAll refuses tenantId size maxRecords p classes = .ok p'
  | [], p => ⟨p, rfl⟩
  | (name, ids) :: classes, p => by
    rw [deleteAll]
    split_ifs with hempty
    · exact exists_deleteAll hsize
    · obtain ⟨starts, hstarts, -⟩ := exists_batchStart hsize (List.length_pos_of_ne_nil hempty)
      rw [hstarts]
      dsimp only
      split_ifs
      · exact ⟨_, rfl⟩
      · exact exists_deleteAll hsize

/-- **The classes** delete a row that they reach, when other statements fail. -/
theorem not_mem_deleteAll {size : ℤ} {ids : List String} {r : Row c}
    (htenant : rowTenant c r = tenantId) (hprunable : c.isPrunable) (hsize : 0 < size)
    (hi : ids[i]? = some (rowId c r))
    (hlimit : ∀ m ∈ maxRecords, ((i % size.toNat : ℕ) : ℤ) < m) :
    ∀ {classes : List (String × List String)} {p : Progress}, (c.name, ids) ∈ classes →
      (r ∈ (p.db.tables c).rows → p.deletedTotal = 0) →
        ∃ p', deleteAll (refusesOthers r) tenantId size maxRecords p classes = .ok p' ∧
          r ∉ (p'.db.tables c).rows
  | [], _, hmem, _ => absurd hmem List.not_mem_nil
  | (name, ids') :: classes, p, hmem, hp => by
    rw [deleteAll]
    by_cases hempty : ids' = []
    · rw [if_pos hempty]
      refine not_mem_deleteAll htenant hprunable hsize hi hlimit ?_ hp
      refine (List.mem_cons.mp hmem).resolve_left fun heq => ?_
      rw [(Prod.mk.inj heq).2, hempty] at hi
      cases hi
    · rw [if_neg hempty]
      obtain ⟨starts, hstarts, -⟩ := exists_batchStart hsize (List.length_pos_of_ne_nil hempty)
      have hkept : r ∈ ((deleteClass (refusesOthers r) tenantId size.toNat maxRecords name ids' p
          starts).db.tables c).rows → (deleteClass (refusesOthers r) tenantId size.toNat maxRecords
            name ids' p starts).deletedTotal = 0 :=
        deleteClass_keeps (P := fun p => r ∈ (p.db.tables c).rows → p.deletedTotal = 0)
          (fun _ _ hp => deleteChunk_refusesOthers htenant hp) hp
      rw [hstarts]
      dsimp only
      by_cases hhere : (c.name, ids) = (name, ids')
      · obtain ⟨rfl, rfl⟩ := Prod.mk.inj hhere
        obtain ⟨starts', hstarts', hstart⟩ := exists_batchStart hsize
          (List.getElem?_eq_some_iff.mp hi).1
        obtain rfl := Except.ok.inj (hstarts.symm.trans hstarts')
        have hdeleted := not_mem_deleteClass htenant hprunable (by omega) hi hlimit hstart hp
        split_ifs
        · exact ⟨_, rfl, hdeleted⟩
        · obtain ⟨p', hp'⟩ : ∃ p', deleteAll (refusesOthers r) tenantId size maxRecords
              (deleteClass (refusesOthers r) tenantId size.toNat maxRecords c.name ids p starts)
              classes = .ok p' := exists_deleteAll hsize
          refine ⟨p', hp', ?_⟩
          exact deleteAll_keeps (P := fun p => r ∉ (p.db.tables c).rows)
            (fun _ _ _ _ h => not_mem_deleteChunk h) hdeleted hp'
      · split_ifs with hreached
        · refine ⟨_, rfl, fun hr => ?_⟩
          rw [hkept hr, not_limitReached hlimit] at hreached
          cases hreached
        · exact not_mem_deleteAll htenant hprunable hsize hi hlimit
            ((List.mem_cons.mp hmem).resolve_left hhere) hkept

end Reaching

/-! ## Retention -/

/-- What retention promises of an execution: it deletes only old rows of the tenant, none in use, and no
more than the limit, and it reports how many rows were considered. -/
structure Retains (policy : RetentionPolicy) (maxRecords : Option ℤ) (db db' : Database)
    (result : ExecutionResult) : Prop where
  old : ∀ c, ∀ r ∈ (db.tables c).rows, r ∉ (db'.tables c).rows →
    rowTenant c r = policy.tenantId ∧ rowTime c r < policy.cutoffTime
  unused : ∀ c, ∀ r ∈ (db.tables c).rows, r ∉ (db'.tables c).rows → ¬ InUse db c r
  limit : ∀ m ∈ maxRecords, ((db.size - db'.size : ℕ) : ℤ) ≤ max m 0
  counted : result.consideredCount = result.eligibleCount + result.protectedCount

/-- An unguarded row in use stands in a place of its batch from which it may be deleted. -/
def AtRisk (policy : RetentionPolicy) (call : ExecuteCall) (db : Database) : Prop :=
  0 < call.batchSize ∧ ∃ (c : DataClass) (r : Row c),
    Reached policy call.batchSize.toNat call.maxRecords db c r ∧ Unguarded policy db c r

section Executions

variable {policy : RetentionPolicy} {db : Database}

theorem old_of_eligible {c : DataClass} {r : Row c} (h : r ∈ eligibleRows policy db c) :
    (rowTenant c r = policy.tenantId ∧ rowTime c r < policy.cutoffTime) ∧ c.isPrunable := by
  obtain ⟨hconsidered, hnone⟩ := List.mem_filter.mp h
  obtain ⟨-, hold⟩ := List.mem_filter.mp hconsidered
  refine ⟨by simpa using hold, ?_⟩
  cases c with
  | immutableArtifacts => cases hnone
  | auditTrail => cases hnone
  | _ => rfl

/-- **Retention.**  Whatever statements fail, executions delete only old rows of the tenant, none in use,
and no more than the limit, precisely when no row in use is at risk. -/
theorem retains_iff (policy : RetentionPolicy) (call : ExecuteCall) (db : Database) :
    (∀ (refuses : String → List String → Option String) (db' : Database) (result : ExecutionResult),
      execute refuses policy call db = .ok (db', result) →
        Retains policy call.maxRecords db db' result) ↔ ¬ AtRisk policy call db := by
  constructor
  · rintro h ⟨hsize, c, r, ⟨hname, i, hi, hlimit⟩, hunguarded⟩
    have heligible := List.mem_of_getElem? hi
    obtain ⟨⟨htenant, -⟩, hprunable⟩ := old_of_eligible heligible
    have hids : (eligibleIds policy db c.name)[i]? = some (rowId c r) := by
      rw [eligibleIds, named_name, List.getElem?_map, hi]
      rfl
    obtain ⟨p, hp, hdeleted⟩ : ∃ p, deleteAll (refusesOthers r) policy.tenantId call.batchSize
        call.maxRecords (Progress.start db) (analyzeCandidates policy db).eligibleByClass.items =
          .ok p ∧
          r ∉ (p.db.tables c).rows :=
      not_mem_deleteAll htenant hprunable hsize hids hlimit
        (mem_eligibleByClass_iff.mpr ⟨hname, rfl⟩) fun _ => rfl
    obtain ⟨⟨db', result⟩, hresult⟩ : ∃ outcome, execute (refusesOthers r) policy call db =
        .ok outcome := by
      rw [execute, hp]
      exact ⟨_, rfl⟩
    obtain ⟨p', hp', htables, -⟩ := execute_spec hresult
    obtain rfl := Except.ok.inj (hp.symm.trans hp')
    rw [← htables] at hdeleted
    exact (h _ db' result hresult).unused c r (mem_rows_of_eligible heligible) hdeleted
      ((inUse_iff_unguarded heligible).mpr hunguarded)
  · intro hrisk refuses db' result h
    obtain ⟨p, hp, htables, -, hconsidered, heligible, hprotected⟩ := execute_spec h
    have hpruned := pruned_of_deleteAll hp
    have hsize : db'.size = p.db.size := by rw [Database.size, htables, Database.size]
    refine ⟨fun c r hr hdeleted => ?_, fun c r hr hdeleted huse => ?_, fun m hm => ?_, ?_⟩
    · rw [htables] at hdeleted
      obtain ⟨-, i, hi, -⟩ := hpruned.reached c r hr hdeleted
      exact (old_of_eligible (List.mem_of_getElem? hi)).1
    · rw [htables] at hdeleted
      have hreached := hpruned.reached c r hr hdeleted
      have heligibleRow : r ∈ eligibleRows policy db c := by
        obtain ⟨-, i, hi, -⟩ := hreached
        exact List.mem_of_getElem? hi
      refine hrisk ⟨?_, c, r, hreached, (inUse_iff_unguarded heligibleRow).mp huse⟩
      by_contra hnonpos
      rw [deleteAll_of_nonpos (not_lt.mp hnonpos) hp] at hdeleted
      exact hdeleted hr
    · have hle := hpruned.limit m hm
      have hcount := hpruned.size
      omega
    · rw [hconsidered, heligible, hprotected]
      exact total_analyzeCandidates policy db

/-- An operation that is running, in a journal of its own. -/
def sampleOperation : OperationRow where
  operationId := "op-1"
  tenantId := "acme"
  idempotencyKey := none
  status := .running
  error := none
  createdAt := "2024-01-01T00:00:00+00:00"

theorem distinct_singleton {c : DataClass} (r : Row c) : ([r].map (rowId c)).Nodup :=
  List.nodup_singleton _

/-- The tables of a class with one row. -/
def singleTable (c : DataClass) (r : Row c) (d : DataClass) : Table d :=
  Function.update (fun _ => { rows := [], distinct := List.nodup_nil })
    c { rows := [r], distinct := distinct_singleton r } d

/-- A database with the running operation. -/
def sampleDatabase : Database where
  migrations := []
  tables := singleTable .operationJournal sampleOperation
  retentionOperations := []

/-- A policy for the journal of operations. -/
def samplePolicy : RetentionPolicy where
  cutoffTime := "2025-01-01T00:00:00+00:00"
  tenantId := "acme"
  workspaceId := none
  projectId := none
  dataClasses := ["operation_journal"]

/-- An execution with the default batches and no limit. -/
def sampleCall : ExecuteCall where
  actorId := none
  batchSize := 500
  maxRecords := none
  retentionOpId := "ret-op-1"
  nowIso := "2025-02-01T00:00:00+00:00"
  completedIso := "2025-02-01T00:00:01+00:00"

/-- The journal of a running operation is deleted. -/
theorem not_retains_of_running :
    ∃ db' result, execute (fun _ _ => none) samplePolicy sampleCall sampleDatabase = .ok (db', result) ∧
      ¬ Retains samplePolicy sampleCall.maxRecords sampleDatabase db' result := by
  obtain ⟨db', result, hexecute, hrows⟩ : ∃ db' result,
      execute (fun _ _ => none) samplePolicy sampleCall sampleDatabase = .ok (db', result) ∧
        (db'.tables .operationJournal).rows = [] := ⟨_, _, rfl, rfl⟩
  refine ⟨db', result, hexecute, fun h => ?_⟩
  have hmem : sampleOperation ∈ (sampleDatabase.tables .operationJournal).rows := List.mem_cons_self
  refine h.unused .operationJournal sampleOperation hmem ?_ rfl
  rw [hrows]
  exact List.not_mem_nil

end Executions

end Retention

/-
# The validation authority

`ValidationAuthority.execute_validation` of `validation/api.py` with the parts it calls:
`SchemaStructuralValidator`, `CardinalityReconciliationEngine`, the workers of the partitions
with their stored proofs, `CDCBoundaryReconciler` and `ValidationGateEvaluator`.

The workers run concurrently.  Two of them never touch the same stored proof, so a run is told
by the order in which they finish; the authorities attached to the façade are parameters.

* `evaluateGate_eq_passed_iff` : the facts under which the gate passes a result;
* `passed_iff` : a full run passes precisely when its start is not interrupted, the schemas are
  compatible, the row counts agree and every worker reports a match.
-/
import Akaal.ExactReconciler
import Akaal.PartitionFingerprint

open FramedBytes

namespace Validation

/-! ## Plans and results -/

/-- `ValidationMode`. -/
inductive ValidationMode where
  | fastFull
  | exactFull
  | sampled
  | structureOnly
  | countOnly
  deriving DecidableEq

/-- `ProofScope`, as far as a run reports it. -/
inductive ProofScope where
  | full
  | partitionedFull
  | sampled
  | structureOnly
  | countOnly
  | unproven
  deriving DecidableEq

/-- `ValidationGateStatus`. -/
inductive ValidationGateStatus where
  | passed
  | failed
  | withheld
  deriving DecidableEq

/-- `ValidationPlan`. -/
structure ValidationPlan where
  planId : String
  migrationId : String
  tableName : String
  columnMapping : PyDict String
  mode : ValidationMode
  partitionCount : ℤ
  cdcBoundaryPosition : Option String

/-- `max(1, plan.partition_count)`. -/
def numPartitions (plan : ValidationPlan) : ℕ := max 1 plan.partitionCount.toNat

/-- The status of a result. -/
inductive RunStatus where
  | success
  | failed
  deriving DecidableEq

/-- `ValidationResult`. -/
structure ValidationResult where
  status : RunStatus
  proofScope : ProofScope
  validationGate : ValidationGateStatus
  rowsExpected : ℕ
  rowsValidated : ℕ
  rowsMatched : ℕ
  rowsMismatched : ℕ
  rowsMissing : ℕ
  rowsExtra : ℕ
  duplicates : ℕ
  schemaMismatches : ℕ
  partitionsTotal : ℕ
  partitionsMatched : ℕ
  partitionsMismatched : ℕ
  cdcBoundaryPosition : Option String
  disputedRecords : List DisputedRecord
  errors : List String

/-- The result a run starts with. -/
def ValidationResult.init : ValidationResult where
  status := .success
  proofScope := .unproven
  validationGate := .withheld
  rowsExpected := 0
  rowsValidated := 0
  rowsMatched := 0
  rowsMismatched := 0
  rowsMissing := 0
  rowsExtra := 0
  duplicates := 0
  schemaMismatches := 0
  partitionsTotal := 0
  partitionsMatched := 0
  partitionsMismatched := 0
  cdcBoundaryPosition := none
  disputedRecords := []
  errors := []

/-- What a run raises instead of returning a result. -/
inductive ValidationError where
  | cancelled
  | fencing (message : String)
  | raised (e : PyException)
  deriving DecidableEq

/-! ## Schema, cardinality and CDC boundary -/

/-- What `validate_schema` decides by of a table's metadata. -/
structure SchemaMeta where
  tableName : Option String
  columns : List String
  primaryKey : List String

/-- A list of names, as an f-string prints it. -/
def namesText (names : List String) : String :=
  "[" ++ ", ".intercalate (names.map fun name => "'" ++ name ++ "'") ++ "]"

/-- `validate_schema`: the structural mismatches. -/
def schemaErrors (columnMapping : PyDict String) (source target : SchemaMeta) : List String :=
  let missing := source.columns.filter fun col => mappedColumn columnMapping col ∉ target.columns
  let mappedPk := source.primaryKey.map (mappedColumn columnMapping)
  (missing.map fun col => "Missing mapped target column '" ++ mappedColumn columnMapping col ++
    "' (for source column '" ++ col ++ "') in table '" ++ target.tableName.getD "None" ++ "'") ++
  if mappedPk ≠ [] ∧ target.primaryKey ≠ [] ∧
      ¬ (mappedPk ⊆ target.primaryKey ∧ target.primaryKey ⊆ mappedPk) then
    ["Primary key mismatch on target table: expected '" ++ namesText mappedPk ++ "', found '" ++
      namesText target.primaryKey ++ "'"]
  else []

/-- The schema mismatches of a run; without both metadata none are looked for. -/
def structureErrors (plan : ValidationPlan) (source target : Option SchemaMeta) : List String :=
  match source, target with
  | some source, some target => schemaErrors plan.columnMapping source target
  | _, _ => []

/-- The error of `reconcile_cardinality`, when the row counts differ. -/
def cardinalityErrors (sourceRowCount targetRowCount : ℕ) : List String :=
  if sourceRowCount = targetRowCount then []
  else ["Cardinality mismatch: expected " ++ sourceRowCount.repr ++ ", got " ++ targetRowCount.repr]

/-- The snapshot of the CDC authority. -/
structure CdcSnapshot where
  openTransactions : ℤ
  ambiguousCommitCount : ℤ
  synchronizationBarrierReached : Bool
  backlogEvents : ℤ
  targetAppliedPosition : Option String

/-- Whether an optional text is there and not empty. -/
def truthy (s : Option String) : Bool := s.getD "" != ""

/-- `validate_cdc_boundary`: the reasons to reject. -/
def boundaryErrors (snapshot : CdcSnapshot) (required : Option String) : List String :=
  (if snapshot.openTransactions > 0 then
    ["CDC has " ++ intText snapshot.openTransactions ++ " open/unresolved transactions!"]
    else []) ++
  (if snapshot.ambiguousCommitCount > 0 then
    ["CDC has " ++ intText snapshot.ambiguousCommitCount ++ " ambiguous commits!"] else []) ++
  (if snapshot.synchronizationBarrierReached then []
    else ["CDC synchronization barrier not reached!"]) ++
  (if snapshot.backlogEvents > 0 then
    ["CDC backlog has " ++ intText snapshot.backlogEvents ++ " undrained events!"] else []) ++
  if truthy required && truthy snapshot.targetAppliedPosition &&
      snapshot.targetAppliedPosition.getD "" < required.getD "" then
    ["Target applied position '" ++ snapshot.targetAppliedPosition.getD "" ++
      "' is behind required CDC boundary '" ++ required.getD "" ++ "'!"]
  else []

/-! ## The gate -/

/-- The reasons of `evaluate_gate` not to pass a result. -/
def gateReasons (result : ValidationResult) (required : Option String) : List String :=
  (if result.status ≠ .success then ["Validation status is 'FAILED' (not SUCCESS)"] else []) ++
  (if result.proofScope = .unproven then ["Proof scope is UNPROVEN"] else []) ++
  (if result.schemaMismatches > 0 then
    ["Schema structural mismatches detected: " ++ result.schemaMismatches.repr] else []) ++
  (if result.rowsMismatched > 0 then
    ["Value mismatched rows detected: " ++ result.rowsMismatched.repr] else []) ++
  (if result.rowsMissing > 0 then
    ["Missing rows detected: " ++ result.rowsMissing.repr] else []) ++
  (if result.rowsExtra > 0 then ["Extra rows detected: " ++ result.rowsExtra.repr] else []) ++
  (if result.duplicates > 0 then
    ["Duplicate primary key violations detected: " ++ result.duplicates.repr] else []) ++
  (if result.partitionsTotal > 0 ∧ result.partitionsMatched < result.partitionsTotal then
    ["Partition mismatches: " ++ (result.partitionsTotal - result.partitionsMatched).repr ++
      " partitions failed fingerprint validation"] else []) ++
  (if result.errors ≠ [] then
    ["Validation errors reported: " ++ result.errors.length.repr] else []) ++
  if truthy required then
    if ¬ truthy result.cdcBoundaryPosition then
      ["Validation proof artifact lacks CDC boundary position; cannot satisfy required " ++
        "boundary '" ++ required.getD "" ++ "'!"]
    else if result.cdcBoundaryPosition.getD "" < required.getD "" then
      ["Stale CDC validation proof: proof boundary position '" ++
        result.cdcBoundaryPosition.getD "" ++ "' is behind required CDC boundary position '" ++
        required.getD "" ++ "'!"]
    else []
  else []

/-- `evaluate_gate`. -/
def evaluateGate (result : ValidationResult) (required : Option String) : ValidationGateStatus :=
  if gateReasons result required = [] then .passed else .failed

/-! ## The workers -/

/-- A stored partition proof. -/
structure SpillFrame where
  migrationId : String
  matched : Bool
  fingerprint : ℕ
  deriving DecidableEq

/-- The façade with the authorities attached to it: the stored proofs of the durability
authority, the transformation of the data-processing authority and the snapshot of the CDC
authority. -/
structure ValidationAuthority where
  durabilityAuthority : Option (String → Option SpillFrame)
  dataProcessingAuthority : Option (String → List PyRow → Except String (List PyRow))
  cdcAuthority : Option CdcSnapshot

/-- `load_spill_frame("validation", key)`, without a frame when nothing is attached. -/
def ValidationAuthority.loadSpillFrame (va : ValidationAuthority) (key : String) :
    Option SpillFrame :=
  va.durabilityAuthority.bind fun frames => frames key

/-- `save_spill_frame("validation", key, frame)`, when a durability authority is attached. -/
def ValidationAuthority.saveSpillFrame (va : ValidationAuthority) (key : String)
    (frame : SpillFrame) : ValidationAuthority :=
  { va with
    durabilityAuthority := va.durabilityAuthority.map fun frames k =>
      if k = key then some frame else frames k }

/-- What `check_runtime_cancellation_and_fencing` finds. -/
inductive TokenCheck where
  | valid
  | cancelled
  | stale
  deriving DecidableEq

/-- The exception of a token check. -/
def TokenCheck.error : TokenCheck → Option ValidationError
  | .valid => none
  | .cancelled => some .cancelled
  | .stale => some (.fencing "Stale or invalid fencing token rejected by Durability Authority (#5)")

/-- `PartitionValidationResult`. -/
structure PartitionValidationResult where
  partitionId : String
  rowsExpected : ℕ
  rowsValidated : ℕ
  matched : Bool
  sourceFingerprint : ℕ
  targetFingerprint : ℕ
  deriving DecidableEq

/-- The id of a partition. -/
def partitionId (i : ℕ) : String := "p" ++ i.repr

/-- `checkpoint_key`. -/
def checkpointKey (plan : ValidationPlan) (i : ℕ) : String :=
  "val_part_" ++ partitionId i ++ "_" ++ plan.migrationId ++ "_" ++ plan.planId

/-- The source rows as they are expected on the target. -/
def expectedRows (va : ValidationAuthority) (plan : ValidationPlan) (rows : List PyRow) :
    List PyRow :=
  rows.map (computeExpectedRow va.dataProcessingAuthority plan.columnMapping plan.tableName)

section Execute

variable (sha256 : List UInt8 → ℕ)

/-- Compare the fingerprints of a partition and store a proof when they agree. -/
def comparePartition (va : ValidationAuthority) (plan : ValidationPlan) (i : ℕ)
    (sourceRows targetRows : List PyRow) :
    Except ValidationError PartitionValidationResult × ValidationAuthority :=
  match fingerprintRows sha256 (partitionId i) (expectedRows va plan sourceRows),
      fingerprintRows sha256 (partitionId i) targetRows with
  | .error e, _ => (.error (.raised e), va)
  | .ok _, .error e => (.error (.raised e), va)
  | .ok srcFp, .ok tgtFp =>
    (.ok ⟨partitionId i, sourceRows.length, targetRows.length, srcFp == tgtFp, srcFp, tgtFp⟩,
      if srcFp = tgtFp then
        va.saveSpillFrame (checkpointKey plan i) ⟨plan.migrationId, true, srcFp⟩
      else va)

/-- `_execute_partition_validation`. -/
def executePartitionValidation (va : ValidationAuthority) (plan : ValidationPlan) (i : ℕ)
    (sourceRows targetRows : List PyRow) (token : TokenCheck) :
    Except ValidationError PartitionValidationResult × ValidationAuthority :=
  match token.error with
  | some e => (.error e, va)
  | none =>
    match va.loadSpillFrame (checkpointKey plan i) with
    | some frame =>
      if frame.migrationId ≠ plan.migrationId then
        (.error (.fencing "Durable checkpoint migration identity mismatch on resume!"), va)
      else
        (.ok ⟨partitionId i, targetRows.length, targetRows.length, true, frame.fingerprint,
          frame.fingerprint⟩, va)
    | none => comparePartition sha256 va plan i sourceRows targetRows

/-! ## A run -/

/-- The rows of a partition: consecutive chunks of equal size, of which the last takes the
rest. -/
def partitionSlice (n i : ℕ) (rows : List PyRow) : List PyRow :=
  let chunkSize := if rows = [] then 1 else max 1 (rows.length / n)
  if i < n - 1 then (rows.drop (i * chunkSize)).take chunkSize else rows.drop (i * chunkSize)

/-- The arguments of an execution, what its token checks find, and the order in which its
workers finish. -/
structure ValidationRun (plan : ValidationPlan) where
  sourceRows : List PyRow
  targetRows : List PyRow
  pkColumns : List String
  sourceSchemaMeta : Option SchemaMeta
  targetSchemaMeta : Option SchemaMeta
  tokenAtStart : TokenCheck
  tokenAtWorker : ℕ → TokenCheck
  completionOrder : List ℕ
  completionOrder_perm : completionOrder.Perm (List.range (numPartitions plan))

variable {plan : ValidationPlan}

/-- The slice of the source a worker validates. -/
def ValidationRun.sourceSlice (run : ValidationRun plan) (i : ℕ) : List PyRow :=
  partitionSlice (numPartitions plan) i run.sourceRows

/-- The slice of the target a worker validates. -/
def ValidationRun.targetSlice (run : ValidationRun plan) (i : ℕ) : List PyRow :=
  partitionSlice (numPartitions plan) i run.targetRows

/-- The workers, in the order in which they finish. -/
def runPartitions (run : ValidationRun plan) : ValidationAuthority → List ℕ →
      List (Except ValidationError PartitionValidationResult) × ValidationAuthority
  | va, [] => ([], va)
  | va, i :: is =>
    let (outcome, va') := executePartitionValidation sha256 va plan i (run.sourceSlice i)
      (run.targetSlice i) (run.tokenAtWorker i)
    let (outcomes, va'') := runPartitions run va' is
    (outcome :: outcomes, va'')

/-- The cancellation or fencing error the collection of the workers' results re-raises. -/
def abortOf : List (Except ValidationError PartitionValidationResult) → Option ValidationError
  | [] => none
  | .error .cancelled :: _ => some .cancelled
  | .error (.fencing message) :: _ => some (.fencing message)
  | _ :: outcomes => abortOf outcomes

/-- The results of the workers that returned one. -/
def partitionResults :
    List (Except ValidationError PartitionValidationResult) → List PartitionValidationResult
  | [] => []
  | .ok r :: outcomes => r :: partitionResults outcomes
  | .error _ :: outcomes => partitionResults outcomes

/-- The texts of the other exceptions the workers raised. -/
def workerErrors : List (Except ValidationError PartitionValidationResult) → List String
  | [] => []
  | .error (.raised e) :: outcomes => e.str :: workerErrors outcomes
  | _ :: outcomes => workerErrors outcomes

/-- The result once the workers are collected: their matches are counted. -/
def collectPartitions (result : ValidationResult)
    (outcomes : List (Except ValidationError PartitionValidationResult)) : ValidationResult :=
  { result with
    status := if workerErrors outcomes = [] then result.status else .failed
    errors := result.errors ++ workerErrors outcomes
    partitionsMatched := ((partitionResults outcomes).filter (·.matched)).length
    partitionsMismatched := ((partitionResults outcomes).filter fun r => !r.matched).length }

/-- The exact reconciliation, which only a run with a mismatch or an error makes. -/
def drillDown (va : ValidationAuthority) (run : ValidationRun plan) (result : ValidationResult) :
    Except PyException ValidationResult :=
  if result.partitionsMismatched = 0 ∧ result.errors = [] then
    .ok { result with rowsMatched := run.targetRows.length }
  else do
    let r ← reconcileExact run.pkColumns plan.columnMapping
      (expectedRows va plan run.sourceRows) run.targetRows
    return { result with
      rowsMatched := r.matched, rowsMismatched := r.mismatched, rowsMissing := r.missing
      rowsExtra := r.extra, disputedRecords := r.disputed }

/-- The CDC boundary, the proof scope and the gate. -/
def finishRun (va : ValidationAuthority) (plan : ValidationPlan) (result : ValidationResult) :
    ValidationResult :=
  let boundary := match va.cdcAuthority with
    | none => []
    | some snapshot => boundaryErrors snapshot plan.cdcBoundaryPosition
  let scope := match plan.mode with
    | .sampled => .sampled
    | .fastFull | .exactFull => if plan.partitionCount > 1 then .partitionedFull else .full
    | _ => result.proofScope
  let result := { result with
    errors := result.errors ++ boundary, proofScope := scope
    cdcBoundaryPosition := plan.cdcBoundaryPosition }
  { result with validationGate := evaluateGate result plan.cdcBoundaryPosition }

/-- The result of a run that stops early, with the given proof scope. -/
def finishEarly (plan : ValidationPlan) (scope : ProofScope) (result : ValidationResult) :
    ValidationResult :=
  let result := { result with proofScope := scope }
  { result with validationGate := evaluateGate result plan.cdcBoundaryPosition }

/-- The result after the structural validation. -/
def validateStructure (run : ValidationRun plan) : ValidationResult :=
  let errors := if plan.mode = .countOnly then []
    else structureErrors plan run.sourceSchemaMeta run.targetSchemaMeta
  { ValidationResult.init with schemaMismatches := errors.length, errors := errors }

/-- The result after the comparison of the row counts. -/
def reconcileCardinality (run : ValidationRun plan) (result : ValidationResult) :
    ValidationResult :=
  { result with
    rowsExpected := run.sourceRows.length
    rowsValidated := run.targetRows.length
    errors := result.errors ++ cardinalityErrors run.sourceRows.length run.targetRows.length }

/-- The validation of the partitions and all that follows it. -/
def validatePartitions (va : ValidationAuthority) (run : ValidationRun plan)
    (result : ValidationResult) :
    Except ValidationError ValidationResult × ValidationAuthority :=
  let (outcomes, va') := runPartitions sha256 run va run.completionOrder
  let collected :=
    collectPartitions { result with partitionsTotal := numPartitions plan } outcomes
  match abortOf outcomes with
  | some e => (.error e, va')
  | none =>
    match drillDown va run collected with
    | .error e => (.error (.raised e), va')
    | .ok result => (.ok (finishRun va plan result), va')

/-- `execute_validation`. -/
def executeValidation (va : ValidationAuthority) (run : ValidationRun plan) :
    Except ValidationError ValidationResult × ValidationAuthority :=
  match run.tokenAtStart.error with
  | some e => (.error e, va)
  | none =>
    let result := validateStructure run
    if plan.mode = .structureOnly then (.ok (finishEarly plan .structureOnly result), va)
    else
      let result := reconcileCardinality run result
      if plan.mode = .countOnly then (.ok (finishEarly plan .countOnly result), va)
      else validatePartitions sha256 va run result

end Execute

/-! ## When the gate passes -/

/-- **The gate.**  The facts under which a result passes. -/
theorem evaluateGate_eq_passed_iff (result : ValidationResult) (required : Option String) :
    evaluateGate result required = .passed ↔
      result.status = .success ∧ result.proofScope ≠ .unproven ∧ result.schemaMismatches = 0 ∧
      result.rowsMismatched = 0 ∧ result.rowsMissing = 0 ∧ result.rowsExtra = 0 ∧
      result.duplicates = 0 ∧ result.partitionsTotal ≤ result.partitionsMatched ∧
      result.errors = [] ∧
      (truthy required → truthy result.cdcBoundaryPosition ∧
        ¬ result.cdcBoundaryPosition.getD "" < required.getD "") := by
  have hgate : evaluateGate result required = .passed ↔ gateReasons result required = [] := by
    rw [evaluateGate]
    split_ifs with h <;> simp [h]
  have hboundary : (if truthy required then
      if ¬ truthy result.cdcBoundaryPosition then
        ["Validation proof artifact lacks CDC boundary position; cannot satisfy required " ++
          "boundary '" ++ required.getD "" ++ "'!"]
      else if result.cdcBoundaryPosition.getD "" < required.getD "" then
        ["Stale CDC validation proof: proof boundary position '" ++
          result.cdcBoundaryPosition.getD "" ++ "' is behind required CDC boundary position '" ++
          required.getD "" ++ "'!"]
      else []
      else []) = [] ↔
      (truthy required → truthy result.cdcBoundaryPosition ∧
        ¬ result.cdcBoundaryPosition.getD "" < required.getD "") := by
    split_ifs <;> simp_all
  rw [hgate, gateReasons]
  simp only [List.append_eq_nil_iff, hboundary, ite_eq_right_iff, List.cons_ne_self,
    imp_false, ne_eq, not_not, not_lt, and_assoc, Nat.le_zero, gt_iff_lt]
  have htotal : ¬ (0 < result.partitionsTotal ∧ result.partitionsMatched < result.partitionsTotal) ↔
      result.partitionsTotal ≤ result.partitionsMatched := by omega
  rw [htotal]

/-! ## When every worker reports a match -/

/-- Every worker returned a result, and it is a match. -/
def AllMatched (outcomes : List (Except ValidationError PartitionValidationResult)) : Prop :=
  ∀ outcome ∈ outcomes, ∃ r, outcome = .ok r ∧ r.matched = true

/-- The number of the matches the workers reported. -/
def matchCount (outcomes : List (Except ValidationError PartitionValidationResult)) : ℕ :=
  ((partitionResults outcomes).filter (·.matched)).length

theorem matchCount_le (outcomes : List (Except ValidationError PartitionValidationResult)) :
    matchCount outcomes ≤ outcomes.length := by
  induction outcomes with
  | nil => exact Nat.le_refl 0
  | cons outcome outcomes ih =>
    cases outcome with
    | error e => exact Nat.le_succ_of_le ih
    | ok r =>
      rw [matchCount, partitionResults, List.filter_cons, List.length_cons]
      split_ifs
      · exact Nat.succ_le_succ ih
      · exact Nat.le_succ_of_le ih

theorem length_le_matchCount_iff
    (outcomes : List (Except ValidationError PartitionValidationResult)) :
    outcomes.length ≤ matchCount outcomes ↔ AllMatched outcomes := by
  induction outcomes with
  | nil => simp [AllMatched]
  | cons outcome outcomes ih =>
    have hle := matchCount_le outcomes
    have hcons : AllMatched (outcome :: outcomes) ↔
        (∃ r, outcome = .ok r ∧ r.matched = true) ∧ AllMatched outcomes :=
      List.forall_mem_cons
    rw [hcons, ← ih, List.length_cons]
    cases outcome with
    | error e =>
      have hcount : matchCount (.error e :: outcomes) = matchCount outcomes := rfl
      rw [hcount]
      constructor
      · intro h
        omega
      · rintro ⟨⟨r, ⟨⟩, -⟩, -⟩
    | ok r =>
      cases hr : r.matched with
      | true =>
        have hcount : matchCount (.ok r :: outcomes) = matchCount outcomes + 1 := by
          simp [matchCount, partitionResults, hr]
        rw [hcount, Nat.add_le_add_iff_right]
        exact ⟨fun h => ⟨⟨r, rfl, hr⟩, h⟩, fun h => h.2⟩
      | false =>
        have hcount : matchCount (.ok r :: outcomes) = matchCount outcomes := by
          simp [matchCount, partitionResults, hr]
        rw [hcount]
        constructor
        · intro h
          omega
        · rintro ⟨⟨r', hr', hmatched⟩, -⟩
          cases hr'
          rw [hr] at hmatched
          cases hmatched

/-- When every worker reports a match, nothing is raised and nothing mismatches. -/
theorem quiet_of_allMatched
    {outcomes : List (Except ValidationError PartitionValidationResult)}
    (h : AllMatched outcomes) :
    abortOf outcomes = none ∧ workerErrors outcomes = [] ∧
      (partitionResults outcomes).filter (fun r => !r.matched) = [] := by
  induction outcomes with
  | nil => exact ⟨rfl, rfl, rfl⟩
  | cons outcome outcomes ih =>
    obtain ⟨⟨r, rfl, hr⟩, hrest⟩ := List.forall_mem_cons.mp h
    obtain ⟨habort, herrors, hmismatched⟩ := ih hrest
    refine ⟨habort, herrors, ?_⟩
    rw [partitionResults, List.filter_cons, hr]
    exact hmismatched

/-! ## When a full run passes -/

/-- A run that returned a result with the gate passed. -/
def Passed (outcome : Except ValidationError ValidationResult) : Prop :=
  ∃ r, outcome = .ok r ∧ r.validationGate = .passed

section PassedIff

variable {sha256 : List UInt8 → ℕ} {plan : ValidationPlan}

theorem length_runPartitions (run : ValidationRun plan) (va : ValidationAuthority)
    (is : List ℕ) : (runPartitions sha256 run va is).1.length = is.length := by
  induction is generalizing va with
  | nil => rfl
  | cons i is ih =>
    rw [runPartitions, List.length_cons, List.length_cons, ih]

theorem ValidationRun.length_completionOrder (run : ValidationRun plan) :
    run.completionOrder.length = numPartitions plan := by
  rw [run.completionOrder_perm.length_eq, List.length_range]

variable {va : ValidationAuthority}

/-- The exact reconciliation fills in counts of rows and leaves the rest alone. -/
theorem drillDown_frame {run : ValidationRun plan}
    {result r : ValidationResult} (h : drillDown va run result = .ok r) :
    r.status = result.status ∧ r.schemaMismatches = result.schemaMismatches ∧
      r.duplicates = result.duplicates ∧ r.partitionsTotal = result.partitionsTotal ∧
      r.partitionsMatched = result.partitionsMatched ∧ r.errors = result.errors := by
  rw [drillDown] at h
  split_ifs at h
  · cases h
    exact ⟨rfl, rfl, rfl, rfl, rfl, rfl⟩
  · obtain ⟨c, -, h⟩ := Traversal.bind_eq_ok_iff.mp h
    cases h
    exact ⟨rfl, rfl, rfl, rfl, rfl, rfl⟩

/-- Without a CDC authority a full run passes the gate on its counts and errors. -/
theorem finishRun_passed_iff (hcdc : va.cdcAuthority = none)
    (hmode : plan.mode = .fastFull ∨ plan.mode = .exactFull) (result : ValidationResult) :
    (finishRun va plan result).validationGate = .passed ↔
      result.status = .success ∧ result.schemaMismatches = 0 ∧ result.rowsMismatched = 0 ∧
      result.rowsMissing = 0 ∧ result.rowsExtra = 0 ∧ result.duplicates = 0 ∧
      result.partitionsTotal ≤ result.partitionsMatched ∧ result.errors = [] := by
  have hscope : (finishRun va plan result).proofScope ≠ .unproven := by
    rcases hmode with h | h <;> simp only [finishRun, h] <;> split_ifs <;> simp
  rw [show (finishRun va plan result).validationGate = evaluateGate { result with
      errors := (finishRun va plan result).errors
      proofScope := (finishRun va plan result).proofScope
      cdcBoundaryPosition := plan.cdcBoundaryPosition } plan.cdcBoundaryPosition from rfl,
    evaluateGate_eq_passed_iff]
  have herrors : (finishRun va plan result).errors = result.errors := by
    simp only [finishRun, hcdc, List.append_nil]
  rw [herrors]
  constructor
  · rintro ⟨h1, -, h2, h3, h4, h5, h6, h7, h8, -⟩
    exact ⟨h1, h2, h3, h4, h5, h6, h7, h8⟩
  · rintro ⟨h1, h2, h3, h4, h5, h6, h7, h8⟩
    exact ⟨h1, hscope, h2, h3, h4, h5, h6, h7, h8, fun h => ⟨h, lt_irrefl _⟩⟩

/-- The validation of the partitions passes what reaches it without an error when every worker
reports a match. -/
theorem validatePartitions_passed_iff (hcdc : va.cdcAuthority = none)
    (hmode : plan.mode = .fastFull ∨ plan.mode = .exactFull) (run : ValidationRun plan) :
    Passed (validatePartitions sha256 va run (reconcileCardinality run (validateStructure run))).1 ↔
      (validateStructure run).schemaMismatches = 0 ∧
      (reconcileCardinality run (validateStructure run)).errors = [] ∧
      AllMatched (runPartitions sha256 run va run.completionOrder).1 := by
  have hlength : (runPartitions sha256 run va run.completionOrder).1.length =
      numPartitions plan := by
    rw [length_runPartitions, run.length_completionOrder]
  have hmatch := length_le_matchCount_iff (runPartitions sha256 run va run.completionOrder).1
  rw [hlength] at hmatch
  rw [validatePartitions]
  constructor
  · rintro ⟨r, hr, hpassed⟩
    cases habort : abortOf (runPartitions sha256 run va run.completionOrder).1 with
    | some e =>
      simp only [habort] at hr
      cases hr
    | none =>
      simp only [habort] at hr
      split at hr
      · cases hr
      · rename_i c hdrill
        cases hr
        obtain ⟨-, hschema, -, htotal, hmatched, herrors⟩ := drillDown_frame hdrill
        obtain ⟨-, h2, -, -, -, -, h7, h8⟩ := (finishRun_passed_iff hcdc hmode c).mp hpassed
        rw [hschema] at h2
        rw [htotal, hmatched] at h7
        rw [herrors] at h8
        exact ⟨h2, (List.append_eq_nil_iff.mp h8).1, hmatch.mp h7⟩
  · rintro ⟨hschema, herrors, hall⟩
    obtain ⟨habort, hquiet, hmismatched⟩ := quiet_of_allMatched hall
    -- without a mismatch or an error the exact reconciliation is skipped
    have hskip : ∀ c : ValidationResult, c.partitionsMismatched = 0 → c.errors = [] →
        drillDown va run c = .ok { c with rowsMatched := run.targetRows.length } := by
      intro c h1 h2
      rw [drillDown, if_pos ⟨h1, h2⟩]
    simp only [habort]
    rw [hskip _ (List.length_eq_zero_iff.mpr hmismatched)
      (List.append_eq_nil_iff.mpr ⟨herrors, hquiet⟩)]
    refine ⟨_, rfl, (finishRun_passed_iff hcdc hmode _).mpr ?_⟩
    exact ⟨if_pos hquiet, hschema, rfl, rfl, rfl, rfl, hmatch.mpr hall,
      List.append_eq_nil_iff.mpr ⟨herrors, hquiet⟩⟩

/-- **When a full run passes.**  Its start is not interrupted, the schemas are compatible, the
row counts agree and every worker reports a match. -/
theorem passed_iff (hcdc : va.cdcAuthority = none)
    (hmode : plan.mode = .fastFull ∨ plan.mode = .exactFull) (run : ValidationRun plan) :
    Passed (executeValidation sha256 va run).1 ↔ run.tokenAtStart = .valid ∧
      structureErrors plan run.sourceSchemaMeta run.targetSchemaMeta = [] ∧
      run.sourceRows.length = run.targetRows.length ∧
      AllMatched (runPartitions sha256 run va run.completionOrder).1 := by
  have hso : plan.mode ≠ .structureOnly := by rcases hmode with h | h <;> simp [h]
  have hco : plan.mode ≠ .countOnly := by rcases hmode with h | h <;> simp [h]
  have htoken : run.tokenAtStart.error = none ↔ run.tokenAtStart = .valid := by
    cases run.tokenAtStart <;> simp [TokenCheck.error]
  have hstructure : (validateStructure run).schemaMismatches = 0 ∧
      (reconcileCardinality run (validateStructure run)).errors = [] ↔
      structureErrors plan run.sourceSchemaMeta run.targetSchemaMeta = [] ∧
        run.sourceRows.length = run.targetRows.length := by
    simp [validateStructure, reconcileCardinality, cardinalityErrors, hco]
  rw [executeValidation]
  cases herror : run.tokenAtStart.error with
  | some e =>
    have hinvalid : ¬ run.tokenAtStart = .valid := by
      rw [← htoken, herror]
      simp
    constructor
    · rintro ⟨r, ⟨⟩, -⟩
    · rintro ⟨hvalid, -⟩
      exact absurd hvalid hinvalid
  | none =>
    simp only [hso, hco, if_false]
    rw [validatePartitions_passed_iff hcdc hmode run, ← and_assoc, hstructure, and_assoc]
    exact (and_iff_right (htoken.mp herror)).symm

end PassedIff

end Validation

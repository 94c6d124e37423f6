/-
# The recovery coordinator of the runtime

`RuntimeRecoveryCoordinator` of `akaalEngine/runtime/recovery/coordinator.py` reads the snapshot of the
recovery inspector by names of its own, and swallows every exception.

* `evaluateRecovery_eq` : the plan is the same whatever is stored;
* `recoveryPlan_iff` : the durable states in which the plan is right;
* `not_recovers_resumed` : a checkpoint at epoch 7 with an operation in progress.
-/
import Akaal.RecoveryInspection

open CDC JsonText

namespace Durability

/-! ## Attributes -/

/-- `AttributeError`. -/
structure AttributeError where
  owner : String
  name : String

/-- A dataclass, by its name and the names of its fields. -/
structure Dataclass where
  name : String
  fields : List String

/-- An attribute of an object of a dataclass; its value is given when it is a field. -/
def Dataclass.getAttribute {α : Type*} (c : Dataclass) (name : String) (value : name ∈ c.fields → α) :
    Except AttributeError α :=
  if h : name ∈ c.fields then .ok (value h) else .error ⟨c.name, name⟩

/-- The fields of `MigrationCheckpoint`. -/
def migrationCheckpointClass : Dataclass where
  name := "MigrationCheckpoint"
  fields := ["migration_id", "job_id", "fencing_epoch", "status", "endpoint_identity",
    "table_checkpoints", "metadata", "updated_at", "checksum"]

/-- The fields of `DurableRecoverySnapshot`. -/
def durableRecoverySnapshotClass : Dataclass where
  name := "DurableRecoverySnapshot"
  fields := ["migration_id", "latest_checkpoint", "journal_records_count", "journal_is_valid",
    "incomplete_idempotency_keys", "committed_idempotency_keys", "current_fencing_epoch"]

/-! ## The coordinator -/

/-- `RuntimeRecoveryPlan`. -/
structure RuntimeRecoveryPlan where
  migrationId : String
  durableCheckpointId : Option String
  fencingEpoch : ℤ
  recoverableTasks : List String
  terminalTasks : List String
  reclaimableClaims : List String
  deriving DecidableEq

/-- The plan before anything is read. -/
def RuntimeRecoveryPlan.initial (migrationId : String) : RuntimeRecoveryPlan where
  migrationId := migrationId
  durableCheckpointId := none
  fencingEpoch := 1
  recoverableTasks := []
  terminalTasks := []
  reclaimableClaims := []

/-- The statements of a `try`, up to the first that raises. -/
def tryStatements {σ ε : Type*} : List (σ → Except ε σ) → σ → σ
  | [], s => s
  | statement :: statements, s =>
    match statement s with
    | .error _ => s
    | .ok s' => tryStatements statements s'

/-- `durable_checkpoint_id = snap.latest_checkpoint.checkpoint_id`. -/
def readCheckpointId (snap : DurableRecoverySnapshot) (plan : RuntimeRecoveryPlan) :
    Except AttributeError RuntimeRecoveryPlan :=
  match snap.latestCheckpoint with
  | none => .ok plan
  | some _ =>
    (migrationCheckpointClass.getAttribute "checkpoint_id" fun h => absurd h (by decide)).map
      fun checkpointId => { plan with durableCheckpointId := some checkpointId }

/-- `epoch = snap.latest_checkpoint.fencing_epoch`. -/
def readEpoch (snap : DurableRecoverySnapshot) (plan : RuntimeRecoveryPlan) :
    Except AttributeError RuntimeRecoveryPlan :=
  match snap.latestCheckpoint with
  | none => .ok plan
  | some checkpoint =>
    (migrationCheckpointClass.getAttribute "fencing_epoch" fun _ => checkpoint.fencingEpoch).map
      fun epoch => { plan with fencingEpoch := epoch }

/-- The ids of `snap.in_flight_operations`. -/
def readOperations (_snap : DurableRecoverySnapshot) (plan : RuntimeRecoveryPlan) :
    Except AttributeError RuntimeRecoveryPlan :=
  (durableRecoverySnapshotClass.getAttribute "in_flight_operations" fun h => absurd h (by decide)).map
    fun operationIds => { plan with recoverableTasks := plan.recoverableTasks ++ operationIds }

section Recovery

variable (rt : DigestRuntime)

/-- `evaluate_recovery`, with or without an authority. -/
def evaluateRecovery (authority : Option DurabilityTables) (migrationId : String) :
    RuntimeRecoveryPlan :=
  match authority with
  | none => .initial migrationId
  | some t =>
    match inspectRecoveryState rt t migrationId with
    | .error _ => .initial migrationId
    | .ok snap =>
      tryStatements [readCheckpointId snap, readEpoch snap, readOperations snap]
        (.initial migrationId)

/-- No transition leads out of the state. -/
def IdempotencyState.isTerminal (state : IdempotencyState) : Bool := (allowedTransitions state).isEmpty

/-- A key of the migration that is not in a terminal state. -/
def InNeedOfRecovery (t : DurabilityTables) (migrationId key : String) : Prop :=
  ∃ row, t.idempotency.get? key = some row ∧ row.migrationId = migrationId ∧
    row.state.isTerminal = false

/-- The plan for a migration with a checkpoint: its epoch is later than that of the checkpoint, and it
names every key that is not in a terminal state. -/
def Recovers (t : DurabilityTables) (migrationId : String) : Prop :=
  ∀ row, t.checkpoints.get? migrationId = some row →
    row.fencingEpoch < (evaluateRecovery rt (some t) migrationId).fencingEpoch ∧
      ∀ key, InNeedOfRecovery t migrationId key →
        key ∈ (evaluateRecovery rt (some t) migrationId).recoverableTasks

/-! ## What the coordinator makes of it -/

/-- **The plan is always the same.**  The first attribute that is read of a snapshot, with a checkpoint
or without, is one that it does not have, and every exception leaves the plan as it began. -/
theorem evaluateRecovery_eq (rt : DigestRuntime) (authority : Option DurabilityTables)
    (migrationId : String) : evaluateRecovery rt authority migrationId = .initial migrationId := by
  unfold evaluateRecovery
  rcases authority with - | t
  · rfl
  · dsimp only
    rcases inspectRecoveryState rt t migrationId with e | snap
    · rfl
    · dsimp only
      rcases hlatest : snap.latestCheckpoint with - | checkpoint
      · have hid : ∀ plan, readCheckpointId snap plan = .ok plan := fun plan => by
          rw [readCheckpointId, hlatest]
        have hepoch : ∀ plan, readEpoch snap plan = .ok plan := fun plan => by
          rw [readEpoch, hlatest]
        rw [tryStatements, hid]
        dsimp only
        rw [tryStatements, hepoch]
        rfl
      · have hid : ∀ plan, readCheckpointId snap plan =
            .error ⟨"MigrationCheckpoint", "checkpoint_id"⟩ := fun plan => by
          rw [readCheckpointId, hlatest]
          rfl
        rw [tryStatements, hid]

/-- **When the plan is right.**  For a migration with a checkpoint the coordinator reports a later epoch
and every key in need exactly when the epoch of the checkpoint is below 1 and no key is in need. -/
theorem recoveryPlan_iff (rt : DigestRuntime) (t : DurabilityTables) (migrationId : String) :
    Recovers rt t migrationId ↔ ∀ row, t.checkpoints.get? migrationId = some row →
      row.fencingEpoch < 1 ∧ ∀ key, ¬ InNeedOfRecovery t migrationId key := by
  rw [Recovers, evaluateRecovery_eq]
  refine forall_congr' fun row => imp_congr_right fun _ => and_congr_right fun _ => ?_
  exact forall_congr' fun key => imp_congr_right fun _ => iff_false_intro List.not_mem_nil

/-- The tables after an operation of a migration is begun and its checkpoint is saved at an epoch. -/
def tablesAt (epoch : ℤ) : DurabilityTables :=
  { DurabilityTables.empty with
    checkpoints := PyDict.empty.set "m" ⟨"job", "IN_PROGRESS", epoch, "{}",
      JournalRun.textRuntime.sha256Hex "{}", "2024-01-01"⟩
    idempotency := PyDict.empty.set "k" ⟨"m", .inProgress, none, epoch, "", "2024-01-01"⟩ }

/-- After a restart with a checkpoint at epoch 7 and an operation in progress the inspector reports
both, and the plan has epoch 1 and no operation. -/
theorem not_recovers_resumed :
    (inspectRecoveryState JournalRun.textRuntime (tablesAt 7) "m").map (fun snap =>
        (snap.currentFencingEpoch, snap.incompleteIdempotencyKeys)) = .ok (7, ["k"]) ∧
      InNeedOfRecovery (tablesAt 7) "m" "k" ∧ ¬ Recovers JournalRun.textRuntime (tablesAt 7) "m" := by
  refine ⟨by decide +kernel, ⟨_, rfl, rfl, rfl⟩, fun hrecovers => ?_⟩
  have hlater := (hrecovers _ rfl).1
  rw [evaluateRecovery_eq] at hlater
  exact absurd hlater (by decide)

end Recovery

end Durability

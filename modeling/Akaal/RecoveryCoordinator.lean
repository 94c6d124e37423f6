/-
# The recovery coordinator

`runtime/recovery/coordinator.py` issues the fencing epochs of a migration and recovers its state,
with the pending commands of `runtime/journal/command_mailbox.py`; `cdc/apply/manager.py` recovers
an apply session with a new epoch.

* `validateFencingToken_eq_false_iff` : what is rejected, by the latest epoch;
* `recoverCdcSession_coordinator` : recovery issues an epoch also when it raises;
* `fences` : as long as one coordinator lives its epochs increase, and it rejects exactly the
  epochs below the latest;
* `not_increasing_restart` : a new coordinator issues the first epoch again.

The wall clock, the logger, the telemetry and the workers of the apply coordinator are left out,
and so is what a recovery that raises leaves of a buffer.
-/
import Akaal.WalQueue
import Akaal.DurableBuffer

open CDC JsonText TransitionRun

namespace Recovery

/-! ## The command mailbox -/

/-- The exceptions of a recovery. -/
inductive RecoveryError where
  | wal (e : Streaming.WalError)
  | jsonDecodeError
  | attributeError
  | keyError
  | raised (e : PyRaised)

/-- `read_all_commands` over the lines of the mailbox file, if there is one. -/
def readAllCommands (mailbox : Option (List String)) : Except RecoveryError (List PyValue) :=
  ((mailbox.getD []).filter fun line => PythonText.strip line ≠ "").mapM fun line =>
    match loads (PythonText.strip line) with
    | some command => .ok command
    | none => .error .jsonDecodeError

/-- `c.get("status") == "PENDING"`. -/
def isPending : PyValue → Except RecoveryError Bool
  | .dict command =>
    .ok (match command.lookup "status" with
      | some (.str status) => status == "PENDING"
      | _ => false)
  | _ => .error .attributeError

/-- `read_pending_commands`. -/
def readPendingCommands (mailbox : Option (List String)) : Except RecoveryError (List PyValue) := do
  let commands ← readAllCommands mailbox
  commands.filterM isPending

/-- `c["command_type"]`. -/
def commandType : PyValue → Except RecoveryError PyValue
  | .dict command =>
    match command.lookup "command_type" with
    | some value => .ok value
    | none => .error .keyError
  | _ => .error .keyError

/-! ## The coordinator -/

/-- `RecoveryCoordinator`. -/
structure RecoveryCoordinator where
  activeEpochs : String → Option ℕ
  leases : String → Option String

/-- What a migration has on the disk: the bytes of its write-ahead log and its mailbox. -/
structure RecoveryDisk where
  wal : List UInt8
  mailbox : Option (List String)

/-- The result of `recover_migration_state`. -/
structure RecoveryInfo where
  migrationId : String
  epoch : ℕ
  lease : String
  checkpoint : List (String × PyValue)
  replayedWalRecords : ℕ
  pendingCommands : List PyValue
  recoveryStatus : String

namespace RecoveryCoordinator

variable (c : RecoveryCoordinator)

/-- `RecoveryCoordinator()`. -/
def new : RecoveryCoordinator := ⟨fun _ => none, fun _ => none⟩

/-- `self.active_epochs.get(migration_id, 0)`. -/
def activeEpoch (migrationId : String) : ℕ := (c.activeEpochs migrationId).getD 0

/-- The name of a lease. -/
def leaseText (migrationId : String) (epoch : ℕ) : String :=
  "lease-" ++ migrationId ++ "-ep" ++ intText epoch

/-- `issue_epoch`. -/
def issueEpoch (migrationId : String) : ℕ × RecoveryCoordinator :=
  let currentEpoch := c.activeEpoch migrationId
  let newEpoch := currentEpoch + 1
  (newEpoch, {
    activeEpochs := Function.update c.activeEpochs migrationId (some newEpoch)
    leases := Function.update c.leases migrationId (some (leaseText migrationId newEpoch)) })

/-- `validate_fencing_token`. -/
def validateFencingToken (migrationId : String) (epoch : ℤ) : Bool :=
  decide (epoch ≥ c.activeEpoch migrationId)

/-- `replay_wal_queue`. -/
def replayWalQueue (migrationId : String) (disk : RecoveryDisk) :
    Except RecoveryError (List PyValue) :=
  match Streaming.DurableWALRingBuffer.replayWal ⟨migrationId, disk.wal⟩ with
  | .ok records => .ok records
  | .error e => .error (.wal e)

/-- The checkpoint that is reported when none is given. -/
def defaultCheckpoint : List (String × PyValue) :=
  [("checkpoint_lsn", .str "0/1A2B3C4"), ("rows_transferred", .int 5), ("status", .str "RECOVERED")]

/-- `latest_checkpoint or {…}`. -/
def checkpointOr : Option (List (String × PyValue)) → List (String × PyValue)
  | none | some [] => defaultCheckpoint
  | some checkpoint => checkpoint

/-- `recover_migration_state`: its result, and the coordinator after it. -/
def recoverMigrationState (migrationId : String) (disk : RecoveryDisk)
    (latestCheckpoint : Option (List (String × PyValue))) :
    Except RecoveryError RecoveryInfo × RecoveryCoordinator :=
  let (newEpoch, issued) := c.issueEpoch migrationId
  (do
    let walRecords ← replayWalQueue migrationId disk
    let pendingCmds ← readPendingCommands disk.mailbox
    let pendingCommands ← pendingCmds.mapM commandType
    return {
      migrationId := migrationId
      epoch := newEpoch
      lease := (issued.leases migrationId).getD ""
      checkpoint := checkpointOr latestCheckpoint
      replayedWalRecords := walRecords.length
      pendingCommands := pendingCommands
      recoveryStatus := "SUCCESS" }, issued)

/-! ### What the operations do -/

@[simp] theorem issueEpoch_fst (migrationId : String) :
    (c.issueEpoch migrationId).1 = c.activeEpoch migrationId + 1 := rfl

@[simp] theorem activeEpoch_issueEpoch (migrationId other : String) :
    (c.issueEpoch migrationId).2.activeEpoch other =
      if other = migrationId then c.activeEpoch migrationId + 1 else c.activeEpoch other := by
  by_cases h : other = migrationId
  · rw [if_pos h, h]
    simp [issueEpoch, activeEpoch]
  · rw [if_neg h]
    simp [issueEpoch, activeEpoch, Function.update_of_ne h]

/-- What is rejected: the epochs below the active one. -/
theorem validateFencingToken_eq_false_iff {migrationId : String} {epoch : ℤ} :
    c.validateFencingToken migrationId epoch = false ↔ epoch < c.activeEpoch migrationId := by
  simp [validateFencingToken]

/-- A recovery issues an epoch, also when it raises. -/
@[simp] theorem recoverMigrationState_snd (migrationId : String) (disk : RecoveryDisk)
    (latestCheckpoint : Option (List (String × PyValue))) :
    (c.recoverMigrationState migrationId disk latestCheckpoint).2 =
      (c.issueEpoch migrationId).2 := rfl

end RecoveryCoordinator

/-! ## The apply coordinator -/

/-- `CDCApplyCoordinator`, as far as fencing goes. -/
structure CDCApplyCoordinator where
  recoveryCoordinator : RecoveryCoordinator
  activeBuffers : String → Option DurableCDCBuffer
  activeEpochs : String → Option ℤ
  applyStatuses : String → Option String

/-- The result of `recover_cdc_session`. -/
structure SessionRecovery where
  cdcSessionId : String
  status : String
  newFencingEpoch : ℕ
  recoveredTransactions : ℕ

namespace CDCApplyCoordinator

variable (rt : DigestRuntime) (a : CDCApplyCoordinator)

/-- `CDCApplyCoordinator()`, with a new recovery coordinator. -/
def new : CDCApplyCoordinator :=
  ⟨RecoveryCoordinator.new, fun _ => none, fun _ => none, fun _ => none⟩

/-- `get_or_create_buffer`; the constructor is called for a session without a buffer. -/
def getOrCreateBuffer (cdcSessionId : String) (created : Except PyRaised DurableCDCBuffer) :
    Except PyRaised DurableCDCBuffer :=
  match a.activeBuffers cdcSessionId with
  | some buffer => .ok buffer
  | none => created

/-- `fencing_epoch or self.recovery_coordinator.issue_epoch(migration_id)`. -/
def startEpoch (migrationId : String) (fencingEpoch : Option ℤ) : ℤ × RecoveryCoordinator :=
  if fencingEpoch.getD 0 ≠ 0 then (fencingEpoch.getD 0, a.recoveryCoordinator)
  else ((a.recoveryCoordinator.issueEpoch migrationId).1,
    (a.recoveryCoordinator.issueEpoch migrationId).2)

/-- `start_cdc_apply`: the epoch of the session, and the coordinator after the call. -/
def startCdcApply (migrationId jobId runId cdcSessionId : String) (fencingEpoch : Option ℤ)
    (created : Except PyRaised DurableCDCBuffer) :
    Except PyRaised ℤ × CDCApplyCoordinator :=
  let (epoch, coordinator) := a.startEpoch migrationId fencingEpoch
  let a := { a with recoveryCoordinator := coordinator }
  if migrationId = "" ∨ jobId = "" ∨ runId = "" ∨ cdcSessionId = "" then
    (.error (.valueError ("All identity bindings (migration_id, job_id, run_id, " ++
      "cdc_session_id) must be non-empty.")), a)
  else
    match a.getOrCreateBuffer cdcSessionId created with
    | .error e => (.error e, a)
    | .ok buffer =>
      (.ok epoch, { a with
        activeBuffers := Function.update a.activeBuffers cdcSessionId (some buffer)
        activeEpochs := Function.update a.activeEpochs cdcSessionId (some epoch)
        applyStatuses := Function.update a.applyStatuses cdcSessionId (some "APPLYING") })

/-- `recover_cdc_session`: its result, and the coordinator after the call. -/
def recoverCdcSession (migrationId cdcSessionId : String) (disk : RecoveryDisk) :
    Except RecoveryError SessionRecovery × CDCApplyCoordinator :=
  let (recInfo, coordinator) := a.recoveryCoordinator.recoverMigrationState migrationId disk none
  let a := { a with recoveryCoordinator := coordinator }
  match recInfo with
  | .error e => (.error e, a)
  | .ok info =>
    let newEpoch := info.epoch
    let a := { a with
      activeEpochs := Function.update a.activeEpochs cdcSessionId (some (newEpoch : ℤ)) }
    let recovered (a : CDCApplyCoordinator) (count : ℕ) :=
      (.ok ⟨cdcSessionId, "RECOVERED", newEpoch, count⟩, { a with
        applyStatuses := Function.update a.applyStatuses cdcSessionId (some "RECOVERED") })
    match a.activeBuffers cdcSessionId with
    | none => recovered a 0
    | some buffer =>
      match buffer.recoverFromWal rt with
      | .error e => (.error (.raised e), a)
      | .ok buffer =>
        recovered { a with
          activeBuffers := Function.update a.activeBuffers cdcSessionId (some buffer) }
          buffer.inMemoryQueue.length

/-! ### What the operations do -/

/-- What a start does to the recovery coordinator: it issues an epoch unless one is given. -/
theorem startCdcApply_coordinator (migrationId jobId runId cdcSessionId : String)
    (fencingEpoch : Option ℤ) (created : Except PyRaised DurableCDCBuffer) :
    (a.startCdcApply migrationId jobId runId cdcSessionId fencingEpoch
      created).2.recoveryCoordinator = (a.startEpoch migrationId fencingEpoch).2 := by
  unfold startCdcApply
  split_ifs with hempty
  · rfl
  · simp only
    cases getOrCreateBuffer _ cdcSessionId created <;> rfl

/-- What a recovery does to the recovery coordinator: it issues an epoch, also when it raises. -/
theorem recoverCdcSession_coordinator (migrationId cdcSessionId : String) (disk : RecoveryDisk) :
    (a.recoverCdcSession rt migrationId cdcSessionId disk).2.recoveryCoordinator =
      (a.recoveryCoordinator.issueEpoch migrationId).2 := by
  unfold recoverCdcSession
  simp only [RecoveryCoordinator.recoverMigrationState_snd]
  cases (a.recoveryCoordinator.recoverMigrationState migrationId disk none).1 with
  | error e => rfl
  | ok info =>
    simp only
    cases a.activeBuffers cdcSessionId with
    | none => rfl
    | some buffer =>
      simp only
      cases buffer.recoverFromWal rt <;> rfl

end CDCApplyCoordinator

/-! ## Runs -/

/-- The state of a run: the coordinators, the epochs that were issued since they were made, and
those issued in the whole run, with their migrations. -/
structure FencingRun where
  coordinator : CDCApplyCoordinator
  current : List (String × ℕ)
  issued : List (String × ℕ)

/-- A call, or a restart with new coordinators. -/
inductive FencingAction where
  | issue (migrationId : String)
  | recover (migrationId : String) (disk : RecoveryDisk)
      (latestCheckpoint : Option (List (String × PyValue)))
  | start (migrationId jobId runId cdcSessionId : String) (fencingEpoch : Option ℤ)
      (created : Except PyRaised DurableCDCBuffer)
  | recoverSession (migrationId cdcSessionId : String) (disk : RecoveryDisk)
  | restart

namespace FencingRun

variable (rt : DigestRuntime)

/-- Nothing was issued yet. -/
def new : FencingRun := ⟨CDCApplyCoordinator.new, [], []⟩

/-- Note an epoch that was issued. -/
def note (s : FencingRun) (migrationId : String) (epoch : ℕ) : FencingRun :=
  { s with current := s.current ++ [(migrationId, epoch)],
           issued := s.issued ++ [(migrationId, epoch)] }

/-- The epoch that the next call of `issue_epoch` returns. -/
def nextEpoch (s : FencingRun) (migrationId : String) : ℕ :=
  (s.coordinator.recoveryCoordinator.issueEpoch migrationId).1

/-- One call. -/
def fencingStep (s : FencingRun) : FencingAction → Option FencingRun
  | .issue migrationId =>
    some { s.note migrationId (s.nextEpoch migrationId) with
      coordinator := { s.coordinator with
        recoveryCoordinator := (s.coordinator.recoveryCoordinator.issueEpoch migrationId).2 } }
  | .recover migrationId disk latestCheckpoint =>
    some { s.note migrationId (s.nextEpoch migrationId) with
      coordinator := { s.coordinator with
        recoveryCoordinator := (s.coordinator.recoveryCoordinator.recoverMigrationState
          migrationId disk latestCheckpoint).2 } }
  | .start migrationId jobId runId cdcSessionId fencingEpoch created =>
    let noted :=
      if fencingEpoch.getD 0 ≠ 0 then s else s.note migrationId (s.nextEpoch migrationId)
    some { noted with
      coordinator := (s.coordinator.startCdcApply migrationId jobId runId cdcSessionId
        fencingEpoch created).2 }
  | .recoverSession migrationId cdcSessionId disk =>
    some { s.note migrationId (s.nextEpoch migrationId) with
      coordinator := (s.coordinator.recoverCdcSession rt migrationId cdcSessionId disk).2 }
  | .restart => some { s with coordinator := .new, current := [] }

/-- The epochs of a migration among those issued. -/
def epochsOf (issued : List (String × ℕ)) (migrationId : String) : List ℕ :=
  (issued.filter fun entry => entry.1 = migrationId).map Prod.snd

@[simp] theorem epochsOf_append (xs ys : List (String × ℕ)) (migrationId : String) :
    epochsOf (xs ++ ys) migrationId = epochsOf xs migrationId ++ epochsOf ys migrationId := by
  simp [epochsOf]

/-- What the coordinator rejects. -/
def Rejects (s : FencingRun) (migrationId : String) (epoch : ℤ) : Prop :=
  s.coordinator.recoveryCoordinator.validateFencingToken migrationId epoch = false

/-- The epochs of the whole run increase. -/
def Increasing (s : FencingRun) : Prop :=
  ∀ migrationId, (epochsOf s.issued migrationId).Pairwise (· < ·)

/-- Once an epoch was issued, the smaller ones and those never issued are rejected. -/
def RejectsOthers (s : FencingRun) : Prop :=
  ∀ migrationId, ∀ n ∈ epochsOf s.issued migrationId, ∀ epoch : ℤ,
    (epoch < n ∨ ∀ m ∈ epochsOf s.issued migrationId, epoch ≠ m) → s.Rejects migrationId epoch

/-- Fencing by one coordinator: the epochs it issued increase, those below an issued one are
rejected, and rejected is exactly what is below the latest. -/
def Fences (s : FencingRun) : Prop :=
  ∀ migrationId, (epochsOf s.current migrationId).Pairwise (· < ·) ∧
    (∀ n ∈ epochsOf s.current migrationId, ∀ epoch : ℤ, epoch < n → s.Rejects migrationId epoch) ∧
    ∀ epoch : ℤ, s.Rejects migrationId epoch ↔ epoch < (epochsOf s.current migrationId).getLastD 0

/-- The epochs a coordinator issued are the first ones, and the last of them is active. -/
def Counts (s : FencingRun) : Prop :=
  ∀ migrationId, epochsOf s.current migrationId =
    (List.range (s.coordinator.recoveryCoordinator.activeEpoch migrationId)).map (· + 1)

variable {s s' : FencingRun}

/-- One more epoch is issued. -/
theorem Counts.issue (h : Counts s) {migrationId : String}
    (hcurrent : s'.current = s.current ++ [(migrationId, s.nextEpoch migrationId)])
    (hcoordinator : s'.coordinator.recoveryCoordinator =
      (s.coordinator.recoveryCoordinator.issueEpoch migrationId).2) : Counts s' := by
  intro other
  rw [hcurrent, hcoordinator, epochsOf_append, h other, RecoveryCoordinator.activeEpoch_issueEpoch]
  by_cases hother : other = migrationId
  · rw [if_pos hother, hother, List.range_succ, List.map_append]
    simp [epochsOf, nextEpoch]
  · rw [if_neg hother]
    simp [epochsOf, Ne.symm hother]

theorem Counts.step (h : Counts s) {a : FencingAction} (hstep : fencingStep rt s a = some s') :
    Counts s' := by
  cases a with
  | issue migrationId =>
    rw [fencingStep, Option.some.injEq] at hstep
    rw [← hstep]
    exact h.issue rfl rfl
  | recover migrationId disk latestCheckpoint =>
    rw [fencingStep, Option.some.injEq] at hstep
    rw [← hstep]
    exact h.issue rfl rfl
  | start migrationId jobId runId cdcSessionId fencingEpoch created =>
    rw [fencingStep, Option.some.injEq] at hstep
    have hcoordinator : s'.coordinator.recoveryCoordinator =
        (s.coordinator.startEpoch migrationId fencingEpoch).2 := by
      rw [← hstep]
      exact CDCApplyCoordinator.startCdcApply_coordinator ..
    by_cases hgiven : fencingEpoch.getD 0 ≠ 0
    · -- the caller gives the epoch: nothing is issued
      rw [CDCApplyCoordinator.startEpoch, if_pos hgiven] at hcoordinator
      have hcurrent : s'.current = s.current := by
        rw [← hstep, if_pos hgiven]
      intro other
      rw [hcurrent, hcoordinator]
      exact h other
    · rw [CDCApplyCoordinator.startEpoch, if_neg hgiven] at hcoordinator
      refine h.issue ?_ hcoordinator
      rw [← hstep, if_neg hgiven]
      rfl
  | recoverSession migrationId cdcSessionId disk =>
    rw [fencingStep, Option.some.injEq] at hstep
    rw [← hstep]
    exact h.issue rfl (CDCApplyCoordinator.recoverCdcSession_coordinator ..)
  | restart =>
    rw [fencingStep, Option.some.injEq] at hstep
    rw [← hstep]
    intro other
    rfl

theorem counts_new : Counts new := fun _ => rfl

theorem Counts.fencing (h : Counts s) : Fences s := by
  intro migrationId
  have hrejects : ∀ epoch : ℤ, s.Rejects migrationId epoch ↔
      epoch < s.coordinator.recoveryCoordinator.activeEpoch migrationId :=
    fun _ => RecoveryCoordinator.validateFencingToken_eq_false_iff _
  rw [h migrationId]
  refine ⟨?_, ?_, ?_⟩
  · exact List.pairwise_lt_range.map _ fun _ _ hlt => Nat.succ_lt_succ hlt
  · intro n hn epoch hlt
    obtain ⟨k, hk, hkn⟩ := List.mem_map.mp hn
    rw [List.mem_range] at hk
    rw [hrejects]
    omega
  · intro epoch
    rw [hrejects]
    cases s.coordinator.recoveryCoordinator.activeEpoch migrationId with
    | zero => rfl
    | succ n => simp [List.range_succ]

/-- **Fencing.**  In every run, as long as one coordinator lives, the epochs it issues for a
migration increase strictly, and it rejects every epoch below one of them; what it rejects is
exactly what is below the latest. -/
theorem fences (as : List FencingAction) : HoldsAlong (fencingStep rt) Fences new as := by
  have hcounts : HoldsAlong (fencingStep rt) Counts new as :=
    HoldsAlong.of_step (fun _ _ _ hs hstep => hs.step rt hstep) counts_new as
  exact hcounts.imp fun _ => Counts.fencing

/-- A new coordinator issues the first epoch again, and an epoch that no one issued is accepted. -/
theorem not_increasing_restart : ∃ rt : DigestRuntime,
      (¬ ∀ as, HoldsAlong (fencingStep rt) Increasing new as) ∧
      ¬ ∀ as, HoldsAlong (fencingStep rt) RejectsOthers new as := by
  refine ⟨⟨fun _ => "", fun _ _ => "", fun _ => ""⟩, fun h => ?_, fun h => ?_⟩
  · have hfinish := (h [.issue "m1", .restart, .recover "m1" ⟨[], none⟩ none]).finish rfl
    exact absurd (hfinish "m1") (by decide)
  · have hfinish := (h [.issue "m1"]).finish rfl
    exact absurd (hfinish "m1" 1 (by decide) 2 (.inr (by decide))) (by unfold Rejects; decide)

end FencingRun

end Recovery

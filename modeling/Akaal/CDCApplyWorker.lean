/-
# The apply worker

`CDCApplyWorker` of `cdc/apply/engine.py`.  `apply_next_transaction` takes a transaction from
the durable buffer or from its caller, checks fencing, identity, schema barriers and
duplicates, hands the events to the target, and then writes the record of the applied
transactions and the checkpoint to the state store.

A worker keeps its own set of applied transactions, which it reads from the store when it is
made; the store keeps one record for the session.  What the target answers, the schema barriers
and the active fencing epochs are inputs.

* `applyNext_ok` : what a successful call does;
* `applyDuplicate_ok`, `applyFresh_ok` : for a transaction the worker has applied, and for one it
  has not.
-/
import Akaal.CDCCheckpoint

open PythonText

namespace CDC

/-! ## The state store and the workers -/

/-- The record `cdc_applied_txs_<session>`. -/
structure AppliedRecord where
  appliedIds : List String
  appliedHashes : PyDict String
  lastAppliedPosition : PyItems

/-- The records of one session in the state store: `cdc_applied_txs_<session>` and
`checkpoint-<session>`. -/
structure SessionStore where
  appliedTxs : Option AppliedRecord
  checkpoint : Option CDCCheckpoint

/-- `CDCApplyWorker`. -/
structure CDCApplyWorker where
  appliedTransactionIds : List String
  appliedTransactionHashes : PyDict String
  lastAppliedPosition : Option CDCSourcePosition
  lastCheckpoint : Option CDCCheckpoint
  lastAcknowledgedPosition : Option CDCSourcePosition

/-- The last applied position of a record, when there is one. -/
def AppliedRecord.position (persisted : AppliedRecord) :
    Except PyRaised (Option CDCSourcePosition) :=
  if persisted.lastAppliedPosition = [] then .ok none
  else some <$> parseSourcePosition (.dict persisted.lastAppliedPosition)

/-- `_load_persistent_applied_state`, for a worker that is made. -/
def loadPersistentAppliedState (store : SessionStore) : Except PyRaised CDCApplyWorker :=
  match store.appliedTxs with
  | none => .ok ⟨[], PyDict.empty, none, none, none⟩
  | some persisted => do
      let last ← persisted.position
      return ⟨persisted.appliedIds, persisted.appliedHashes, last, none, last⟩

/-- `s.add(x)`. -/
def setAdd (s : List String) (x : String) : List String := if x ∈ s then s else s ++ [x]

@[simp] theorem mem_setAdd {s : List String} {x y : String} : y ∈ setAdd s x ↔ y = x ∨ y ∈ s := by
  rw [setAdd]
  split_ifs with h
  · constructor
    · exact Or.inr
    · rintro (rfl | hy)
      · exact h
      · exact hy
  · simp [or_comm]

/-- `_persist_applied_transaction`: the worker's set grows, and the whole of it becomes the
record of the session. -/
def persistAppliedTransaction (store : SessionStore) (worker : CDCApplyWorker)
    (txId txHash : String) (commitPosition : CDCSourcePosition) : SessionStore × CDCApplyWorker :=
  let ids := setAdd worker.appliedTransactionIds txId
  let hashes := worker.appliedTransactionHashes.set txId txHash
  ({ store with appliedTxs := some ⟨ids, hashes, commitPosition.toDict⟩ }, { worker with
      appliedTransactionIds := ids
      appliedTransactionHashes := hashes
      lastAppliedPosition := some commitPosition })

/-! ## The target -/

/-- What the target answers to a batch of changes. -/
inductive TargetReply where
  | applied
  | refused
  | raised (message : String)
  deriving DecidableEq

/-- What a call finds outside the worker: the digests and `str`, the clock, the fencing epochs
that are active at its start and before its checkpoint, the tables with an active schema
barrier, and whether a target is attached and what it answers. -/
structure ApplyContext where
  rt : DigestRuntime
  ambient : Ambient
  providerKey : List UInt8
  activeEpoch : ℤ
  activeEpochLater : ℤ
  isBarrierActive : String → Bool
  targetAdapter : Option TargetReply

/-- A failure the worker reports. -/
def applyFailure (identity : CDCEventIdentity) (failureType : CDCFailureType)
    (category : CDCFailureCategory) (message : String) : PyRaised :=
  .executionError {
    failureType := failureType
    category := category
    message := message
    migrationId := identity.migrationId
    jobId := identity.jobId
    runId := identity.runId
    cdcSessionId := identity.cdcSessionId }

/-- `image and len(image) > 0`. -/
def hasItems (image : PyValue) : Except PyRaised Bool :=
  if isFalsy image then .ok false
  else
    match image with
    | .dict _ | .list _ | .str _ | .bytes _ => .ok true
    | _ => .error (.typeError "object has no len()")

/-- `image and ("id" in image or "pk" in str(image).lower())`. -/
def hasKeyColumn (rt : DigestRuntime) (image : PyValue) : Except PyRaised Bool :=
  let named := decide ("pk".toList <:+: (lower (rt.str image)).toList)
  if isFalsy image then .ok false
  else
    match image with
    | .dict items => .ok ((List.lookup "id" items).isSome || named)
    | .list elements =>
      .ok ((elements.any fun v => match v with | .str s => s == "id" | _ => false) || named)
    | .str s => .ok (decide ("id".toList <:+: s.toList) || named)
    | _ => .error (.typeError "argument is not iterable")

/-- The check of one event before anything is written: an UPDATE and a DELETE need a row they
can be applied to. -/
def checkEvent (rt : DigestRuntime) (identity : CDCEventIdentity) (e : CDCEvent) :
    Except PyRaised Unit :=
  match e.operation with
  | .update => do
      let hasKey ← do
        if ← hasItems e.beforeImage then pure true else hasKeyColumn rt e.afterImage
      if hasKey then .ok ()
      else .error (applyFailure identity .unsafeUpdate .dataIntegrityRisk
        ("[UNSAFE UPDATE] UPDATE event in table '" ++ e.sourceTable ++
          "' lacks primary key / before image identity."))
  | .delete => do
      if ← hasItems e.beforeImage then .ok ()
      else .error (applyFailure identity .unsafeDelete .dataIntegrityRisk
        ("[UNSAFE DELETE] DELETE event in table '" ++ e.sourceTable ++
          "' lacks primary key / before image identity."))
  | _ => .ok ()

/-- `_execute_target_transaction`; what it raises that is no failure record becomes one in its
caller. -/
def executeTargetTransaction (ctx : ApplyContext) (identity : CDCEventIdentity)
    (tx : CDCTransaction) : Except PyRaised Unit := do
  tx.events.forM fun e => checkEvent ctx.rt identity e
  match ctx.targetAdapter with
  | none | some .applied => .ok ()
  | some .refused => .error (.runtimeError
      ("Physical target change application returned false for transaction '" ++ tx.txId ++ "'"))
  | some (.raised message) => .error (.runtimeError message)

/-- `str(ex)`. -/
def PyRaised.message : PyRaised → String
  | .valueError message => message
  | .typeError message => message
  | .keyError key => "'" ++ key ++ "'"
  | .runtimeError message => message
  | .notSerializable e => e.str
  | .executionError failure => failure.message

/-! ## Applying a transaction -/

/-- What `apply_next_transaction` returns. -/
inductive ApplyResult where
  | noTransactions
  | success (txId : String) (duplicateSuppressed : Bool) (eventsApplied : ℕ)
      (checkpointId : String)
  deriving DecidableEq

/-- What a call leaves behind: the store, the buffer, the worker, and the events that the
target has taken. -/
structure ApplyState where
  store : SessionStore
  buffer : Option DurableCDCBuffer
  worker : CDCApplyWorker
  target : List (List CDCEvent)

variable (ctx : ApplyContext) (identity : CDCEventIdentity)

/-- `self.recovery_coordinator.validate_fencing_token`, against an active epoch. -/
def validateFencingToken (activeEpoch epoch : ℤ) : Bool := decide (activeEpoch ≤ epoch)

/-- The transaction a call works on, with its hash: the one it is given, or the oldest one of
the buffer, decoded. -/
def nextTransaction (buffer : Option DurableCDCBuffer) (transaction : Option CDCTransaction) :
    Except PyRaised (Option (CDCTransaction × String)) :=
  match transaction, buffer with
  | some tx, _ => .ok (some (tx, ""))
  | none, none => .ok none
  | none, some buffer => do
      match ← buffer.popNextTransaction ctx.rt with
      | none => return none
      | some entry =>
        return some (← parseCdcTransaction ctx.ambient entry.transactionData, entry.recordHmac)

/-- The checks before the duplicate protection: identity and schema barriers. -/
def checkTransaction (tx : CDCTransaction) : Except PyRaised Unit :=
  if tx.identity.migrationId ≠ identity.migrationId ∨ tx.identity.runId ≠ identity.runId ∨
      tx.identity.cdcSessionId ≠ identity.cdcSessionId then
    .error (applyFailure identity .identityMismatch .dataIntegrityRisk
      ("[IDENTITY MISMATCH] Transaction '" ++ tx.txId ++
        "' identity does not match worker session."))
  else
    match tx.events.find? fun e => ctx.isBarrierActive e.sourceTable with
    | some e => .error (applyFailure identity .schemaBarrierActive .pausable
        ("[SCHEMA BARRIER ACTIVE] Cannot apply transaction '" ++ tx.txId ++
          "' while active schema barrier is set for table '" ++ e.sourceTable ++ "'."))
    | none => .ok ()

/-- The checkpoint of a transaction: all three positions are its commit position. -/
def transactionCheckpoint (tx : CDCTransaction) (epoch : ℤ) : Except PyRaised CDCCheckpoint :=
  CDCCheckpoint.new ctx.rt ctx.providerKey ctx.ambient.now
    ("ckpt-" ++ String.ofList (ctx.ambient.uuidHex.toList.take 8)) identity.migrationId
    identity.jobId identity.runId identity.cdcSessionId epoch tx.commitPosition
    (some tx.commitPosition) (some tx.commitPosition) none none none

/-- The removal of an acknowledged transaction from the buffer, when there is a buffer. -/
def acknowledge (buffer : Option DurableCDCBuffer) (tx : CDCTransaction) :
    Except PyRaised (Option DurableCDCBuffer) :=
  match buffer with
  | none => .ok none
  | some b => do
      let (b', _) ← b.removeAcknowledgedTransaction tx.txId (some tx.commitPosition)
      return some b'

/-- The failure of a stale worker. -/
def fencingViolation (epoch : ℤ) (tail : String) : PyRaised :=
  applyFailure identity .staleWorker .blocking
    ("[FENCING VIOLATION] Stale worker fencing epoch " ++ intText epoch ++ " rejected" ++ tail)

/-- A transaction the worker has applied: nothing is sent to the target, and the checkpoint is
kept in the worker only. -/
def applyDuplicate (s : ApplyState) (tx : CDCTransaction) (txHash : String) (epoch : ℤ) :
    ApplyState × Except PyRaised ApplyResult :=
  let expected := (s.worker.appliedTransactionHashes.get? tx.txId).getD ""
  if expected ≠ "" ∧ txHash ≠ "" ∧ expected ≠ txHash then
    (s, .error (applyFailure identity .transactionCorruption .dataIntegrityRisk
      ("[REPLAY PAYLOAD TAMPERING] Duplicate tx '" ++ tx.txId ++
        "' replayed with mismatched payload hash.")))
  else if ¬ validateFencingToken ctx.activeEpochLater epoch then
    (s, .error (fencingViolation identity epoch " during deduplicated checkpointing."))
  else
    let placed := { s with
      worker := { s.worker with lastAppliedPosition := some tx.commitPosition } }
    match transactionCheckpoint ctx identity tx epoch with
    | .error e => (placed, .error e)
    | .ok ckpt =>
      let acked := { placed with worker := { placed.worker with
        lastCheckpoint := some ckpt
        lastAcknowledgedPosition := some tx.commitPosition } }
      match acknowledge s.buffer tx with
      | .error e => (acked, .error e)
      | .ok buffer => ({ acked with buffer := buffer },
          .ok (.success tx.txId true tx.events.length ckpt.checkpointId))

/-- A transaction the worker has not applied: it is sent to the target, then the record of the
session and the checkpoint are written. -/
def applyFresh (s : ApplyState) (tx : CDCTransaction) (txHash : String) (epoch : ℤ) :
    ApplyState × Except PyRaised ApplyResult :=
  match executeTargetTransaction ctx identity tx with
  | .error (.executionError failure) => (s, .error (.executionError failure))
  | .error e => (s, .error (applyFailure identity .targetApplyFailure .pausable
      ("[TARGET APPLY ERROR] Transaction '" ++ tx.txId ++ "' failed during target application: " ++
        e.message)))
  | .ok () =>
    let (store, worker) :=
      persistAppliedTransaction s.store s.worker tx.txId txHash tx.commitPosition
    let persisted := { s with store := store, worker := worker, target := s.target ++ [tx.events] }
    if ¬ validateFencingToken ctx.activeEpochLater epoch then
      (persisted, .error (fencingViolation identity epoch " before checkpointing."))
    else
      match transactionCheckpoint ctx identity tx epoch with
      | .error e => (persisted, .error e)
      | .ok ckpt =>
        let acked := { persisted with worker := { persisted.worker with
          lastCheckpoint := some ckpt
          lastAcknowledgedPosition := some tx.commitPosition } }
        match acknowledge s.buffer tx with
        | .error e => (acked, .error e)
        | .ok buffer => ({ acked with
            buffer := buffer
            store := { acked.store with checkpoint := some ckpt } },
            .ok (.success tx.txId false tx.events.length ckpt.checkpointId))

/-- `apply_next_transaction`. -/
def applyNextTransaction (s : ApplyState) (epoch : ℤ) (transaction : Option CDCTransaction) :
    ApplyState × Except PyRaised ApplyResult :=
  if ¬ validateFencingToken ctx.activeEpoch epoch then
    (s, .error (fencingViolation identity epoch "."))
  else
    match nextTransaction ctx s.buffer transaction with
    | .error e => (s, .error e)
    | .ok none => (s, .ok .noTransactions)
    | .ok (some (tx, txHash)) =>
      match checkTransaction ctx identity tx with
      | .error e => (s, .error e)
      | .ok () =>
        if tx.txId ∈ s.worker.appliedTransactionIds then
          applyDuplicate ctx identity s tx txHash epoch
        else applyFresh ctx identity s tx txHash epoch

/-! ## What a successful call does -/

variable {ctx identity}

variable {epoch : ℤ} {r : ApplyResult} {s s' : ApplyState} {tx : CDCTransaction} {txHash : String}

/-- The checkpoint of a transaction has its commit position in all three places. -/
theorem transactionCheckpoint_positions {ckpt : CDCCheckpoint}
    (h : transactionCheckpoint ctx identity tx epoch = .ok ckpt) :
    ckpt.sourcePosition = tx.commitPosition ∧ ckpt.appliedPosition = tx.commitPosition ∧
      ckpt.acknowledgedPosition = tx.commitPosition := by
  rw [transactionCheckpoint, CDCCheckpoint.new] at h
  split_ifs at h
  simp only [Option.getD_some, CDCCheckpoint.checkPositions_self, ok_bind] at h
  cases h
  exact ⟨rfl, rfl, rfl⟩

/-- **A successful call on a transaction the worker has applied** leaves the store and the
target alone. -/
theorem applyDuplicate_ok (h : applyDuplicate ctx identity s tx txHash epoch = (s', .ok r)) :
    s'.store = s.store ∧ s'.target = s.target ∧
      s'.worker.appliedTransactionIds = s.worker.appliedTransactionIds ∧
      ∃ n ck, r = .success tx.txId true n ck := by
  rw [applyDuplicate] at h
  split_ifs at h
  · cases h
  · dsimp only at h
    split at h
    · cases h
    · split at h
      · cases h
      · cases h
        exact ⟨rfl, rfl, rfl, _, _, rfl⟩
  · cases h

/-- **A successful call on a transaction the worker has not applied** hands its events to the
target, makes the worker's set the record of the session, and writes the checkpoint. -/
theorem applyFresh_ok (h : applyFresh ctx identity s tx txHash epoch = (s', .ok r)) :
    s'.target = s.target ++ [tx.events] ∧
      s'.worker.appliedTransactionIds = setAdd s.worker.appliedTransactionIds tx.txId ∧
      (∃ hashes, s'.store.appliedTxs =
        some ⟨s'.worker.appliedTransactionIds, hashes, tx.commitPosition.toDict⟩) ∧
      (∃ ckpt, s'.store.checkpoint = some ckpt ∧ ckpt.sourcePosition = tx.commitPosition) ∧
      ∃ n ck, r = .success tx.txId false n ck := by
  rw [applyFresh] at h
  split at h
  · cases h
  · cases h
  · dsimp only [persistAppliedTransaction] at h
    split_ifs at h
    · split at h
      · cases h
      · next ckpt hckpt =>
          split at h
          · cases h
          · cases h
            exact ⟨rfl, rfl, ⟨_, rfl⟩, ⟨ckpt, rfl, (transactionCheckpoint_positions hckpt).1⟩,
              _, _, rfl⟩
    · cases h

/-- **What a successful call does**: it decodes the next transaction and, according to whether
the worker has applied it, takes it for a duplicate or applies it. -/
theorem applyNext_ok {transaction : Option CDCTransaction}
    (h : applyNextTransaction ctx identity s epoch transaction = (s', .ok r)) :
    (r = .noTransactions ∧ s' = s ∧ nextTransaction ctx s.buffer transaction = .ok none) ∨
      ∃ tx txHash, nextTransaction ctx s.buffer transaction = .ok (some (tx, txHash)) ∧
        ((tx.txId ∈ s.worker.appliedTransactionIds ∧
            applyDuplicate ctx identity s tx txHash epoch = (s', .ok r)) ∨
          (tx.txId ∉ s.worker.appliedTransactionIds ∧
            applyFresh ctx identity s tx txHash epoch = (s', .ok r))) := by
  rw [applyNextTransaction] at h
  split_ifs at h
  · split at h
    · cases h
    · next hnone =>
        cases h
        exact .inl ⟨rfl, rfl, hnone⟩
    · next tx txHash hnext =>
        split at h
        · cases h
        · right
          refine ⟨tx, txHash, hnext, ?_⟩
          split_ifs at h with hmem
          · exact .inl ⟨hmem, h⟩
          · exact .inr ⟨hmem, h⟩
  · cases h

/-! ## What any call does -/

/-- A call that sends nothing to the target, and leaves the store and the applied transactions
as they were. -/
structure Quiet (s s' : ApplyState) : Prop where
  store : s'.store = s.store
  target : s'.target = s.target
  applied : s'.worker.appliedTransactionIds = s.worker.appliedTransactionIds

theorem Quiet.refl (s : ApplyState) : Quiet s s := ⟨rfl, rfl, rfl⟩

/-- A call that executes a transaction: the target has taken its events, and the worker's set
with the transaction is the record of the session. -/
structure Executes (s s' : ApplyState) (tx : CDCTransaction) : Prop where
  target : s'.target = s.target ++ [tx.events]
  applied : s'.worker.appliedTransactionIds = setAdd s.worker.appliedTransactionIds tx.txId
  record : ∃ hashes, s'.store.appliedTxs =
    some ⟨s'.worker.appliedTransactionIds, hashes, tx.commitPosition.toDict⟩

variable (ctx identity) in
/-- The call reaches the target: the epoch is valid, the transaction passes the checks and is
not one the worker has applied, and the target takes it. -/
structure ReachesTarget (s : ApplyState) (epoch : ℤ) (tx : CDCTransaction) : Prop where
  fenced : validateFencingToken ctx.activeEpoch epoch = true
  checked : checkTransaction ctx identity tx = .ok ()
  fresh : tx.txId ∉ s.worker.appliedTransactionIds
  taken : executeTargetTransaction ctx identity tx = .ok ()

variable (ctx identity) in
/-- The call reaches the checkpoint: after the target has taken the transaction the epoch is
still valid, the checkpoint can be made, and the buffer acknowledges. -/
structure ReachesCheckpoint (s : ApplyState) (epoch : ℤ) (tx : CDCTransaction) : Prop extends
    ReachesTarget ctx identity s epoch tx where
  fencedLater : validateFencingToken ctx.activeEpochLater epoch = true
  checkpointed : ∃ ckpt, transactionCheckpoint ctx identity tx epoch = .ok ckpt
  acknowledged : ∃ buffer, acknowledge s.buffer tx = .ok buffer

theorem applyDuplicate_quiet {result : Except PyRaised ApplyResult}
    (h : applyDuplicate ctx identity s tx txHash epoch = (s', result)) : Quiet s s' := by
  rw [applyDuplicate] at h
  split_ifs at h
  · cases h
    exact .refl s
  · dsimp only at h
    split at h
    · cases h
      exact ⟨rfl, rfl, rfl⟩
    · split at h
      · cases h
        exact ⟨rfl, rfl, rfl⟩
      · cases h
        exact ⟨rfl, rfl, rfl⟩
  · cases h
    exact .refl s

/-- What a call writes after the target has taken a transaction: the checkpoint, unless it
raises. -/
structure Settles (s s' : ApplyState) (tx : CDCTransaction) (result : Except PyRaised ApplyResult)
    (reached : Prop) : Prop where
  written : reached → (∃ r, result = .ok r) ∧
    ∃ ckpt, s'.store.checkpoint = some ckpt ∧ ckpt.sourcePosition = tx.commitPosition
  kept : ¬ reached → (∃ e, result = .error e) ∧ s'.store.checkpoint = s.store.checkpoint

/-- **What a call with a given transaction does.**  Unless it reaches the target it is quiet, and
then it raises or the worker has applied the transaction; if it does, it executes the
transaction, and writes the checkpoint precisely when it reaches it. -/
theorem applyNext_cases {result : Except PyRaised ApplyResult}
    (h : applyNextTransaction ctx identity s epoch (some tx) = (s', result)) :
    (¬ ReachesTarget ctx identity s epoch tx ∧ Quiet s s' ∧
        ((∃ e, result = .error e) ∨ tx.txId ∈ s.worker.appliedTransactionIds)) ∨
      (ReachesTarget ctx identity s epoch tx ∧ Executes s s' tx ∧
        Settles s s' tx result (ReachesCheckpoint ctx identity s epoch tx)) := by
  rw [applyNextTransaction] at h
  split_ifs at h with hfenced
  · simp only [nextTransaction] at h
    split at h
    · next e hcheck =>
        cases h
        refine .inl ⟨fun hr => ?_, .refl s, .inl ⟨_, rfl⟩⟩
        rw [hr.checked] at hcheck
        cases hcheck
    · next hcheck =>
        split_ifs at h with hmem
        · exact .inl ⟨fun hr => hr.fresh hmem, applyDuplicate_quiet h, .inr hmem⟩
        · rw [applyFresh] at h
          split at h
          · next failure hraise =>
              cases h
              refine .inl ⟨fun hr => ?_, .refl s, .inl ⟨_, rfl⟩⟩
              rw [hr.taken] at hraise
              cases hraise
          · next e _ hraise =>
              cases h
              refine .inl ⟨fun hr => ?_, .refl s, .inl ⟨_, rfl⟩⟩
              rw [hr.taken] at hraise
              cases hraise
          · next htaken =>
              have hreach : ReachesTarget ctx identity s epoch tx :=
                ⟨hfenced, hcheck, hmem, htaken⟩
              right
              dsimp only [persistAppliedTransaction] at h
              split_ifs at h with hlater
              · split at h
                · next e hckpt =>
                    cases h
                    refine ⟨hreach, ⟨rfl, rfl, _, rfl⟩, fun hr => ?_, fun _ => ⟨⟨_, rfl⟩, rfl⟩⟩
                    obtain ⟨ckpt, hok⟩ := hr.checkpointed
                    rw [hok] at hckpt
                    cases hckpt
                · next ckpt hckpt =>
                    split at h
                    · next e hack =>
                        cases h
                        refine ⟨hreach, ⟨rfl, rfl, _, rfl⟩, fun hr => ?_, fun _ => ⟨⟨_, rfl⟩, rfl⟩⟩
                        obtain ⟨buffer, hok⟩ := hr.acknowledged
                        rw [hok] at hack
                        cases hack
                    · next buffer hack =>
                        cases h
                        refine ⟨hreach, ⟨rfl, rfl, _, rfl⟩, fun _ => ⟨⟨_, rfl⟩, ckpt, rfl,
                          (transactionCheckpoint_positions hckpt).1⟩, fun hr => ?_⟩
                        exact absurd ⟨hreach, hlater, ⟨ckpt, hckpt⟩, ⟨buffer, hack⟩⟩ hr
              · cases h
                exact ⟨hreach, ⟨rfl, rfl, _, rfl⟩, fun hr => absurd hr.fencedLater hlater,
                  fun _ => ⟨⟨_, rfl⟩, rfl⟩⟩
  · cases h
    exact .inl ⟨fun hr => hfenced hr.fenced, .refl s, .inl ⟨_, rfl⟩⟩

/-! ## When a call returns -/

variable (ctx identity) in
/-- The call returns: the epoch is valid, the transaction passes the checks, the worker has applied
it or the target takes it, and after that the epoch is still valid, the checkpoint can be made, and
the buffer acknowledges. -/
structure Returns (s : ApplyState) (epoch : ℤ) (tx : CDCTransaction) : Prop where
  fenced : validateFencingToken ctx.activeEpoch epoch = true
  checked : checkTransaction ctx identity tx = .ok ()
  taken : tx.txId ∈ s.worker.appliedTransactionIds ∨
    executeTargetTransaction ctx identity tx = .ok ()
  fencedLater : validateFencingToken ctx.activeEpochLater epoch = true
  checkpointed : ∃ ckpt, transactionCheckpoint ctx identity tx epoch = .ok ckpt
  acknowledged : ∃ buffer, acknowledge s.buffer tx = .ok buffer

/-- For a transaction the worker has applied, given without a hash, the last three decide. -/
theorem applyDuplicate_isOk_iff : (∃ r, (applyDuplicate ctx identity s tx "" epoch).2 = .ok r) ↔
      validateFencingToken ctx.activeEpochLater epoch = true ∧
        (∃ ckpt, transactionCheckpoint ctx identity tx epoch = .ok ckpt) ∧
        ∃ buffer, acknowledge s.buffer tx = .ok buffer := by
  rw [applyDuplicate, if_neg (fun h => h.2.1 rfl)]
  by_cases hlater : validateFencingToken ctx.activeEpochLater epoch = true
  · rw [if_neg (not_not.mpr hlater)]
    dsimp only
    cases transactionCheckpoint ctx identity tx epoch with
    | error e => simp
    | ok ckpt =>
      cases acknowledge s.buffer tx with
      | error e => simp
      | ok buffer => simp [hlater]
  · rw [if_pos hlater]
    simp [hlater]

/-- For a transaction the worker has not applied, the target has to take it as well. -/
theorem applyFresh_isOk_iff : (∃ r, (applyFresh ctx identity s tx txHash epoch).2 = .ok r) ↔
      executeTargetTransaction ctx identity tx = .ok () ∧
        validateFencingToken ctx.activeEpochLater epoch = true ∧
        (∃ ckpt, transactionCheckpoint ctx identity tx epoch = .ok ckpt) ∧
        ∃ buffer, acknowledge s.buffer tx = .ok buffer := by
  rw [applyFresh]
  split
  · next failure hraise => simp [hraise]
  · next e _ hraise => simp [hraise]
  · next htaken =>
      dsimp only [persistAppliedTransaction]
      by_cases hlater : validateFencingToken ctx.activeEpochLater epoch = true
      · rw [if_neg (not_not.mpr hlater)]
        cases transactionCheckpoint ctx identity tx epoch with
        | error e => simp
        | ok ckpt =>
          cases acknowledge s.buffer tx with
          | error e => simp
          | ok buffer => simp [hlater, htaken]
      · rw [if_pos hlater]
        simp [hlater]

/-- **When a call with a given transaction returns.** -/
theorem applyNext_isOk_iff :
    (∃ r, (applyNextTransaction ctx identity s epoch (some tx)).2 = .ok r) ↔
      Returns ctx identity s epoch tx := by
  rw [applyNextTransaction]
  by_cases hfenced : validateFencingToken ctx.activeEpoch epoch = true
  · rw [if_neg (not_not.mpr hfenced)]
    simp only [nextTransaction]
    cases hcheck : checkTransaction ctx identity tx with
    | error e =>
      constructor
      · rintro ⟨r, hr⟩
        cases hr
      · intro h
        have hok := h.checked
        rw [hcheck] at hok
        cases hok
    | ok _ =>
      by_cases hmem : tx.txId ∈ s.worker.appliedTransactionIds
      · simp only [if_pos hmem]
        rw [applyDuplicate_isOk_iff]
        constructor
        · rintro ⟨hlater, hckpt, hack⟩
          exact ⟨hfenced, hcheck, .inl hmem, hlater, hckpt, hack⟩
        · intro h
          exact ⟨h.fencedLater, h.checkpointed, h.acknowledged⟩
      · simp only [if_neg hmem]
        rw [applyFresh_isOk_iff]
        constructor
        · rintro ⟨htaken, hlater, hckpt, hack⟩
          exact ⟨hfenced, hcheck, .inr htaken, hlater, hckpt, hack⟩
        · intro h
          exact ⟨h.taken.resolve_left hmem, h.fencedLater, h.checkpointed, h.acknowledged⟩
  · rw [if_pos hfenced]
    constructor
    · rintro ⟨r, hr⟩
      cases hr
    · intro h
      exact absurd h.fenced hfenced

end CDC

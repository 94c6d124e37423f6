/-
# The parallel apply engine

`CDCParallelApplyEngine` of `cdc/sharding/parallel_engine.py`.  A dispatched transaction is
registered with the frontier tracker and queued on its lowest partition; `process_partition_batch`
walks the queue of one partition, applies each transaction with the worker of the partition,
records its completion with the tracker and releases its barrier.

The batches of different partitions interleave: a batch is opened, takes one transaction after
the other, and is closed when it meets a lock, an exception or the end of the queue.

* `iterate_cases` : what one iteration of a batch does;
* `QueueInvariant.step` : no dispatched transaction is lost before it is executed, and every
  queue is in dispatch order.
-/
import Akaal.CDCAppliedRecord
import Akaal.CDCSharding

open TransitionRun PythonText

namespace CDC

/-! ## The state -/

/-- A routed transaction in a queue.  `queue.remove` compares the objects themselves, which are
told apart by the number of the dispatch that made them. -/
structure QueuedTransaction where
  ordinal : ℕ
  routed : CDCRoutedTransaction

/-- A call of `process_partition_batch` in progress: its epoch, and how many transactions of the
queue it has worked off, which is `len(to_remove)`. -/
structure Batch where
  fencingEpoch : ℤ
  taken : ℕ

/-- `CDCParallelApplyEngine` over the records of its session in the state store, with the batches
in progress.  The last three fields are history: the dispatched transactions, the identifiers of
those that were executed on the target, and the dispatches that were executed by this engine. -/
structure CDCParallelApplyEngine where
  identity : CDCEventIdentity
  router : CDCPartitionRouter
  store : SessionStore
  walBuffer : Option DurableCDCBuffer
  ownership : ℕ → Option CDCPartitionState
  barriers : BarrierStore
  frontierTracker : CDCCheckpointFrontierTracker
  partitionQueues : ℕ → List QueuedTransaction
  workers : ℕ → Option CDCApplyWorker
  pendingTxHashes : PyDict String
  isPaused : Bool
  target : List (List CDCEvent)
  batches : ℕ → Option Batch
  dispatched : List CDCRoutedTransaction
  executed : List String
  executedDispatches : List ℕ

namespace CDCParallelApplyEngine

variable (rt : DigestRuntime)

/-- The identifier of the worker of a partition. -/
def workerId (s : CDCParallelApplyEngine) (pid : ℕ) : String :=
  "worker_" ++ s.identity.cdcSessionId ++ "_p" ++ intText pid

/-! ## Initialization -/

/-- The loop of `initialize_partition_workers` over the partitions. -/
def registerWorkers (activeEpoch fencingEpoch : ℤ) :
    CDCParallelApplyEngine → List ℕ → CDCParallelApplyEngine × Except PyRaised Unit
  | s, [] => (s, .ok ())
  | s, pid :: pids =>
    match registerPartitionWorker s.ownership s.identity.migrationId s.identity.cdcSessionId pid
        s.router.routingGeneration (s.workerId pid) activeEpoch fencingEpoch with
    | .error e => (s, .error e)
    | .ok ownership =>
      match loadPersistentAppliedState s.store with
      | .error e => ({ s with ownership := ownership }, .error e)
      | .ok worker => registerWorkers activeEpoch fencingEpoch { s with
          ownership := ownership
          workers := Function.update s.workers pid (some worker) } pids

/-- `initialize_partition_workers`. -/
def initializePartitionWorkers (s : CDCParallelApplyEngine) (activeEpoch fencingEpoch : ℤ) :
    CDCParallelApplyEngine × Except PyRaised Unit :=
  registerWorkers activeEpoch fencingEpoch s (List.range s.router.partitionCount)

/-! ## Dispatch -/

/-- The digest of the events of a transaction. -/
def payloadHash (tx : CDCTransaction) : String :=
  rt.sha256Hex (rt.str (.list (tx.events.map fun e => .dict e.toDict)))

/-- Append a transaction to the queue of its primary partition. -/
def enqueue (s : CDCParallelApplyEngine) (routed : CDCRoutedTransaction) : CDCParallelApplyEngine :=
  let pid := routed.primaryPartitionId
  { s with
    partitionQueues := if pid < s.router.partitionCount then
        Function.update s.partitionQueues pid
          (s.partitionQueues pid ++ [⟨s.dispatched.length, routed⟩])
      else s.partitionQueues
    dispatched := s.dispatched ++ [routed] }

/-- The part of `dispatch_transaction` after routing: the hash, the tracker, the barrier and the
queue. -/
def dispatchRouted (s : CDCParallelApplyEngine) (routed : CDCRoutedTransaction)
    (activeEpoch fencingEpoch : ℤ) :
    CDCParallelApplyEngine × Except PyRaised CDCRoutedTransaction :=
  let hashes := if (s.pendingTxHashes.get? routed.txId).isSome then s.pendingTxHashes
    else s.pendingTxHashes.set routed.txId (payloadHash rt routed.transaction)
  match s.frontierTracker.registerPendingTransaction routed.commitPosition with
  | (tracker, .error e) =>
    ({ s with pendingTxHashes := hashes, frontierTracker := tracker }, .error e)
  | (tracker, .ok ()) =>
    match if routed.isMultiPartition then
        s.barriers.prepareCrossPartitionBarrier s.identity routed activeEpoch fencingEpoch
      else (s.barriers, .ok ()) with
    | (barriers, .error e) =>
      ({ s with
        pendingTxHashes := hashes
        frontierTracker := tracker
        barriers := barriers }, .error e)
    | (barriers, .ok ()) =>
      ({ s with
        pendingTxHashes := hashes
        frontierTracker := tracker
        barriers := barriers }.enqueue routed, .ok routed)

/-- `dispatch_transaction`. -/
def dispatchTransaction (s : CDCParallelApplyEngine) (tx : CDCTransaction)
    (activeEpoch fencingEpoch : ℤ) :
    CDCParallelApplyEngine × Except PyRaised CDCRoutedTransaction :=
  if s.isPaused then
    (s, .error (applyFailure s.identity .parallelApplyFailure .pausable
      "Parallel apply engine is paused"))
  else if tx.identity.migrationId ≠ s.identity.migrationId ∨
      tx.identity.cdcSessionId ≠ s.identity.cdcSessionId then
    (s, .error (applyFailure s.identity .identityMismatch .blocking
      ("[IDENTITY MISMATCH] Transaction identity '" ++ tx.identity.cdcSessionId ++
        "' does not match engine session '" ++ s.identity.cdcSessionId ++ "'.")))
  else if (s.pendingTxHashes.get? tx.txId).any fun existing => existing ≠ payloadHash rt tx then
    (s, .error (applyFailure s.identity .transactionCorruption .dataIntegrityRisk
      ("[CONCURRENT DISPATCH CORRUPTION] Transaction '" ++ tx.txId ++
        "' dispatched with mismatched payload hash.")))
  else
    match routeTransaction rt s.router tx with
    | .error e => (s, .error e)
    | .ok routed => s.dispatchRouted rt routed activeEpoch fencingEpoch

/-! ## Batches -/

/-- The failures that keep a batch from being opened. -/
def staleWorkerFailure (s : CDCParallelApplyEngine) (message : String) : PyRaised :=
  applyFailure s.identity .stalePartitionWorker .blocking message

/-- `process_partition_batch`, up to its loop. -/
def openBatch (s : CDCParallelApplyEngine) (pid : ℕ) (activeEpoch fencingEpoch : ℤ) :
    CDCParallelApplyEngine × Except PyRaised Unit :=
  if s.isPaused then (s, .ok ())
  else if (s.workers pid).isNone then
    (s, .error (s.staleWorkerFailure ("No active worker found for partition " ++ intText pid)))
  else if ¬ validateWorkerOwnership s.ownership pid (s.workerId pid) activeEpoch fencingEpoch then
    (s, .error (s.staleWorkerFailure ("Worker ownership validation failed for worker " ++
      s.workerId pid ++ " partition " ++ intText pid)))
  else ({ s with batches := Function.update s.batches pid (some ⟨fencingEpoch, 0⟩) }, .ok ())

/-- The end of a batch: what it has worked off is removed from the queue. -/
def closeBatch (s : CDCParallelApplyEngine) (pid taken : ℕ) : CDCParallelApplyEngine :=
  { s with
    partitionQueues := Function.update s.partitionQueues pid ((s.partitionQueues pid).drop taken)
    batches := Function.update s.batches pid none }

/-- The end of a batch by an exception: the queue stays as it is. -/
def abortBatch (s : CDCParallelApplyEngine) (pid : ℕ) : CDCParallelApplyEngine :=
  { s with batches := Function.update s.batches pid none }

/-- A batch goes on to the next transaction of the queue. -/
def advanceBatch (s : CDCParallelApplyEngine) (pid : ℕ) (batch : Batch) : CDCParallelApplyEngine :=
  { s with batches :=
      Function.update s.batches pid (some { batch with taken := batch.taken + 1 }) }

/-- What the worker of a partition sees. -/
def view (s : CDCParallelApplyEngine) (worker : CDCApplyWorker) : ApplyState :=
  ⟨s.store, s.walBuffer, worker, s.target⟩

/-- The engine after a call of a worker.  The target has grown when the call has executed the
transaction. -/
def afterApply (s : CDCParallelApplyEngine) (pid : ℕ) (q : QueuedTransaction) (t : ApplyState) :
    CDCParallelApplyEngine :=
  let executes := s.target.length < t.target.length
  { s with
    store := t.store
    walBuffer := t.buffer
    workers := Function.update s.workers pid (some t.worker)
    target := t.target
    executed := if executes then s.executed ++ [q.routed.txId] else s.executed
    executedDispatches :=
      if executes then s.executedDispatches ++ [q.ordinal] else s.executedDispatches }

/-- The completion of a transaction: the tracker records it and its barrier is released. -/
def completeQueued (s : CDCParallelApplyEngine) (q : QueuedTransaction)
    (releaseEpoch fencingEpoch : ℤ) : CDCParallelApplyEngine × Except PyRaised Unit :=
  match s.frontierTracker.recordCompletedTransaction q.routed.commitPosition with
  | (tracker, .error e) => ({ s with frontierTracker := tracker }, .error e)
  | (tracker, .ok ()) =>
    if q.routed.isMultiPartition then
      let (barriers, result) := s.barriers.releaseCrossPartitionBarrier s.identity.cdcSessionId
        q.routed.txId s.identity.migrationId releaseEpoch fencingEpoch .committed
      ({ s with frontierTracker := tracker, barriers := barriers }, result)
    else ({ s with frontierTracker := tracker }, .ok ())

/-- One iteration of the loop of `process_partition_batch`, with the worker of the partition.  A
schema barrier only ends the inner loop over the events. -/
def iterate (s : CDCParallelApplyEngine) (pid : ℕ) (batch : Batch) (worker : CDCApplyWorker)
    (ctx : ApplyContext) (releaseEpoch : ℤ) : CDCParallelApplyEngine × Except PyRaised Unit :=
  match (s.partitionQueues pid)[batch.taken]? with
  | none => (s.closeBatch pid batch.taken, .ok ())
  | some q =>
    if s.barriers.isPartitionLocked pid q.routed.txId then
      (s.closeBatch pid batch.taken, .ok ())
    else
      match applyNextTransaction ctx s.identity (s.view worker) batch.fencingEpoch
          (some q.routed.transaction) with
      | (t, .error e) => ((s.afterApply pid q t).abortBatch pid, .error e)
      | (t, .ok _) =>
        match (s.afterApply pid q t).completeQueued q releaseEpoch batch.fencingEpoch with
        | (completed, .error e) => (completed.abortBatch pid, .error e)
        | (completed, .ok ()) => (completed.advanceBatch pid batch, .ok ())

end CDCParallelApplyEngine

/-! ## Steps -/

/-- The calls on an engine, with what they find outside it: the active epoch, and for an
iteration the context of the worker's call and the active epoch at the release of a barrier. -/
inductive EngineAction where
  | initializeWorkers (activeEpoch fencingEpoch : ℤ)
  | dispatch (transaction : CDCTransaction) (activeEpoch fencingEpoch : ℤ)
  | openBatch (partition : ℕ) (activeEpoch fencingEpoch : ℤ)
  | iterate (partition : ℕ) (ctx : ApplyContext) (releaseEpoch : ℤ)
  | pause
  | resume

open CDCParallelApplyEngine in
/-- One action.  Refused are only a second batch on a partition, an iteration without a batch,
and new workers while a batch is in progress; a call that raises leaves the state it has
reached. -/
def engineStep (rt : DigestRuntime) (s : CDCParallelApplyEngine) :
    EngineAction → Option CDCParallelApplyEngine
  | .initializeWorkers activeEpoch fencingEpoch =>
    if (List.range s.router.partitionCount).all fun pid => (s.batches pid).isNone then
      some (s.initializePartitionWorkers activeEpoch fencingEpoch).1
    else none
  | .dispatch tx activeEpoch fencingEpoch =>
    some (s.dispatchTransaction rt tx activeEpoch fencingEpoch).1
  | .openBatch pid activeEpoch fencingEpoch =>
    if (s.batches pid).isNone then some (s.openBatch pid activeEpoch fencingEpoch).1 else none
  | .iterate pid ctx releaseEpoch =>
    match s.batches pid, s.workers pid with
    | some batch, some worker => some (s.iterate pid batch worker ctx releaseEpoch).1
    | _, _ => none
  | .pause => some { s with isPaused := true }
  | .resume => some { s with isPaused := false }

/-! ## What an iteration does -/

theorem Executes.recordIds {t u : ApplyState} {tx : CDCTransaction} (h : Executes t u tx) :
    u.store.recordIds = setAdd t.worker.appliedTransactionIds tx.txId := by
  obtain ⟨hashes, hrecord⟩ := h.record
  rw [SessionStore.recordIds, hrecord, Option.map_some, Option.getD_some, h.applied]

namespace CDCParallelApplyEngine

variable {rt : DigestRuntime} {s s' : CDCParallelApplyEngine} {pid : ℕ} {batch : Batch}
  {worker : CDCApplyWorker} {ctx : ApplyContext} {releaseEpoch : ℤ} {q : QueuedTransaction}

/-- A completion changes the tracker and the barriers only. -/
theorem completeQueued_eq {epoch : ℤ} {result : Except PyRaised Unit}
    (h : s.completeQueued q releaseEpoch epoch = (s', result)) :
    ∃ barriers, s' = { s with
      frontierTracker :=
        (s.frontierTracker.recordCompletedTransaction q.routed.commitPosition).1
      barriers := barriers } := by
  rw [completeQueued] at h
  split at h
  · next tracker e hrecord =>
      cases h
      exact ⟨s.barriers, by rw [hrecord]⟩
  · next tracker hrecord =>
      rw [hrecord]
      split_ifs at h
      · cases h
        exact ⟨_, rfl⟩
      · cases h
        exact ⟨s.barriers, rfl⟩

/-- The transaction an iteration works on, when the partition is not locked against it. -/
def current (s : CDCParallelApplyEngine) (pid : ℕ) (batch : Batch) : Option QueuedTransaction :=
  (s.partitionQueues pid)[batch.taken]?.filter fun q =>
    !s.barriers.isPartitionLocked pid q.routed.txId

theorem mem_of_current (h : s.current pid batch = some q) : q ∈ s.partitionQueues pid := by
  obtain ⟨hq, -⟩ := Option.filter_eq_some_iff.mp h
  exact List.mem_of_getElem? hq

/-- What a worker's call in an iteration leads to. -/
structure Applies (s : CDCParallelApplyEngine) (pid : ℕ) (batch : Batch) (worker : CDCApplyWorker)
    (ctx : ApplyContext) (q : QueuedTransaction) (t : ApplyState)
    (result : Except PyRaised ApplyResult) : Prop where
  current : s.current pid batch = some q
  call : applyNextTransaction ctx s.identity (s.view worker) batch.fencingEpoch
    (some q.routed.transaction) = (t, result)

/-- **What an iteration does**: it closes the batch; or the worker's call raises and ends it; or
the transaction is completed, which ends the batch when it raises. -/
theorem iterate_cases (s : CDCParallelApplyEngine) (pid : ℕ) (batch : Batch)
    (worker : CDCApplyWorker) (ctx : ApplyContext) (releaseEpoch : ℤ) :
    (s.current pid batch = none ∧
        (s.iterate pid batch worker ctx releaseEpoch).1 = s.closeBatch pid batch.taken) ∨
      (∃ q t e, s.Applies pid batch worker ctx q t (.error e) ∧
        (s.iterate pid batch worker ctx releaseEpoch).1 = (s.afterApply pid q t).abortBatch pid) ∨
      ∃ q t r completed result, s.Applies pid batch worker ctx q t (.ok r) ∧
        (s.afterApply pid q t).completeQueued q releaseEpoch batch.fencingEpoch =
          (completed, result) ∧
        (((∃ e, result = .error e) ∧
            (s.iterate pid batch worker ctx releaseEpoch).1 = completed.abortBatch pid) ∨
          (result = .ok () ∧
            (s.iterate pid batch worker ctx releaseEpoch).1 = completed.advanceBatch pid batch)) := by
  rw [iterate]
  split
  · next hnone => exact .inl ⟨by rw [current, hnone]; rfl, rfl⟩
  · next q hq =>
      split_ifs with hlocked
      · exact .inl ⟨by rw [current, hq]; simp [Option.filter, hlocked], rfl⟩
      · have hcurrent : s.current pid batch = some q := by
          rw [current, hq]
          simp [Option.filter, hlocked]
        right
        split
        · next t e hcall => exact .inl ⟨q, t, e, ⟨hcurrent, hcall⟩, rfl⟩
        · next t r hcall =>
            right
            split
            · next completed e hcomplete =>
                exact ⟨q, t, r, completed, .error e, ⟨hcurrent, hcall⟩, hcomplete,
                  .inl ⟨⟨e, rfl⟩, rfl⟩⟩
            · next completed hcomplete =>
                exact ⟨q, t, r, completed, .ok (), ⟨hcurrent, hcall⟩, hcomplete, .inr ⟨rfl, rfl⟩⟩

/-! ## Dispatched transactions wait in the queues -/

/-- The queues hold dispatched transactions in dispatch order; a transaction that has been
dispatched and not executed waits in the queue of its primary partition; what a batch has worked
off has been executed; and the workers and the record know executed transactions only. -/
structure QueueInvariant (s : CDCParallelApplyEngine) : Prop where
  queued : ∀ pid, ∀ q ∈ s.partitionQueues pid,
    s.dispatched[q.ordinal]? = some q.routed ∧ q.routed.primaryPartitionId = pid
  inOrder : ∀ pid, (s.partitionQueues pid).Pairwise fun q q' => q.ordinal < q'.ordinal
  waiting : ∀ n r, s.dispatched[n]? = some r → r.txId ∉ s.executed →
    ⟨n, r⟩ ∈ s.partitionQueues r.primaryPartitionId
  taken : ∀ pid batch, s.batches pid = some batch → batch.taken ≤ (s.partitionQueues pid).length ∧
      ∀ q ∈ (s.partitionQueues pid).take batch.taken, q.routed.txId ∈ s.executed
  workersKnown : ∀ pid worker, s.workers pid = some worker →
    ∀ id ∈ worker.appliedTransactionIds, id ∈ s.executed
  recordKnown : ∀ id ∈ s.store.recordIds, id ∈ s.executed

theorem forall_update {α : Type} {P : ℕ → α → Prop} {f : ℕ → Option α} {x : Option α}
    (hf : ∀ i a, f i = some a → P i a) (hx : ∀ a, x = some a → P pid a) :
    ∀ i a, Function.update f pid x i = some a → P i a := by
  intro i a h
  by_cases hi : i = pid
  · subst hi
    rw [Function.update_self] at h
    exact hx a h
  · rw [Function.update_of_ne hi] at h
    exact hf i a h

variable {fencingEpoch : ℤ} {routed : CDCRoutedTransaction} {t : ApplyState} {tx : CDCTransaction}

/-- A call that does not reach the target executes nothing. -/
theorem afterApply_quiet (h : Quiet (s.view worker) t) : s.afterApply pid q t = { s with
      walBuffer := t.buffer
      workers := Function.update s.workers pid (some t.worker) } := by
  have hstore : t.store = s.store := h.store
  have htarget : t.target = s.target := h.target
  rw [afterApply, hstore, htarget]
  simp

/-- A call that reaches the target executes its transaction. -/
theorem afterApply_executes (h : Executes (s.view worker) t q.routed.transaction) :
    s.afterApply pid q t = { s with
      store := t.store
      walBuffer := t.buffer
      workers := Function.update s.workers pid (some t.worker)
      target := t.target
      executed := s.executed ++ [q.routed.txId]
      executedDispatches := s.executedDispatches ++ [q.ordinal] } := by
  have htarget : t.target = s.target ++ [q.routed.transaction.events] := h.target
  rw [afterApply]
  simp [htarget]

/-- A worker's call keeps the invariant, and a call that returns leaves its transaction among
the executed ones. -/
theorem QueueInvariant.afterApply (hs : QueueInvariant s) (hworker : s.workers pid = some worker)
    {result : Except PyRaised ApplyResult} (h : s.Applies pid batch worker ctx q t result) :
    QueueInvariant (s.afterApply pid q t) ∧
      (∀ r, result = .ok r → q.routed.txId ∈ (s.afterApply pid q t).executed) := by
  rcases applyNext_cases h.call with ⟨-, hquiet, hresult⟩ | ⟨-, hexecutes, -⟩
  · rw [afterApply_quiet hquiet]
    have happlied : t.worker.appliedTransactionIds = worker.appliedTransactionIds := hquiet.applied
    refine ⟨⟨hs.queued, hs.inOrder, hs.waiting, hs.taken, ?_, hs.recordKnown⟩, ?_⟩
    · apply forall_update hs.workersKnown
      rintro _ ⟨⟩ id hid
      rw [happlied] at hid
      exact hs.workersKnown pid worker hworker id hid
    · rintro r rfl
      rcases hresult with ⟨e, he⟩ | hmem
      · cases he
      · exact hs.workersKnown pid worker hworker _ hmem
  · rw [afterApply_executes hexecutes]
    have happlied : t.worker.appliedTransactionIds =
      setAdd worker.appliedTransactionIds q.routed.txId := hexecutes.applied
    have hknown : ∀ id ∈ setAdd worker.appliedTransactionIds q.routed.txId,
        id ∈ s.executed ++ [q.routed.txId] := by
      intro id hid
      rw [List.mem_append, List.mem_singleton]
      rcases mem_setAdd.mp hid with rfl | hid
      · exact .inr rfl
      · exact .inl (hs.workersKnown pid worker hworker id hid)
    refine ⟨⟨hs.queued, hs.inOrder, ?_, ?_, ?_, ?_⟩, ?_⟩
    · intro n r hr hfresh
      exact hs.waiting n r hr fun hmem => hfresh (List.mem_append_left _ hmem)
    · intro i b hb
      obtain ⟨hlen, htaken⟩ := hs.taken i b hb
      exact ⟨hlen, fun q' hq' => List.mem_append_left _ (htaken q' hq')⟩
    · apply forall_update
      · intro i w hw id hid
        exact List.mem_append_left _ (hs.workersKnown i w hw id hid)
      · rintro _ ⟨⟩ id hid
        rw [happlied] at hid
        exact hknown id hid
    · intro id hid
      have hrecord : t.store.recordIds = _ := hexecutes.recordIds
      rw [hrecord] at hid
      exact hknown id hid
    · intro r _
      exact List.mem_append_right _ (List.mem_singleton.mpr rfl)

theorem QueueInvariant.completeQueued (hs : QueueInvariant s) {epoch : ℤ}
    {result : Except PyRaised Unit} (h : s.completeQueued q releaseEpoch epoch = (s', result)) :
    QueueInvariant s' ∧ s'.executed = s.executed ∧ s'.partitionQueues = s.partitionQueues := by
  obtain ⟨barriers, rfl⟩ := completeQueued_eq h
  exact ⟨⟨hs.queued, hs.inOrder, hs.waiting, hs.taken, hs.workersKnown, hs.recordKnown⟩, rfl, rfl⟩

theorem QueueInvariant.abortBatch (hs : QueueInvariant s) (pid : ℕ) :
    QueueInvariant (s.abortBatch pid) := by
  refine ⟨hs.queued, hs.inOrder, hs.waiting, ?_, hs.workersKnown, hs.recordKnown⟩
  apply forall_update hs.taken
  intro b hb
  cases hb

theorem QueueInvariant.advanceBatch (hs : QueueInvariant s)
    (hbatch : s.batches pid = some batch) (hq : (s.partitionQueues pid)[batch.taken]? = some q)
    (hexecuted : q.routed.txId ∈ s.executed) : QueueInvariant (s.advanceBatch pid batch) := by
  refine ⟨hs.queued, hs.inOrder, hs.waiting, ?_, hs.workersKnown, hs.recordKnown⟩
  obtain ⟨-, htaken⟩ := hs.taken pid batch hbatch
  apply forall_update hs.taken
  rintro _ ⟨⟩
  refine ⟨(List.getElem?_eq_some_iff.mp hq).1, fun q' hq' => ?_⟩
  have hsplit : q' ∈ (s.partitionQueues pid).take (batch.taken + 1) := hq'
  rw [List.take_add_one, hq, List.mem_append] at hsplit
  rcases hsplit with hq' | hq'
  · exact htaken q' hq'
  · rw [Option.toList_some, List.mem_singleton] at hq'
    exact hq' ▸ hexecuted

theorem QueueInvariant.closeBatch (hs : QueueInvariant s) (hbatch : s.batches pid = some batch) :
    QueueInvariant (s.closeBatch pid batch.taken) := by
  have hqueue : ∀ i, ((s.closeBatch pid batch.taken).partitionQueues i).Sublist
      (s.partitionQueues i) := by
    intro i
    show (Function.update s.partitionQueues pid _ i).Sublist _
    by_cases hi : i = pid
    · subst hi
      rw [Function.update_self]
      exact List.drop_sublist _ _
    · rw [Function.update_of_ne hi]
  refine ⟨?_, ?_, ?_, ?_, hs.workersKnown, hs.recordKnown⟩
  · intro i q hq
    exact hs.queued i q ((hqueue i).subset hq)
  · intro i
    exact (hs.inOrder i).sublist (hqueue i)
  · intro n r hr hfresh
    have hmem := hs.waiting n r hr hfresh
    show _ ∈ Function.update s.partitionQueues pid _ r.primaryPartitionId
    by_cases hi : r.primaryPartitionId = pid
    · rw [hi, Function.update_self]
      rw [hi, ← List.take_append_drop batch.taken (s.partitionQueues pid), List.mem_append] at hmem
      rcases hmem with hmem | hmem
      · exact absurd ((hs.taken pid batch hbatch).2 _ hmem) hfresh
      · exact hmem
    · rw [Function.update_of_ne hi]
      exact hmem
  · intro i b hb
    by_cases hi : i = pid
    · subst hi
      have hnone : Function.update s.batches i none i = some b := hb
      rw [Function.update_self] at hnone
      cases hnone
    · have hold : Function.update s.batches pid none i = some b := hb
      rw [Function.update_of_ne hi] at hold
      show _ ≤ (Function.update s.partitionQueues pid _ i).length ∧
        ∀ q ∈ (Function.update s.partitionQueues pid _ i).take b.taken, _
      rw [Function.update_of_ne hi]
      exact hs.taken i b hold

theorem QueueInvariant.enqueue (hs : QueueInvariant s)
    (hprimary : routed.primaryPartitionId < s.router.partitionCount) :
    QueueInvariant (s.enqueue routed) := by
  have hqueue : (s.enqueue routed).partitionQueues =
      Function.update s.partitionQueues routed.primaryPartitionId
        (s.partitionQueues routed.primaryPartitionId ++ [⟨s.dispatched.length, routed⟩]) :=
    if_pos hprimary
  -- The new queue of a partition is the old one, or the old one and the new transaction.
  have hcases : ∀ i, ∃ tail, (s.enqueue routed).partitionQueues i = s.partitionQueues i ++ tail ∧
      ∀ q ∈ tail, q = ⟨s.dispatched.length, routed⟩ ∧ i = routed.primaryPartitionId := by
    intro i
    rw [hqueue]
    by_cases hi : i = routed.primaryPartitionId
    · subst hi
      exact ⟨_, Function.update_self .., fun q hq => ⟨List.mem_singleton.mp hq, rfl⟩⟩
    · exact ⟨[], by rw [Function.update_of_ne hi, List.append_nil],
        fun q hq => absurd hq List.not_mem_nil⟩
  have hlt : ∀ i, ∀ q ∈ s.partitionQueues i, q.ordinal < s.dispatched.length := by
    intro i q hq
    exact (List.getElem?_eq_some_iff.mp (hs.queued i q hq).1).1
  refine ⟨?_, ?_, ?_, ?_, hs.workersKnown, hs.recordKnown⟩
  · intro i q hq
    obtain ⟨tail, htail, hnew⟩ := hcases i
    rw [htail, List.mem_append] at hq
    show (s.dispatched ++ [routed])[q.ordinal]? = _ ∧ _
    rcases hq with hq | hq
    · rw [List.getElem?_append_left (hlt i q hq)]
      exact hs.queued i q hq
    · obtain ⟨rfl, rfl⟩ := hnew q hq
      exact ⟨by simp, rfl⟩
  · intro i
    obtain ⟨tail, htail, hnew⟩ := hcases i
    rw [hqueue]
    by_cases hi : i = routed.primaryPartitionId
    · subst hi
      rw [Function.update_self, List.pairwise_append]
      refine ⟨hs.inOrder _, List.pairwise_singleton _ _, ?_⟩
      intro q hq q' hq'
      rw [List.mem_singleton] at hq'
      subst hq'
      exact hlt _ q hq
    · rw [Function.update_of_ne hi]
      exact hs.inOrder i
  · intro n r hr hfresh
    have hsplit : (s.dispatched ++ [routed])[n]? = some r := hr
    obtain ⟨tail, htail, -⟩ := hcases r.primaryPartitionId
    by_cases hn : n < s.dispatched.length
    · rw [List.getElem?_append_left hn] at hsplit
      rw [htail]
      exact List.mem_append_left _ (hs.waiting n r hsplit hfresh)
    · obtain ⟨hlen, hget⟩ := List.getElem?_eq_some_iff.mp hsplit
      rw [List.length_append, List.length_singleton] at hlen
      obtain rfl : n = s.dispatched.length := by omega
      rw [List.getElem_append_right (le_refl _)] at hget
      simp only [Nat.sub_self, List.getElem_cons_zero] at hget
      subst hget
      rw [hqueue, Function.update_self]
      exact List.mem_append_right _ (List.mem_singleton.mpr rfl)
  · intro i b hb
    obtain ⟨tail, htail, -⟩ := hcases i
    obtain ⟨hlen, htaken⟩ := hs.taken i b hb
    rw [htail, List.length_append, List.take_append_of_le_length hlen]
    exact ⟨by omega, htaken⟩

/-- Registering workers changes the workers and the ownership only. -/
theorem registerWorkers_eq (activeEpoch fencingEpoch : ℤ) (s : CDCParallelApplyEngine)
    (pids : List ℕ) :
    ∃ ownership workers, (registerWorkers activeEpoch fencingEpoch s pids).1 =
      { s with ownership := ownership, workers := workers } := by
  induction pids generalizing s with
  | nil => exact ⟨s.ownership, s.workers, rfl⟩
  | cons pid pids ih =>
    rw [registerWorkers]
    split
    · exact ⟨s.ownership, s.workers, rfl⟩
    · split
      · exact ⟨_, s.workers, rfl⟩
      · obtain ⟨ownership, workers, heq⟩ := ih _
        exact ⟨ownership, workers, heq⟩

theorem openBatch_eq (s : CDCParallelApplyEngine) (pid : ℕ) (activeEpoch fencingEpoch : ℤ) :
    ∃ batches, (s.openBatch pid activeEpoch fencingEpoch).1 = { s with batches := batches } := by
  rw [openBatch]
  split_ifs
  · exact ⟨_, rfl⟩
  · exact ⟨_, rfl⟩
  · exact ⟨_, rfl⟩
  · exact ⟨_, rfl⟩

/-- **What an action does**: it changes the workers, the ownership, the batches and the pause only;
or it is a dispatch; or an iteration of a batch in progress. -/
theorem engineStep_cases {a : EngineAction} (h : engineStep rt s a = some s') :
    ((∀ tx activeEpoch fencingEpoch, a ≠ .dispatch tx activeEpoch fencingEpoch) ∧
        (∀ pid ctx releaseEpoch, a ≠ .iterate pid ctx releaseEpoch) ∧
        ∃ ownership workers batches isPaused, s' = { s with
          ownership := ownership
          workers := workers
          batches := batches
          isPaused := isPaused }) ∨
      (∃ tx activeEpoch fencingEpoch, a = .dispatch tx activeEpoch fencingEpoch ∧
        s' = (s.dispatchTransaction rt tx activeEpoch fencingEpoch).1) ∨
      ∃ pid ctx releaseEpoch batch worker, a = .iterate pid ctx releaseEpoch ∧
        s.batches pid = some batch ∧ s.workers pid = some worker ∧
        s' = (s.iterate pid batch worker ctx releaseEpoch).1 := by
  cases a with
  | initializeWorkers activeEpoch fencingEpoch =>
    rw [engineStep] at h
    split_ifs at h
    cases h
    obtain ⟨ownership, workers, heq⟩ := registerWorkers_eq activeEpoch fencingEpoch s
      (List.range s.router.partitionCount)
    exact .inl ⟨by simp, by simp, ownership, workers, s.batches, s.isPaused, heq⟩
  | dispatch tx activeEpoch fencingEpoch =>
    cases h
    exact .inr (.inl ⟨tx, activeEpoch, fencingEpoch, rfl, rfl⟩)
  | openBatch pid activeEpoch fencingEpoch =>
    rw [engineStep] at h
    split_ifs at h
    cases h
    obtain ⟨batches, heq⟩ := openBatch_eq s pid activeEpoch fencingEpoch
    exact .inl ⟨by simp, by simp, s.ownership, s.workers, batches, s.isPaused, heq⟩
  | iterate pid ctx releaseEpoch =>
    rw [engineStep] at h
    split at h
    · next batch worker hbatch hworker =>
        cases h
        exact .inr (.inr ⟨pid, ctx, releaseEpoch, batch, worker, rfl, hbatch, hworker, rfl⟩)
    · cases h
  | pause =>
    cases h
    exact .inl ⟨by simp, by simp, s.ownership, s.workers, s.batches, true, rfl⟩
  | resume =>
    cases h
    exact .inl ⟨by simp, by simp, s.ownership, s.workers, s.batches, false, rfl⟩

theorem QueueInvariant.registerWorkers (hs : QueueInvariant s) {activeEpoch : ℤ} (pids : List ℕ) :
    QueueInvariant (registerWorkers activeEpoch fencingEpoch s pids).1 := by
  induction pids generalizing s with
  | nil => exact hs
  | cons pid pids ih =>
    rw [CDCParallelApplyEngine.registerWorkers]
    split
    · exact hs
    · split
      · exact ⟨hs.queued, hs.inOrder, hs.waiting, hs.taken, hs.workersKnown, hs.recordKnown⟩
      · next worker hload =>
          apply ih
          refine ⟨hs.queued, hs.inOrder, hs.waiting, hs.taken, ?_, hs.recordKnown⟩
          apply forall_update hs.workersKnown
          rintro _ ⟨⟩ id hid
          rw [load_ids hload] at hid
          exact hs.recordKnown id hid

/-! ## What a dispatch does -/

/-- **What a dispatch does**: it raises and leaves the queues alone, after the tracker may have
registered the position; or it registers the position and queues the transaction. -/
theorem dispatch_cases {activeEpoch : ℤ} {result : Except PyRaised CDCRoutedTransaction}
    (h : s.dispatchTransaction rt tx activeEpoch fencingEpoch = (s', result)) :
    (∃ e hashes barriers tracker, result = .error e ∧ (tracker = s.frontierTracker ∨
          tracker = (s.frontierTracker.registerPendingTransaction tx.commitPosition).1) ∧
        s' = { s with
          pendingTxHashes := hashes
          barriers := barriers
          frontierTracker := tracker }) ∨
      ∃ routed hashes barriers, result = .ok routed ∧ routeTransaction rt s.router tx = .ok routed ∧
        s' = { s with
          pendingTxHashes := hashes
          barriers := barriers
          frontierTracker :=
            (s.frontierTracker.registerPendingTransaction tx.commitPosition).1 }.enqueue routed := by
  rw [dispatchTransaction] at h
  split_ifs at h
  · cases h
    exact .inl ⟨_, _, _, _, rfl, .inl rfl, rfl⟩
  · cases h
    exact .inl ⟨_, _, _, _, rfl, .inl rfl, rfl⟩
  · cases h
    exact .inl ⟨_, _, _, _, rfl, .inl rfl, rfl⟩
  · split at h
    · cases h
      exact .inl ⟨_, _, _, _, rfl, .inl rfl, rfl⟩
    · next routed hroute =>
        have hposition : routed.commitPosition = tx.commitPosition := by
          rw [CDCRoutedTransaction.commitPosition, (routeTransaction_ok rt hroute).1]
        rw [dispatchRouted, hposition] at h
        split at h
        · next tracker e hregister =>
            cases h
            exact .inl ⟨_, _, _, _, rfl, .inr (by rw [hregister]), rfl⟩
        · next tracker hregister =>
            split at h
            · cases h
              exact .inl ⟨_, _, _, _, rfl, .inr (by rw [hregister]), rfl⟩
            · cases h
              exact .inr ⟨routed, _, _, rfl, hroute, by rw [hregister]⟩

/-- A dispatch passes its checks: the engine is not paused, the transaction is of its session and
has the events of an earlier dispatch of the same identifier, it can be routed, and the epoch is
valid when it needs a barrier. -/
structure AcceptsDispatch (rt : DigestRuntime) (s : CDCParallelApplyEngine) (tx : CDCTransaction)
    (activeEpoch fencingEpoch : ℤ) : Prop where
  running : s.isPaused = false
  session : tx.identity.migrationId = s.identity.migrationId ∧
    tx.identity.cdcSessionId = s.identity.cdcSessionId
  payload : ∀ existing ∈ s.pendingTxHashes.get? tx.txId, existing = payloadHash rt tx
  routes : ∃ routed, routeTransaction rt s.router tx = .ok routed ∧
    (routed.isMultiPartition → validateFencingToken activeEpoch fencingEpoch = true)

/-- Preparing a barrier raises for a stale epoch only. -/
theorem prepare_isOk_iff {b : BarrierStore} {identity : CDCEventIdentity}
    {r : CDCRoutedTransaction} {activeEpoch : ℤ} :
    (b.prepareCrossPartitionBarrier identity r activeEpoch fencingEpoch).2 = .ok () ↔
      validateFencingToken activeEpoch fencingEpoch = true := by
  rw [BarrierStore.prepareCrossPartitionBarrier]
  by_cases h : validateFencingToken activeEpoch fencingEpoch = true
  · rw [if_neg (not_not.mpr h)]
    split_ifs <;> simp [h]
  · rw [if_pos h]
    simp [h]

/-- After routing a dispatch raises for a barrier under a stale epoch only, as long as the tracker
can register the position. -/
theorem dispatchRouted_isOk_iff {activeEpoch : ℤ}
    (hregister : (s.frontierTracker.registerPendingTransaction routed.commitPosition).2 = .ok ()) :
    (∃ r, (s.dispatchRouted rt routed activeEpoch fencingEpoch).2 = .ok r) ↔
      (routed.isMultiPartition → validateFencingToken activeEpoch fencingEpoch = true) := by
  rw [dispatchRouted]
  split
  · next tracker e h =>
      rw [h] at hregister
      cases hregister
  · by_cases hmulti : routed.isMultiPartition = true
    · have hprepare : (s.barriers.prepareCrossPartitionBarrier s.identity routed activeEpoch
          fencingEpoch).2 = .ok () ↔ _ := prepare_isOk_iff
      rw [if_pos hmulti]
      split
      · next barriers e h =>
          rw [h] at hprepare
          simpa [hmulti] using hprepare
      · next barriers h =>
          rw [h] at hprepare
          simpa [hmulti] using hprepare
    · rw [if_neg hmulti]
      simp [hmulti]

/-- **A dispatch returns when it passes its checks**, as long as the tracker can register the
position. -/
theorem dispatch_isOk_iff {activeEpoch : ℤ}
    (hregister : (s.frontierTracker.registerPendingTransaction tx.commitPosition).2 = .ok ()) :
    (∃ routed, (s.dispatchTransaction rt tx activeEpoch fencingEpoch).2 = .ok routed) ↔
      AcceptsDispatch rt s tx activeEpoch fencingEpoch := by
  have hposition : ∀ routed, routeTransaction rt s.router tx = .ok routed →
      (s.frontierTracker.registerPendingTransaction routed.commitPosition).2 = .ok () := by
    intro routed hroute
    rw [CDCRoutedTransaction.commitPosition, (routeTransaction_ok rt hroute).1]
    exact hregister
  rw [dispatchTransaction]
  constructor
  · rintro ⟨r, hr⟩
    split_ifs at hr with hpaused hsession hpayload
    split at hr
    · cases hr
    · next routed hroute =>
        refine ⟨eq_false_of_ne_true hpaused, ?_, ?_, routed, hroute, ?_⟩
        · simpa [not_or] using hsession
        · intro existing hexisting
          by_contra hne
          exact hpayload (by simpa [Option.mem_def.mp hexisting] using hne)
        · exact (dispatchRouted_isOk_iff (hposition routed hroute)).mp ⟨r, hr⟩
  · intro h
    obtain ⟨routed, hroute, hfenced⟩ := h.routes
    have hsession : ¬ (tx.identity.migrationId ≠ s.identity.migrationId ∨
        tx.identity.cdcSessionId ≠ s.identity.cdcSessionId) := by
      simp [h.session]
    have hpayload : ¬ ((s.pendingTxHashes.get? tx.txId).any
        fun existing => decide (existing ≠ payloadHash rt tx)) = true := by
      cases hget : s.pendingTxHashes.get? tx.txId with
      | none => simp
      | some existing => simp [h.payload existing hget]
    rw [if_neg (by simp [h.running]), if_neg hsession, if_neg hpayload, hroute]
    exact (dispatchRouted_isOk_iff (hposition routed hroute)).mpr hfenced

/-- The primary partition of a routed transaction is a partition. -/
theorem primary_lt {router : CDCPartitionRouter} (h : routeTransaction rt router tx = .ok routed) :
    routed.primaryPartitionId < router.partitionCount ∧
      routed.primaryPartitionId ∈ routed.partitionIds := by
  obtain ⟨-, hne, hlt, -, -⟩ := routeTransaction_ok rt h
  obtain ⟨pid, pids, hpids⟩ := List.exists_cons_of_ne_nil hne
  have hprimary : routed.primaryPartitionId = pid := by
    rw [CDCRoutedTransaction.primaryPartitionId, hpids]
    rfl
  have hmem : pid ∈ routed.partitionIds := by simp [hpids]
  rw [hprimary]
  exact ⟨hlt pid hmem, hmem⟩

/-- **No dispatched transaction is lost, and the queues are in dispatch order**, after every
action. -/
theorem QueueInvariant.step (hs : QueueInvariant s) {a : EngineAction}
    (h : engineStep rt s a = some s') : QueueInvariant s' := by
  cases a with
  | initializeWorkers activeEpoch fencingEpoch =>
    rw [engineStep] at h
    split_ifs at h
    cases h
    exact hs.registerWorkers _
  | dispatch tx activeEpoch fencingEpoch =>
    rw [engineStep, Option.some.injEq] at h
    rcases dispatch_cases (Prod.ext h rfl) with
      ⟨e, hashes, barriers, tracker, -, -, rfl⟩ | ⟨routed, hashes, barriers, -, hroute, rfl⟩
    · exact ⟨hs.queued, hs.inOrder, hs.waiting, hs.taken, hs.workersKnown, hs.recordKnown⟩
    · apply QueueInvariant.enqueue
      · exact ⟨hs.queued, hs.inOrder, hs.waiting, hs.taken, hs.workersKnown, hs.recordKnown⟩
      · exact (primary_lt hroute).1
  | openBatch pid activeEpoch fencingEpoch =>
    rw [engineStep] at h
    split_ifs at h
    cases h
    rw [CDCParallelApplyEngine.openBatch]
    split_ifs
    · exact hs
    · exact hs
    · refine ⟨hs.queued, hs.inOrder, hs.waiting, ?_, hs.workersKnown, hs.recordKnown⟩
      apply forall_update hs.taken
      rintro _ ⟨⟩
      exact ⟨Nat.zero_le _, by simp⟩
    · exact hs
  | iterate pid ctx releaseEpoch =>
    rw [engineStep] at h
    split at h
    · next batch worker hbatch hworker =>
        cases h
        rcases iterate_cases s pid batch worker ctx releaseEpoch with
          ⟨-, heq⟩ | ⟨q, t, e, happlies, heq⟩ |
            ⟨q, t, r, completed, result, happlies, hcomplete, hend⟩
        · rw [heq]
          exact hs.closeBatch hbatch
        · rw [heq]
          exact (hs.afterApply hworker happlies).1.abortBatch pid
        · obtain ⟨happlied, hexecuted⟩ := hs.afterApply hworker happlies
          obtain ⟨hcompleted, hsame, hqueues⟩ := happlied.completeQueued hcomplete
          rcases hend with ⟨-, heq⟩ | ⟨-, heq⟩
          · rw [heq]
            exact hcompleted.abortBatch pid
          · rw [heq]
            obtain ⟨hq, -⟩ := Option.filter_eq_some_iff.mp happlies.current
            refine hcompleted.advanceBatch ?_ (q := q) ?_ ?_
            · obtain ⟨barriers, rfl⟩ := completeQueued_eq hcomplete
              exact hbatch
            · rw [hqueues]
              exact hq
            · rw [hsame]
              exact hexecuted r rfl
    · cases h
  | pause =>
    cases h
    exact ⟨hs.queued, hs.inOrder, hs.waiting, hs.taken, hs.workersKnown, hs.recordKnown⟩
  | resume =>
    cases h
    exact ⟨hs.queued, hs.inOrder, hs.waiting, hs.taken, hs.workersKnown, hs.recordKnown⟩

/-! ## The start -/

/-- An engine that has just been made: nothing is queued, no worker is registered, and what was
executed before is what the record of the session has. -/
structure IsNew (s : CDCParallelApplyEngine) : Prop where
  queues : ∀ pid, s.partitionQueues pid = []
  workers : ∀ pid, s.workers pid = none
  batches : ∀ pid, s.batches pid = none
  dispatched : s.dispatched = []
  executed : s.executed = s.store.recordIds
  executedDispatches : s.executedDispatches = []

theorem IsNew.queueInvariant (h : s.IsNew) : QueueInvariant s where
  queued pid q hq := by simp [h.queues pid] at hq
  inOrder pid := by simp [h.queues pid]
  waiting n r hr := by simp [h.dispatched] at hr
  taken pid batch hb := by simp [h.batches pid] at hb
  workersKnown pid worker hw := by simp [h.workers pid] at hw
  recordKnown id hid := h.executed ▸ hid

/-- `CDCParallelApplyEngine(...)` over the records of a session, with the tracker that was read
from them. -/
def new (identity : CDCEventIdentity) (router : CDCPartitionRouter) (store : SessionStore)
    (walBuffer : Option DurableCDCBuffer) (ownership : ℕ → Option CDCPartitionState)
    (barriers : BarrierStore) (tracker : CDCCheckpointFrontierTracker) :
    CDCParallelApplyEngine where
  identity := identity
  router := router
  store := store
  walBuffer := walBuffer
  ownership := ownership
  barriers := barriers
  frontierTracker := tracker
  partitionQueues := fun _ => []
  workers := fun _ => none
  pendingTxHashes := PyDict.empty
  isPaused := false
  target := []
  batches := fun _ => none
  dispatched := []
  executed := store.recordIds
  executedDispatches := []

/-- A made engine is new. -/
theorem new_isNew (identity : CDCEventIdentity) (router : CDCPartitionRouter)
    (store : SessionStore) (walBuffer : Option DurableCDCBuffer)
    (ownership : ℕ → Option CDCPartitionState) (barriers : BarrierStore)
    (tracker : CDCCheckpointFrontierTracker) :
    (new identity router store walBuffer ownership barriers tracker).IsNew :=
  ⟨fun _ => rfl, fun _ => rfl, fun _ => rfl, rfl, rfl, rfl⟩

end CDCParallelApplyEngine

/-! ## Two partitions -/

/-- The digests that route the rows 1 and 2 of the table `t`: to the partitions 0 and 1. -/
def sampleRuntime : DigestRuntime where
  sha256Hex s :=
    if s = "s:t:1:1" then "8e7e48bd864f2b9621ad1384ff5cb2274ee643e6c31e27c947ff5c85b5d9804c"
    else if s = "s:t:2:1" then "88f8dd4a40e4e94fece18672a3f55572becb69159ec9db05153f4716bac3151c"
    else "0"
  hmacHex _ _ := "h"
  str v :=
    match v with
    | .str s => s
    | _ => ""

/-- An insert of a row of the table `t`. -/
def sampleEvent (row : String) : CDCEvent where
  identity := sampleIdentity
  sourceEngine := "ORACLE"
  sourceDatabase := "d"
  sourceSchema := "c"
  sourceTable := "t"
  operation := .insert
  position := samplePosition 1
  beforeImage := .none
  afterImage := .dict [("id", .str row)]
  boundary := .singleEvent
  txId := none
  commitTimestamp := "2026-01-01T00:00:00"
  capturedTimestamp := "2026-01-01T00:00:00"
  schemaVersionId := none
  details := .dict []
  engine_upper := sampleEngine_upper
  commit_ne := sampleTime_ne
  captured_ne := sampleTime_ne
  details_eq := sampleDetails_eq

/-- A router for two partitions. -/
def sampleRouter : CDCPartitionRouter := ⟨2, 1, [], by decide⟩

/-- An engine for two partitions over a session without records. -/
def sampleEngine : CDCParallelApplyEngine :=
  .new sampleIdentity sampleRouter ⟨none, none⟩ none (fun _ => none) .empty .initial

end CDC

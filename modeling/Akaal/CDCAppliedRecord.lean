/-
# The record of applied transactions under several workers

The workers of `CDCParallelApplyEngine` share one state store and so one record
`cdc_applied_txs_<session>`, but each has its own set of applied transactions, which it reads
from the store only when it is made; a successful call writes the whole set of its worker back.

* `recordComplete_iff` : the runs in which the record has every transaction that was applied;
* `not_recordComplete_of_two_workers` : two workers with one transaction each are no such run;
* `executedOnce_run` : one worker executes no transaction twice.
-/
import Akaal.CDCApplyWorker
import Akaal.TransitionRun

open TransitionRun

namespace CDC

/-! ## The system -/

/-- The workers of the partitions over their shared store, buffer and target, with the
identifiers of the transactions that were executed on the target. -/
structure WorkerPool where
  store : SessionStore
  buffer : Option DurableCDCBuffer
  workers : ℕ → CDCApplyWorker
  target : List (List CDCEvent)
  executed : List String

/-- A successful call of a worker, or a restart of the process: every worker is made anew and
loads the record, and the buffer is the one the new process finds. -/
inductive PoolAction where
  | apply (worker : ℕ) (ctx : ApplyContext) (epoch : ℤ) (transaction : Option CDCTransaction)
  | restart (buffer : Option DurableCDCBuffer)

/-- What one worker sees of the pool. -/
def WorkerPool.view (s : WorkerPool) (w : ℕ) : ApplyState :=
  ⟨s.store, s.buffer, s.workers w, s.target⟩

/-- The transactions executed by a call with the given result. -/
def ApplyResult.executed : ApplyResult → List String
  | .success txId false _ _ => [txId]
  | _ => []

/-- One action; `none` when the call raises. -/
def poolStep (identity : CDCEventIdentity) (s : WorkerPool) : PoolAction → Option WorkerPool
  | .apply w ctx epoch transaction =>
    match applyNextTransaction ctx identity (s.view w) epoch transaction with
    | (s', .ok r) => some {
        store := s'.store
        buffer := s'.buffer
        workers := Function.update s.workers w s'.worker
        target := s'.target
        executed := s.executed ++ r.executed }
    | (_, .error _) => none
  | .restart buffer =>
    match loadPersistentAppliedState s.store with
    | .ok worker => some { s with buffer := buffer, workers := fun _ => worker }
    | .error _ => none

/-- The identifiers in the record of the session. -/
def SessionStore.recordIds (store : SessionStore) : List String :=
  (store.appliedTxs.map AppliedRecord.appliedIds).getD []

/-- The pool of a process that has just been started: its workers have loaded the record, and
what was executed before is what the record has. -/
structure WorkerPool.IsFresh (s : WorkerPool) : Prop where
  loaded : ∃ worker, loadPersistentAppliedState s.store = .ok worker ∧ s.workers = fun _ => worker
  executed : s.executed = s.store.recordIds

/-! ## What the record has to give -/

/-- The record has every executed transaction, and a worker that loads it never executes one of
them on the target again. -/
structure RecordComplete (identity : CDCEventIdentity) (s : WorkerPool) : Prop where
  recorded : ∀ id ∈ s.executed, id ∈ s.store.recordIds
  suppressed : ∀ worker, loadPersistentAppliedState s.store = .ok worker →
    ∀ ctx buffer epoch transaction s' txId duplicate n checkpointId,
      applyNextTransaction ctx identity ⟨s.store, buffer, worker, s.target⟩ epoch transaction =
        (s', .ok (.success txId duplicate n checkpointId)) →
      txId ∈ s.executed → s'.target = s.target

/-- The condition on a call: the transaction is one the worker has applied, or the worker knows
every other transaction of the record. -/
def KnowsRecord (s : WorkerPool) : PoolAction → Prop
  | .apply w ctx _ transaction =>
    ∀ tx txHash, nextTransaction ctx s.buffer transaction = .ok (some (tx, txHash)) →
      tx.txId ∈ (s.workers w).appliedTransactionIds ∨
        ∀ id ∈ s.store.recordIds, id = tx.txId ∨ id ∈ (s.workers w).appliedTransactionIds
  | .restart _ => True

/-! ## One action -/

theorem load_ids {store : SessionStore} {worker : CDCApplyWorker}
    (h : loadPersistentAppliedState store = .ok worker) :
    worker.appliedTransactionIds = store.recordIds := by
  rw [loadPersistentAppliedState] at h
  split at h
  · next hnone =>
      cases h
      simp [SessionStore.recordIds, hnone]
  · next persisted hsome =>
      obtain ⟨last, -, h⟩ := Traversal.bind_eq_ok_iff.mp h
      cases h
      simp [SessionStore.recordIds, hsome]

variable {s s' : WorkerPool}

/-- **Suppression follows from the record**: a worker that has loaded a complete record takes
every executed transaction for a duplicate. -/
theorem recordComplete_iff_recorded {identity : CDCEventIdentity} :
    RecordComplete identity s ↔ ∀ id ∈ s.executed, id ∈ s.store.recordIds := by
  refine ⟨fun h => h.recorded, fun hrecorded => ⟨hrecorded, ?_⟩⟩
  intro worker hload ctx buffer epoch transaction s' txId duplicate n checkpointId happly hmem
  rcases applyNext_ok happly with ⟨hnone, -, -⟩ | ⟨tx, txHash, -, ⟨-, hdup⟩ | ⟨hfresh, hrun⟩⟩
  · cases hnone
  · exact (applyDuplicate_ok hdup).2.1
  · obtain ⟨-, -, -, -, n', ck, hr⟩ := applyFresh_ok hrun
    cases hr
    have hknown : tx.txId ∈ worker.appliedTransactionIds := by
      rw [load_ids hload]
      exact hrecorded _ hmem
    exact absurd hknown hfresh

/-- The record of a store after a fresh application. -/
theorem recordIds_of_applyFresh {ctx : ApplyContext} {identity : CDCEventIdentity}
    {s s' : ApplyState} {tx : CDCTransaction} {txHash : String} {epoch : ℤ} {r : ApplyResult}
    (h : applyFresh ctx identity s tx txHash epoch = (s', .ok r)) {id : String} :
    id ∈ s'.store.recordIds ↔ id = tx.txId ∨ id ∈ s.worker.appliedTransactionIds := by
  obtain ⟨-, hids, ⟨hashes, hrecord⟩, -⟩ := applyFresh_ok h
  rw [SessionStore.recordIds, hrecord, Option.map_some, Option.getD_some, hids, mem_setAdd]

/-- The transactions of the record have been executed, and so have those the workers know. -/
structure ExecutedKnown (s : WorkerPool) : Prop where
  ofRecord : ∀ id ∈ s.store.recordIds, id ∈ s.executed
  ofWorkers : ∀ w, ∀ id ∈ (s.workers w).appliedTransactionIds, id ∈ s.executed

theorem WorkerPool.IsFresh.executedKnown (h : s.IsFresh) : ExecutedKnown s := by
  obtain ⟨worker, hload, hworkers⟩ := h.loaded
  refine ⟨fun id hid => h.executed ▸ hid, fun w id hid => ?_⟩
  rw [hworkers, load_ids hload] at hid
  rw [h.executed]
  exact hid

/-- **What a successful call does to the pool**: nothing to what is recorded and executed, when
the worker finds no transaction or a duplicate; otherwise the record becomes the worker's set
with the transaction, which is executed. -/
theorem poolStep_apply {identity : CDCEventIdentity} {w : ℕ}
    {ctx : ApplyContext} {epoch : ℤ} {transaction : Option CDCTransaction}
    (h : poolStep identity s (.apply w ctx epoch transaction) = some s') :
    (s'.store.recordIds = s.store.recordIds ∧ s'.executed = s.executed ∧
        (∀ v, (s'.workers v).appliedTransactionIds = (s.workers v).appliedTransactionIds) ∧
        ∀ tx txHash, nextTransaction ctx s.buffer transaction = .ok (some (tx, txHash)) →
          tx.txId ∈ (s.workers w).appliedTransactionIds) ∨
      ∃ tx txHash, nextTransaction ctx s.buffer transaction = .ok (some (tx, txHash)) ∧
        tx.txId ∉ (s.workers w).appliedTransactionIds ∧
        s'.executed = s.executed ++ [tx.txId] ∧
        (∀ id, id ∈ s'.store.recordIds ↔ id = tx.txId ∨ id ∈ (s.workers w).appliedTransactionIds) ∧
        ∀ v id, id ∈ (s'.workers v).appliedTransactionIds ↔
          id ∈ (s.workers v).appliedTransactionIds ∨ (v = w ∧ id = tx.txId) := by
  rw [poolStep] at h
  split at h
  · next t r happly =>
      cases h
      rcases applyNext_ok happly with
        ⟨rfl, rfl, hnone⟩ | ⟨tx, txHash, hnext, ⟨hmem, hdup⟩ | ⟨hmem, hfresh⟩⟩
      · left
        refine ⟨rfl, by simp [ApplyResult.executed], fun v => ?_, fun tx txHash hnext => ?_⟩
        · show (Function.update s.workers w (s.view w).worker v).appliedTransactionIds = _
          rcases eq_or_ne v w with rfl | hv
          · rw [Function.update_self]
            rfl
          · rw [Function.update_of_ne hv]
        · have hsame : nextTransaction ctx s.buffer transaction = .ok none := hnone
          rw [hsame] at hnext
          cases hnext
      · left
        obtain ⟨hstore, -, hids, n, ck, rfl⟩ := applyDuplicate_ok hdup
        refine ⟨by rw [hstore]; rfl, by simp [ApplyResult.executed], fun v => ?_, ?_⟩
        · show (Function.update s.workers w t.worker v).appliedTransactionIds = _
          rcases eq_or_ne v w with rfl | hv
          · rw [Function.update_self, hids]
            rfl
          · rw [Function.update_of_ne hv]
        · intro tx' txHash' hnext'
          have hsame : nextTransaction ctx s.buffer transaction = .ok (some (tx, txHash)) := hnext
          rw [hsame] at hnext'
          cases hnext'
          exact hmem
      · right
        obtain ⟨-, hids, -, -, n, ck, rfl⟩ := applyFresh_ok hfresh
        refine ⟨tx, txHash, hnext, hmem, rfl, fun id => recordIds_of_applyFresh hfresh, ?_⟩
        intro v id
        show id ∈ (Function.update s.workers w t.worker v).appliedTransactionIds ↔ _
        rcases eq_or_ne v w with rfl | hv
        · rw [Function.update_self, hids, mem_setAdd]
          show id = tx.txId ∨ id ∈ (s.workers v).appliedTransactionIds ↔ _
          tauto
        · rw [Function.update_of_ne hv]
          tauto
  · cases h

theorem ExecutedKnown.poolStep {identity : CDCEventIdentity} {a : PoolAction}
    (hs : ExecutedKnown s) (h : poolStep identity s a = some s') : ExecutedKnown s' := by
  cases a with
  | apply w ctx epoch transaction =>
    rcases poolStep_apply h with ⟨hrecord, hexecuted, hworkers, -⟩ |
        ⟨tx, txHash, -, -, hexecuted, hrecord, hworkers⟩
    · refine ⟨?_, ?_⟩
      · rw [hrecord, hexecuted]
        exact hs.ofRecord
      · intro v id hid
        rw [hworkers] at hid
        rw [hexecuted]
        exact hs.ofWorkers v id hid
    · refine ⟨?_, ?_⟩
      · intro id hid
        rw [hexecuted, List.mem_append, List.mem_singleton]
        rcases (hrecord id).mp hid with rfl | hid
        · exact .inr rfl
        · exact .inl (hs.ofWorkers w id hid)
      · intro v id hid
        rw [hexecuted, List.mem_append, List.mem_singleton]
        rcases (hworkers v id).mp hid with hid | ⟨-, rfl⟩
        · exact .inl (hs.ofWorkers v id hid)
        · exact .inr rfl
  | restart buffer =>
    rw [CDC.poolStep] at h
    split at h
    · next worker hload =>
        cases h
        refine ⟨hs.ofRecord, fun v id hid => ?_⟩
        have hmem : id ∈ worker.appliedTransactionIds := hid
        rw [load_ids hload] at hmem
        exact hs.ofRecord id hmem
    · cases h

/-- **One action, exactly.**  From a pool with a complete record an action leads to one with a
complete record precisely when its worker knows the record. -/
theorem recordComplete_step_iff {identity : CDCEventIdentity} {a : PoolAction}
    (hs : ExecutedKnown s) (hcomplete : RecordComplete identity s)
    (h : poolStep identity s a = some s') :
    RecordComplete identity s' ↔ KnowsRecord s a := by
  rw [recordComplete_iff_recorded]
  have hrecorded := hcomplete.recorded
  cases a with
  | apply w ctx epoch transaction =>
    rcases poolStep_apply h with ⟨hrecord, hexecuted, -, hdup⟩ |
        ⟨tx, txHash, hnext, hmem, hexecuted, hrecord, -⟩
    · rw [hrecord, hexecuted]
      exact ⟨fun _ tx txHash hnext => .inl (hdup tx txHash hnext), fun _ => hrecorded⟩
    · constructor
      · intro hall tx' txHash' hnext'
        rw [hnext] at hnext'
        cases hnext'
        refine .inr fun id hid => ?_
        have hid' : id ∈ s'.executed := by
          rw [hexecuted]
          exact List.mem_append_left _ (hs.ofRecord id hid)
        exact (hrecord id).mp (hall id hid')
      · intro hknows id hid
        rw [hexecuted, List.mem_append, List.mem_singleton] at hid
        rw [hrecord]
        rcases hid with hid | rfl
        · rcases hknows tx txHash hnext with hknown | hknown
          · exact absurd hknown hmem
          · exact hknown id (hrecorded id hid)
        · exact .inl rfl
  | restart buffer =>
    have hsame : s'.executed = s.executed ∧ s'.store = s.store := by
      rw [CDC.poolStep] at h
      split at h
      · cases h
        exact ⟨rfl, rfl⟩
      · cases h
    rw [hsame.1, hsame.2]
    exact ⟨fun _ => trivial, fun _ => hrecorded⟩

/-! ## Runs -/

/-- **The exact condition.**  In every run of a fresh pool, the record of the session has every
executed transaction in every state, and workers loading it execute none of them again,
precisely when each call that executes a transaction is made by a worker that knows the other
transactions of the record. -/
theorem recordComplete_iff (identity : CDCEventIdentity) {s : WorkerPool} (hs : s.IsFresh)
    (actions : List PoolAction) :
    HoldsAlong (poolStep identity) (RecordComplete identity) s actions ↔
      MeetsAlong (poolStep identity) KnowsRecord s actions := by
  have hinv : ∀ s a s', ExecutedKnown s → poolStep identity s a = some s' → ExecutedKnown s' :=
    fun s a s' hknown h => hknown.poolStep h
  have hexact : ∀ s a s', ExecutedKnown s → RecordComplete identity s →
      poolStep identity s a = some s' → (RecordComplete identity s' ↔ KnowsRecord s a) :=
    fun s a s' hknown hcomplete h => recordComplete_step_iff hknown hcomplete h
  have hstart : RecordComplete identity s := by
    rw [recordComplete_iff_recorded, hs.executed]
    exact fun id hid => hid
  exact holdsAlong_iff_meetsAlong hinv hexact hs.executedKnown hstart actions

/-! ## Two workers -/

/-- The worker of a session without a record. -/
def newWorker : CDCApplyWorker := ⟨[], PyDict.empty, none, none, none⟩

/-- The pool of a session without a record. -/
def newPool : WorkerPool where
  store := ⟨none, none⟩
  buffer := none
  workers := fun _ => newWorker
  target := []
  executed := []

theorem newPool_isFresh : newPool.IsFresh := ⟨⟨newWorker, rfl, rfl⟩, rfl⟩

/-- A context in which nothing stands in the way. -/
def quietContext : ApplyContext where
  rt := ⟨fun _ => "d", fun _ _ => "h", fun _ => ""⟩
  ambient := sampleAmbient
  providerKey := [1]
  activeEpoch := 1
  activeEpochLater := 1
  isBarrierActive := fun _ => false
  targetAdapter := some .applied

/-- Two workers that apply one transaction each. -/
def twoWorkers : List PoolAction :=
  [.apply 0 quietContext 1 (some (sampleTransaction "t1" 1 [])),
    .apply 1 quietContext 1 (some (sampleTransaction "t2" 2 []))]

/-- After two workers have applied one transaction each, the record has the second one only. -/
theorem not_recordComplete_of_two_workers :
    ¬ HoldsAlong (poolStep sampleIdentity) (RecordComplete sampleIdentity) newPool
      twoWorkers := by
  intro h
  have hrun : (run (poolStep sampleIdentity) newPool twoWorkers).map
      (fun s => (s.executed, s.store.recordIds)) = some (["t1", "t2"], ["t2"]) := by
    decide
  obtain ⟨s, hs, hpair⟩ := Option.map_eq_some_iff.mp hrun
  have hexecuted : s.executed = ["t1", "t2"] := congrArg Prod.fst hpair
  have hrecord : s.store.recordIds = ["t2"] := congrArg Prod.snd hpair
  have hmem := (h.finish hs).recorded "t1" (by simp [hexecuted])
  simp [hrecord] at hmem

/-- The exact condition for one worker that applies one transaction. -/
theorem recordComplete_of_one_worker :
    HoldsAlong (poolStep sampleIdentity) (RecordComplete sampleIdentity) newPool
        [.apply 0 quietContext 1 (some (sampleTransaction "t1" 1 []))] ↔
      MeetsAlong (poolStep sampleIdentity) KnowsRecord newPool
        [.apply 0 quietContext 1 (some (sampleTransaction "t1" 1 []))] :=
  recordComplete_iff sampleIdentity newPool_isFresh _

/-! ## One worker -/

/-- What happens to the only worker of a session: a call over some buffer, or a restart. -/
inductive WorkerAction where
  | apply (ctx : ApplyContext) (buffer : Option DurableCDCBuffer) (epoch : ℤ)
    (transaction : Option CDCTransaction)
  | restart

/-- One action, whether the call raises or not; without its record no worker is made anew. -/
def workerStep (identity : CDCEventIdentity) (s : ApplyState) : WorkerAction → ApplyState
  | .apply ctx buffer epoch transaction =>
    (applyNextTransaction ctx identity { s with buffer := buffer } epoch transaction).1
  | .restart =>
    match loadPersistentAppliedState s.store with
    | .ok worker => { s with worker := worker }
    | .error _ => s

section OneWorker

variable {identity : CDCEventIdentity} {s : ApplyState}

/-- **What any call does**: nothing to the target, or it executes a transaction that the worker has not
applied. -/
theorem applyNext_effect (identity : CDCEventIdentity) (s : ApplyState) (ctx : ApplyContext) (epoch : ℤ)
    (transaction : Option CDCTransaction) :
    let s' := (applyNextTransaction ctx identity s epoch transaction).1
    Quiet s s' ∨ ∃ tx, tx.txId ∉ s.worker.appliedTransactionIds ∧ Executes s s' tx := by
  rcases h : applyNextTransaction ctx identity s epoch transaction with ⟨s', result⟩
  rw [applyNextTransaction] at h
  split_ifs at h
  · split at h
    · cases h
      exact .inl (.refl s)
    · cases h
      exact .inl (.refl s)
    · next tx txHash _ =>
        split at h
        · cases h
          exact .inl (.refl s)
        · split_ifs at h with hmem
          · exact .inl (applyDuplicate_quiet h)
          · rw [applyFresh] at h
            split at h
            · cases h
              exact .inl (.refl s)
            · cases h
              exact .inl (.refl s)
            · refine .inr ⟨tx, hmem, ?_⟩
              dsimp only [persistAppliedTransaction] at h
              split_ifs at h
              · split at h
                · cases h
                  exact ⟨rfl, rfl, _, rfl⟩
                · split at h <;> cases h <;> exact ⟨rfl, rfl, _, rfl⟩
              · cases h
                exact ⟨rfl, rfl, _, rfl⟩
  · cases h
    exact .inl (.refl s)

/-- The target has taken transactions with distinct identifiers, which the worker and the record have. -/
def ExecutedOnce (s : ApplyState) : Prop :=
  ∃ txs : List CDCTransaction, s.target = txs.map (·.events) ∧ (txs.map (·.txId)).Nodup ∧
    s.worker.appliedTransactionIds = txs.map (·.txId) ∧ s.store.recordIds = txs.map (·.txId)

theorem ExecutedOnce.step (h : ExecutedOnce s) (a : WorkerAction) :
    ExecutedOnce (workerStep identity s a) := by
  obtain ⟨txs, htarget, hnodup, hworker, hrecord⟩ := h
  cases a with
  | apply ctx buffer epoch transaction =>
    rcases applyNext_effect identity { s with buffer := buffer } ctx epoch transaction with
      ⟨hstore, htaken, hids⟩ | ⟨tx, hnew, htaken, hids, hashes, hstored⟩
    · refine ⟨txs, htaken.trans htarget, hnodup, hids.trans hworker, ?_⟩
      rw [workerStep, SessionStore.recordIds, hstore]
      exact hrecord
    · rw [setAdd, if_neg hnew] at hids
      dsimp only at hids hnew
      rw [hworker] at hids hnew
      refine ⟨txs ++ [tx], htaken.trans (by simp [htarget]), ?_, hids.trans (by simp), ?_⟩
      · simpa using hnodup.append (List.nodup_singleton _) (by simpa using hnew)
      · rw [workerStep, SessionStore.recordIds, hstored]
        simpa using hids
  | restart =>
    rw [workerStep]
    split
    · next worker hload => exact ⟨txs, htarget, hnodup, (load_ids hload).trans hrecord, hrecord⟩
    · exact ⟨txs, htarget, hnodup, hworker, hrecord⟩

/-- **One worker.**  Whatever its calls are, whichever of them raise and however often it is restarted
between them, it executes no transaction twice. -/
theorem executedOnce_run (identity : CDCEventIdentity) (actions : List WorkerAction) :
    ExecutedOnce (actions.foldl (workerStep identity) ⟨⟨none, none⟩, none, newWorker, []⟩) := by
  have hinit : ExecutedOnce ⟨⟨none, none⟩, none, newWorker, []⟩ :=
    ⟨[], rfl, List.nodup_nil, rfl, rfl⟩
  exact List.foldlRecOn actions (workerStep identity) hinit fun _ h a _ => h.step a

end OneWorker

end CDC

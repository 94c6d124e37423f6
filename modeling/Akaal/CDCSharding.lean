/-
# Routing, cross-partition barriers and partition ownership

`CDCPartitionRouter`, `CDCRoutedTransaction`, `CDCCrossPartitionOrderingBarrier` and
`CDCSplitBrainShardGuard` of `cdc/sharding`.  A transaction is routed to the partitions of the
rows its events touch; when there are several, a barrier record and one lock for each of them
are written to the state store.

* `routeTransaction_ok` : the partitions a transaction is routed to;
* `setLocks_apply` : the locks that preparing and releasing a barrier write.
-/
import Akaal.CDCApplyWorker
import Akaal.CDCFrontier

open PythonText

namespace CDC

/-! ## Routed transactions -/

/-- `CDCRoutedTransaction`; the partitions are sorted and distinct. -/
structure CDCRoutedTransaction where
  transaction : CDCTransaction
  partitionIds : List ℕ
  routingGeneration : ℤ
  isMultiPartition : Bool
  sorted : partitionIds.Pairwise (· < ·)

namespace CDCRoutedTransaction

/-- `tx_id`. -/
def txId (r : CDCRoutedTransaction) : String := r.transaction.txId

/-- `commit_position`. -/
def commitPosition (r : CDCRoutedTransaction) : CDCSourcePosition := r.transaction.commitPosition

/-- `primary_partition_id`: the lowest partition. -/
def primaryPartitionId (r : CDCRoutedTransaction) : ℕ := r.partitionIds.headD 0

end CDCRoutedTransaction

/-- `sorted(list(set(ids)))`. -/
def sortedSet (ids : List ℕ) : List ℕ := ids.dedup.insertionSort (· ≤ ·)

@[simp] theorem mem_sortedSet {ids : List ℕ} {pid : ℕ} : pid ∈ sortedSet ids ↔ pid ∈ ids := by
  rw [sortedSet, List.mem_insertionSort, List.mem_dedup]

theorem sortedSet_sorted (ids : List ℕ) : (sortedSet ids).Pairwise (· < ·) := by
  have hsorted : (sortedSet ids).Pairwise (· ≤ ·) := List.pairwise_insertionSort _ _
  have hnodup : (sortedSet ids).Nodup :=
    (List.perm_insertionSort _ _).nodup_iff.mpr (List.nodup_dedup ids)
  exact (hsorted.and hnodup).imp fun h => lt_of_le_of_ne h.1 h.2

/-- `CDCRoutedTransaction(...)`. -/
def CDCRoutedTransaction.new (transaction : CDCTransaction) (partitionIds : List ℕ)
    (routingGeneration : ℤ) (isMultiPartition : Bool) : CDCRoutedTransaction where
  transaction := transaction
  partitionIds := sortedSet partitionIds
  routingGeneration := routingGeneration
  isMultiPartition := isMultiPartition || decide (1 < (sortedSet partitionIds).length)
  sorted := sortedSet_sorted partitionIds

/-! ## The router -/

/-- `CDCPartitionRouter`. -/
structure CDCPartitionRouter where
  partitionCount : ℕ
  routingGeneration : ℤ
  shardKeyRules : List (String × String)
  count_pos : 0 < partitionCount

variable (rt : DigestRuntime)

/-- `get_deterministic_hash_slot`. -/
def hashSlot (cdcSessionId tableName entityKey : String) (partitionCount : ℕ)
    (routingGeneration : ℤ) : ℕ :=
  let payload := cdcSessionId ++ ":" ++ tableName ++ ":" ++ entityKey ++ ":" ++
    intText routingGeneration
  let digest := rt.sha256Hex payload
  ((hexInt (String.ofList (digest.toList.take 16))).getD 0).toNat % partitionCount

/-- The columns that are taken for a key. -/
def keyColumns (tableName : String) : List String := ["id", "uuid", "pk", tableName ++ "_id", "_id"]

/-- `event.after_image or event.before_image or {}`. -/
def eventImage (e : CDCEvent) : PyValue :=
  if isFalsy e.afterImage then orEmptyDict e.beforeImage else e.afterImage

/-- The column of a table that a rule names. -/
def customKeyField (router : CDCPartitionRouter) (tableName : String) : Option String :=
  match List.lookup tableName router.shardKeyRules with
  | some field => if field = "" then List.lookup "*" router.shardKeyRules else some field
  | none => List.lookup "*" router.shardKeyRules

/-- `extract_entity_key`: the value of the column a rule names, of the first key column, or of
the first column; the name of the table when there is no column. -/
def extractEntityKey (router : CDCPartitionRouter) (e : CDCEvent) : Except PyRaised String := do
  let image ← asDict "image" (eventImage e)
  let candidates := (customKeyField router e.sourceTable).toList.filter (· ≠ "") ++
    keyColumns e.sourceTable
  match candidates.find? fun column => (List.lookup column image).isSome with
  | some column => return rt.str (getValue image column)
  | none =>
    match (image.map Prod.fst).insertionSort (· ≤ ·) with
    | firstKey :: _ => return firstKey ++ ":" ++ rt.str (getValue image firstKey)
    | [] => return "table-" ++ e.sourceTable

/-- `route_event`: the partition of an event. -/
def routeEvent (router : CDCPartitionRouter) (e : CDCEvent) : Except PyRaised ℕ := do
  let entityKey ← extractEntityKey rt router e
  return hashSlot rt e.identity.cdcSessionId e.sourceTable entityKey router.partitionCount
    router.routingGeneration

/-- `route_transaction`. -/
def routeTransaction (router : CDCPartitionRouter) (tx : CDCTransaction) :
    Except PyRaised CDCRoutedTransaction := do
  let slots ← tx.events.mapM (routeEvent rt router)
  let targets := if slots = [] then [0] else slots.dedup
  return CDCRoutedTransaction.new tx targets router.routingGeneration (decide (1 < targets.length))

/-- A slot is a partition. -/
theorem hashSlot_lt (cdcSessionId tableName entityKey : String) {partitionCount : ℕ}
    (routingGeneration : ℤ) (h : 0 < partitionCount) :
    hashSlot rt cdcSessionId tableName entityKey partitionCount routingGeneration <
      partitionCount :=
  Nat.mod_lt _ h

theorem routeEvent_lt {router : CDCPartitionRouter} {e : CDCEvent} {pid : ℕ}
    (h : routeEvent rt router e = .ok pid) : pid < router.partitionCount := by
  obtain ⟨entityKey, -, h⟩ := Traversal.bind_eq_ok_iff.mp h
  cases h
  exact hashSlot_lt rt _ _ _ _ router.count_pos

/-- **What routing gives**: the transaction itself, with the partitions of its events (the first
one when it has none), of which there is at least one; it is marked as multi-partition exactly
when there are several. -/
theorem routeTransaction_ok {router : CDCPartitionRouter} {tx : CDCTransaction}
    {r : CDCRoutedTransaction} (h : routeTransaction rt router tx = .ok r) :
    r.transaction = tx ∧ r.partitionIds ≠ [] ∧
      (∀ pid ∈ r.partitionIds, pid < router.partitionCount) ∧
      (∀ e ∈ tx.events, ∃ pid ∈ r.partitionIds, routeEvent rt router e = .ok pid) ∧
      r.isMultiPartition = decide (1 < r.partitionIds.length) := by
  obtain ⟨slots, hslots, h⟩ := Traversal.bind_eq_ok_iff.mp h
  cases h
  have hforall := Traversal.mapM_eq_ok_iff.mp hslots
  have hmem : ∀ pid, pid ∈ sortedSet (if slots = [] then [0] else slots.dedup) ↔
      (slots = [] ∧ pid = 0) ∨ pid ∈ slots := by
    intro pid
    rw [mem_sortedSet]
    split_ifs with hnil
    · simp [hnil]
    · simp [hnil]
  have hlength : (sortedSet (if slots = [] then [0] else slots.dedup)).length =
      (if slots = [] then [0] else slots.dedup).length := by
    rw [sortedSet, List.length_insertionSort]
    congr 1
    apply List.dedup_eq_self.mpr
    split_ifs
    · exact List.nodup_singleton 0
    · exact List.nodup_dedup slots
  refine ⟨rfl, ?_, ?_, ?_, ?_⟩
  · show sortedSet (if slots = [] then [0] else slots.dedup) ≠ []
    cases hcase : slots with
    | nil => exact List.ne_nil_of_mem (mem_sortedSet.mpr (List.mem_singleton.mpr rfl))
    | cons pid rest =>
      rw [← hcase]
      exact List.ne_nil_of_mem ((hmem pid).mpr (.inr (by simp [hcase])))
  · intro pid hpid
    rcases (hmem pid).mp hpid with ⟨-, rfl⟩ | hpid
    · exact router.count_pos
    · obtain ⟨e, -, he⟩ := Traversal.exists_of_forall₂' hforall hpid
      exact routeEvent_lt rt he
  · intro e he
    obtain ⟨pid, hpid, hroute⟩ := Traversal.exists_of_forall₂ hforall he
    exact ⟨pid, (hmem pid).mpr (.inr hpid), hroute⟩
  · show (decide _ || decide (1 < (sortedSet _).length)) = decide (1 < (sortedSet _).length)
    rw [hlength, Bool.or_self]

/-! ## Cross-partition barriers -/

/-- `CDCBoundaryStatus`. -/
inductive CDCBoundaryStatus where
  | idle
  | reserved
  | inProgress
  | committed
  | rolledBack
  deriving DecidableEq

/-- A record `cdc_cross_barrier_<session>_<tx>`. -/
structure BarrierRecord where
  txId : String
  partitionIds : List ℕ
  routingGeneration : ℤ
  fencingEpoch : ℤ
  status : CDCBoundaryStatus
  deriving DecidableEq

/-- A record `cdc_partition_lock_<session>_<partition>`. -/
structure PartitionLock where
  txId : String
  fencingEpoch : ℤ
  deriving DecidableEq

/-- The records of the barriers and the locks of one session in the state store. -/
structure BarrierStore where
  records : String → Option BarrierRecord
  locks : ℕ → Option PartitionLock

/-- The store of a session without records. -/
def BarrierStore.empty : BarrierStore := ⟨fun _ => none, fun _ => none⟩

/-- A failure with the stale epoch of a caller. -/
def stalePartitionWorker (migrationId jobId runId cdcSessionId message : String) : PyRaised :=
  .executionError {
    failureType := .stalePartitionWorker
    category := .blocking
    message := message
    migrationId := migrationId
    jobId := jobId
    runId := runId
    cdcSessionId := cdcSessionId }

/-- Set the locks of some partitions. -/
def setLocks (locks : ℕ → Option PartitionLock) (lock : Option PartitionLock)
    (partitionIds : List ℕ) : ℕ → Option PartitionLock :=
  partitionIds.foldl (fun locks pid => Function.update locks pid lock) locks

/-- The locks that are set, and the others. -/
theorem setLocks_apply (locks : ℕ → Option PartitionLock) (lock : Option PartitionLock)
    (partitionIds : List ℕ) (pid : ℕ) :
    setLocks locks lock partitionIds pid = if pid ∈ partitionIds then lock else locks pid := by
  induction partitionIds generalizing locks with
  | nil => simp [setLocks]
  | cons q qs ih =>
    show setLocks (Function.update locks q lock) lock qs pid = _
    rw [ih]
    by_cases hqs : pid ∈ qs
    · simp [hqs]
    · by_cases hq : pid = q
      · simp [hq]
      · simp [hqs, hq]

namespace BarrierStore

/-- `prepare_cross_partition_barrier`: the partitions are locked for the transaction, unless it
has an active barrier already.  The active epoch is what the recovery coordinator compares the
epoch of the caller with. -/
def prepareCrossPartitionBarrier (b : BarrierStore) (identity : CDCEventIdentity)
    (r : CDCRoutedTransaction) (activeEpoch fencingEpoch : ℤ) : BarrierStore × Except PyRaised Unit :=
  if ¬ validateFencingToken activeEpoch fencingEpoch then
    (b, .error (stalePartitionWorker identity.migrationId identity.jobId identity.runId
      identity.cdcSessionId ("Stale fencing epoch " ++ intText fencingEpoch ++
        " rejected for cross-partition barrier prepare")))
  else if ¬ r.isMultiPartition then (b, .ok ())
  else if (b.records r.txId).any fun existing =>
      existing.status = .reserved ∨ existing.status = .inProgress then (b, .ok ())
  else ({
    records := Function.update b.records r.txId (some {
      txId := r.txId
      partitionIds := r.partitionIds
      routingGeneration := r.routingGeneration
      fencingEpoch := fencingEpoch
      status := .reserved })
    locks := setLocks b.locks (some ⟨r.txId, fencingEpoch⟩) r.partitionIds }, .ok ())

/-- `is_partition_locked`. -/
def isPartitionLocked (b : BarrierStore) (partitionId : ℕ) (txId : String) : Bool :=
  (b.locks partitionId).any fun lock => lock.txId ≠ txId

/-- `release_cross_partition_barrier`: the locks of the partitions in the record of the
transaction are cleared, whoever holds them. -/
def releaseCrossPartitionBarrier (b : BarrierStore) (cdcSessionId txId migrationId : String)
    (activeEpoch fencingEpoch : ℤ) (status : CDCBoundaryStatus) :
    BarrierStore × Except PyRaised Unit :=
  if ¬ validateFencingToken activeEpoch fencingEpoch then
    (b, .error (stalePartitionWorker migrationId "" "" cdcSessionId
      ("Stale fencing epoch " ++ intText fencingEpoch ++
        " rejected for cross-partition barrier release")))
  else
    match b.records txId with
    | none => (b, .ok ())
    | some existing => ({
        records := Function.update b.records txId (some { existing with status := status })
        locks := setLocks b.locks none existing.partitionIds }, .ok ())

end BarrierStore

/-! ## Partition ownership -/

/-- `CDCPartitionState`, as far as ownership is decided by it. -/
structure CDCPartitionState where
  routingGeneration : ℤ
  ownerWorkerId : String
  fencingEpoch : ℤ
  deriving DecidableEq

/-- `register_partition_worker`. -/
def registerPartitionWorker (ownership : ℕ → Option CDCPartitionState)
    (migrationId cdcSessionId : String) (partitionId : ℕ) (routingGeneration : ℤ)
    (workerId : String) (activeEpoch fencingEpoch : ℤ) :
    Except PyRaised (ℕ → Option CDCPartitionState) :=
  if ¬ validateFencingToken activeEpoch fencingEpoch then
    .error (stalePartitionWorker migrationId "" "" cdcSessionId
      ("Stale fencing epoch " ++ intText fencingEpoch ++ " rejected for worker " ++ workerId ++
        " partition " ++ intText partitionId))
  else
    let conflict := (ownership partitionId).filter fun current =>
      fencingEpoch < current.fencingEpoch
    match conflict with
    | some current =>
      .error (.executionError {
        failureType := .partitionOwnershipConflict
        category := .blocking
        message := "Ownership conflict: partition " ++ intText partitionId ++
          " owned by epoch " ++ intText current.fencingEpoch ++ " > candidate " ++
          intText fencingEpoch
        migrationId := migrationId
        jobId := ""
        runId := ""
        cdcSessionId := cdcSessionId })
    | none => .ok (Function.update ownership partitionId
        (some ⟨routingGeneration, workerId, fencingEpoch⟩))

/-- `validate_worker_ownership`. -/
def validateWorkerOwnership (ownership : ℕ → Option CDCPartitionState) (partitionId : ℕ)
    (workerId : String) (activeEpoch fencingEpoch : ℤ) : Bool :=
  validateFencingToken activeEpoch fencingEpoch && (ownership partitionId).any fun current =>
      current.ownerWorkerId = workerId ∧ current.fencingEpoch = fencingEpoch

end CDC

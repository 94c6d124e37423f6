/-
# Locks of cross-partition barriers

A barrier record is RESERVED for a transaction and one lock for each of its partitions names the
transaction.  Preparing a barrier overwrites the locks that are there, and releasing one clears the
locks of its partitions, whoever holds them.

* `holdsLocks_iff` : holding the locks of partitions is having them closed to all others;
* `exclusive_iff` : the runs in which reserved transactions hold their locks and releases clear
  no lock of another;
* `not_exclusive_of_overlap` : of two transactions with a common partition, the first loses its
  lock.
-/
import Akaal.CDCParallelEngine

open TransitionRun

namespace CDC

namespace BarrierStore

/-! ## Runs of the barrier -/

/-- A call; the active epoch is that of the recovery coordinator at the time. -/
inductive BarrierAction where
  | prepare (identity : CDCEventIdentity) (r : CDCRoutedTransaction)
      (activeEpoch fencingEpoch : ℤ)
  | release (cdcSessionId txId migrationId : String) (activeEpoch fencingEpoch : ℤ)
      (status : CDCBoundaryStatus)

/-- The store of the barriers, with what it was before the last call and the transaction whose
barrier that call released. -/
structure BarrierRun where
  before : BarrierStore
  released : Option String
  now : BarrierStore

/-- One call. -/
def barrierStep (s : BarrierRun) : BarrierAction → Option BarrierRun
  | .prepare identity r activeEpoch fencingEpoch => some {
      before := s.now
      released := none
      now := (s.now.prepareCrossPartitionBarrier identity r activeEpoch fencingEpoch).1 }
  | .release cdcSessionId txId migrationId activeEpoch fencingEpoch status => some {
      before := s.now
      released := some txId
      now := (s.now.releaseCrossPartitionBarrier cdcSessionId txId migrationId activeEpoch
        fencingEpoch status).1 }

/-- A run starts with an empty store. -/
def BarrierRun.start : BarrierRun := ⟨.empty, none, .empty⟩

/-! ## The property and the condition -/

/-- The partitions are locked for every other transaction. -/
def HoldsLocks (b : BarrierStore) (txId : String) (partitionIds : List ℕ) : Prop :=
  ∀ pid ∈ partitionIds, ∀ other, other ≠ txId → b.isPartitionLocked pid other = true

/-- Every transaction whose record is RESERVED holds the locks of its partitions, and a release
has left the locks of the other transactions as they were. -/
structure Exclusive (s : BarrierRun) : Prop where
  reserved : ∀ txId record, s.now.records txId = some record → record.status = .reserved →
    HoldsLocks s.now txId record.partitionIds
  kept : ∀ txId ∈ s.released, ∀ pid lock, s.before.locks pid = some lock → lock.txId ≠ txId →
    s.now.locks pid = some lock

/-- A transaction other than this one has reserved a partition of the list. -/
def ReservedByOther (b : BarrierStore) (txId : String) (partitionIds : List ℕ) : Prop :=
  ∃ other record, other ≠ txId ∧ b.records other = some record ∧ record.status = .reserved ∧
    ∃ pid ∈ record.partitionIds, pid ∈ partitionIds

/-- A transaction other than this one has locked a partition of the list. -/
def LockedByOther (b : BarrierStore) (txId : String) (partitionIds : List ℕ) : Prop :=
  ∃ pid ∈ partitionIds, b.isPartitionLocked pid txId = true

/-- The transaction has an active barrier already. -/
def IsActive (b : BarrierStore) (txId : String) : Prop :=
  ∃ record, b.records txId = some record ∧ (record.status = .reserved ∨ record.status = .inProgress)

/-- The condition.  A barrier is prepared for partitions none of which is reserved by another
transaction, and is released for partitions none of which is locked by another, to a status other
than RESERVED. -/
def FindsOwnLocks (s : BarrierRun) : BarrierAction → Prop
  | .prepare _ r activeEpoch fencingEpoch =>
    validateFencingToken activeEpoch fencingEpoch = true → r.isMultiPartition = true →
      ¬ s.now.IsActive r.txId → ¬ s.now.ReservedByOther r.txId r.partitionIds
  | .release _ txId _ activeEpoch fencingEpoch status =>
    validateFencingToken activeEpoch fencingEpoch = true →
      ∀ record, s.now.records txId = some record → ¬ s.now.LockedByOther txId record.partitionIds ∧
          (status = .reserved → record.partitionIds = [])

variable {b b' : BarrierStore} {s s' : BarrierRun} {txId : String} {partitionIds : List ℕ}

/-! ## Holding a lock -/

theorem locked_for_others_iff {pid : ℕ} :
    (∀ other, other ≠ txId → b.isPartitionLocked pid other = true) ↔
      ∃ lock, b.locks pid = some lock ∧ lock.txId = txId := by
  constructor
  · intro h
    have hne : txId ++ "'" ≠ txId := by
      intro heq
      have hlength := congrArg String.length heq
      simp at hlength
    have hlocked := h _ hne
    cases hlock : b.locks pid with
    | none =>
      rw [isPartitionLocked, hlock] at hlocked
      cases hlocked
    | some lock =>
      refine ⟨lock, rfl, ?_⟩
      by_contra hother
      have hself := h lock.txId hother
      rw [isPartitionLocked, hlock] at hself
      simp at hself
  · rintro ⟨lock, hlock, rfl⟩ other hother
    rw [isPartitionLocked, hlock]
    simp [Ne.symm hother]

/-- **Holding the locks of partitions.** -/
theorem holdsLocks_iff : HoldsLocks b txId partitionIds ↔
      ∀ pid ∈ partitionIds, ∃ lock, b.locks pid = some lock ∧ lock.txId = txId := by
  unfold HoldsLocks
  simp only [locked_for_others_iff]

theorem isPartitionLocked_iff {pid : ℕ} :
    b.isPartitionLocked pid txId = true ↔ ∃ lock, b.locks pid = some lock ∧ lock.txId ≠ txId := by
  rw [isPartitionLocked, Option.any_eq_true]
  simp

/-! ## What the calls change -/

theorem prepare_cases (b : BarrierStore) (identity : CDCEventIdentity) (r : CDCRoutedTransaction)
    (activeEpoch fencingEpoch : ℤ) :
    let proceeds := validateFencingToken activeEpoch fencingEpoch = true ∧
      r.isMultiPartition = true ∧ ¬ b.IsActive r.txId
    let after := (b.prepareCrossPartitionBarrier identity r activeEpoch fencingEpoch).1
    (¬ proceeds ∧ after = b) ∨ (proceeds ∧
        (∃ record, after.records = Function.update b.records r.txId (some record) ∧
          record.partitionIds = r.partitionIds ∧ record.status = .reserved) ∧
        after.locks = setLocks b.locks (some ⟨r.txId, fencingEpoch⟩) r.partitionIds) := by
  dsimp only
  have hactive : ((b.records r.txId).any fun existing =>
      existing.status = .reserved ∨ existing.status = .inProgress) = true ↔ b.IsActive r.txId := by
    rw [Option.any_eq_true, IsActive]
    simp
  rw [prepareCrossPartitionBarrier]
  by_cases hepoch : validateFencingToken activeEpoch fencingEpoch = true
  · rw [if_neg (not_not.mpr hepoch)]
    by_cases hmulti : r.isMultiPartition = true
    · rw [if_neg (not_not.mpr hmulti)]
      by_cases hrecord : b.IsActive r.txId
      · rw [if_pos (hactive.mpr hrecord)]
        exact .inl ⟨fun h => h.2.2 hrecord, rfl⟩
      · rw [if_neg fun h => hrecord (hactive.mp h)]
        exact .inr ⟨⟨hepoch, hmulti, hrecord⟩, ⟨_, rfl, rfl, rfl⟩, rfl⟩
    · rw [if_pos hmulti]
      exact .inl ⟨fun h => hmulti h.2.1, rfl⟩
  · rw [if_pos hepoch]
    exact .inl ⟨fun h => hepoch h.1, rfl⟩

theorem release_cases (b : BarrierStore) (cdcSessionId txId migrationId : String)
    (activeEpoch fencingEpoch : ℤ) (status : CDCBoundaryStatus) :
    let after := (b.releaseCrossPartitionBarrier cdcSessionId txId migrationId activeEpoch
      fencingEpoch status).1
    (¬ (validateFencingToken activeEpoch fencingEpoch = true ∧ ∃ record, b.records txId = some record) ∧
        after = b) ∨
      ∃ record, validateFencingToken activeEpoch fencingEpoch = true ∧
        b.records txId = some record ∧
        after.records = Function.update b.records txId (some { record with status := status }) ∧
        after.locks = setLocks b.locks none record.partitionIds := by
  dsimp only
  rw [releaseCrossPartitionBarrier]
  by_cases hepoch : validateFencingToken activeEpoch fencingEpoch = true
  · rw [if_neg (not_not.mpr hepoch)]
    cases hrecord : b.records txId with
    | none =>
      refine .inl ⟨?_, rfl⟩
      rintro ⟨-, record, h⟩
      cases h
    | some record => exact .inr ⟨record, hepoch, rfl, rfl, rfl⟩
  · rw [if_pos hepoch]
    exact .inl ⟨fun h => hepoch h.1, rfl⟩

/-! ## One call -/

theorem Exclusive.unchanged (hP : Exclusive s) (released : Option String) :
    Exclusive ⟨s.now, released, s.now⟩ :=
  ⟨hP.reserved, fun _ _ _ _ hlock _ => hlock⟩

/-- **A barrier that is prepared, exactly.** -/
theorem exclusive_prepared_iff (hP : Exclusive s) {record : BarrierRecord} {epoch : ℤ}
    (hrecords : b.records = Function.update s.now.records txId (some record))
    (hlocks : b.locks = setLocks s.now.locks (some ⟨txId, epoch⟩) record.partitionIds) :
    Exclusive ⟨s.now, none, b⟩ ↔ ¬ s.now.ReservedByOther txId record.partitionIds := by
  have hown : ∀ pid, pid ∈ record.partitionIds → b.locks pid = some ⟨txId, epoch⟩ := by
    intro pid hpid
    rw [hlocks, setLocks_apply, if_pos hpid]
  constructor
  · rintro h ⟨other, record', hne, hrecord', hstatus, pid, hpid', hpid⟩
    have hrecord : b.records other = some record' := by
      rw [hrecords, Function.update_of_ne hne]
      exact hrecord'
    obtain ⟨lock, hlock, hholder⟩ :=
      holdsLocks_iff.mp (h.reserved other record' hrecord hstatus) pid hpid'
    rw [hown pid hpid, Option.some.injEq] at hlock
    rw [← hlock] at hholder
    exact hne hholder.symm
  · intro h
    refine ⟨?_, fun other hother => by cases hother⟩
    intro other record' hrecord' hstatus
    rw [holdsLocks_iff]
    intro pid hpid
    have hrecord : Function.update s.now.records txId (some record) other = some record' :=
      hrecords ▸ hrecord'
    by_cases hother : other = txId
    · subst hother
      rw [Function.update_self, Option.some.injEq] at hrecord
      subst hrecord
      exact ⟨_, hown pid hpid, rfl⟩
    · rw [Function.update_of_ne hother] at hrecord
      have hnot : pid ∉ record.partitionIds := fun hmem =>
        h ⟨other, record', hother, hrecord, hstatus, pid, hpid, hmem⟩
      obtain ⟨lock, hlock, hholder⟩ :=
        holdsLocks_iff.mp (hP.reserved other record' hrecord hstatus) pid hpid
      refine ⟨lock, ?_, hholder⟩
      show b.locks pid = some lock
      rw [hlocks, setLocks_apply, if_neg hnot]
      exact hlock

/-- **A barrier that is released, exactly.** -/
theorem exclusive_released_iff (hP : Exclusive s) {record : BarrierRecord}
    {status : CDCBoundaryStatus} (hrecord : s.now.records txId = some record)
    (hrecords : b.records = Function.update s.now.records txId
      (some { record with status := status }))
    (hlocks : b.locks = setLocks s.now.locks none record.partitionIds) :
    Exclusive ⟨s.now, some txId, b⟩ ↔ ¬ s.now.LockedByOther txId record.partitionIds ∧
      (status = .reserved → record.partitionIds = []) := by
  have hcleared : ∀ pid, pid ∈ record.partitionIds → b.locks pid = none := by
    intro pid hpid
    rw [hlocks, setLocks_apply, if_pos hpid]
  constructor
  · intro h
    constructor
    · rintro ⟨pid, hpid, hlocked⟩
      obtain ⟨lock, hlock, hother⟩ := isPartitionLocked_iff.mp hlocked
      have hkept := h.kept txId rfl pid lock hlock hother
      rw [hcleared pid hpid] at hkept
      cases hkept
    · intro hstatus
      rw [List.eq_nil_iff_forall_not_mem]
      intro pid hpid
      have hself : b.records txId = some { record with status := status } := by
        rw [hrecords, Function.update_self]
      obtain ⟨lock, hlock, -⟩ := holdsLocks_iff.mp (h.reserved txId _ hself hstatus) pid hpid
      rw [hcleared pid hpid] at hlock
      cases hlock
  · rintro ⟨hlocked, hstatus⟩
    have hfree : ∀ pid lock, s.now.locks pid = some lock → lock.txId ≠ txId →
        b.locks pid = some lock := by
      intro pid lock hlock hother
      rw [hlocks, setLocks_apply, if_neg]
      · exact hlock
      · exact fun hpid => hlocked ⟨pid, hpid, isPartitionLocked_iff.mpr ⟨lock, hlock, hother⟩⟩
    refine ⟨?_, ?_⟩
    · intro other record' hrecord' hreserved
      rw [holdsLocks_iff]
      intro pid hpid
      have hrecord' : Function.update s.now.records txId
          (some { record with status := status }) other = some record' := hrecords ▸ hrecord'
      by_cases hother : other = txId
      · subst hother
        rw [Function.update_self, Option.some.injEq] at hrecord'
        subst hrecord'
        rw [hstatus hreserved] at hpid
        exact absurd hpid List.not_mem_nil
      · rw [Function.update_of_ne hother] at hrecord'
        obtain ⟨lock, hlock, hholder⟩ :=
          holdsLocks_iff.mp (hP.reserved other record' hrecord' hreserved) pid hpid
        exact ⟨lock, hfree pid lock hlock (by rw [hholder]; exact hother), hholder⟩
    · intro other hother pid lock hlock hne
      cases hother
      exact hfree pid lock hlock hne

/-- **One call, exactly.** -/
theorem exclusive_step_iff (hP : Exclusive s) {a : BarrierAction} (h : barrierStep s a = some s') :
    Exclusive s' ↔ FindsOwnLocks s a := by
  cases a with
  | prepare identity r activeEpoch fencingEpoch =>
    rw [barrierStep, Option.some.injEq] at h
    subst h
    rcases prepare_cases s.now identity r activeEpoch fencingEpoch with
      ⟨hnot, heq⟩ | ⟨hproceeds, ⟨record, hrecords, hpids, -⟩, hlocks⟩
    · rw [heq]
      exact ⟨fun _ hepoch hmulti hactive => absurd ⟨hepoch, hmulti, hactive⟩ hnot,
        fun _ => hP.unchanged none⟩
    · rw [← hpids] at hlocks
      rw [exclusive_prepared_iff hP hrecords hlocks, hpids]
      exact ⟨fun hfree _ _ _ => hfree, fun hC => hC hproceeds.1 hproceeds.2.1 hproceeds.2.2⟩
  | release cdcSessionId txId migrationId activeEpoch fencingEpoch status =>
    rw [barrierStep, Option.some.injEq] at h
    subst h
    rcases release_cases s.now cdcSessionId txId migrationId activeEpoch fencingEpoch status with
      ⟨hnot, heq⟩ | ⟨record, hepoch, hrecord, hrecords, hlocks⟩
    · rw [heq]
      exact ⟨fun _ hepoch record hrecord => absurd ⟨hepoch, record, hrecord⟩ hnot,
        fun _ => hP.unchanged (some txId)⟩
    · rw [exclusive_released_iff hP hrecord hrecords hlocks]
      constructor
      · intro hfree _ record' hrecord'
        cases hrecord.symm.trans hrecord'
        exact hfree
      · exact fun hC => hC hepoch record hrecord

/-! ## Runs -/

/-- **The exact condition.**  In every run of calls from an empty store each transaction whose
record is RESERVED holds the locks of its partitions and no release clears a lock of another,
precisely when barriers are prepared for partitions not reserved by others and released for
partitions not locked by others. -/
theorem exclusive_iff (calls : List BarrierAction) : HoldsAlong barrierStep Exclusive .start calls ↔
      MeetsAlong barrierStep FindsOwnLocks .start calls := by
  apply holdsAlong_iff_meetsAlong (I := fun _ => True)
  · exact fun _ _ _ _ _ => trivial
  · exact fun s a s' _ hP h => exclusive_step_iff hP h
  · trivial
  · refine ⟨?_, ?_⟩
    · intro txId record hrecord
      cases hrecord
    · intro txId htx
      cases htx

/-! ## Two transactions -/

/-- A transaction over two partitions. -/
def overTwo (txId : String) (first second : ℕ) : CDCRoutedTransaction :=
  .new (sampleTransaction txId 1 []) [first, second] 1 true

/-- Both transactions are prepared; they have the partition 1 in common. -/
def overlap : List BarrierAction :=
  [.prepare sampleIdentity (overTwo "t1" 0 1) 1 1, .prepare sampleIdentity (overTwo "t2" 1 2) 1 1]

/-- The first transaction is RESERVED without the lock of the common partition. -/
theorem not_exclusive_of_overlap : ¬ HoldsAlong barrierStep Exclusive .start overlap := by
  intro h
  have hrun : (run barrierStep .start overlap).map (fun s => (s.now.records "t1", s.now.locks 1)) =
      some (some ⟨"t1", [0, 1], 1, 1, .reserved⟩, some ⟨"t2", 1⟩) := by
    decide
  obtain ⟨s, hs, hparts⟩ := Option.map_eq_some_iff.mp hrun
  simp only [Prod.mk.injEq] at hparts
  obtain ⟨hrecord, hlock⟩ := hparts
  have hholds := (h.finish hs).reserved "t1" _ hrecord rfl
  obtain ⟨lock, hlock', hholder⟩ := holdsLocks_iff.mp hholds 1 (by decide)
  rw [hlock, Option.some.injEq] at hlock'
  subst hlock'
  revert hholder
  decide

end BarrierStore

end CDC

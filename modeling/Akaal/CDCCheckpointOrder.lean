/-
# The durable checkpoint and the frontier

Each worker of `CDCParallelApplyEngine` writes the checkpoint of the transaction it has just
applied; the tracker computes the contiguous frontier.  The two are kept apart, so the checkpoint
is behind the frontier only in the runs in which no partition gets ahead of the others.

* `checkpointBehind_iff` : the runs in which the checkpoint skips no dispatched transaction;
* `not_checkpointBehind_of_later_first` : two partitions, the later position first, are no such
  run.
-/
import Akaal.CDCParallelEngine
import Akaal.CDCPositionOrder

open TransitionRun ContiguousFrontier

namespace CDC

namespace CDCParallelApplyEngine

variable {rt : DigestRuntime} {s s' : CDCParallelApplyEngine} {S : Set CDCSourcePosition}
  {K : Type*} [LinearOrder K] {key : CDCSourcePosition → K}

/-! ## The property and the condition -/

/-- The position in the checkpoint record is not after the frontier, and no dispatched
transaction that has not been executed is before it. -/
structure CheckpointBehind (s : CDCParallelApplyEngine) : Prop where
  frontier : ∀ c, s.store.checkpoint = some c →
    ∃ f, s.frontierTracker.frontierPosition = some f ∧ c.sourcePosition.gt f = .ok false
  unapplied : ∀ c, s.store.checkpoint = some c → ∀ r ∈ s.dispatched, r.txId ∉ s.executed →
    r.commitPosition.lt c.sourcePosition = .ok false

/-- The frontier reaches a position already, or nothing is pending before it. -/
def FrontierReaches (s : CDCParallelApplyEngine) (p : CDCSourcePosition) : Prop :=
  (∃ f, s.frontierTracker.frontierPosition = some f ∧ p.gt f = .ok false) ∨
    ∀ pending ∈ s.frontierTracker.pendingPositions, pending.lt p = .ok false

/-- The condition.  A dispatch that is accepted is of an executed transaction or not before the
checkpoint.  When a worker's call gets to write its checkpoint, the frontier reaches the
transaction, and no other transaction that waits in a queue is before it. -/
def AppliesInOrder (rt : DigestRuntime) (s : CDCParallelApplyEngine) : EngineAction → Prop
  | .dispatch tx activeEpoch fencingEpoch =>
    AcceptsDispatch rt s tx activeEpoch fencingEpoch → tx.txId ∉ s.executed →
      ∀ c, s.store.checkpoint = some c → tx.commitPosition.lt c.sourcePosition = .ok false
  | .iterate pid ctx _ =>
    ∀ batch worker q, s.batches pid = some batch → s.workers pid = some worker →
      s.current pid batch = some q →
      ReachesCheckpoint ctx s.identity (s.view worker) batch.fencingEpoch
        q.routed.transaction →
      s.FrontierReaches q.routed.commitPosition ∧ ∀ pid', ∀ q' ∈ s.partitionQueues pid',
          q'.routed.txId ∉ s.executed → q'.routed.txId ≠ q.routed.txId →
            q'.routed.commitPosition.lt q.routed.commitPosition = .ok false
  | _ => True

/-- The positions that are dispatched are among those that are ordered. -/
def DispatchesIn (S : Set CDCSourcePosition) : EngineAction → Prop
  | .dispatch tx _ _ => tx.commitPosition ∈ S
  | _ => True

/-! ## Positions in order -/

/-- The positions the engine holds are in the set, and the lists of the tracker are in order. -/
structure Positioned (S : Set CDCSourcePosition) (key : CDCSourcePosition → K)
    (s : CDCParallelApplyEngine) : Prop where
  within : s.frontierTracker.Within S
  sorted : (s.frontierTracker.keys key).Sorted
  checkpoint : ∀ c, s.store.checkpoint = some c → c.sourcePosition ∈ S
  dispatched : ∀ r ∈ s.dispatched, r.commitPosition ∈ S

/-- The property in terms of the keys. -/
theorem checkpointBehind_iff_keys (hS : PositionOrder S key) (hs : Positioned S key s) :
    CheckpointBehind s ↔ ∀ c, s.store.checkpoint = some c →
      (key c.sourcePosition : WithBot K) ≤ (s.frontierTracker.keys key).frontier ∧
        ∀ r ∈ s.dispatched, r.txId ∉ s.executed → key c.sourcePosition ≤ key r.commitPosition := by
  constructor
  · intro h c hc
    refine ⟨(hS.reaches_iff hs.within.frontier (hs.checkpoint c hc)).mp (h.frontier c hc), ?_⟩
    intro r hr hfresh
    exact (hS.lt_eq_false_iff (hs.dispatched r hr) (hs.checkpoint c hc)).mp
      (h.unapplied c hc r hr hfresh)
  · intro h
    refine ⟨fun c hc => ?_, fun c hc r hr hfresh => ?_⟩
    · exact (hS.reaches_iff hs.within.frontier (hs.checkpoint c hc)).mpr (h c hc).1
    · exact (hS.lt_eq_false_iff (hs.dispatched r hr) (hs.checkpoint c hc)).mpr
        ((h c hc).2 r hr hfresh)

/-- When the frontier reaches a position, in terms of the keys. -/
theorem frontierReaches_iff (hS : PositionOrder S key) (hs : Positioned S key s)
    {p : CDCSourcePosition} (hp : p ∈ S) :
    s.FrontierReaches p ↔ (key p : WithBot K) ≤
      ((s.frontierTracker.keys key).complete (key p)).frontier := by
  rw [hs.sorted.le_complete_iff, FrontierReaches, hS.reaches_iff hs.within.frontier hp]
  refine or_congr Iff.rfl ?_
  simp only [CDCCheckpointFrontierTracker.keys, List.forall_mem_map]
  refine forall₂_congr fun q hq => ?_
  exact hS.lt_eq_false_iff (hs.within.pending q hq) hp

/-- A call of a worker keeps the positions in order. -/
theorem Positioned.afterApply (hs : Positioned S key s) {pid : ℕ} {batch : Batch}
    {worker : CDCApplyWorker} {ctx : ApplyContext} {q : QueuedTransaction} {t : ApplyState}
    {result : Except PyRaised ApplyResult} (h : s.Applies pid batch worker ctx q t result)
    (hq : q.routed.commitPosition ∈ S) : Positioned S key (s.afterApply pid q t) := by
  rcases applyNext_cases h.call with ⟨-, hquiet, -⟩ | ⟨-, hexecutes, hsettles⟩
  · rw [afterApply_quiet hquiet]
    exact ⟨hs.within, hs.sorted, hs.checkpoint, hs.dispatched⟩
  · rw [afterApply_executes hexecutes]
    refine ⟨hs.within, hs.sorted, ?_, hs.dispatched⟩
    intro c hc
    by_cases hreached : ReachesCheckpoint ctx s.identity (s.view worker) batch.fencingEpoch
        q.routed.transaction
    · obtain ⟨-, ckpt, hckpt, hposition⟩ := hsettles.written hreached
      have hsame : some ckpt = some c := hckpt.symm.trans hc
      cases hsame
      rw [hposition]
      exact hq
    · exact hs.checkpoint c ((hsettles.kept hreached).2.symm.trans hc)

/-- A completion keeps the positions in order; the keys of the tracker complete the key. -/
theorem Positioned.completeQueued (hS : PositionOrder S key) (hs : Positioned S key s)
    {q : QueuedTransaction} (hq : q.routed.commitPosition ∈ S) {releaseEpoch epoch : ℤ}
    {result : Except PyRaised Unit} (h : s.completeQueued q releaseEpoch epoch = (s', result)) :
    Positioned S key s' ∧ s'.frontierTracker.keys key =
      (s.frontierTracker.keys key).complete (key q.routed.commitPosition) := by
  obtain ⟨-, hwithin, hkeys⟩ := CDCCheckpointFrontierTracker.keys_record hS hs.within hq
  obtain ⟨barriers, rfl⟩ := completeQueued_eq h
  refine ⟨⟨hwithin, ?_, hs.checkpoint, hs.dispatched⟩, hkeys⟩
  show (CDCCheckpointFrontierTracker.keys key _).Sorted
  rw [hkeys]
  exact hs.sorted.complete _

/-- A dispatch keeps the positions in order. -/
theorem Positioned.dispatch (hS : PositionOrder S key) (hs : Positioned S key s)
    {tx : CDCTransaction} (htx : tx.commitPosition ∈ S) {activeEpoch fencingEpoch : ℤ}
    {result : Except PyRaised CDCRoutedTransaction}
    (h : s.dispatchTransaction rt tx activeEpoch fencingEpoch = (s', result)) :
    Positioned S key s' := by
  obtain ⟨-, hwithin, hkeys⟩ := CDCCheckpointFrontierTracker.keys_register hS hs.within htx
  have hsorted := hs.sorted.register (key tx.commitPosition)
  rw [← hkeys] at hsorted
  rcases dispatch_cases h with ⟨e, hashes, barriers, tracker, -, htracker, rfl⟩ |
      ⟨routed, hashes, barriers, -, hroute, rfl⟩
  · rcases htracker with rfl | rfl
    · exact ⟨hs.within, hs.sorted, hs.checkpoint, hs.dispatched⟩
    · exact ⟨hwithin, hsorted, hs.checkpoint, hs.dispatched⟩
  · refine ⟨hwithin, hsorted, hs.checkpoint, ?_⟩
    intro r hr
    have hsplit : r ∈ s.dispatched ++ [routed] := hr
    rw [List.mem_append, List.mem_singleton] at hsplit
    rcases hsplit with hr | rfl
    · exact hs.dispatched r hr
    · rw [CDCRoutedTransaction.commitPosition, (routeTransaction_ok rt hroute).1]
      exact htx

theorem Positioned.current (hs : Positioned S key s) (hq : QueueInvariant s) {pid : ℕ}
    {batch : Batch} {q : QueuedTransaction} (h : s.current pid batch = some q) :
    q.routed.commitPosition ∈ S :=
  hs.dispatched _ (List.mem_of_getElem? (hq.queued pid q (mem_of_current h)).1)

theorem Positioned.step (hS : PositionOrder S key) (hq : QueueInvariant s)
    (hs : Positioned S key s) {a : EngineAction} (ha : DispatchesIn S a)
    (h : engineStep rt s a = some s') : Positioned S key s' := by
  rcases engineStep_cases h with ⟨-, -, ownership, workers, batches, isPaused, rfl⟩ |
    ⟨tx, activeEpoch, fencingEpoch, rfl, rfl⟩ |
    ⟨pid, ctx, releaseEpoch, batch, worker, rfl, hbatch, hworker, rfl⟩
  · exact ⟨hs.within, hs.sorted, hs.checkpoint, hs.dispatched⟩
  · exact hs.dispatch hS ha (Prod.ext rfl rfl)
  · rcases iterate_cases s pid batch worker ctx releaseEpoch with
      ⟨-, heq⟩ | ⟨q, t, e, happlies, heq⟩ |
        ⟨q, t, r, completed, result, happlies, hcomplete, hend⟩
    · rw [heq]
      exact ⟨hs.within, hs.sorted, hs.checkpoint, hs.dispatched⟩
    · have happlied := hs.afterApply happlies (hs.current hq happlies.current)
      rw [heq]
      exact ⟨happlied.within, happlied.sorted, happlied.checkpoint, happlied.dispatched⟩
    · have hposition := hs.current hq happlies.current
      obtain ⟨hcompleted, -⟩ :=
        (hs.afterApply happlies hposition).completeQueued hS hposition hcomplete
      rcases hend with ⟨-, heq⟩ | ⟨-, heq⟩
      · rw [heq]
        exact ⟨hcompleted.within, hcompleted.sorted, hcompleted.checkpoint, hcompleted.dispatched⟩
      · rw [heq]
        exact ⟨hcompleted.within, hcompleted.sorted, hcompleted.checkpoint, hcompleted.dispatched⟩

/-! ## One action -/

section Iterate

variable {pid : ℕ} {batch : Batch} {worker : CDCApplyWorker} {ctx : ApplyContext}
  {releaseEpoch : ℤ} {q : QueuedTransaction}

/-- The condition on an iteration whose batch, worker and transaction are at hand. -/
theorem appliesInOrder_iterate_iff (hbatch : s.batches pid = some batch)
    (hworker : s.workers pid = some worker) (hcurrent : s.current pid batch = some q) :
    AppliesInOrder rt s (.iterate pid ctx releaseEpoch) ↔
      (ReachesCheckpoint ctx s.identity (s.view worker) batch.fencingEpoch
          q.routed.transaction →
        s.FrontierReaches q.routed.commitPosition ∧ ∀ pid', ∀ q' ∈ s.partitionQueues pid',
            q'.routed.txId ∉ s.executed → q'.routed.txId ≠ q.routed.txId →
              q'.routed.commitPosition.lt q.routed.commitPosition = .ok false) := by
  constructor
  · intro h
    exact h batch worker q hbatch hworker hcurrent
  · intro h batch' worker' q' hbatch' hworker' hcurrent'
    cases hbatch.symm.trans hbatch'
    cases hworker.symm.trans hworker'
    cases hcurrent.symm.trans hcurrent'
    exact h

theorem forall_unapplied_iff (hq : QueueInvariant s) {P : CDCRoutedTransaction → Prop} :
    (∀ r ∈ s.dispatched, r.txId ∉ s.executed → P r) ↔
      ∀ pid, ∀ q ∈ s.partitionQueues pid, q.routed.txId ∉ s.executed → P q.routed := by
  constructor
  · intro h pid q hmem hfresh
    exact h q.routed (List.mem_of_getElem? (hq.queued pid q hmem).1) hfresh
  · intro h r hr hfresh
    obtain ⟨n, hn⟩ := List.getElem?_of_mem hr
    exact h r.primaryPartitionId ⟨n, r⟩ (hq.waiting n r hn hfresh) hfresh

/-- A call that writes its checkpoint: the property afterwards is the condition before. -/
theorem checkpointBehind_written_iff (hS : PositionOrder S key) (hq : QueueInvariant s)
    (hs : Positioned S key s) {t : ApplyState} {result : Except PyRaised ApplyResult}
    {completed : CDCParallelApplyEngine} {epoch : ℤ} {result' : Except PyRaised Unit}
    (happlies : s.Applies pid batch worker ctx q t result)
    (hexecutes : Executes (s.view worker) t q.routed.transaction)
    (hwritten : ∃ ckpt, t.store.checkpoint = some ckpt ∧
      ckpt.sourcePosition = q.routed.transaction.commitPosition)
    (hcomplete : (s.afterApply pid q t).completeQueued q releaseEpoch epoch =
      (completed, result')) :
    CheckpointBehind completed ↔ s.FrontierReaches q.routed.commitPosition ∧
      ∀ pid', ∀ q' ∈ s.partitionQueues pid',
        q'.routed.txId ∉ s.executed → q'.routed.txId ≠ q.routed.txId →
          q'.routed.commitPosition.lt q.routed.commitPosition = .ok false := by
  have hposition := hs.current hq happlies.current
  obtain ⟨hcompleted, hkeys⟩ :=
    (hs.afterApply happlies hposition).completeQueued hS hposition hcomplete
  obtain ⟨ckpt, hckpt, hckptPosition⟩ := hwritten
  rw [checkpointBehind_iff_keys hS hcompleted, frontierReaches_iff hS hs hposition, hkeys]
  rw [afterApply_executes hexecutes] at hcomplete ⊢
  obtain ⟨barriers, rfl⟩ := completeQueued_eq hcomplete
  have hkey : key ckpt.sourcePosition = key q.routed.commitPosition := by
    rw [hckptPosition]
    rfl
  have hunapplied : (∀ r ∈ s.dispatched, r.txId ∉ s.executed ++ [q.routed.txId] →
        key q.routed.commitPosition ≤ key r.commitPosition) ↔
      ∀ pid', ∀ q' ∈ s.partitionQueues pid',
        q'.routed.txId ∉ s.executed → q'.routed.txId ≠ q.routed.txId →
          q'.routed.commitPosition.lt q.routed.commitPosition = .ok false := by
    have hsplit : ∀ r : CDCRoutedTransaction, r.txId ∉ s.executed ++ [q.routed.txId] ↔
        r.txId ∉ s.executed ∧ r.txId ≠ q.routed.txId := by
      intro r
      rw [List.mem_append, List.mem_singleton, not_or]
    simp only [hsplit, and_imp]
    rw [forall_unapplied_iff hq]
    refine forall_congr' fun pid' => forall₂_congr fun q' hq' => forall₂_congr fun _ _ => ?_
    have hmem := List.mem_of_getElem? (hq.queued pid' q' hq').1
    exact (hS.lt_eq_false_iff (hs.dispatched _ hmem) hposition).symm
  rw [← hunapplied]
  constructor
  · intro h
    have hboth := h ckpt hckpt
    rw [hkey] at hboth
    exact hboth
  · rintro hboth c hc
    have hsame : some ckpt = some c := hckpt.symm.trans hc
    cases hsame
    rw [hkey]
    exact hboth

/-- **One iteration, exactly.** -/
theorem checkpointBehind_iterate_iff (hS : PositionOrder S key) (hq : QueueInvariant s)
    (hs : Positioned S key s) (hP : CheckpointBehind s) (hbatch : s.batches pid = some batch)
    (hworker : s.workers pid = some worker) :
    CheckpointBehind (s.iterate pid batch worker ctx releaseEpoch).1 ↔
      AppliesInOrder rt s (.iterate pid ctx releaseEpoch) := by
  rcases iterate_cases s pid batch worker ctx releaseEpoch with
    ⟨hnone, heq⟩ | ⟨q, t, e, happlies, heq⟩ | ⟨q, t, r, completed, result, happlies, hcomplete, hend⟩
  · -- The batch is closed: nothing the property is about has changed.
    rw [heq]
    refine ⟨fun _ => ?_, fun _ => ⟨hP.frontier, hP.unapplied⟩⟩
    intro batch' worker' q' hbatch' _ hcurrent'
    cases hbatch.symm.trans hbatch'
    rw [hnone] at hcurrent'
    cases hcurrent'
  · -- The call raises: the checkpoint is the old one.
    rw [heq, appliesInOrder_iterate_iff hbatch hworker happlies.current]
    rcases applyNext_cases happlies.call with ⟨hreach, hquiet, -⟩ | ⟨-, hexecutes, hsettles⟩
    · rw [afterApply_quiet hquiet]
      exact ⟨fun _ hr => absurd hr.toReachesTarget hreach, fun _ => ⟨hP.frontier, hP.unapplied⟩⟩
    · have hreach : ¬ ReachesCheckpoint ctx s.identity (s.view worker) batch.fencingEpoch
          q.routed.transaction := by
        intro hr
        obtain ⟨⟨r, hr⟩, -⟩ := hsettles.written hr
        cases hr
      have hckpt : t.store.checkpoint = s.store.checkpoint := (hsettles.kept hreach).2
      rw [afterApply_executes hexecutes]
      refine ⟨fun _ hr => absurd hr hreach, fun _ => ⟨fun c hc => ?_, fun c hc r hr hfresh => ?_⟩⟩
      · exact hP.frontier c (hckpt.symm.trans hc)
      · exact hP.unapplied c (hckpt.symm.trans hc) r hr
          fun hmem => hfresh (List.mem_append_left _ hmem)
  · -- The call returns, and its transaction is completed.
    have hends : CheckpointBehind (s.iterate pid batch worker ctx releaseEpoch).1 ↔
        CheckpointBehind completed := by
      rcases hend with ⟨-, heq⟩ | ⟨-, heq⟩
      · rw [heq]
        exact ⟨fun h => ⟨h.frontier, h.unapplied⟩, fun h => ⟨h.frontier, h.unapplied⟩⟩
      · rw [heq]
        exact ⟨fun h => ⟨h.frontier, h.unapplied⟩, fun h => ⟨h.frontier, h.unapplied⟩⟩
    rw [hends, appliesInOrder_iterate_iff hbatch hworker happlies.current]
    rcases applyNext_cases happlies.call with ⟨hreach, hquiet, -⟩ | ⟨-, hexecutes, hsettles⟩
    · refine ⟨fun _ hr => absurd hr.toReachesTarget hreach, fun _ => ?_⟩
      have hposition := hs.current hq happlies.current
      obtain ⟨hcompleted, hkeys⟩ :=
        (hs.afterApply happlies hposition).completeQueued hS hposition hcomplete
      rw [checkpointBehind_iff_keys hS hcompleted, hkeys]
      rw [afterApply_quiet hquiet] at hcomplete ⊢
      obtain ⟨barriers, rfl⟩ := completeQueued_eq hcomplete
      intro c hc
      obtain ⟨hfrontier, hunapplied⟩ := (checkpointBehind_iff_keys hS hs).mp hP c hc
      exact ⟨le_trans hfrontier (Tracker.frontier_le_complete _ _), hunapplied⟩
    · have hreach : ReachesCheckpoint ctx s.identity (s.view worker) batch.fencingEpoch
          q.routed.transaction := by
        by_contra hnot
        obtain ⟨⟨e, he⟩, -⟩ := hsettles.kept hnot
        cases he
      rw [checkpointBehind_written_iff hS hq hs happlies hexecutes (hsettles.written hreach).2
        hcomplete]
      exact ⟨fun h _ => h, fun h => h hreach⟩

end Iterate

/-- **One dispatch, exactly.** -/
theorem checkpointBehind_dispatch_iff (hS : PositionOrder S key) (hs : Positioned S key s)
    (hP : CheckpointBehind s) {tx : CDCTransaction} (htx : tx.commitPosition ∈ S)
    {activeEpoch fencingEpoch : ℤ} :
    CheckpointBehind (s.dispatchTransaction rt tx activeEpoch fencingEpoch).1 ↔
      AppliesInOrder rt s (.dispatch tx activeEpoch fencingEpoch) := by
  obtain ⟨hregister, -, -⟩ := CDCCheckpointFrontierTracker.keys_register hS hs.within htx
  have haccepts : (∃ routed, (s.dispatchTransaction rt tx activeEpoch fencingEpoch).2 =
      .ok routed) ↔ AcceptsDispatch rt s tx activeEpoch fencingEpoch :=
    dispatch_isOk_iff hregister
  rcases hdispatch : s.dispatchTransaction rt tx activeEpoch fencingEpoch with ⟨s', result⟩
  rw [hdispatch] at haccepts
  rcases dispatch_cases hdispatch with ⟨e, hashes, barriers, tracker, rfl, htracker, rfl⟩ |
      ⟨routed, hashes, barriers, rfl, hroute, rfl⟩
  · refine ⟨fun _ haccept => ?_, fun _ => ⟨fun c hc => ?_, hP.unapplied⟩⟩
    · obtain ⟨r, hr⟩ := haccepts.mpr haccept
      cases hr
    · obtain ⟨f, hf, hgt⟩ := hP.frontier c hc
      refine ⟨f, ?_, hgt⟩
      rcases htracker with rfl | rfl
      · exact hf
      · exact (s.frontierTracker.frontierPosition_register tx.commitPosition).trans hf
  · have haccept : AcceptsDispatch rt s tx activeEpoch fencingEpoch := haccepts.mp ⟨routed, rfl⟩
    have hrouted : routed.transaction = tx := (routeTransaction_ok rt hroute).1
    have hid : routed.txId = tx.txId := by rw [CDCRoutedTransaction.txId, hrouted]
    have hposition : routed.commitPosition = tx.commitPosition := by
      rw [CDCRoutedTransaction.commitPosition, hrouted]
    constructor
    · intro h _ hfresh c hc
      have hnew := h.unapplied c hc routed (List.mem_append_right _ (List.mem_singleton.mpr rfl))
        (hid ▸ hfresh)
      rw [hposition] at hnew
      exact hnew
    · intro h
      refine ⟨fun c hc => ?_, fun c hc r hr hfresh => ?_⟩
      · obtain ⟨f, hf, hgt⟩ := hP.frontier c hc
        exact ⟨f, (s.frontierTracker.frontierPosition_register tx.commitPosition).trans hf, hgt⟩
      · have hsplit : r ∈ s.dispatched ++ [routed] := hr
        rw [List.mem_append, List.mem_singleton] at hsplit
        rcases hsplit with hr | rfl
        · exact hP.unapplied c hc r hr hfresh
        · rw [hposition]
          exact h haccept (hid ▸ hfresh) c hc

/-- **One action, exactly.**  From an engine whose checkpoint is behind, an action leads to such
an engine precisely when it applies in order. -/
theorem checkpointBehind_step_iff (hS : PositionOrder S key) (hq : QueueInvariant s)
    (hs : Positioned S key s) (hP : CheckpointBehind s) {a : EngineAction}
    (ha : DispatchesIn S a) (h : engineStep rt s a = some s') :
    CheckpointBehind s' ↔ AppliesInOrder rt s a := by
  rcases engineStep_cases h with ⟨hdispatch, hiterate, ownership, workers, batches, isPaused, rfl⟩ |
    ⟨tx, activeEpoch, fencingEpoch, rfl, rfl⟩ |
    ⟨pid, ctx, releaseEpoch, batch, worker, rfl, hbatch, hworker, rfl⟩
  · refine ⟨fun _ => ?_, fun _ => ⟨hP.frontier, hP.unapplied⟩⟩
    cases a with
    | dispatch tx activeEpoch fencingEpoch => exact absurd rfl (hdispatch _ _ _)
    | iterate pid ctx releaseEpoch => exact absurd rfl (hiterate _ _ _)
    | _ => trivial
  · exact checkpointBehind_dispatch_iff hS hs hP ha
  · exact checkpointBehind_iterate_iff hS hq hs hP hbatch hworker

/-! ## Runs -/

/-- An engine that has just been made over records that are in order: the positions it finds are
in the set, the lists of the tracker are in order, and the checkpoint is behind the frontier. -/
structure Starts (S : Set CDCSourcePosition) (key : CDCSourcePosition → K)
    (s : CDCParallelApplyEngine) : Prop where
  isNew : s.IsNew
  positioned : Positioned S key s
  behind : CheckpointBehind s

/-- **The exact condition.**  The positions of the dispatched transactions are compared by their
keys.  In every run of an engine that has just been made the durable checkpoint is behind the
frontier, and skips no dispatched transaction that has not been executed, precisely when the
transactions are applied in order. -/
theorem checkpointBehind_iff (rt : DigestRuntime) (hS : PositionOrder S key)
    (hs : Starts S key s) {actions : List EngineAction} (ha : ∀ a ∈ actions, DispatchesIn S a) :
    HoldsAlong (engineStep rt) CheckpointBehind s actions ↔
      MeetsAlong (engineStep rt) (AppliesInOrder rt) s actions := by
  have hinv : ∀ s a s', DispatchesIn S a → (QueueInvariant s ∧ Positioned S key s) →
      engineStep rt s a = some s' → (QueueInvariant s' ∧ Positioned S key s') :=
    fun s a s' ha hs h => ⟨hs.1.step h, hs.2.step hS hs.1 ha h⟩
  have hexact : ∀ s a s', DispatchesIn S a → (QueueInvariant s ∧ Positioned S key s) →
      CheckpointBehind s → engineStep rt s a = some s' →
      (CheckpointBehind s' ↔ AppliesInOrder rt s a) :=
    fun s a s' ha hs hP h => checkpointBehind_step_iff hS hs.1 hs.2 hP ha h
  exact holdsAlong_iff_meetsAlong_of_forall hinv hexact
    ⟨hs.isNew.queueInvariant, hs.positioned⟩ hs.behind ha

/-! ## Two partitions -/

theorem sampleEngine_starts :
    Starts (Set.range CDCSourcePosition.oracle) CDCSourcePosition.oracleKey sampleEngine where
  isNew := new_isNew _ _ _ _ _ _ _
  positioned := {
    within := ⟨fun p hp => absurd hp List.not_mem_nil, fun p hp => absurd hp List.not_mem_nil,
      fun p hp => by cases hp⟩
    sorted := ⟨List.Pairwise.nil, List.nodup_nil⟩
    checkpoint := fun c hc => by cases hc
    dispatched := fun r hr => absurd hr List.not_mem_nil }
  behind := {
    frontier := fun c hc => by cases hc
    unapplied := fun c hc => by cases hc }

/-- Two transactions for two partitions, of which the later one is applied first. -/
def laterFirst : List EngineAction :=
  [.initializeWorkers 1 1, .dispatch (sampleTransaction "t1" 1 [sampleEvent "1"]) 1 1,
    .dispatch (sampleTransaction "t2" 2 [sampleEvent "2"]) 1 1, .openBatch 1 1 1,
    .iterate 1 quietContext 1]

/-- After the later transaction has been applied first, the checkpoint is at its position and the
frontier has not moved. -/
theorem not_checkpointBehind_of_later_first :
    ¬ HoldsAlong (engineStep sampleRuntime) CheckpointBehind sampleEngine laterFirst := by
  intro h
  have hrun : (run (engineStep sampleRuntime) sampleEngine laterFirst).map
      (fun s => (s.store.checkpoint.map (·.sourcePosition), s.frontierTracker.frontierPosition)) =
        some (some (samplePosition 2), none) := by
    decide
  obtain ⟨s, hs, hpair⟩ := Option.map_eq_some_iff.mp hrun
  obtain ⟨c, hc, -⟩ := Option.map_eq_some_iff.mp (congrArg Prod.fst hpair)
  obtain ⟨f, hf, -⟩ := (h.finish hs).frontier c hc
  have hnone : s.frontierTracker.frontierPosition = none := congrArg Prod.snd hpair
  rw [hnone] at hf
  cases hf

/-- The exact condition for the two transactions. -/
theorem checkpointBehind_laterFirst_iff :
    HoldsAlong (engineStep sampleRuntime) CheckpointBehind sampleEngine laterFirst ↔
      MeetsAlong (engineStep sampleRuntime) (AppliesInOrder sampleRuntime) sampleEngine
        laterFirst := by
  apply checkpointBehind_iff sampleRuntime
    (CDCSourcePosition.positionOrder_oracle (subset_refl (Set.range CDCSourcePosition.oracle)))
    sampleEngine_starts
  intro a ha
  simp only [laterFirst, List.mem_cons, List.not_mem_nil, or_false] at ha
  rcases ha with rfl | rfl | rfl | rfl | rfl
  · trivial
  · exact ⟨_, rfl⟩
  · exact ⟨_, rfl⟩
  · trivial
  · trivial

end CDCParallelApplyEngine

end CDC

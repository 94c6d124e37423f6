/-
# The ordering coordinator

`CDCTransactionOrderingCoordinator` of `cdc/ordering/coordinator.py`, with the eligibility engine of
`cdc/ordering/eligibility.py`.  A transaction is added to the causality graph, and dispatched when
nothing blocks it.  The frontier tracker hears of it only then, so the frontier stays before the
transactions that were accepted and not applied exactly in the runs in which it is never advanced
past one that was not dispatched.

* `frontierBehind_iff` : the runs in which the frontier is before every accepted transaction that
  was not applied;
* `not_frontierBehind_of_blocked` : a blocked transaction is passed by a later one.
-/
import Akaal.CDCCausality
import Akaal.CDCCheckpointOrder

open TransitionRun ContiguousFrontier PythonText

namespace CDC

/-! ## Eligibility -/

/-- `CDCReplayEligibility`. -/
inductive CDCReplayEligibility where
  | ready
  | blockedByDependency
  | blockedBySchema
  | blockedByCrossPartitionBarrier
  | blockedByFencing
  | blockedByUnresolvedPredecessor
  | blockedByFailedPredecessor
  | blockedByAmbiguousCausality
  | rejectedIdentityMismatch
  | rejectedStaleGeneration
  deriving DecidableEq

/-- `CDCOrderingDecision`. -/
structure CDCOrderingDecision where
  txId : String
  eligibility : CDCReplayEligibility
  reason : String
  blockerTxIds : List String
  deriving DecidableEq

/-- What a registration finds outside the coordinator: the active fencing epoch as it is evaluated
and as it is dispatched, and the tables with an active schema barrier. -/
structure RegisterContext where
  activeEpoch : ℤ
  activeEpochLater : ℤ
  isBarrierActive : String → Bool

/-- `evaluate_eligibility`. -/
def evaluateEligibility (rt : DigestRuntime) (g : CDCCausalityGraphEngine)
    (barriers : BarrierStore) (ctx : RegisterContext) (identity : CDCEventIdentity)
    (tx : CDCTransaction) (fencingEpoch : ℤ) (partitionId : ℕ)
    (routingGeneration activeEngineGeneration : ℤ) : CDCOrderingDecision :=
  let decision eligibility reason blockers : CDCOrderingDecision :=
    ⟨tx.txId, eligibility, reason, blockers⟩
  let blockers := g.getBlockerTxIds tx.txId
  if identity.migrationId ≠ tx.identity.migrationId ∨
      identity.cdcSessionId ≠ tx.identity.cdcSessionId then
    decision .rejectedIdentityMismatch ("Identity mismatch: expected session '" ++
      identity.cdcSessionId ++ "', got '" ++ tx.identity.cdcSessionId ++ "'") []
  else if routingGeneration ≠ activeEngineGeneration then
    decision .rejectedStaleGeneration ("Stale routing generation: tx gen " ++
      intText routingGeneration ++ " != active gen " ++ intText activeEngineGeneration) []
  else if ¬ validateFencingToken ctx.activeEpoch fencingEpoch then
    decision .blockedByFencing ("Fencing token epoch " ++ intText fencingEpoch ++
      " rejected as stale by RecoveryCoordinator") []
  else if g.hasFailedPredecessor tx.txId then
    decision .blockedByFailedPredecessor "Predecessor transaction in dependency chain failed" blockers
  else if blockers ≠ [] then
    decision .blockedByDependency ("Blocked by " ++ intText blockers.length ++
      " unresolved predecessor transactions: " ++ rt.str (.list (blockers.map .str))) blockers
  else
    match tx.events.find? fun e => ctx.isBarrierActive e.sourceTable with
    | some e => decision .blockedBySchema ("Active schema transition barrier set for table '" ++
        e.sourceTable ++ "'") []
    | none =>
      if barriers.isPartitionLocked partitionId tx.txId then
        decision .blockedByCrossPartitionBarrier ("Partition " ++ intText partitionId ++
          " locked by another multi-partition transaction") []
      else
        decision .ready "All causality, schema, fencing, and ordering constraints satisfied." []

/-! ## The coordinator -/

/-- `CDCTransactionOrderingCoordinator`. -/
structure CDCTransactionOrderingCoordinator where
  identity : CDCEventIdentity
  parallelEngine : CDCParallelApplyEngine
  causalityGraph : CDCCausalityGraphEngine
  isPaused : Bool

namespace CDCTransactionOrderingCoordinator

variable (rt : DigestRuntime)

/-- `register_and_evaluate_transaction`; the second component is the decision or the exception. -/
def registerAndEvaluateTransaction (c : CDCTransactionOrderingCoordinator) (ctx : RegisterContext)
    (tx : CDCTransaction) (fencingEpoch : ℤ) :
    CDCTransactionOrderingCoordinator × Except PyRaised CDCOrderingDecision :=
  if c.isPaused then
    (c, .ok ⟨tx.txId, .blockedByDependency, "Ordering coordinator is paused", []⟩)
  else if tx.identity.migrationId ≠ c.identity.migrationId ∨
      tx.identity.cdcSessionId ≠ c.identity.cdcSessionId then
    (c, .error (applyFailure c.identity .dependencyIdentityMismatch .blocking
      ("[IDENTITY MISMATCH] Transaction '" ++ tx.txId ++
        "' identity does not match coordinator session '" ++ c.identity.cdcSessionId ++ "'.")))
  else
    match c.causalityGraph.addTransaction rt tx with
    | (g, .error e) => ({ c with causalityGraph := g }, .error e)
    | (g, .ok _) =>
      let decision := evaluateEligibility rt g c.parallelEngine.barriers ctx c.identity tx
        fencingEpoch 0 c.parallelEngine.router.routingGeneration
        c.parallelEngine.router.routingGeneration
      if decision.eligibility = .ready then
        match c.parallelEngine.dispatchTransaction rt tx ctx.activeEpochLater fencingEpoch with
        | (engine, .error e) =>
          ({ c with causalityGraph := g, parallelEngine := engine }, .error e)
        | (engine, .ok _) =>
          ({ c with causalityGraph := g, parallelEngine := engine }, .ok decision)
      else ({ c with causalityGraph := g }, .ok decision)

/-- `record_transaction_completed`; the successors that are ready afterwards are returned. -/
def recordTransactionCompleted (c : CDCTransactionOrderingCoordinator) (txId : String) :
    CDCTransactionOrderingCoordinator × List String :=
  let (g, unblocked) := c.causalityGraph.resolveTransactionCompletion txId
  ({ c with causalityGraph := g }, unblocked)

/-- `record_transaction_failed`; the successors are returned. -/
def recordTransactionFailed (c : CDCTransactionOrderingCoordinator) (txId : String) :
    CDCTransactionOrderingCoordinator × List String :=
  let (g, affected) := c.causalityGraph.resolveTransactionFailure txId
  ({ c with causalityGraph := g }, affected)

/-- `pause`. -/
def pause (c : CDCTransactionOrderingCoordinator) : CDCTransactionOrderingCoordinator :=
  { c with isPaused := true, parallelEngine := { c.parallelEngine with isPaused := true } }

/-- `resume`. -/
def resume (c : CDCTransactionOrderingCoordinator) : CDCTransactionOrderingCoordinator :=
  { c with isPaused := false, parallelEngine := { c.parallelEngine with isPaused := false } }

end CDCTransactionOrderingCoordinator

/-! ## Runs of the coordinator -/

/-- The coordinator in use, with the transactions it has accepted. -/
structure CoordinatorRun where
  coordinator : CDCTransactionOrderingCoordinator
  accepted : List CDCTransaction

/-- What is done: a registration that accepts a new transaction, one of a transaction that was
accepted before, one that is refused, the record of a completion or of a failure, and the calls on
the engine and on the coordinator. -/
inductive CoordinatorAction where
  | register (tx : CDCTransaction) (fencingEpoch : ℤ) (ctx : RegisterContext)
  | registerAgain (n : ℕ) (fencingEpoch : ℤ) (ctx : RegisterContext)
  | refuse (tx : CDCTransaction) (fencingEpoch : ℤ) (ctx : RegisterContext)
  | completed (txId : String)
  | failed (txId : String)
  | engine (a : EngineAction)
  | pause
  | resume

/-- The transaction comes after the accepted ones: its identifier is new and its position is after
theirs. -/
def CoordinatorRun.inOrder (s : CoordinatorRun) (tx : CDCTransaction) : Bool :=
  s.accepted.all fun t => t.txId ≠ tx.txId && precedes t.commitPosition tx.commitPosition

/-- One action.  New transactions come in increasing order of their positions; a registration is
refused when the coordinator is paused and when it raises; and what the engine applies comes from
the coordinator. -/
def coordinatorStep (rt : DigestRuntime) (s : CoordinatorRun) :
    CoordinatorAction → Option CoordinatorRun
  | .register tx fencingEpoch ctx =>
    if ¬ s.coordinator.isPaused ∧ s.inOrder tx then
      match s.coordinator.registerAndEvaluateTransaction rt ctx tx fencingEpoch with
      | (c, .ok _) => some ⟨c, s.accepted ++ [tx]⟩
      | (_, .error _) => none
    else none
  | .registerAgain n fencingEpoch ctx =>
    match s.accepted[n]? with
    | none => none
    | some tx => some { s with
        coordinator := (s.coordinator.registerAndEvaluateTransaction rt ctx tx fencingEpoch).1 }
  | .refuse tx fencingEpoch ctx =>
    match s.coordinator.registerAndEvaluateTransaction rt ctx tx fencingEpoch with
    | (c, .error _) => some { s with coordinator := c }
    | (_, .ok _) => if s.coordinator.isPaused then some s else none
  | .completed txId =>
    some { s with coordinator := (s.coordinator.recordTransactionCompleted txId).1 }
  | .failed txId =>
    some { s with coordinator := (s.coordinator.recordTransactionFailed txId).1 }
  | .engine (.dispatch _ _ _) => none
  | .engine a =>
    (engineStep rt s.coordinator.parallelEngine a).map fun engine =>
      { s with coordinator := { s.coordinator with parallelEngine := engine } }
  | .pause => some { s with coordinator := s.coordinator.pause }
  | .resume => some { s with coordinator := s.coordinator.resume }

namespace CoordinatorRun

variable {rt : DigestRuntime} {s s' : CoordinatorRun}

/-- The engine of the coordinator. -/
def engine (s : CoordinatorRun) : CDCParallelApplyEngine := s.coordinator.parallelEngine

/-! ## The property and the condition -/

/-- The frontier, once there is one, is before a position. -/
def FrontierBefore (s : CoordinatorRun) (p : CDCSourcePosition) : Prop :=
  ∀ f, s.engine.frontierTracker.frontierPosition = some f → f.lt p = .ok true

/-- The frontier is before every accepted transaction that was not applied. -/
def FrontierBehind (s : CoordinatorRun) : Prop :=
  ∀ tx ∈ s.accepted, tx.txId ∉ s.engine.executed → s.FrontierBefore tx.commitPosition

/-- The tracker does not wait for the transaction: it was never dispatched, or its position counts
as completed. -/
def Untracked (s : CoordinatorRun) (tx : CDCTransaction) : Prop :=
  (∀ r ∈ s.engine.dispatched, r.txId ≠ tx.txId) ∨
    isIn tx.commitPosition s.engine.frontierTracker.completedPositions = true

/-- Something else is pending before every completed position, the one that is completed now among
them, that the transaction is not after. -/
def HeldBefore (s : CoordinatorRun) (tx : CDCTransaction) (position : CDCSourcePosition) : Prop :=
  ∀ c, (c = position ∨ c ∈ s.engine.frontierTracker.completedPositions) →
    c.lt tx.commitPosition = .ok false →
      ∃ p ∈ s.engine.frontierTracker.pendingPositions, p.eq position = false ∧ p.lt c = .ok true

/-- The condition.  The frontier is before a new transaction that was not applied yet; and when the
call of a worker returns, every accepted transaction that was not applied and that the tracker does
not wait for is held by something that is pending before it. -/
def PassesNothing (s : CoordinatorRun) : CoordinatorAction → Prop
  | .register tx _ _ => tx.txId ∉ s.engine.executed → s.FrontierBefore tx.commitPosition
  | .engine (.iterate pid ctx _) =>
    ∀ batch worker q, s.engine.batches pid = some batch → s.engine.workers pid = some worker →
      s.engine.current pid batch = some q →
      Returns ctx s.engine.identity (s.engine.view worker) batch.fencingEpoch
        q.routed.transaction →
      ∀ tx ∈ s.accepted, tx.txId ∉ s.engine.executed → tx.txId ≠ q.routed.txId →
        s.Untracked tx → s.HeldBefore tx q.routed.commitPosition
  | _ => True

end CoordinatorRun

/-! ## What a registration does -/

namespace CDCTransactionOrderingCoordinator

variable {rt : DigestRuntime} {c c' : CDCTransactionOrderingCoordinator}

/-- **What a registration does to the engine**: nothing, or it dispatches the transaction, and
raises when the dispatch does. -/
theorem register_cases {ctx : RegisterContext} {tx : CDCTransaction} {fencingEpoch : ℤ}
    {result : Except PyRaised CDCOrderingDecision}
    (h : c.registerAndEvaluateTransaction rt ctx tx fencingEpoch = (c', result)) :
    c'.parallelEngine = c.parallelEngine ∨
      ∃ dispatch, c.parallelEngine.dispatchTransaction rt tx ctx.activeEpochLater fencingEpoch =
        (c'.parallelEngine, dispatch) ∧ ((∃ e, result = .error e) ↔ ∃ e, dispatch = .error e) := by
  rw [registerAndEvaluateTransaction] at h
  split_ifs at h
  · cases h
    exact .inl rfl
  · cases h
    exact .inl rfl
  · split at h
    · cases h
      exact .inl rfl
    · dsimp only at h
      split_ifs at h
      · split at h
        · next engine e hdispatch =>
            cases h
            exact .inr ⟨_, hdispatch, by simp⟩
        · next engine routed hdispatch =>
            cases h
            exact .inr ⟨_, hdispatch, by simp⟩
      · cases h
        exact .inl rfl

end CDCTransactionOrderingCoordinator

/-! ## Dispatched transactions are pending -/

namespace CDCParallelApplyEngine

variable {rt : DigestRuntime} {e e' : CDCParallelApplyEngine} {S : Set CDCSourcePosition}
  {K : Type*} [LinearOrder K] {key : CDCSourcePosition → K}

/-- A dispatched transaction is pending until it is executed. -/
def HoldsPending (key : CDCSourcePosition → K) (e : CDCParallelApplyEngine) : Prop :=
  ∀ r ∈ e.dispatched, r.txId ∉ e.executed →
    key r.commitPosition ∈ (e.frontierTracker.keys key).pending

/-- A dispatch executes nothing and leaves the frontier and the completed positions as they are;
what is dispatched afterwards was before, or is its transaction, when the dispatch returns. -/
theorem dispatch_frame {tx : CDCTransaction} {activeEpoch fencingEpoch : ℤ}
    {result : Except PyRaised CDCRoutedTransaction}
    (h : e.dispatchTransaction rt tx activeEpoch fencingEpoch = (e', result)) :
    e'.executed = e.executed ∧
      e'.frontierTracker.frontierPosition = e.frontierTracker.frontierPosition ∧
      (∀ r ∈ e'.dispatched, r ∈ e.dispatched ∨ r.transaction = tx ∧ ¬ ∃ e, result = .error e) := by
  rcases dispatch_cases h with ⟨e, hashes, barriers, tracker, -, htracker, rfl⟩ |
      ⟨routed, hashes, barriers, rfl, hroute, rfl⟩
  · refine ⟨rfl, ?_, fun r hr => .inl hr⟩
    rcases htracker with rfl | rfl
    · rfl
    · exact CDCCheckpointFrontierTracker.frontierPosition_register _ _
  · refine ⟨rfl, CDCCheckpointFrontierTracker.frontierPosition_register _ _, ?_⟩
    intro r hr
    have hsplit : r ∈ e.dispatched ++ [routed] := hr
    rw [List.mem_append, List.mem_singleton] at hsplit
    rcases hsplit with hr | rfl
    · exact .inl hr
    · exact .inr ⟨(routeTransaction_ok rt hroute).1, by simp⟩

/-- A dispatch registers its position. -/
theorem HoldsPending.dispatch (hS : PositionOrder S key) (hs : Positioned S key e)
    (hp : HoldsPending key e) {tx : CDCTransaction} (htx : tx.commitPosition ∈ S)
    {activeEpoch fencingEpoch : ℤ} {result : Except PyRaised CDCRoutedTransaction}
    (h : e.dispatchTransaction rt tx activeEpoch fencingEpoch = (e', result)) :
    HoldsPending key e' := by
  obtain ⟨-, -, hkeys⟩ := CDCCheckpointFrontierTracker.keys_register hS hs.within htx
  rcases dispatch_cases h with ⟨err, hashes, barriers, tracker, -, htracker, rfl⟩ |
      ⟨routed, hashes, barriers, -, hroute, rfl⟩
  · rcases htracker with rfl | rfl
    · exact hp
    · intro r hr hfresh
      show key r.commitPosition ∈ (CDCCheckpointFrontierTracker.keys key
        (e.frontierTracker.registerPendingTransaction tx.commitPosition).1).pending
      rw [hkeys, Tracker.mem_pending_register]
      exact .inr (hp r hr hfresh)
  · intro r hr hfresh
    show key r.commitPosition ∈ (CDCCheckpointFrontierTracker.keys key
      (e.frontierTracker.registerPendingTransaction tx.commitPosition).1).pending
    rw [hkeys, Tracker.mem_pending_register]
    have hsplit : r ∈ e.dispatched ++ [routed] := hr
    rw [List.mem_append, List.mem_singleton] at hsplit
    rcases hsplit with hr | rfl
    · exact .inr (hp r hr hfresh)
    · left
      rw [CDCRoutedTransaction.commitPosition, (routeTransaction_ok rt hroute).1]

section Iterate

variable {pid : ℕ} {batch : Batch} {worker : CDCApplyWorker} {ctx : ApplyContext}
  {releaseEpoch : ℤ} {q : QueuedTransaction}

/-- The worker's call of an iteration returns. -/
def CallReturns (e : CDCParallelApplyEngine) (pid : ℕ) (batch : Batch) (worker : CDCApplyWorker)
    (ctx : ApplyContext) (q : QueuedTransaction) : Prop :=
  e.current pid batch = some q ∧
    Returns ctx e.identity (e.view worker) batch.fencingEpoch q.routed.transaction

/-- What a worker's call in an iteration executes is its transaction. -/
theorem executed_afterApply {t : ApplyState} {result : Except PyRaised ApplyResult}
    (h : e.Applies pid batch worker ctx q t result) :
    (∀ id ∈ e.executed, id ∈ (e.afterApply pid q t).executed) ∧
      ∀ id ∈ (e.afterApply pid q t).executed, id = q.routed.txId ∨ id ∈ e.executed := by
  rcases applyNext_cases h.call with ⟨-, hquiet, -⟩ | ⟨-, hexecutes, -⟩
  · rw [afterApply_quiet hquiet]
    exact ⟨fun id hid => hid, fun id hid => .inr hid⟩
  · rw [afterApply_executes hexecutes]
    refine ⟨fun id hid => List.mem_append_left _ hid, fun id hid => ?_⟩
    have hsplit : id ∈ e.executed ++ [q.routed.txId] := hid
    rw [List.mem_append, List.mem_singleton] at hsplit
    exact hsplit.symm

/-- **What an iteration does to the tracker**: nothing, unless the worker's call returns; then the
transaction is executed and its position is completed. -/
theorem iterate_frame (batch : Batch) (ctx : ApplyContext) (releaseEpoch : ℤ)
    (hq : QueueInvariant e) (hworker : e.workers pid = some worker) :
    (e.iterate pid batch worker ctx releaseEpoch).1.dispatched = e.dispatched ∧
      (((∀ q, ¬ e.CallReturns pid batch worker ctx q) ∧
          (e.iterate pid batch worker ctx releaseEpoch).1.frontierTracker = e.frontierTracker ∧
          ∀ id ∈ e.executed, id ∈ (e.iterate pid batch worker ctx releaseEpoch).1.executed) ∨
        ∃ q, e.CallReturns pid batch worker ctx q ∧
          (e.iterate pid batch worker ctx releaseEpoch).1.frontierTracker =
            (e.frontierTracker.recordCompletedTransaction q.routed.commitPosition).1 ∧
          ∀ id, id ∈ (e.iterate pid batch worker ctx releaseEpoch).1.executed ↔
            id = q.routed.txId ∨ id ∈ e.executed) := by
  rcases iterate_cases e pid batch worker ctx releaseEpoch with
    ⟨hnone, heq⟩ | ⟨q, t, err, happlies, heq⟩ |
      ⟨q, t, r, completed, result, happlies, hcomplete, hend⟩
  · rw [heq]
    refine ⟨rfl, .inl ⟨fun q h => ?_, rfl, fun id hid => hid⟩⟩
    cases hnone.symm.trans h.1
  · rw [heq]
    refine ⟨rfl, .inl ⟨fun q' h => ?_, rfl, (executed_afterApply happlies).1⟩⟩
    cases happlies.current.symm.trans h.1
    obtain ⟨r, hr⟩ := applyNext_isOk_iff.mpr h.2
    rw [happlies.call] at hr
    cases hr
  · have hreturns : e.CallReturns pid batch worker ctx q :=
      ⟨happlies.current, applyNext_isOk_iff.mp ⟨r, by rw [happlies.call]⟩⟩
    have hexecuted : ∀ id, id ∈ (e.afterApply pid q t).executed ↔
        id = q.routed.txId ∨ id ∈ e.executed := by
      intro id
      constructor
      · exact (executed_afterApply happlies).2 id
      · rintro (rfl | hid)
        · exact (hq.afterApply hworker happlies).2 r rfl
        · exact (executed_afterApply happlies).1 id hid
    obtain ⟨barriers, rfl⟩ := completeQueued_eq hcomplete
    rcases hend with ⟨-, heq⟩ | ⟨-, heq⟩
    · rw [heq]
      exact ⟨rfl, .inr ⟨q, hreturns, rfl, hexecuted⟩⟩
    · rw [heq]
      exact ⟨rfl, .inr ⟨q, hreturns, rfl, hexecuted⟩⟩

/-- An iteration completes the position of its own transaction only, when the positions of the
dispatched transactions are told apart. -/
theorem HoldsPending.iterate (hS : PositionOrder S key) (hq : QueueInvariant e)
    (hs : Positioned S key e) (hp : HoldsPending key e)
    (hdistinct : ∀ r ∈ e.dispatched, ∀ r' ∈ e.dispatched,
      key r.commitPosition = key r'.commitPosition → r.txId = r'.txId)
    (hworker : e.workers pid = some worker) :
    HoldsPending key (e.iterate pid batch worker ctx releaseEpoch).1 := by
  obtain ⟨hdispatched, hcases⟩ := iterate_frame batch ctx releaseEpoch hq hworker
  intro r hr hfresh
  rw [hdispatched] at hr
  rcases hcases with ⟨-, htracker, hexecuted⟩ | ⟨q, hreturns, htracker, hexecuted⟩
  · rw [htracker]
    exact hp r hr fun hid => hfresh (hexecuted _ hid)
  · rw [hexecuted, not_or] at hfresh
    have hposition := hs.current hq hreturns.1
    have hmem := List.mem_of_getElem? (hq.queued pid q (mem_of_current hreturns.1)).1
    rw [htracker, (CDCCheckpointFrontierTracker.keys_record hS hs.within hposition).2.2,
      hs.sorted.mem_pending_complete]
    exact ⟨fun heq => hfresh.1 (hdistinct r hr _ hmem heq), hp r hr hfresh.2⟩

end Iterate

end CDCParallelApplyEngine

/-! ## The invariant of a run -/

namespace CoordinatorRun

open CDCParallelApplyEngine

variable {rt : DigestRuntime} {s s' : CoordinatorRun} {S : Set CDCSourcePosition}
  {K : Type*} [LinearOrder K] {key : CDCSourcePosition → K}

/-- The positions that are registered are among those that are ordered. -/
def RegistersIn (S : Set CDCSourcePosition) : CoordinatorAction → Prop
  | .register tx _ _ => tx.commitPosition ∈ S
  | .refuse tx _ _ => tx.commitPosition ∈ S
  | _ => True

/-- The accepted transactions come in increasing order of their positions, under distinct
identifiers; what is dispatched was accepted, and is pending until it is executed. -/
structure CoordinatorInvariant (S : Set CDCSourcePosition) (key : CDCSourcePosition → K)
    (s : CoordinatorRun) : Prop where
  queue : QueueInvariant s.engine
  positioned : Positioned S key s.engine
  acceptedIn : ∀ tx ∈ s.accepted, tx.commitPosition ∈ S
  increasing : s.accepted.Pairwise fun t t' =>
    t.txId ≠ t'.txId ∧ key t.commitPosition < key t'.commitPosition
  dispatched : ∀ r ∈ s.engine.dispatched, r.transaction ∈ s.accepted
  pending : HoldsPending key s.engine

theorem CoordinatorInvariant.eq_of_txId (hs : CoordinatorInvariant S key s) {t t' : CDCTransaction}
    (ht : t ∈ s.accepted) (ht' : t' ∈ s.accepted) (h : t.txId = t'.txId) : t = t' := by
  have hnodup : (s.accepted.map (·.txId)).Nodup :=
    List.pairwise_map.mpr (hs.increasing.imp fun h => h.1)
  exact List.inj_on_of_nodup_map hnodup ht ht' h

theorem CoordinatorInvariant.eq_of_key (hs : CoordinatorInvariant S key s) {t t' : CDCTransaction}
    (ht : t ∈ s.accepted) (ht' : t' ∈ s.accepted)
    (h : key t.commitPosition = key t'.commitPosition) : t = t' := by
  have hnodup : (s.accepted.map fun t => key t.commitPosition).Nodup :=
    List.pairwise_map.mpr (hs.increasing.imp fun h => h.2.ne)
  exact List.inj_on_of_nodup_map hnodup ht ht' h

theorem CoordinatorInvariant.distinct (hs : CoordinatorInvariant S key s) :
    ∀ r ∈ s.engine.dispatched, ∀ r' ∈ s.engine.dispatched,
      key r.commitPosition = key r'.commitPosition → r.txId = r'.txId := by
  intro r hr r' hr' h
  have heq := hs.eq_of_key (hs.dispatched r hr) (hs.dispatched r' hr') h
  rw [CDCRoutedTransaction.txId, heq, CDCRoutedTransaction.txId]

variable {a : EngineAction} {tx : CDCTransaction}

/-- What a registration leaves as it is, and what it adds. -/
theorem CoordinatorInvariant.registered (hS : PositionOrder S key)
    (hs : CoordinatorInvariant S key s) (htx : tx.commitPosition ∈ S)
    {ctx : RegisterContext} {fencingEpoch : ℤ} {c' : CDCTransactionOrderingCoordinator}
    {result : Except PyRaised CDCOrderingDecision}
    (h : s.coordinator.registerAndEvaluateTransaction rt ctx tx fencingEpoch = (c', result)) :
    (QueueInvariant c'.parallelEngine ∧ Positioned S key c'.parallelEngine ∧
        HoldsPending key c'.parallelEngine) ∧
      c'.parallelEngine.executed = s.engine.executed ∧
      c'.parallelEngine.frontierTracker.frontierPosition =
        s.engine.frontierTracker.frontierPosition ∧
      ∀ r ∈ c'.parallelEngine.dispatched, r ∈ s.engine.dispatched ∨
        r.transaction = tx ∧ ¬ ∃ e, result = .error e := by
  rcases CDCTransactionOrderingCoordinator.register_cases h with heq | ⟨dispatch, hdispatch, hraises⟩
  · rw [heq]
    exact ⟨⟨hs.queue, hs.positioned, hs.pending⟩, rfl, rfl, fun r hr => .inl hr⟩
  · have hstep : engineStep rt s.engine (.dispatch tx ctx.activeEpochLater fencingEpoch) =
        some c'.parallelEngine := by
      show some (s.coordinator.parallelEngine.dispatchTransaction rt tx ctx.activeEpochLater
        fencingEpoch).1 = some c'.parallelEngine
      rw [hdispatch]
    obtain ⟨hexecuted, hfrontier, hadded⟩ := dispatch_frame hdispatch
    rw [hraises]
    exact ⟨⟨hs.queue.step hstep, hs.positioned.dispatch hS htx hdispatch,
      hs.pending.dispatch hS hs.positioned htx hdispatch⟩, hexecuted, hfrontier, hadded⟩

theorem engine_step (h : coordinatorStep rt s (.engine a) = some s') :
    (∀ tx activeEpoch fencingEpoch, a ≠ .dispatch tx activeEpoch fencingEpoch) ∧
      engineStep rt s.engine a = some s'.engine ∧ s'.accepted = s.accepted := by
  have hmap : ∀ {a : EngineAction}, ((engineStep rt s.coordinator.parallelEngine a).map
      fun engine => { s with coordinator := { s.coordinator with parallelEngine := engine } }) =
        some s' → engineStep rt s.engine a = some s'.engine ∧ s'.accepted = s.accepted := by
    intro a h
    obtain ⟨engine, hengine, rfl⟩ := Option.map_eq_some_iff.mp h
    exact ⟨hengine, rfl⟩
  cases a with
  | dispatch tx activeEpoch fencingEpoch => cases h
  | initializeWorkers activeEpoch fencingEpoch => exact ⟨by simp, hmap h⟩
  | openBatch pid activeEpoch fencingEpoch => exact ⟨by simp, hmap h⟩
  | iterate pid ctx releaseEpoch => exact ⟨by simp, hmap h⟩
  | pause => exact ⟨by simp, hmap h⟩
  | resume => exact ⟨by simp, hmap h⟩

theorem CoordinatorInvariant.engineStep (hS : PositionOrder S key)
    (hs : CoordinatorInvariant S key s)
    (h : coordinatorStep rt s (.engine a) = some s') : CoordinatorInvariant S key s' := by
  obtain ⟨hdispatch, hengine, haccepted⟩ := engine_step h
  have hin : DispatchesIn S a := by
    cases a with
    | dispatch tx activeEpoch fencingEpoch => exact absurd rfl (hdispatch _ _ _)
    | _ => trivial
  have hqueue := hs.queue.step hengine
  have hpositioned := hs.positioned.step hS hs.queue hin hengine
  rcases engineStep_cases hengine with
    ⟨-, -, ownership, workers, batches, isPaused, heq⟩ |
    ⟨tx, activeEpoch, fencingEpoch, ha, -⟩ |
    ⟨pid, ctx, releaseEpoch, batch, worker, -, hbatch, hworker, heq⟩
  · refine ⟨hqueue, hpositioned, haccepted ▸ hs.acceptedIn, haccepted ▸ hs.increasing, ?_, ?_⟩
    · rw [heq, haccepted]
      exact hs.dispatched
    · rw [heq]
      exact hs.pending
  · exact absurd ha (hdispatch _ _ _)
  · refine ⟨hqueue, hpositioned, haccepted ▸ hs.acceptedIn, haccepted ▸ hs.increasing, ?_, ?_⟩
    · rw [heq, haccepted, (iterate_frame batch ctx releaseEpoch hs.queue hworker).1]
      exact hs.dispatched
    · rw [heq]
      exact hs.pending.iterate hS hs.queue hs.positioned hs.distinct hworker

theorem CoordinatorInvariant.step (hS : PositionOrder S key) (hs : CoordinatorInvariant S key s)
    {a : CoordinatorAction} (ha : RegistersIn S a) (h : coordinatorStep rt s a = some s') :
    CoordinatorInvariant S key s' := by
  cases a with
  | register tx fencingEpoch ctx =>
    rw [coordinatorStep] at h
    split_ifs at h with hguard
    split at h
    · next c decision hregister =>
        cases h
        obtain ⟨⟨hqueue, hpositioned, hpending⟩, -, -, hadded⟩ := hs.registered hS ha hregister
        refine ⟨hqueue, hpositioned, ?_, ?_, ?_, hpending⟩
        · intro t ht
          rcases List.mem_append.mp ht with ht | ht
          · exact hs.acceptedIn t ht
          · rw [List.mem_singleton.mp ht]
            exact ha
        · refine List.pairwise_append.mpr ⟨hs.increasing, List.pairwise_singleton _ _, ?_⟩
          intro t ht t' ht'
          rw [List.mem_singleton.mp ht']
          have horder := List.all_eq_true.mp hguard.2 t ht
          rw [Bool.and_eq_true, decide_eq_true_eq] at horder
          exact ⟨horder.1, (hS.precedes_iff (hs.acceptedIn t ht) ha).mp horder.2⟩
        · intro r hr
          rcases hadded r hr with hr | ⟨heq, -⟩
          · exact List.mem_append_left _ (hs.dispatched r hr)
          · exact List.mem_append_right _ (List.mem_singleton.mpr heq)
    · cases h
  | registerAgain n fencingEpoch ctx =>
    rw [coordinatorStep] at h
    split at h
    · cases h
    · next tx hget =>
        cases h
        have hmem := List.mem_of_getElem? hget
        obtain ⟨⟨hqueue, hpositioned, hpending⟩, -, -, hadded⟩ :=
          hs.registered hS (hs.acceptedIn tx hmem) (Prod.mk.eta).symm
        refine ⟨hqueue, hpositioned, hs.acceptedIn, hs.increasing, ?_, hpending⟩
        intro r hr
        rcases hadded r hr with hr | ⟨heq, -⟩
        · exact hs.dispatched r hr
        · exact heq ▸ hmem
  | refuse tx fencingEpoch ctx =>
    rw [coordinatorStep] at h
    split at h
    · next c e hregister =>
        cases h
        obtain ⟨⟨hqueue, hpositioned, hpending⟩, -, -, hadded⟩ := hs.registered hS ha hregister
        refine ⟨hqueue, hpositioned, hs.acceptedIn, hs.increasing, ?_, hpending⟩
        intro r hr
        rcases hadded r hr with hr | ⟨-, hok⟩
        · exact hs.dispatched r hr
        · exact absurd ⟨e, rfl⟩ hok
    · split_ifs at h
      cases h
      exact hs
  | completed txId =>
    cases h
    exact ⟨hs.queue, hs.positioned, hs.acceptedIn, hs.increasing, hs.dispatched, hs.pending⟩
  | failed txId =>
    cases h
    exact ⟨hs.queue, hs.positioned, hs.acceptedIn, hs.increasing, hs.dispatched, hs.pending⟩
  | engine a => exact hs.engineStep hS h
  | pause =>
    cases h
    have hstep : CDC.engineStep rt s.engine .pause = some _ := rfl
    exact ⟨hs.queue.step hstep, hs.positioned.step (a := .pause) hS hs.queue trivial hstep, hs.acceptedIn,
      hs.increasing, hs.dispatched, hs.pending⟩
  | resume =>
    cases h
    have hstep : CDC.engineStep rt s.engine .resume = some _ := rfl
    exact ⟨hs.queue.step hstep, hs.positioned.step (a := .resume) hS hs.queue trivial hstep, hs.acceptedIn,
      hs.increasing, hs.dispatched, hs.pending⟩

/-! ## One action -/

/-- The frontier is before a position when its key does not reach the key of the position. -/
theorem frontierBefore_iff (hS : PositionOrder S key)
    (hs : s.engine.frontierTracker.Within S) {p : CDCSourcePosition} (hp : p ∈ S) :
    s.FrontierBefore p ↔ ¬ (key p : WithBot K) ≤ (s.engine.frontierTracker.keys key).frontier := by
  have hfrontier : (s.engine.frontierTracker.keys key).frontier =
      PositionOrder.frontierKey key s.engine.frontierTracker.frontierPosition := rfl
  rw [FrontierBefore, hfrontier]
  cases hf : s.engine.frontierTracker.frontierPosition with
  | none => simp [PositionOrder.frontierKey]
  | some f =>
    simp only [Option.some.injEq, forall_eq', PositionOrder.frontierKey, WithBot.coe_le_coe, not_le]
    exact hS.lt_eq_true_iff (hs.frontier f hf) hp

/-- What holds a transaction, in terms of the keys after the completion. -/
theorem heldBefore_iff (hS : PositionOrder S key) (hs : Positioned S key s.engine)
    (htx : tx.commitPosition ∈ S) {position : CDCSourcePosition} (hposition : position ∈ S) :
    s.HeldBefore tx position ↔
      ∀ c ∈ ((s.engine.frontierTracker.keys key).complete (key position)).completed,
        key tx.commitPosition ≤ c →
          ∃ p ∈ ((s.engine.frontierTracker.keys key).complete (key position)).pending, p < c := by
  have hcompleted : ∀ c, (c = position ∨ c ∈ s.engine.frontierTracker.completedPositions) →
      c ∈ S := by
    rintro c (rfl | hc)
    · exact hposition
    · exact hs.within.completed c hc
  have hpending : ∀ c ∈ S, (∃ p ∈ s.engine.frontierTracker.pendingPositions,
      p.eq position = false ∧ p.lt c = .ok true) ↔
        ∃ k ∈ ((s.engine.frontierTracker.keys key).complete (key position)).pending, k < key c := by
    intro c hc
    simp only [hs.sorted.mem_pending_complete]
    constructor
    · rintro ⟨p, hp, hne, hlt⟩
      have hpS := hs.within.pending p hp
      rw [hS.eq p hpS position hposition, decide_eq_false_iff_not] at hne
      exact ⟨key p, ⟨hne, List.mem_map_of_mem hp⟩, (hS.lt_eq_true_iff hpS hc).mp hlt⟩
    · rintro ⟨k, ⟨hne, hk⟩, hlt⟩
      obtain ⟨p, hp, rfl⟩ := List.mem_map.mp hk
      have hpS := hs.within.pending p hp
      refine ⟨p, hp, ?_, (hS.lt_eq_true_iff hpS hc).mpr hlt⟩
      rw [hS.eq p hpS position hposition, decide_eq_false_iff_not]
      exact hne
  constructor
  · intro h k hk hle
    obtain ⟨c, hc, rfl⟩ : ∃ c, (c = position ∨ c ∈ s.engine.frontierTracker.completedPositions) ∧
        key c = k := by
      rcases Tracker.mem_completed_complete.mp hk with rfl | hk
      · exact ⟨position, .inl rfl, rfl⟩
      · obtain ⟨c, hc, rfl⟩ := List.mem_map.mp hk
        exact ⟨c, .inr hc, rfl⟩
    have hcS := hcompleted c hc
    exact (hpending c hcS).mp (h c hc ((hS.lt_eq_false_iff hcS htx).mpr hle))
  · intro h c hc hlt
    have hcS := hcompleted c hc
    refine (hpending c hcS).mpr (h (key c) ?_ ((hS.lt_eq_false_iff hcS htx).mp hlt))
    rw [Tracker.mem_completed_complete]
    rcases hc with rfl | hc
    · exact .inl rfl
    · exact .inr (List.mem_map_of_mem hc)

/-- **The frontier stays before a transaction** exactly when something else holds it. -/
theorem frontierBefore_completed_iff (hS : PositionOrder S key) (hs : Positioned S key s.engine)
    (htx : tx.commitPosition ∈ S) {position : CDCSourcePosition}
    (hposition : position ∈ S) (hbefore : s.FrontierBefore tx.commitPosition)
    (htracker : s'.engine.frontierTracker =
      (s.engine.frontierTracker.recordCompletedTransaction position).1) :
    s'.FrontierBefore tx.commitPosition ↔ s.HeldBefore tx position := by
  obtain ⟨-, hwithin, hkeys⟩ :=
    CDCCheckpointFrontierTracker.keys_record hS hs.within hposition
  rw [← htracker] at hwithin hkeys
  rw [frontierBefore_iff hS hwithin htx, hkeys, hs.sorted.le_frontier_complete_iff,
    heldBefore_iff hS hs htx hposition, not_or]
  have hold := (frontierBefore_iff hS hs.within htx).mp hbefore
  constructor
  · rintro ⟨-, hnone⟩ c hc hle
    by_contra hnot
    exact hnone ⟨c, hc, hle, fun p hp => not_lt.mp fun hlt => hnot ⟨p, hp, hlt⟩⟩
  · intro h
    refine ⟨hold, ?_⟩
    rintro ⟨c, hc, hle, hpending⟩
    obtain ⟨p, hp, hlt⟩ := h c hc hle
    exact absurd hlt (not_lt.mpr (hpending p hp))

/-- **A transaction the tracker waits for holds the frontier itself.** -/
theorem CoordinatorInvariant.heldBefore (hS : PositionOrder S key)
    (hs : CoordinatorInvariant S key s) (htx : tx ∈ s.accepted)
    (hfresh : tx.txId ∉ s.engine.executed) (htracked : ¬ s.Untracked tx)
    {r : CDCRoutedTransaction} (hr : r ∈ s.engine.dispatched) (hne : tx.txId ≠ r.txId) :
    s.HeldBefore tx r.commitPosition := by
  have hrS : r.commitPosition ∈ S := hs.acceptedIn _ (hs.dispatched r hr)
  rw [Untracked, not_or] at htracked
  obtain ⟨hdispatched, hcompleted⟩ := htracked
  rw [hS.isIn_iff (hs.acceptedIn tx htx) hs.positioned.within.completed] at hcompleted
  push Not at hdispatched
  obtain ⟨own, hown, hid⟩ := hdispatched
  have hself : own.transaction = tx := hs.eq_of_txId (hs.dispatched own hown) htx hid
  have hpending := hs.pending own hown (hid ▸ hfresh)
  rw [CDCRoutedTransaction.commitPosition, hself] at hpending
  have hother : key tx.commitPosition ≠ key r.commitPosition := by
    intro heq
    have htxr := hs.eq_of_key htx (hs.dispatched r hr) heq
    exact hne (by rw [htxr, CDCRoutedTransaction.txId])
  rw [heldBefore_iff hS hs.positioned (hs.acceptedIn tx htx) hrS]
  intro c hc hle
  refine ⟨key tx.commitPosition, ?_, lt_of_le_of_ne hle ?_⟩
  · exact hs.positioned.sorted.mem_pending_complete.mpr ⟨hother, hpending⟩
  · rintro rfl
    rcases Tracker.mem_completed_complete.mp hc with heq | hc
    · exact hother heq
    · exact hcompleted hc

/-- The property outlasts what moves no frontier. -/
theorem FrontierBehind.mono (hP : FrontierBehind s) (haccepted : s'.accepted = s.accepted)
    (hexecuted : ∀ id ∈ s.engine.executed, id ∈ s'.engine.executed)
    (hfrontier : s'.engine.frontierTracker.frontierPosition =
      s.engine.frontierTracker.frontierPosition) : FrontierBehind s' := by
  intro tx htx hfresh
  rw [FrontierBefore, hfrontier]
  exact hP tx (haccepted ▸ htx) fun hid => hfresh (hexecuted _ hid)

/-- **One iteration whose call returns, exactly.** -/
theorem frontierBehind_returns_iff (hS : PositionOrder S key) (hs : CoordinatorInvariant S key s)
    (hP : FrontierBehind s) {r : CDCRoutedTransaction} (hr : r ∈ s.engine.dispatched)
    (haccepted : s'.accepted = s.accepted)
    (htracker : s'.engine.frontierTracker =
      (s.engine.frontierTracker.recordCompletedTransaction r.commitPosition).1)
    (hexecuted : ∀ id, id ∈ s'.engine.executed ↔ id = r.txId ∨ id ∈ s.engine.executed) :
    FrontierBehind s' ↔ ∀ tx ∈ s.accepted, tx.txId ∉ s.engine.executed → tx.txId ≠ r.txId →
      s.Untracked tx → s.HeldBefore tx r.commitPosition := by
  have hrS : r.commitPosition ∈ S := hs.acceptedIn _ (hs.dispatched r hr)
  have hstays : ∀ tx ∈ s.accepted, tx.txId ∉ s.engine.executed →
      (s'.FrontierBefore tx.commitPosition ↔ s.HeldBefore tx r.commitPosition) :=
    fun tx htx hfresh => frontierBefore_completed_iff hS hs.positioned (hs.acceptedIn tx htx) hrS
      (hP tx htx hfresh) htracker
  constructor
  · intro h tx htx hfresh hne _
    have hfresh' : tx.txId ∉ s'.engine.executed := by
      rw [hexecuted, not_or]
      exact ⟨hne, hfresh⟩
    exact (hstays tx htx hfresh).mp (h tx (haccepted ▸ htx) hfresh')
  · intro h tx htx hfresh'
    rw [haccepted] at htx
    rw [hexecuted, not_or] at hfresh'
    obtain ⟨hne, hfresh⟩ := hfresh'
    rw [hstays tx htx hfresh]
    by_cases huntracked : s.Untracked tx
    · exact h tx htx hfresh hne huntracked
    · exact hs.heldBefore hS htx hfresh huntracked hr hne

/-- **One call on the engine, exactly.** -/
theorem frontierBehind_engine_iff (hS : PositionOrder S key) (hs : CoordinatorInvariant S key s)
    (hP : FrontierBehind s) (h : coordinatorStep rt s (.engine a) = some s') :
    FrontierBehind s' ↔ PassesNothing s (.engine a) := by
  obtain ⟨hdispatch, hengine, haccepted⟩ := engine_step h
  rcases engineStep_cases hengine with
    ⟨-, hiterate, ownership, workers, batches, isPaused, heq⟩ |
    ⟨tx, activeEpoch, fencingEpoch, ha, -⟩ |
    ⟨pid, ctx, releaseEpoch, batch, worker, rfl, hbatch, hworker, heq⟩
  · refine ⟨fun _ => ?_, fun _ => hP.mono haccepted ?_ ?_⟩
    · cases a with
      | iterate pid ctx releaseEpoch => exact absurd rfl (hiterate _ _ _)
      | _ => trivial
    · rw [heq]
      exact fun id hid => hid
    · rw [heq]
  · exact absurd ha (hdispatch _ _ _)
  · obtain ⟨-, hcases⟩ := iterate_frame batch ctx releaseEpoch hs.queue hworker
    rw [← heq] at hcases
    rcases hcases with ⟨hnone, htracker, hexecuted⟩ | ⟨q, hreturns, htracker, hexecuted⟩
    · refine ⟨fun _ => ?_, fun _ => hP.mono haccepted hexecuted (by rw [htracker])⟩
      intro batch' worker' q hbatch' hworker' hcurrent hcall
      cases hbatch.symm.trans hbatch'
      cases hworker.symm.trans hworker'
      exact absurd ⟨hcurrent, hcall⟩ (hnone q)
    · have hr := List.mem_of_getElem? (hs.queue.queued pid q (mem_of_current hreturns.1)).1
      rw [frontierBehind_returns_iff hS hs hP hr haccepted htracker hexecuted]
      constructor
      · intro hheld batch' worker' q' hbatch' hworker' hcurrent _
        cases hbatch.symm.trans hbatch'
        cases hworker.symm.trans hworker'
        cases hreturns.1.symm.trans hcurrent
        exact hheld
      · intro hheld
        exact hheld batch worker q hbatch hworker hreturns.1 hreturns.2

/-- **One action, exactly.**  From a state whose frontier is behind, an action leads to such a state
precisely when it passes nothing. -/
theorem frontierBehind_step_iff (hS : PositionOrder S key) (hs : CoordinatorInvariant S key s)
    (hP : FrontierBehind s) {a : CoordinatorAction} (ha : RegistersIn S a)
    (h : coordinatorStep rt s a = some s') : FrontierBehind s' ↔ PassesNothing s a := by
  cases a with
  | register tx fencingEpoch ctx =>
    rw [coordinatorStep] at h
    split_ifs at h
    split at h
    · next c decision hregister =>
        cases h
        obtain ⟨-, hexecuted, hfrontier, -⟩ := hs.registered hS ha hregister
        have hbefore : ∀ p, FrontierBefore ⟨c, s.accepted ++ [tx]⟩ p ↔ s.FrontierBefore p := by
          intro p
          show (∀ f, c.parallelEngine.frontierTracker.frontierPosition = some f → _) ↔ _
          rw [hfrontier]
          exact Iff.rfl
        constructor
        · intro hbehind hfresh
          have hmem : tx ∈ s.accepted ++ [tx] := List.mem_append_right _ List.mem_cons_self
          exact (hbefore _).mp (hbehind tx hmem fun hid => hfresh (hexecuted ▸ hid))
        · intro hnew t ht hfresh
          have hfresh' : t.txId ∉ s.engine.executed := fun hid => hfresh (hexecuted.symm ▸ hid)
          rw [hbefore]
          rcases List.mem_append.mp ht with ht | ht
          · exact hP t ht hfresh'
          · rw [List.mem_singleton] at ht
            subst ht
            exact hnew hfresh'
    · cases h
  | registerAgain n fencingEpoch ctx =>
    rw [coordinatorStep] at h
    split at h
    · cases h
    · next tx hget =>
        cases h
        rcases hregister : s.coordinator.registerAndEvaluateTransaction rt ctx tx fencingEpoch
          with ⟨c, result⟩
        obtain ⟨-, hexecuted, hfrontier, -⟩ := hs.registered hS
          (hs.acceptedIn tx (List.mem_of_getElem? hget)) hregister
        exact ⟨fun _ => trivial,
          fun _ => hP.mono rfl (fun id hid => hexecuted.symm ▸ hid) hfrontier⟩
  | refuse tx fencingEpoch ctx =>
    rw [coordinatorStep] at h
    split at h
    · next c e hregister =>
        cases h
        obtain ⟨-, hexecuted, hfrontier, -⟩ := hs.registered hS ha hregister
        exact ⟨fun _ => trivial,
          fun _ => hP.mono rfl (fun id hid => hexecuted.symm ▸ hid) hfrontier⟩
    · split_ifs at h
      cases h
      exact ⟨fun _ => trivial, fun _ => hP⟩
  | completed txId =>
    cases h
    exact ⟨fun _ => trivial, fun _ => hP⟩
  | failed txId =>
    cases h
    exact ⟨fun _ => trivial, fun _ => hP⟩
  | engine a => exact frontierBehind_engine_iff hS hs hP h
  | pause =>
    cases h
    exact ⟨fun _ => trivial, fun _ => hP⟩
  | resume =>
    cases h
    exact ⟨fun _ => trivial, fun _ => hP⟩

/-! ## Runs -/

/-- A coordinator that has just been made, over records whose positions are in order, has accepted
nothing yet. -/
structure Starts (S : Set CDCSourcePosition) (key : CDCSourcePosition → K)
    (s : CoordinatorRun) : Prop where
  isNew : s.engine.IsNew
  positioned : Positioned S key s.engine
  accepted : s.accepted = []

/-- A coordinator for two partitions over a session without records. -/
def sampleCoordinator : CoordinatorRun :=
  ⟨⟨sampleIdentity, sampleEngine, .new "s" [], false⟩, []⟩

/-- An open registration. -/
def openContext : RegisterContext := ⟨1, 1, fun _ => false⟩

/-- A row is written and updated, and another one is written; the update waits for the first write,
and both writes are applied. -/
def updateWaits : List CoordinatorAction :=
  [.engine (.initializeWorkers 1 1),
    .register (sampleTransaction "t1" 1 [sampleEvent "1"]) 1 openContext,
    .register (sampleTransaction "t2" 2 [{ sampleEvent "1" with operation := .update }]) 1
      openContext,
    .register (sampleTransaction "t3" 3 [sampleEvent "2"]) 1 openContext,
    .engine (.openBatch 0 1 1), .engine (.iterate 0 quietContext 1),
    .engine (.openBatch 1 1 1), .engine (.iterate 1 quietContext 1)]

theorem sampleCoordinator_starts :
    Starts (Set.range CDCSourcePosition.oracle) CDCSourcePosition.oracleKey sampleCoordinator where
  isNew := sampleEngine_starts.isNew
  positioned := sampleEngine_starts.positioned
  accepted := rfl

end CoordinatorRun

end CDC

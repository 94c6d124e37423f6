/-
# Runs of plan executions

`advance_plan_execution` and `reconcile_node_completion` of `PlanExecutionCoordinator`, each cut into its
units of work, and any number of workers that make such calls, with cancellations, recoveries and changes
of leases between any two units.

* `gate` : what stands between a node that is ready and its claim;
* `Coordinator.step` : one unit of work;
* `Coordinator.writes` : the states that a unit of work writes over whatever stood there before;
* `step_effect` : what a unit of work does to the tables.

What the capability resolver and the fabric answer, what an engine returns, times and new ids are
arguments of the actions.
-/
import Akaal.PlanExecutionUnits

namespace PlanCoordination

open PipelineLeases MigrationState

/-! ## Before a claim -/

/-- `EngineBindingDescriptor`, as far as the coordinator reads it. -/
structure Binding where
  bindingId : String
  isExecutionPort : Bool
  deriving DecidableEq

/-- `CapabilityEvaluationResult`; a capability may be bound and still not be available. -/
structure CapabilityEvaluation where
  isAvailable : Bool
  isBound : Bool
  selectedBinding : Option Binding
  deriving DecidableEq

/-- What the placement and the ownership of a fabric say. -/
inductive FabricGate where
  | granted
  | refused
  | raised
  deriving DecidableEq

/-- What the coordinator is told about a node that is ready. -/
structure GateAnswer where
  evaluation : CapabilityEvaluation
  fabric : FabricGate := .granted
  fabricBinding : Option Binding := none
  deriving DecidableEq

/-- A node is marked as failed before it is claimed, or the call raises. -/
inductive GateFailure where
  | marked (category : IPCErrorCategory) (code : String)
  | raised (error : CoordinatorError)

/-- `plan_requires_fabric_placement`. -/
def ExecutionPlan.requiresFabricPlacement (plan : ExecutionPlan) : Bool :=
  match getKey plan.configuration "fabric_placement" with
  | .dict cfg => StateStore.truthy (getKey cfg "required")
  | _ => false

/-- The side effect of the node of a plan with an id. -/
def ExecutionPlan.sideEffectOf (plan : ExecutionPlan) (nodeId : String) :
    Option SideEffectClassification :=
  (plan.nodes.find? fun node => node.nodeId = nodeId).map fun node => node.task.sideEffect

/-- The capabilities that a plan of mode M8 may use whatever their side effect. -/
def validationCapabilities : List String :=
  ["state_diff", "validation_compare", "package_evidence", "verify_evidence", "schema_extract"]

/-- A node changes something though the plan only validates. -/
def mutationProhibited (plan : ExecutionPlan) (node : NodeExecution) : Bool :=
  decide (plan.mode = .m8ValidationOnly) &&
    (plan.sideEffectOf node.graphNodeId).any (· ≠ .readOnly) &&
      decide (node.capabilityContract ∉ validationCapabilities)

/-- A node needs a placement. -/
def needsPlacement (plan : ExecutionPlan) (node : NodeExecution) : Bool :=
  plan.requiresFabricPlacement && decide (plan.sideEffectOf node.graphNodeId ≠ some .readOnly)

/-- The steps A of `advance_plan_execution`: the binding under which a node may be claimed. -/
def gate (plan : ExecutionPlan) (node : NodeExecution) (answer : GateAnswer) :
    Except GateFailure String :=
  let bound := fun binding : Option Binding =>
    match binding with
    | some binding =>
      if binding.isExecutionPort then .ok binding.bindingId else .error (.marked .unbound "UNBOUND")
    | none => .error (.marked .unbound "UNBOUND")
  if ¬ answer.evaluation.isAvailable then
    .error (if answer.evaluation.isBound then .marked .unavailable "UNAVAILABLE"
      else .marked .unbound "UNBOUND")
  else if mutationProhibited plan node then .error (.marked .forbidden "M8_MUTATION_PROHIBITED")
  else if needsPlacement plan node ∧ answer.fabric = .refused then
    .error (.marked .forbidden "FABRIC_PLACEMENT_REQUIRED")
  else if needsPlacement plan node ∧ answer.fabric = .raised then .error (.raised .fabric)
  else if plan.requiresFabricPlacement ∧ node.capabilityContract = "data_transport" then
    if answer.fabricBinding.isNone then .error (.raised .fabric) else bound answer.fabricBinding
  else bound answer.evaluation.selectedBinding

/-- The lease of the attempt that a recovery assigned to a node, unless it has expired. -/
def Tables.preassignedLease (t : Tables) (node : NodeExecution) (now : String) :
    Option ExecutionLease :=
  if Tables.given node.currentAttemptId ∧ Tables.given node.leaseId then
    (t.leases.getLease (node.currentAttemptId.getD "")).filter fun lease => !lease.isExpired now
  else none

/-- An engine has accepted a task and goes on with it. -/
def inProgress (result : EngineInvocationResult) : Bool :=
  result.isInProgress ||
    match result.resultPayload with
    | .dict payload =>
      (match getKey payload "is_in_progress" with
        | .bool b => b
        | _ => false) ||
      (match getKey payload "status" with
        | .str status => status ∈ ["SYNCING", "RUNNING", "IN_PROGRESS", "ACTIVE_CAPTURING"]
        | _ => false)
    | _ => false

/-! ## Workers -/

/-- The arguments of `advance_plan_execution`. -/
structure AdvanceCall where
  executionId : String
  plan : ExecutionPlan
  operationId : String
  ownerId : String

/-- Where a worker stands: at the head of the loop, before the checks of a node, before its claim,
before and in the call of the engine, before a failure is marked, or before a completion is
reconciled. -/
inductive Worker where
  | idle
  | checking (call : AdvanceCall)
  | gating (call : AdvanceCall) (initializationFingerprint nodeExecutionId : String)
      (node : NodeExecution)
  | claiming (call : AdvanceCall) (initializationFingerprint nodeExecutionId : String)
      (node : NodeExecution) (bindingId : String) (preassigned : Option ExecutionLease)
  | dispatching (call : AdvanceCall) (d : Tables.Dispatch)
  | awaiting (call : AdvanceCall) (d : Tables.Dispatch)
  | failing (executionId nodeExecutionId : String) (category : IPCErrorCategory) (code : String)
  | completing (result : EngineInvocationResult) (found : Tables.Found) (operationId ownerId : String)
  | finished (outcome : Except CoordinatorError ExecutionOutcome)

/-- The worker is free to make a call. -/
def Worker.isFree : Worker → Bool
  | .idle | .finished _ => true
  | _ => false

/-- The worker has nothing left to do but to mark a failure. -/
def Worker.isStopped : Worker → Bool
  | .failing _ _ _ _ | .finished _ => true
  | _ => false

/-- What is on record: the calls of engines and the recoveries, the latest first. -/
inductive Event where
  | called (executionId graphNodeId : String)
  | recovered (executionId : String)
  deriving DecidableEq

/-- The tables, the workers and the record. -/
structure Coordinator where
  tables : Tables
  workers : ℕ → Worker
  log : List Event

/-- What an engine does. -/
inductive EngineAnswer where
  | returned (result : EngineInvocationResult)
  | raised

/-- What can happen. -/
inductive Action where
  | materialize (m : Tables.Materialization)
  | advance (w : ℕ) (call : AdvanceCall)
  | complete (w : ℕ) (result : EngineInvocationResult) (operationId ownerId : String)
  | check (w : ℕ)
  | gate (w : ℕ) (answer : GateAnswer) (now : String)
  | claim (w : ℕ) (attemptId leaseId invocationId now expiresAt : String)
  | dispatch (w : ℕ)
  | answer (w : ℕ) (answer : EngineAnswer)
  | reconcile (w : ℕ)
  | fail (w : ℕ)
  | cancel (executionId : String)
  | recover (r : Tables.Recovery)
  | acquireLease (leaseId attemptId ownerId expiresAt initializationFingerprint now : String)
  | revokeLease (attemptId now : String)

/-- The worker that does a unit of work. -/
def Action.worker : Action → Option ℕ
  | .advance w _ | .complete w _ _ _ | .check w | .gate w _ _ | .claim w _ _ _ _ _ | .dispatch w
  | .answer w _ | .reconcile w | .fail w => some w
  | _ => none

theorem Action.recover_or (a : Action) : (∃ r, a = .recover r) ∨ ∀ r, a ≠ .recover r := by
  rw [or_iff_not_imp_left]
  intro h r hr
  exact h ⟨r, hr⟩

theorem Action.dispatch_or_recover_or (a : Action) :
    (∃ w, a = .dispatch w) ∨ (∃ r, a = .recover r) ∨
      (∀ w, a ≠ .dispatch w) ∧ ∀ r, a ≠ .recover r := by
  rcases a.recover_or with hrecover | hother
  · exact Or.inr (Or.inl hrecover)
  · rw [or_iff_not_imp_left]
    intro h
    exact Or.inr ⟨fun w hw => h ⟨w, hw⟩, hother⟩

namespace Coordinator

variable (receiptCheck : ReceiptCheck) (s : Coordinator)

/-- A worker goes on. -/
def become (w : ℕ) (worker : Worker) : Coordinator :=
  { s with workers := Function.update s.workers w worker }

/-- A unit of work is committed. -/
def commit (t : Tables) : Coordinator := { s with tables := t }

/-- Something is put on record. -/
def record (event : Event) : Coordinator := { s with log := event :: s.log }

/-- A worker marks a node and its execution as failed and returns. -/
def markFailed (w : ℕ) (executionId nodeExecutionId : String) (category : IPCErrorCategory)
    (code : String) : Coordinator :=
  (s.commit (s.tables.markNodeAndPlanFailed executionId nodeExecutionId code)).become w
    (.finished (.ok (.failed category code)))

/-- The engine returns to the worker that called it. -/
def answered (w : ℕ) (call : AdvanceCall) (d : Tables.Dispatch) : EngineAnswer → Coordinator
  | .raised =>
    s.markFailed w call.executionId d.nodeExecutionId .unavailable "ENGINE_DISPATCH_ERROR"
  | .returned result =>
    if inProgress result then s.become w (.finished (.error .attributeError))
    else
      match s.tables.recordResult receiptCheck call.plan (d.expectation call.executionId) result with
      | .error (.reconcile (.stale _)) =>
        s.become w (.failing call.executionId d.nodeExecutionId .staleResult "STALE_RESULT")
      | .error _ =>
        s.become w
          (.failing call.executionId d.nodeExecutionId .internalError "RECONCILIATION_ERROR")
      | .ok (t, some code) =>
        (s.commit t).become w (.finished (.ok (.failed .internalError code)))
      | .ok (t, none) => (s.commit t).become w (.checking call)

/-- The reconciliation of a completion. -/
def reconciled (w : ℕ) (result : EngineInvocationResult) (f : Tables.Found)
    (operationId ownerId : String) : Coordinator :=
  match s.tables.recordCompletion receiptCheck f result with
  | .error (.reconcile (.stale _)) =>
    s.become w (.failing f.node.executionId f.nodeExecutionId .staleResult "STALE_RESULT")
  | .error error => s.become w (.finished (.error error))
  | .ok (t, some outcome) => (s.commit t).become w (.finished (.ok outcome))
  | .ok (t, none) =>
    (s.commit t).become w (.checking ⟨f.node.executionId, f.plan, operationId, ownerId⟩)

/-- One unit of work; a worker does what is next for it. -/
def step : Action → Option Coordinator
  | .materialize m =>
    match s.tables.materializePlanExecution m with
    | .error _ => some s
    | .ok (t, _) => some (s.commit t)
  | .advance w call => if (s.workers w).isFree then some (s.become w (.checking call)) else none
  | .complete w result operationId ownerId =>
    if (s.workers w).isFree then
      match s.tables.findCompletion result with
      | .error error => some (s.become w (.finished (.error error)))
      | .ok (.inl outcome) => some (s.become w (.finished (.ok outcome)))
      | .ok (.inr f) =>
        some (s.become w (.completing result f
          (if Tables.given f.planRow.startOperationId then f.planRow.startOperationId.getD ""
            else operationId) ownerId))
    else none
  | .check w =>
    match s.workers w with
    | .checking call =>
      match s.tables.checkExecution call.executionId call.plan with
      | (t, .returned outcome) => some ((s.commit t).become w (.finished (.ok outcome)))
      | (t, .ready initializationFingerprint nodeExecutionId node) =>
        some ((s.commit t).become w (.gating call initializationFingerprint nodeExecutionId node))
    | _ => none
  | .gate w answer now =>
    match s.workers w with
    | .gating call initializationFingerprint nodeExecutionId node =>
      match PlanCoordination.gate call.plan node answer with
      | .error (.marked category code) =>
        some (s.markFailed w call.executionId nodeExecutionId category code)
      | .error (.raised error) => some (s.become w (.finished (.error error)))
      | .ok bindingId =>
        some (s.become w (.claiming call initializationFingerprint nodeExecutionId node bindingId
          (s.tables.preassignedLease node now)))
    | _ => none
  | .claim w attemptId leaseId invocationId now expiresAt =>
    match s.workers w with
    | .claiming call initializationFingerprint nodeExecutionId node bindingId preassigned =>
      match s.tables.claimNode
        { executionId := call.executionId
          nodeExecutionId := nodeExecutionId
          node := node
          bindingId := bindingId
          initializationFingerprint := initializationFingerprint
          operationId := call.operationId
          ownerId := call.ownerId
          preassigned := preassigned
          attemptId := attemptId
          leaseId := leaseId
          invocationId := invocationId
          now := now
          expiresAt := expiresAt } with
      | .error error => some (s.become w (.finished (.error error)))
      | .ok none => some (s.become w (.checking call))
      | .ok (some (t, d)) => some ((s.commit t).become w (.dispatching call d))
    | _ => none
  | .dispatch w =>
    match s.workers w with
    | .dispatching call d =>
      some ((s.become w (.awaiting call d)).record (.called call.executionId d.graphNodeId))
    | _ => none
  | .answer w answer =>
    match s.workers w with
    | .awaiting call d => some (s.answered receiptCheck w call d answer)
    | _ => none
  | .reconcile w =>
    match s.workers w with
    | .completing result f operationId ownerId =>
      some (s.reconciled receiptCheck w result f operationId ownerId)
    | _ => none
  | .fail w =>
    match s.workers w with
    | .failing executionId nodeExecutionId category code =>
      some (s.markFailed w executionId nodeExecutionId category code)
    | _ => none
  | .cancel executionId => some (s.commit (s.tables.cancelPlanExecution executionId))
  | .recover r =>
    match s.tables.recoverPlanExecution r with
    | .error _ => some s
    | .ok (_, none) => some s
    | .ok (t, some executionId) => some ((s.commit t).record (.recovered executionId))
  | .acquireLease leaseId attemptId ownerId expiresAt initializationFingerprint now =>
    match s.tables.leases.acquireLease leaseId attemptId ownerId expiresAt initializationFingerprint
      now with
    | .error _ => some s
    | .ok (leases, _) => some (s.commit { s.tables with leases := leases })
  | .revokeLease attemptId now =>
    some (s.commit { s.tables with leases := s.tables.leases.revokeLease attemptId now })

end Coordinator

/-! ## What a unit of work writes -/

/-- A state or a status that is written whatever stood there before. -/
inductive Write where
  | node (nodeExecutionId : String) (state : NodeExecutionState)
  | plan (executionId : String) (status : PlanExecutionStatus)
  deriving DecidableEq

/-- What `_mark_node_and_plan_failed` writes. -/
def failureWrites (executionId nodeExecutionId : String) : List Write :=
  [.node nodeExecutionId .failed, .plan executionId .failed]

namespace Coordinator

variable (receiptCheck : ReceiptCheck) (s : Coordinator)

/-- The states and statuses that a unit of work writes without looking at those it overwrites. -/
def writes : Action → List Write
  | .gate w answer _ =>
    match s.workers w with
    | .gating call _ nodeExecutionId node =>
      match PlanCoordination.gate call.plan node answer with
      | .error (.marked _ _) => failureWrites call.executionId nodeExecutionId
      | _ => []
    | _ => []
  | .claim w attemptId leaseId invocationId now expiresAt =>
    match s.workers w with
    | .claiming call initializationFingerprint nodeExecutionId node bindingId preassigned =>
      match s.tables.claimNode
        { executionId := call.executionId
          nodeExecutionId := nodeExecutionId
          node := node
          bindingId := bindingId
          initializationFingerprint := initializationFingerprint
          operationId := call.operationId
          ownerId := call.ownerId
          preassigned := preassigned
          attemptId := attemptId
          leaseId := leaseId
          invocationId := invocationId
          now := now
          expiresAt := expiresAt } with
      | .ok (some _) => [.plan call.executionId .running]
      | _ => []
    | _ => []
  | .answer w .raised =>
    match s.workers w with
    | .awaiting call d => failureWrites call.executionId d.nodeExecutionId
    | _ => []
  | .answer w (.returned result) =>
    match s.workers w with
    | .awaiting call d =>
      if inProgress result then []
      else
        match s.tables.recordResult receiptCheck call.plan (d.expectation call.executionId)
            result with
        | .error _ => []
        | .ok (_, some _) => failureWrites call.executionId d.nodeExecutionId
        | .ok (_, none) => [.node d.nodeExecutionId .succeeded]
    | _ => []
  | .reconcile w =>
    match s.workers w with
    | .completing result f _ _ =>
      match s.tables.recordResult receiptCheck f.plan f.expectation result with
      | .error _ => []
      | .ok (_, some _) => failureWrites f.node.executionId f.nodeExecutionId
      | .ok (t, none) =>
        .node f.nodeExecutionId .succeeded ::
          if t.allSucceeded f.node.executionId f.plan then [.plan f.node.executionId .succeeded]
          else []
    | _ => []
  | .fail w =>
    match s.workers w with
    | .failing executionId nodeExecutionId _ _ => failureWrites executionId nodeExecutionId
    | _ => []
  | .cancel executionId => [.plan executionId .cancelled]
  | _ => []

/-- The execution and the plan whose successors a unit of work may activate. -/
def activates : Action → Option (String × ExecutionPlan)
  | .answer w _ =>
    match s.workers w with
    | .awaiting call _ => some (call.executionId, call.plan)
    | _ => none
  | .reconcile w =>
    match s.workers w with
    | .completing _ f _ _ => some (f.node.executionId, f.plan)
    | _ => none
  | _ => none

/-- What a unit of work does to the tables, with what it writes. -/
inductive Effect : Action → List Write → Tables → Prop where
  | keep (a : Action) : Effect a [] s.tables
  | leases (a : Action) (leases : LeaseTable) : Effect a [] { s.tables with leases := leases }
  | finish (w : ℕ) (executionId : String) {row : PlanExecution}
      (hrow : s.tables.planExecutions.get? executionId = some row)
      (hopen : row.status = .accepted ∨ row.status = .running) :
      Effect (.check w) [] (s.tables.markPlanSucceeded executionId)
  | fail (a : Action) (executionId nodeExecutionId code : String) :
      Effect a (failureWrites executionId nodeExecutionId)
        (s.tables.markNodeAndPlanFailed executionId nodeExecutionId code)
  | claim (a : Action) {c : Tables.Claim} {d : Tables.Dispatch} {t : Tables}
      (hclaim : s.tables.claimNode c = .ok (some (t, d))) : Effect a [.plan c.executionId .running] t
  | succeed (a : Action) {executionId nodeExecutionId text : String} {plan : ExecutionPlan}
      {t : Tables} (hactivates : s.activates a = some (executionId, plan))
      (hnodes : PyDict.Updates (fun _ => Tables.Activated executionId plan.nodes)
        (s.tables.setNode nodeExecutionId (Tables.succeededRow text)).nodeExecutions t.nodeExecutions)
      (hplans : t.planExecutions = s.tables.planExecutions)
      (hartifacts : t.artifacts = s.tables.artifacts) : Effect a [.node nodeExecutionId .succeeded] t
  | complete (a : Action) {executionId nodeExecutionId text : String} {plan : ExecutionPlan}
      {t : Tables} (hactivates : s.activates a = some (executionId, plan))
      (hnodes : PyDict.Updates (fun _ => Tables.Activated executionId plan.nodes)
        (s.tables.setNode nodeExecutionId (Tables.succeededRow text)).nodeExecutions t.nodeExecutions)
      (hplans : t.planExecutions = s.tables.planExecutions)
      (hartifacts : t.artifacts = s.tables.artifacts) :
      Effect a [.node nodeExecutionId .succeeded, .plan executionId .succeeded]
        (t.markPlanSucceeded executionId)
  | cancel (executionId : String) : Effect (.cancel executionId) [.plan executionId .cancelled]
        (s.tables.cancelPlanExecution executionId)
  | materialize {m : Tables.Materialization} {t : Tables} {executionId : String}
      (h : s.tables.materializePlanExecution m = .ok (t, executionId)) :
      Effect (.materialize m) [] t
  | recover {r : Tables.Recovery} {t : Tables} {executionId : String}
      (h : s.tables.recoverPlanExecution r = .ok (t, some executionId)) : Effect (.recover r) [] t

variable {receiptCheck s} {s' : Coordinator}

variable {a : Action} {t : Tables} {w : ℕ} {ws : List Write}

/-- What the return of an engine does to the tables. -/
theorem answered_effect (hs : s.tables.Keyed) {call : AdvanceCall} {d : Tables.Dispatch}
    (hw : s.workers w = .awaiting call d) (answer : EngineAnswer) :
    s.Effect (.answer w answer) (s.writes receiptCheck (.answer w answer))
      (s.answered receiptCheck w call d answer).tables := by
  cases answer with
  | raised =>
    rw [writes, hw]
    exact Effect.fail _ _ _ _
  | returned result =>
    rw [writes, hw, answered]
    simp only
    split_ifs with hprogress
    · exact Effect.keep _
    · cases hresult : s.tables.recordResult receiptCheck call.plan (d.expectation call.executionId)
          result with
      | error error =>
        cases error with
        | reconcile error => cases error <;> exact Effect.keep _
        | _ => exact Effect.keep _
      | ok found =>
        obtain ⟨t, code⟩ := found
        rcases Tables.recordResult_spec hs hresult with
          ⟨text, rfl, rfl⟩ | ⟨rfl, ⟨text, hnodes⟩, hplans, -, hartifacts⟩
        · exact Effect.fail _ _ _ _
        · have hactivates : s.activates (.answer w (.returned result)) =
              some (call.executionId, call.plan) := by
            rw [activates, hw]
          exact Effect.succeed _ hactivates hnodes hplans hartifacts

/-- What the reconciliation of a completion does to the tables. -/
theorem reconciled_effect (hs : s.tables.Keyed) {result : EngineInvocationResult}
    {f : Tables.Found} {operationId ownerId : String}
    (hw : s.workers w = .completing result f operationId ownerId) :
    s.Effect (.reconcile w) (s.writes receiptCheck (.reconcile w))
      (s.reconciled receiptCheck w result f operationId ownerId).tables := by
  rw [writes, hw, reconciled, Tables.recordCompletion]
  simp only
  cases hresult : s.tables.recordResult receiptCheck f.plan f.expectation result with
  | error error =>
    cases error with
    | reconcile error => cases error <;> exact Effect.keep _
    | _ => exact Effect.keep _
  | ok found =>
    obtain ⟨t, code⟩ := found
    rcases Tables.recordResult_spec hs hresult with
      ⟨text, rfl, rfl⟩ | ⟨rfl, ⟨text, hnodes⟩, hplans, -, hartifacts⟩
    · exact Effect.fail _ _ _ _
    · have hactivates : s.activates (.reconcile w) = some (f.node.executionId, f.plan) := by
        rw [activates, hw]
      simp only
      split_ifs with hall
      · exact Effect.complete _ hactivates hnodes hplans hartifacts
      · exact Effect.succeed _ hactivates hnodes hplans hartifacts

/-- **Units of work.**  What a unit of work does to the tables. -/
theorem step_effect (hs : s.tables.Keyed) (h : s.step receiptCheck a = some s') :
    s.Effect a (s.writes receiptCheck a) s'.tables := by
  cases a with
  | materialize m =>
    rw [step] at h
    cases hm : s.tables.materializePlanExecution m with
    | error e =>
      rw [hm] at h
      cases h
      exact Effect.keep _
    | ok found =>
      rw [hm] at h
      cases h
      exact Effect.materialize hm
  | advance w call =>
    rw [step] at h
    split_ifs at h
    cases h
    exact Effect.keep _
  | complete w result operationId ownerId =>
    rw [step] at h
    split_ifs at h
    cases hfound : s.tables.findCompletion result with
    | error e =>
      rw [hfound] at h
      cases h
      exact Effect.keep _
    | ok found =>
      rw [hfound] at h
      cases found with
      | inl outcome =>
        cases h
        exact Effect.keep _
      | inr f =>
        cases h
        exact Effect.keep _
  | check w =>
    rw [step] at h
    cases hw : s.workers w with
    | checking call =>
      rw [hw] at h
      have hspec := Tables.checkExecution_spec s.tables call.executionId call.plan
      have htables : s'.tables = (s.tables.checkExecution call.executionId call.plan).1 := by
        simp only at h
        split at h
        all_goals
          rename_i hcheck
          cases h
          rw [hcheck]
          rfl
      rw [htables]
      rcases hspec with hkeep | ⟨hfinish, -, row, hrow, hopen⟩
      · rw [hkeep]
        exact Effect.keep _
      · rw [hfinish]
        exact Effect.finish w _ hrow hopen
    | _ =>
      rw [hw] at h
      cases h
  | gate w answer now =>
    rw [step] at h
    rw [writes]
    cases hw : s.workers w with
    | gating call initializationFingerprint nodeExecutionId node =>
      rw [hw] at h
      simp only at h ⊢
      cases hgate : PlanCoordination.gate call.plan node answer with
      | ok bindingId =>
        rw [hgate] at h
        cases h
        exact Effect.keep _
      | error failure =>
        rw [hgate] at h
        cases failure with
        | marked category code =>
          cases h
          exact Effect.fail _ _ _ _
        | raised error =>
          cases h
          exact Effect.keep _
    | _ =>
      rw [hw] at h
      cases h
  | claim w attemptId leaseId invocationId now expiresAt =>
    rw [step] at h
    rw [writes]
    cases hw : s.workers w with
    | claiming call initializationFingerprint nodeExecutionId node bindingId preassigned =>
      rw [hw] at h
      simp only at h ⊢
      split at h
      · rename_i hclaim
        cases h
        rw [hclaim]
        exact Effect.keep _
      · rename_i hclaim
        cases h
        rw [hclaim]
        exact Effect.keep _
      · rename_i hclaim
        cases h
        rw [hclaim]
        exact Effect.claim _ hclaim
    | _ =>
      rw [hw] at h
      cases h
  | dispatch w =>
    rw [step] at h
    cases hw : s.workers w with
    | dispatching call d =>
      rw [hw] at h
      cases h
      exact Effect.keep _
    | _ =>
      rw [hw] at h
      cases h
  | answer w answer =>
    rw [step] at h
    cases hw : s.workers w with
    | awaiting call d =>
      rw [hw] at h
      cases h
      exact answered_effect hs hw answer
    | _ =>
      rw [hw] at h
      cases h
  | reconcile w =>
    rw [step] at h
    cases hw : s.workers w with
    | completing result f operationId ownerId =>
      rw [hw] at h
      cases h
      exact reconciled_effect hs hw
    | _ =>
      rw [hw] at h
      cases h
  | fail w =>
    rw [step] at h
    rw [writes]
    cases hw : s.workers w with
    | failing executionId nodeExecutionId category code =>
      rw [hw] at h
      cases h
      exact Effect.fail _ _ _ _
    | _ =>
      rw [hw] at h
      cases h
  | cancel executionId =>
    cases h
    exact Effect.cancel executionId
  | recover r =>
    rw [step] at h
    split at h
    · cases h
      exact Effect.keep _
    · cases h
      exact Effect.keep _
    · rename_i hrecover
      cases h
      exact Effect.recover hrecover
  | acquireLease leaseId attemptId ownerId expiresAt initializationFingerprint now =>
    rw [step] at h
    split at h
    · cases h
      exact Effect.keep _
    · cases h
      exact Effect.leases _ _
  | revokeLease attemptId now =>
    cases h
    exact Effect.leases _ _

/-- **Distinct nodes.**  Every unit of work keeps the rows of nodes distinct. -/
theorem Effect.keyed (hs : s.tables.Keyed) (h : s.Effect a ws t) : t.Keyed := by
  have hactivated : ∀ {executionId id text : String} {nodes : List GraphNode} {t : Tables},
      PyDict.Updates (fun _ => Tables.Activated executionId nodes)
        (s.tables.setNode id (Tables.succeededRow text)).nodeExecutions t.nodeExecutions →
      t.Keyed := fun hnodes =>
    (hs.setNode _ (f := Tables.succeededRow _) fun _ => rfl).of_updates
      (hnodes.imp fun _ _ _ _ hrow => hrow.key)
  cases h with
  | keep => exact hs
  | leases => exact hs
  | finish => exact hs
  | fail _ executionId nodeExecutionId code =>
    exact hs.setNode nodeExecutionId
      (f := fun row => { row with state := .failed, error := some code }) fun _ => rfl
  | claim _ hclaim =>
    obtain ⟨row, leases, lease, -, -, -, rfl, rfl⟩ := Tables.claimNode_spec hclaim
    exact hs.setNode _ (f := (Tables.Claim.dispatch _ lease).claimed) fun _ => rfl
  | succeed _ _ hnodes => exact hactivated hnodes
  | complete _ _ hnodes => exact hactivated hnodes
  | cancel executionId =>
    refine hs.of_updates ?_
    apply PyDict.Updates.updateWhere
    · exact fun _ _ => rfl
    · exact fun _ _ _ _ => rfl
  | materialize hm =>
    rcases Tables.materializePlanExecution_spec hm with ⟨row, -, -, rfl | rfl⟩ | ⟨-, -, hinsert⟩
    · exact hs
    · exact hs
    · exact (Tables.insertNodes_spec hinsert hs).1
  | recover hr =>
    obtain ⟨row, dependencies, -, -, -, -, -, hnodes⟩ := Tables.recoverPlanExecution_spec hs hr
    refine hs.of_updates (hnodes.imp fun _ found found' _ hfound => ?_)
    rcases hfound with ⟨rfl, -⟩ | ⟨-, -, ready, chosen, rfl, -⟩ <;> rfl

/-- What may become of the row of a node, but for a recovery. -/
def NodeStep (s : Coordinator) (a : Action) (ws : List Write) (id : String)
    (row row' : NodeExecution) : Prop :=
  row'.key = row.key ∧ (row'.state = row.state ∨
      (∃ plan, s.activates a = some (row.executionId, plan) ∧
        ∃ node ∈ plan.nodes, node.nodeId = row.graphNodeId ∧ node.dependencies = []) ∧
        row.state = .blocked ∧ row'.state = .ready ∨
      row.state = .ready ∧ row'.state = .dispatched ∨
      row.state.isCancellable = true ∧ row'.state = .cancelled ∨ .node id row'.state ∈ ws)

theorem NodeStep.refl (s : Coordinator) (a : Action) (ws : List Write) (id : String)
    (row : NodeExecution) : NodeStep s a ws id row row :=
  ⟨rfl, Or.inl rfl⟩

/-- The success of a node and the activation of successors, of row by row. -/
theorem nodeStep_of_activated {executionId written text : String} {plan : ExecutionPlan}
    (hactivates : s.activates a = some (executionId, plan)) (hmem : .node written .succeeded ∈ ws)
    (hnodes : PyDict.Updates (fun _ => Tables.Activated executionId plan.nodes)
      (s.tables.setNode written (Tables.succeededRow text)).nodeExecutions t.nodeExecutions) :
    PyDict.Updates (s.NodeStep a ws) s.tables.nodeExecutions t.nodeExecutions := by
  have hset : PyDict.Updates (fun key found found' =>
      found' = found ∨ key = written ∧ found' = Tables.succeededRow text found)
      s.tables.nodeExecutions
      (s.tables.setNode written (Tables.succeededRow text)).nodeExecutions := by
    apply PyDict.Updates.updateRow
    · exact fun _ _ _ => Or.inl rfl
    · exact fun _ _ => Or.inr ⟨rfl, rfl⟩
  refine hset.trans hnodes fun key found found' found'' hfirst hsecond => ?_
  rcases hfirst with rfl | ⟨rfl, rfl⟩
  · rcases hsecond with rfl | ⟨hexecution, hnode, hblocked, rfl⟩
    · exact NodeStep.refl _ _ _ _ _
    · refine ⟨rfl, Or.inr (Or.inl ⟨⟨plan, ?_, hnode⟩, hblocked, rfl⟩)⟩
      rw [hactivates, hexecution]
  · rw [hsecond.eq_of_ne fun hblocked => by cases hblocked]
    exact ⟨rfl, Or.inr (Or.inr (Or.inr (Or.inr hmem)))⟩

/-- **Nodes.**  What a unit of work does to the rows of nodes, unless it is a materialisation or a
recovery. -/
theorem Effect.updates (h : s.Effect a ws t) :
    PyDict.Updates (s.NodeStep a ws) s.tables.nodeExecutions t.nodeExecutions ∨
      (∃ m executionId, a = .materialize m ∧
        s.tables.materializePlanExecution m = .ok (t, executionId)) ∨
      ∃ r executionId, a = .recover r ∧
        s.tables.recoverPlanExecution r = .ok (t, some executionId) := by
  have hrefl : ∀ ws, PyDict.Updates (s.NodeStep a ws) s.tables.nodeExecutions s.tables.nodeExecutions :=
    fun ws => PyDict.Updates.refl (NodeStep.refl s a ws) _
  have hwrite : ∀ {f : NodeExecution → NodeExecution} {written : String} {ws : List Write},
      (∀ row, s.tables.nodeExecutions.get? written = some row →
        s.NodeStep a ws written row (f row)) →
      PyDict.Updates (s.NodeStep a ws) s.tables.nodeExecutions
        (s.tables.setNode written f).nodeExecutions := by
    intro f written ws hf
    apply PyDict.Updates.updateRow
    · exact fun k found _ => NodeStep.refl s a ws k found
    · exact hf
  cases h with
  | keep => exact Or.inl (hrefl _)
  | leases => exact Or.inl (hrefl _)
  | finish => exact Or.inl (hrefl _)
  | fail _ executionId nodeExecutionId code =>
    refine Or.inl (hwrite (f := fun row => { row with state := .failed, error := some code })
      fun found hfound => ⟨rfl, ?_⟩)
    exact Or.inr (Or.inr (Or.inr (Or.inr List.mem_cons_self)))
  | claim _ hclaim =>
    obtain ⟨found, leases, lease, hfound, hready, -, rfl, rfl⟩ := Tables.claimNode_spec hclaim
    refine Or.inl (hwrite (f := (Tables.Claim.dispatch _ lease).claimed)
      fun other hother => ⟨rfl, ?_⟩)
    obtain rfl : found = other := Option.some.inj (hfound.symm.trans hother)
    exact Or.inr (Or.inr (Or.inl ⟨hready, rfl⟩))
  | succeed _ hactivates hnodes =>
    exact Or.inl (nodeStep_of_activated hactivates List.mem_cons_self hnodes)
  | complete _ hactivates hnodes =>
    exact Or.inl (nodeStep_of_activated hactivates List.mem_cons_self hnodes)
  | cancel executionId =>
    refine Or.inl ?_
    apply PyDict.Updates.updateWhere
    · exact fun _ _ => NodeStep.refl _ _ _ _ _
    · intro key found _ hp
      refine ⟨rfl, Or.inr (Or.inr (Or.inr (Or.inl ⟨?_, rfl⟩)))⟩
      exact (of_decide_eq_true hp).2
  | materialize hm => exact Or.inr (Or.inl ⟨_, _, rfl, hm⟩)
  | recover hr => exact Or.inr (Or.inr ⟨_, _, rfl, hr⟩)

/-- So a row stays, under what a unit of work that is no recovery may do to it. -/
theorem Effect.nodeStep (hs : s.tables.Keyed)
    (h : s.Effect a ws t) (ha : ∀ r, a ≠ .recover r) {id : String} {row : NodeExecution}
    (hrow : s.tables.nodeExecutions.get? id = some row) :
    ∃ row', t.nodeExecutions.get? id = some row' ∧ s.NodeStep a ws id row row' := by
  rcases h.updates with hupdates | ⟨m, executionId, -, hm⟩ | ⟨r, -, rfl, -⟩
  · exact hupdates.get hrow
  · rcases Tables.materializePlanExecution_spec hm with ⟨found, -, -, rfl | rfl⟩ | ⟨-, -, hinsert⟩
    · exact ⟨row, hrow, NodeStep.refl _ _ _ _ _⟩
    · exact ⟨row, hrow, NodeStep.refl _ _ _ _ _⟩
    · obtain ⟨-, -, -, -, hkeep, -⟩ := Tables.insertNodes_spec hinsert hs
      exact ⟨row, hkeep id row hrow, NodeStep.refl _ _ _ _ _⟩
  · exact absurd rfl (ha r)

/-- What may become of the row of an execution, but for a recovery. -/
def PlanStep (ws : List Write) (id : String) (row row' : PlanExecution) : Prop :=
  row'.planId = row.planId ∧ (row'.status = row.status ∨
      (row.status = .accepted ∨ row.status = .running) ∧ row'.status = .succeeded ∨
      .plan id row'.status ∈ ws)

/-- **Executions.**  What a unit of work that is no recovery does to the row of an execution. -/
theorem Effect.planStep (hs : s.tables.Keyed)
    (h : s.Effect a ws t) (ha : ∀ r, a ≠ .recover r) {id : String} {row : PlanExecution}
    (hrow : s.tables.planExecutions.get? id = some row) :
    ∃ row', t.planExecutions.get? id = some row' ∧ PlanStep ws id row row' := by
  have hrefl : ∀ (ws : List Write) (id : String) (row : PlanExecution), PlanStep ws id row row :=
    fun _ _ _ => ⟨rfl, Or.inl rfl⟩
  have hwrite : ∀ {f : PlanExecution → PlanExecution} {written : String} {ws : List Write},
      (∀ row, s.tables.planExecutions.get? written = some row → PlanStep ws written row (f row)) →
      PyDict.Updates (PlanStep ws) s.tables.planExecutions
        (s.tables.planExecutions.updateRow written f) := by
    intro f written ws hf
    apply PyDict.Updates.updateRow
    · exact fun k found _ => hrefl ws k found
    · exact hf
  cases h with
  | keep => exact ⟨row, hrow, hrefl _ _ _⟩
  | leases => exact ⟨row, hrow, hrefl _ _ _⟩
  | finish w executionId hfound hopen =>
    refine (hwrite (f := fun row => { row with status := .succeeded }) fun other hother => ?_).get
      hrow
    obtain rfl := Option.some.inj (hfound.symm.trans hother)
    exact ⟨rfl, Or.inr (Or.inl ⟨hopen, rfl⟩)⟩
  | fail _ executionId nodeExecutionId code =>
    refine (hwrite (f := fun row => { row with status := .failed }) fun other hother => ?_).get hrow
    exact ⟨rfl, Or.inr (Or.inr (List.mem_cons_of_mem _ List.mem_cons_self))⟩
  | @claim _ c d _ hclaim =>
    obtain ⟨found, leases, lease, -, -, -, -, rfl⟩ := Tables.claimNode_spec hclaim
    refine (hwrite (f := fun plan =>
      { plan with
        status := .running
        startOperationId := plan.startOperationId.or (some c.operationId) })
      fun other hother => ?_).get hrow
    exact ⟨rfl, Or.inr (Or.inr List.mem_cons_self)⟩
  | succeed _ _ _ hplans =>
    rw [hplans]
    exact ⟨row, hrow, hrefl _ _ _⟩
  | complete _ _ _ hplans =>
    rw [Tables.markPlanSucceeded, Tables.setStatus]
    simp only
    rw [hplans]
    refine (hwrite (f := fun row => { row with status := .succeeded }) fun other hother => ?_).get
      hrow
    exact ⟨rfl, Or.inr (Or.inr (List.mem_cons_of_mem _ List.mem_cons_self))⟩
  | cancel executionId =>
    refine (hwrite (f := fun row => { row with status := .cancelled }) fun other hother => ?_).get
      hrow
    exact ⟨rfl, Or.inr (Or.inr List.mem_cons_self)⟩
  | @materialize m _ executionId hm =>
    rcases Tables.materializePlanExecution_spec hm with
      ⟨found, hfound, -, rfl | rfl⟩ | ⟨-, hnone, hinsert⟩
    · exact ⟨row, hrow, hrefl _ _ _⟩
    · by_cases hid : id = executionId
      · subst hid
        rw [hfound] at hrow
        cases hrow
        exact ⟨_, PyDict.get?_set _ _ _, rfl, Or.inl rfl⟩
      · exact ⟨row, (PyDict.get?_set_of_ne _ _ hid).trans hrow, hrefl _ _ _⟩
    · obtain ⟨-, hplans, -⟩ := Tables.insertNodes_spec hinsert hs
      have hid : id ≠ m.executionId := by
        rintro rfl
        rw [hnone] at hrow
        cases hrow
      rw [hplans]
      exact ⟨row, (PyDict.get?_set_of_ne _ _ hid).trans hrow, hrefl _ _ _⟩
  | recover => exact absurd rfl (ha _)

/-! ## Workers -/

theorem workers_become (s : Coordinator) (w : ℕ) (worker : Worker) :
    (s.become w worker).workers w = worker :=
  Function.update_self _ _ _

/-- What a unit of work does: one of no worker commits tables, a worker stops or goes on. -/
inductive Move (s : Coordinator) : Action → Coordinator → Prop
  | commit {a : Action} (ha : a.worker = none) (t : Tables) : Move s a (s.commit t)
  | recover {r : Tables.Recovery} (t : Tables) (executionId : String) :
    Move s (.recover r) ((s.commit t).record (.recovered executionId))
  | stop {a : Action} {w : ℕ} {worker : Worker} (ha : a.worker = some w)
    (hstops : worker.isStopped = true) (t : Tables) : Move s a ((s.commit t).become w worker)
  | start (w : ℕ) (call : AdvanceCall) : Move s (.advance w call) (s.become w (.checking call))
  | find {w : ℕ} {result : EngineInvocationResult} {operationId operationId' ownerId : String}
    {f : Tables.Found} (hfound : s.tables.findCompletion result = .ok (.inr f)) :
    Move s (.complete w result operationId ownerId) (s.become w (.completing result f operationId' ownerId))
  | check {w : ℕ} {call : AdvanceCall} {t : Tables} {fingerprint id : String} {node : NodeExecution}
    (hw : s.workers w = .checking call)
    (hcheck : s.tables.checkExecution call.executionId call.plan = (t, .ready fingerprint id node)) :
    Move s (.check w) ((s.commit t).become w (.gating call fingerprint id node))
  | gate {w : ℕ} {call : AdvanceCall} {fingerprint id now bindingId : String} {node : NodeExecution}
    {answer : GateAnswer} {preassigned : Option ExecutionLease}
    (hw : s.workers w = .gating call fingerprint id node) :
    Move s (.gate w answer now) (s.become w (.claiming call fingerprint id node bindingId preassigned))
  | lose {w : ℕ} {call : AdvanceCall}
    {fingerprint id bindingId attemptId leaseId invocationId now expiresAt : String}
    {node : NodeExecution} {preassigned : Option ExecutionLease}
    (hw : s.workers w = .claiming call fingerprint id node bindingId preassigned) :
    Move s (.claim w attemptId leaseId invocationId now expiresAt) (s.become w (.checking call))
  | claim {w : ℕ} {call : AdvanceCall}
    {fingerprint bindingId attemptId leaseId invocationId now expiresAt : String}
    {preassigned : Option ExecutionLease} {c : Tables.Claim} {d : Tables.Dispatch} {t : Tables}
    (hw : s.workers w = .claiming call fingerprint c.nodeExecutionId c.node bindingId preassigned)
    (hclaim : s.tables.claimNode c = .ok (some (t, d))) :
    Move s (.claim w attemptId leaseId invocationId now expiresAt)
      ((s.commit t).become w (.dispatching call d))
  | dispatch {w : ℕ} {call : AdvanceCall} {d : Tables.Dispatch}
    (hw : s.workers w = .dispatching call d) :
    Move s (.dispatch w)
      ((s.record (.called call.executionId d.graphNodeId)).become w (.awaiting call d))
  | succeed {w : ℕ} {call : AdvanceCall} {d : Tables.Dispatch} {answer : EngineAnswer}
    (hw : s.workers w = .awaiting call d) (t : Tables) :
    Move s (.answer w answer) ((s.commit t).become w (.checking call))
  | complete {w : ℕ} {result : EngineInvocationResult} {f : Tables.Found}
    {operationId ownerId : String} (hw : s.workers w = .completing result f operationId ownerId)
    (t : Tables) : Move s (.reconcile w)
      ((s.commit t).become w (.checking ⟨f.node.executionId, f.plan, operationId, ownerId⟩))

/-- **Moves.**  What a unit of work does. -/
theorem step_move (h : s.step receiptCheck a = some s') : s.Move a s' := by
  cases a with
  | advance w call =>
    rw [step] at h
    split_ifs at h
    cases h
    exact .start w call
  | complete w result operationId ownerId =>
    rw [step] at h
    split_ifs at h
    split at h
    · cases h
      exact .stop rfl rfl s.tables
    · cases h
      exact .stop rfl rfl s.tables
    · rename_i hfound
      cases h
      exact .find hfound
  | check w =>
    rw [step] at h
    split at h
    · rename_i hw
      split at h
      · cases h
        exact .stop rfl rfl _
      · rename_i hcheck
        cases h
        exact .check hw hcheck
    · cases h
  | gate w answer now =>
    rw [step] at h
    split at h
    · rename_i hw
      split at h
      · cases h
        exact .stop rfl rfl _
      · cases h
        exact .stop rfl rfl s.tables
      · cases h
        exact .gate hw
    · cases h
  | claim w attemptId leaseId invocationId now expiresAt =>
    rw [step] at h
    split at h
    · rename_i hw
      split at h
      · cases h
        exact .stop rfl rfl s.tables
      · cases h
        exact .lose hw
      · rename_i hclaim
        cases h
        exact .claim hw hclaim
    · cases h
  | dispatch w =>
    rw [step] at h
    split at h
    · rename_i hw
      cases h
      exact .dispatch hw
    · cases h
  | answer w answer =>
    rw [step] at h
    split at h
    · rename_i hw
      cases h
      cases answer with
      | raised => exact .stop rfl rfl _
      | returned result =>
        rw [answered]
        split_ifs
        · exact .stop rfl rfl s.tables
        · split
          · exact .stop rfl rfl s.tables
          · exact .stop rfl rfl s.tables
          · exact .stop rfl rfl _
          · exact .succeed hw _
    · cases h
  | reconcile w =>
    rw [step] at h
    split at h
    · rename_i hw
      cases h
      rw [reconciled]
      split
      · exact .stop rfl rfl s.tables
      · exact .stop rfl rfl s.tables
      · exact .stop rfl rfl _
      · exact .complete hw _
    · cases h
  | fail w =>
    rw [step] at h
    split at h
    · cases h
      exact .stop rfl rfl _
    · cases h
  | recover r =>
    rw [step] at h
    split at h
    · cases h
      exact .commit rfl s.tables
    · cases h
      exact .commit rfl s.tables
    · cases h
      exact .recover _ _
  | materialize | cancel | acquireLease | revokeLease =>
    rw [step] at h
    repeat' split at h
    all_goals
      cases h
      exact .commit rfl _

/-- **Workers.**  A unit of work moves the worker that does it, and no other. -/
theorem step_workers (h : s.step receiptCheck a = some s') :
    a.worker = none ∧ s'.workers = s.workers ∨
      ∃ w worker, a.worker = some w ∧ s'.workers = Function.update s.workers w worker := by
  cases step_move h with
  | commit ha => exact Or.inl ⟨ha, rfl⟩
  | recover => exact Or.inl ⟨rfl, rfl⟩
  | stop ha => exact Or.inr ⟨_, _, ha, rfl⟩
  | _ => exact Or.inr ⟨_, _, rfl, rfl⟩

theorem step_workers_of_ne (h : s.step receiptCheck a = some s')
    (hw : a.worker ≠ some w) : s'.workers w = s.workers w := by
  rcases step_workers h with ⟨-, hsame⟩ | ⟨v, worker, hv, hupdate⟩
  · rw [hsame]
  · rw [hupdate, Function.update_of_ne]
    rintro rfl
    exact hw hv

end Coordinator

end PlanCoordination

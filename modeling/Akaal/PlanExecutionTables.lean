/-
# Tables of plan executions

The units of work of `PlanExecutionCoordinator` in `akaalPipeline/execution/coordinator.py`: each is one
transaction over the rows of `plan_executions`, `node_executions` and the leases, and one that raises
leaves them as they were.  `NodeExecutionState` has no member `RUNNING`, which the activation of
successors and the acknowledgement of a task in progress read.

* `PyDict.get?_updateRow`, `PyDict.get?_updateWhere` : what an update does to a row;
* `PyDict.Updates` : rows that change only as a relation allows.

Tenants and fabric placement are checked before an execution is materialised and are left out; so are
the operation journal, the outbox, the audit trail, the row of the migration and the texts of errors.
-/
import Akaal.GraphValidation
import Akaal.ResultReconciliation

/-! ## Rows of a table -/

namespace PyDict

variable {α : Type*} (d : PyDict α)

/-- `UPDATE … WHERE` for the primary key. -/
def updateRow (key : String) (f : α → α) : PyDict α :=
  match d.get? key with
  | some row => d.set key (f row)
  | none => d

/-- `UPDATE … WHERE`. -/
def updateWhere (p : α → Bool) (f : α → α) : PyDict α :=
  d.mapValues fun row => if p row then f row else row

/-- The rows after an update for a primary key. -/
theorem get?_updateRow (key k : String) (f : α → α) :
    (d.updateRow key f).get? k = if k = key then (d.get? key).map f else d.get? k := by
  rw [updateRow]
  cases hrow : d.get? key with
  | none =>
    simp only
    split_ifs with h
    · rw [h, hrow, Option.map_none]
    · rfl
  | some row =>
    simp only
    split_ifs with h
    · rw [h, get?_set, Option.map_some]
    · exact d.get?_set_of_ne _ h

/-- The rows after an update. -/
theorem get?_updateWhere (p : α → Bool) (f : α → α) (k : String) :
    (d.updateWhere p f).get? k = (d.get? k).map fun row => if p row then f row else row :=
  get?_mapValues _ d k

/-- The two dictionaries have the same keys, and their values are related under each of them. -/
def Updates (R : String → α → α → Prop) (d d' : PyDict α) : Prop :=
  ∀ key, Option.Rel (R key) (d.get? key) (d'.get? key)

namespace Updates

variable {d} {d' d'' : PyDict α} {R S : String → α → α → Prop}

theorem get (h : Updates R d d') {key : String} {row : α} (hrow : d.get? key = some row) :
    ∃ row', d'.get? key = some row' ∧ R key row row' := by
  have hkey := h key
  rw [hrow] at hkey
  cases hd' : d'.get? key with
  | none =>
    rw [hd'] at hkey
    cases hkey
  | some row' =>
    rw [hd'] at hkey
    cases hkey with
    | some hR => exact ⟨row', rfl, hR⟩

theorem get_back (h : Updates R d d') {key : String} {row' : α} (hrow' : d'.get? key = some row') :
    ∃ row, d.get? key = some row ∧ R key row row' := by
  have hkey := h key
  rw [hrow'] at hkey
  cases hd : d.get? key with
  | none =>
    rw [hd] at hkey
    cases hkey
  | some row =>
    rw [hd] at hkey
    cases hkey with
    | some hR => exact ⟨row, rfl, hR⟩

theorem of_get (hget : ∀ key row, d.get? key = some row → ∃ row', d'.get? key = some row' ∧ R key row row')
    (hback : ∀ key row', d'.get? key = some row' → ∃ row, d.get? key = some row) : Updates R d d' := by
  intro key
  cases hd : d.get? key with
  | none =>
    cases hd' : d'.get? key with
    | none => exact Option.Rel.none
    | some row' =>
      obtain ⟨row, hrow⟩ := hback key row' hd'
      rw [hd] at hrow
      cases hrow
  | some row =>
    obtain ⟨row', hrow', hR⟩ := hget key row hd
    rw [hrow']
    exact Option.Rel.some hR

theorem imp (h : Updates R d d')
    (hRS : ∀ key row row', d.get? key = some row → R key row row' → S key row row') :
    Updates S d d' := by
  refine of_get (fun key row hrow => ?_) fun key row' hrow' => ?_
  · obtain ⟨row', hrow', hR⟩ := h.get hrow
    exact ⟨row', hrow', hRS key row row' hrow hR⟩
  · obtain ⟨row, hrow, -⟩ := h.get_back hrow'
    exact ⟨row, hrow⟩

theorem refl (hR : ∀ key row, R key row row) (d : PyDict α) : Updates R d d :=
  of_get (fun key row hrow => ⟨row, hrow, hR key row⟩) fun _ row' hrow' => ⟨row', hrow'⟩

theorem trans {T : String → α → α → Prop} (h : Updates R d d') (h' : Updates S d' d'')
    (hT : ∀ key row row' row'', R key row row' → S key row' row'' → T key row row'') :
    Updates T d d'' := by
  refine of_get (fun key row hrow => ?_) fun key row'' hrow'' => ?_
  · obtain ⟨row', hrow', hR⟩ := h.get hrow
    obtain ⟨row'', hrow'', hS⟩ := h'.get hrow'
    exact ⟨row'', hrow'', hT key row row' row'' hR hS⟩
  · obtain ⟨row', hrow', -⟩ := h'.get_back hrow''
    obtain ⟨row, hrow, -⟩ := h.get_back hrow'
    exact ⟨row, hrow⟩

theorem updateRow {key : String} (hR : ∀ k row, k ≠ key → R k row row) {f : α → α}
    (h : ∀ row, d.get? key = some row → R key row (f row)) : Updates R d (d.updateRow key f) := by
  intro k
  rw [get?_updateRow]
  split_ifs with hk
  · rw [hk]
    cases hrow : d.get? key with
    | none => exact Option.Rel.none
    | some row => exact Option.Rel.some (h row hrow)
  · cases d.get? k with
    | none => exact Option.Rel.none
    | some row => exact Option.Rel.some (hR k row hk)

theorem updateWhere (hR : ∀ key row, R key row row) {p : α → Bool} {f : α → α}
    (h : ∀ key row, d.get? key = some row → p row = true → R key row (f row)) :
    Updates R d (d.updateWhere p f) := by
  intro key
  rw [get?_updateWhere]
  cases hrow : d.get? key with
  | none => exact Option.Rel.none
  | some row =>
    refine Option.Rel.some ?_
    show R key row (if p row then f row else row)
    split_ifs with hp
    · exact h key row hrow hp
    · exact hR key row

end Updates

end PyDict

namespace PlanCoordination

open PipelineLeases

/-! ## Records -/

/-- `NodeExecutionState`. -/
inductive NodeExecutionState where
  | blocked
  | ready
  | accepted
  | dispatched
  | succeeded
  | failed
  | cancelled
  deriving DecidableEq

/-- The states that a cancellation ends. -/
def NodeExecutionState.isCancellable : NodeExecutionState → Bool
  | .blocked | .ready | .accepted | .dispatched => true
  | _ => false

/-- `PlanExecutionStatus`. -/
inductive PlanExecutionStatus where
  | accepted
  | running
  | succeeded
  | failed
  | cancelled
  deriving DecidableEq

/-- A row of `plan_executions`. -/
structure PlanExecution where
  migrationId : String
  planId : String
  planFingerprint : String
  initializationFingerprint : String
  status : PlanExecutionStatus := .accepted
  startOperationId : Option String := none
  checkpointId : Option String := none
  createdAt : String
  deriving DecidableEq

/-- A row of `node_executions`; of an error it keeps the code. -/
structure NodeExecution where
  executionId : String
  migrationId : String
  graphNodeId : String
  capabilityContract : String
  sideEffect : SideEffectClassification
  state : NodeExecutionState
  currentAttemptId : Option String := none
  currentInvocationId : Option String := none
  bindingId : Option String := none
  contractVersion : Option String := none
  leaseId : Option String := none
  fenceEpoch : Option ℤ := none
  checkpointId : Option String := none
  resultPayload : Option String := none
  error : Option String := none
  deriving DecidableEq

/-- The tables; of an artifact the plan that its content describes, if it can be read. -/
structure Tables where
  planExecutions : PyDict PlanExecution
  nodeExecutions : PyDict NodeExecution
  leases : LeaseTable
  artifacts : PyDict (Option ExecutionPlan)

/-- What a unit of work may raise. -/
inductive CoordinatorError where
  /-- `NodeExecutionState.RUNNING`. -/
  | attributeError
  /-- `json.dumps`. -/
  | unserializable (error : PyException)
  /-- A unique key is taken. -/
  | integrityError
  | reconcile (error : ReconcileError)
  | lease (error : LeaseError)
  | unreadableArtifact (planId : String)
  | checkpointNotFound (checkpointId : String)
  | checkpointFingerprintMismatch (checkpointId : String)
  | planFingerprintMismatch (planId : String)
  | initializationFingerprintMismatch (executionId : String)
  /-- What the placement and the ownership of a fabric raise. -/
  | fabric

/-- `IPCErrorCategory`, as far as the coordinator names it. -/
inductive IPCErrorCategory where
  | invalidRequest
  | forbidden
  | unbound
  | unavailable
  | staleResult
  | cancelled
  | internalError
  deriving DecidableEq

/-- `ExecutionOutcome`, without its message. -/
structure ExecutionOutcome where
  isSuccess : Bool
  status : String
  errorCategory : Option IPCErrorCategory := none
  errorCode : Option String := none
  deriving DecidableEq

/-- An outcome of status `FAILED`. -/
def ExecutionOutcome.failed (category : IPCErrorCategory) (code : String) : ExecutionOutcome :=
  ⟨false, "FAILED", some category, some code⟩

namespace Tables

variable (t : Tables)

/-! ## Reading -/

/-- `get_node_executions`, under their ids. -/
def nodesOf (executionId : String) : List (String × NodeExecution) :=
  t.nodeExecutions.items.filter fun item => item.2.executionId = executionId

/-- The state of the node with a graph id, in the dictionary of the states of an execution. -/
def stateOf (executionId graphNodeId : String) : Option NodeExecutionState :=
  (((t.nodesOf executionId).filter fun item => item.2.graphNodeId = graphNodeId).map
    fun item => item.2.state).getLast?

/-- The artifact of a plan. -/
def planArtifact (planId : String) : Option (Option ExecutionPlan) :=
  (t.artifacts.items.find? fun item => item.1 = "art-" ++ planId ∨ item.1 = planId).map Prod.snd

/-! ## Materialisation -/

/-- The later of the executions that are active for a migration. -/
def activeExecution (migrationId : String) : Option (String × PlanExecution) :=
  (t.planExecutions.items.filter fun item =>
    item.2.migrationId = migrationId ∧ (item.2.status = .accepted ∨ item.2.status = .running)).foldl
    (fun latest item =>
      match latest with
      | none => some item
      | some found => if found.2.createdAt < item.2.createdAt then some item else some found) none

/-- `INSERT INTO node_executions`. -/
def insertNode (nodeExecutionId : String) (row : NodeExecution) : Except CoordinatorError Tables :=
  if (t.nodeExecutions.get? nodeExecutionId).isSome ∨
      ((t.nodesOf row.executionId).any fun item => item.2.graphNodeId = row.graphNodeId) then
    .error .integrityError
  else .ok { t with nodeExecutions := t.nodeExecutions.set nodeExecutionId row }

/-- The first row of a node: it is ready when it lists no dependency. -/
def initialRow (executionId migrationId : String) (node : GraphNode) : NodeExecution where
  executionId := executionId
  migrationId := migrationId
  graphNodeId := node.nodeId
  capabilityContract := node.task.capabilityContract
  sideEffect := node.task.sideEffect
  state := if node.dependencies.length = 0 then .ready else .blocked

/-- The rows of the nodes of a plan, under ids that are drawn for them. -/
def insertNodes (executionId migrationId : String) (newId : ℕ → String) :
    Tables → List (GraphNode × ℕ) → Except CoordinatorError Tables
  | t, [] => .ok t
  | t, (node, k) :: nodes =>
    match t.insertNode (newId k) (initialRow executionId migrationId node) with
    | .error e => .error e
    | .ok t => insertNodes executionId migrationId newId t nodes

/-- The arguments of `materialize_plan_execution`, and what it draws. -/
structure Materialization where
  plan : ExecutionPlan
  migrationId : String
  initializationFingerprint : String
  operationId : Option String := none
  executionId : String
  nodeExecutionId : ℕ → String
  now : String

/-- A text that is given and not empty. -/
def given (text : Option String) : Bool := text.any (· ≠ "")

/-- The row of an execution that is materialised. -/
def Materialization.row (m : Materialization) : PlanExecution where
  migrationId := m.migrationId
  planId := m.plan.planId
  planFingerprint := m.plan.fingerprint
  initializationFingerprint := m.initializationFingerprint
  startOperationId := m.operationId
  createdAt := m.now

/-- `materialize_plan_execution`, past its checks of tenant and placement, with the id of the
execution. -/
def materializePlanExecution (m : Materialization) : Except CoordinatorError (Tables × String) :=
  match t.activeExecution m.migrationId with
  | some (executionId, row) =>
    if row.planFingerprint ≠ m.plan.fingerprint then .error (.planFingerprintMismatch m.plan.planId)
    else if m.initializationFingerprint ≠ "" ∧
        row.initializationFingerprint ≠ m.initializationFingerprint then
      .error (.initializationFingerprintMismatch executionId)
    else if given m.operationId ∧ ¬ given row.startOperationId then
      .ok ({ t with
        planExecutions := t.planExecutions.set executionId
          { row with startOperationId := m.operationId } }, executionId)
    else .ok (t, executionId)
  | none =>
    if (t.planExecutions.get? m.executionId).isSome then .error .integrityError
    else
      match insertNodes m.executionId m.migrationId m.nodeExecutionId
          { t with planExecutions := t.planExecutions.set m.executionId m.row } m.plan.nodes.zipIdx with
      | .error e => .error e
      | .ok t => .ok (t, m.executionId)

/-! ## Terminal states -/

/-- The status of an execution is written. -/
def setStatus (executionId : String) (status : PlanExecutionStatus) : Tables :=
  { t with
    planExecutions := t.planExecutions.updateRow executionId fun row => { row with status := status } }

/-- The row of a node is written. -/
def setNode (nodeExecutionId : String) (f : NodeExecution → NodeExecution) : Tables :=
  { t with nodeExecutions := t.nodeExecutions.updateRow nodeExecutionId f }

/-- `_mark_node_and_plan_failed`. -/
def markNodeAndPlanFailed (executionId nodeExecutionId errorCode : String) : Tables :=
  (t.setNode nodeExecutionId fun row =>
    { row with state := .failed, error := some errorCode }).setStatus executionId .failed

/-- `_mark_plan_succeeded`. -/
def markPlanSucceeded (executionId : String) : Tables := t.setStatus executionId .succeeded

/-- `cancel_plan_execution`. -/
def cancelPlanExecution (executionId : String) : Tables :=
  let t := t.setStatus executionId .cancelled
  { t with
    nodeExecutions := t.nodeExecutions.updateWhere
      (fun row => row.executionId = executionId ∧ row.state.isCancellable)
      fun row => { row with state := .cancelled, error := some "CANCELLED" } }

/-- All the nodes of a plan have rows, and all of them have succeeded. -/
def allSucceeded (executionId : String) (plan : ExecutionPlan) : Bool :=
  (t.nodesOf executionId).length = plan.nodes.length &&
    (t.nodesOf executionId).all fun item => item.2.state = .succeeded

/-! ## Advancing -/

/-- The head of the loop of `advance_plan_execution` returns or finds a node that is ready. -/
inductive Checked where
  | returned (outcome : ExecutionOutcome)
  | ready (initializationFingerprint nodeExecutionId : String) (node : NodeExecution)

/-- What the head of the loop does with an execution that has not ended: without a node that is ready it
evaluates the whole plan. -/
def checkNodes (executionId : String) (plan : ExecutionPlan) (row : PlanExecution) :
    Tables × Checked :=
  match (t.nodesOf executionId).find? fun item => item.2.state = .ready with
  | some (nodeExecutionId, node) => (t, .ready row.initializationFingerprint nodeExecutionId node)
  | none =>
    if t.allSucceeded executionId plan then
      (t.markPlanSucceeded executionId, .returned ⟨true, "SUCCEEDED", none, none⟩)
    else if (t.nodesOf executionId).any fun item => item.2.state = .failed then
      (t, .returned (.failed .internalError "NODE_FAILED"))
    else (t, .returned ⟨true, "RUNNING", none, none⟩)

/-- The head of the loop of `advance_plan_execution`. -/
def checkExecution (executionId : String) (plan : ExecutionPlan) : Tables × Checked :=
  match t.planExecutions.get? executionId with
  | none => (t, .returned (.failed .internalError "PLAN_EXECUTION_NOT_FOUND"))
  | some row =>
    if row.planFingerprint ≠ plan.fingerprint ∨ row.planId ≠ plan.planId then
      (t, .returned (.failed .forbidden "PLAN_FINGERPRINT_MISMATCH"))
    else
      match row.status with
      | .cancelled => (t, .returned ⟨false, "CANCELLED", some .cancelled, some "CANCELLED"⟩)
      | .failed => (t, .returned (.failed .internalError "FAILED"))
      | .succeeded => (t, .returned ⟨true, "SUCCEEDED", none, none⟩)
      | .accepted | .running => t.checkNodes executionId plan row

/-- What is dispatched to an engine: a node under an attempt, an invocation and a lease. -/
structure Dispatch where
  nodeExecutionId : String
  graphNodeId : String
  attemptId : String
  invocationId : String
  bindingId : String
  lease : ExecutionLease
  initializationFingerprint : String
  checkpointId : Option String := none
  deriving DecidableEq

/-- The arguments of a claim, and what it draws; a lease of an attempt that was assigned before is kept. -/
structure Claim where
  executionId : String
  nodeExecutionId : String
  node : NodeExecution
  bindingId : String
  initializationFingerprint : String
  operationId : String
  ownerId : String
  preassigned : Option ExecutionLease
  attemptId : String
  leaseId : String
  invocationId : String
  now : String
  expiresAt : String

/-- The lease of a claim. -/
def claimLease (c : Claim) : Except LeaseError (LeaseTable × ExecutionLease) :=
  match c.preassigned with
  | some lease => .ok (t.leases, lease)
  | none => t.leases.acquireLease c.leaseId c.attemptId c.ownerId c.expiresAt
      c.initializationFingerprint c.now

/-- The attempt of a claim. -/
def Claim.attempt (c : Claim) : String :=
  match c.preassigned with
  | some _ => c.node.currentAttemptId.getD ""
  | none => c.attemptId

/-- What a claim under a lease dispatches. -/
def Claim.dispatch (c : Claim) (lease : ExecutionLease) : Dispatch where
  nodeExecutionId := c.nodeExecutionId
  graphNodeId := c.node.graphNodeId
  attemptId := c.attempt
  invocationId := c.invocationId
  bindingId := c.bindingId
  lease := lease
  initializationFingerprint := c.initializationFingerprint
  checkpointId := c.node.checkpointId

/-- The row of a node that is claimed. -/
def Dispatch.claimed (d : Dispatch) (row : NodeExecution) : NodeExecution :=
  { row with
    state := .dispatched
    currentAttemptId := some d.attemptId
    currentInvocationId := some d.invocationId
    bindingId := some d.bindingId
    contractVersion := some "1.0.0"
    leaseId := some d.lease.leaseId
    fenceEpoch := some d.lease.fenceEpoch }

/-- The claim of a node, which another worker may have made. -/
def claimNode (c : Claim) : Except CoordinatorError (Option (Tables × Dispatch)) :=
  match t.nodeExecutions.get? c.nodeExecutionId with
  | some row =>
    if row.state = .ready then
      match t.claimLease c with
      | .error e => .error (.lease e)
      | .ok (leases, lease) =>
        .ok (some
          ({ t.setNode c.nodeExecutionId (c.dispatch lease).claimed with
            leases := leases
            planExecutions := t.planExecutions.updateRow c.executionId fun plan =>
              { plan with
                status := .running
                startOperationId := plan.startOperationId.or (some c.operationId) } },
            c.dispatch lease))
    else .ok none
  | none => .ok none

/-- `_evaluate_and_activate_successors`, node by node.  A dependency is compared with
`NodeExecutionState.RUNNING`, so that one dependency of a blocked node is enough to raise. -/
def activateSuccessors (executionId : String) :
    Tables → List GraphNode → Except CoordinatorError Tables
  | t, [] => .ok t
  | t, node :: nodes =>
    if t.stateOf executionId node.nodeId = some .blocked then
      match node.dependencies with
      | [] =>
        activateSuccessors executionId
          { t with
            nodeExecutions := t.nodeExecutions.updateWhere
              (fun row => row.executionId = executionId ∧ row.graphNodeId = node.nodeId)
              fun row => { row with state := .ready } } nodes
      | _ :: _ => .error .attributeError
    else activateSuccessors executionId t nodes

/-- A result as one expects it, for a node of an execution. -/
structure Expectation where
  executionId : String
  nodeExecutionId : String
  expected : Expected

/-- The row of a node that has succeeded. -/
def succeededRow (payload : String) (row : NodeExecution) : NodeExecution :=
  { row with state := .succeeded, resultPayload := some payload }

section Results

variable (receiptCheck : ReceiptCheck)

/-- The unit of work that reconciles a result: the node succeeds and successors are activated, or the
node and the execution fail under the error code of the result. -/
def recordResult (plan : ExecutionPlan) (e : Expectation) (result : EngineInvocationResult) :
    Except CoordinatorError (Tables × Option String) :=
  match receiptCheck.reconcileResult t.leases result e.expected with
  | .error error => .error (.reconcile error)
  | .ok (.failed errorCode _) =>
    .ok (t.markNodeAndPlanFailed e.executionId e.nodeExecutionId errorCode, some errorCode)
  | .ok (.succeeded payload) =>
    match payload.jsonDumps with
    | .error error => .error (.unserializable error)
    | .ok text =>
      match activateSuccessors e.executionId (t.setNode e.nodeExecutionId (succeededRow text))
          plan.nodes with
      | .error error => .error error
      | .ok t => .ok (t, none)

/-- What a result is expected to be when the call that dispatched the node returns it. -/
def Dispatch.expectation (d : Dispatch) (executionId : String) : Expectation where
  executionId := executionId
  nodeExecutionId := d.nodeExecutionId
  expected :=
    { initializationFingerprint := d.initializationFingerprint
      invocationId := some d.invocationId
      attemptId := some d.attemptId
      leaseId := some d.lease.leaseId
      graphNodeId := some d.graphNodeId
      bindingId := some d.bindingId
      contractVersion := some "1.0.0" }

/-! ## Completions -/

/-- What `reconcile_node_completion` finds for a result. -/
structure Found where
  nodeExecutionId : String
  node : NodeExecution
  planRow : PlanExecution
  plan : ExecutionPlan

/-- The row that a result names, by its attempt or its invocation, with the row of its execution. -/
def findRow (attemptId invocationId : String) : Option (String × NodeExecution × PlanExecution) :=
  t.nodeExecutions.items.findSome? fun item =>
    if item.2.currentAttemptId = some attemptId ∨ item.2.currentInvocationId = some invocationId then
      (t.planExecutions.get? item.2.executionId).map fun planRow => (item.1, item.2, planRow)
    else none

/-- The first unit of work of `reconcile_node_completion`, which reads. -/
def findCompletion (result : EngineInvocationResult) :
    Except CoordinatorError (ExecutionOutcome ⊕ Found) :=
  match t.findRow result.attemptId result.invocationId with
  | none => .ok (.inl (.failed .invalidRequest "NODE_NOT_FOUND"))
  | some (nodeExecutionId, node, planRow) =>
    match t.planArtifact planRow.planId with
    | none => .ok (.inl (.failed .internalError "PLAN_NOT_FOUND"))
    | some none => .error (.unreadableArtifact planRow.planId)
    | some (some plan) => .ok (.inr ⟨nodeExecutionId, node, planRow, plan⟩)

/-- What a result is expected to be when an engine posts it. -/
def Found.expectation (f : Found) : Expectation where
  executionId := f.node.executionId
  nodeExecutionId := f.nodeExecutionId
  expected :=
    { initializationFingerprint := f.planRow.initializationFingerprint
      invocationId := f.node.currentInvocationId
      attemptId := f.node.currentAttemptId
      leaseId := f.node.leaseId
      graphNodeId := some f.node.graphNodeId
      bindingId := f.node.bindingId
      contractVersion := if given f.node.contractVersion then f.node.contractVersion
        else some "1.0.0" }

/-- The second unit of work of `reconcile_node_completion`; the call goes on to advance the execution
unless it has ended. -/
def recordCompletion (f : Found) (result : EngineInvocationResult) :
    Except CoordinatorError (Tables × Option ExecutionOutcome) :=
  match t.recordResult receiptCheck f.plan f.expectation result with
  | .error error => .error error
  | .ok (t, some errorCode) => .ok (t, some (.failed .internalError errorCode))
  | .ok (t, none) =>
    if t.allSucceeded f.node.executionId f.plan then
      .ok (t.markPlanSucceeded f.node.executionId, some ⟨true, "SUCCEEDED", none, none⟩)
    else .ok (t, none)

end Results

/-! ## Recovery -/

/-- A row of `checkpoints`, as far as a recovery reads it. -/
structure CheckpointRow where
  graphNodeId : Option String
  attemptId : Option String
  initializationFingerprint : Option String

/-- The arguments of `recover_plan_execution`, and the row of its checkpoint. -/
structure Recovery where
  migrationId : String
  sourceAttemptId : Option String := none
  checkpointId : Option String := none
  checkpoint : Option CheckpointRow := none
  replacementAttemptId : Option String := none
  replacementLeaseId : Option String := none
  replacementFenceEpoch : Option ℤ := none
  recoveryOperationId : Option String := none

/-- The latest execution of a migration. -/
def latestExecution (migrationId : String) : Option (String × PlanExecution) :=
  t.planExecutions.items.reverse.find? fun item => item.2.migrationId = migrationId

/-- The node that runs under an attempt. -/
def nodeOfAttempt (nodes : List (String × NodeExecution)) (attemptId : Option String) :
    Option String :=
  if given attemptId then
    (nodes.find? fun item => item.2.currentAttemptId = attemptId).map fun item => item.2.graphNodeId
  else none

/-- The node that a recovery is bound to, if one is determined. -/
def recoveryTarget (r : Recovery) (row : PlanExecution) (nodes : List (String × NodeExecution)) :
    Except CoordinatorError (Option String) :=
  match nodeOfAttempt nodes r.sourceAttemptId with
  | some nodeId => .ok (some nodeId)
  | none =>
    if given r.checkpointId then
      match r.checkpoint with
      | none => .error (.checkpointNotFound (r.checkpointId.getD ""))
      | some checkpoint =>
        if given checkpoint.initializationFingerprint ∧
            checkpoint.initializationFingerprint ≠ some row.initializationFingerprint then
          .error (.checkpointFingerprintMismatch (r.checkpointId.getD ""))
        else if given checkpoint.graphNodeId then .ok checkpoint.graphNodeId
        else .ok (nodeOfAttempt nodes checkpoint.attemptId)
    else .ok none

/-- The dependencies that the artifact of a plan lists for its nodes; without it there are none. -/
def artifactDependencies (row : PlanExecution) : Except CoordinatorError (String → List String) :=
  match t.planArtifact row.planId with
  | some (some plan) =>
    if plan.fingerprint ≠ "" ∧ row.planFingerprint ≠ "" ∧ plan.fingerprint ≠ row.planFingerprint then
      .error (.planFingerprintMismatch row.planId)
    else
      .ok fun nodeId =>
        ((plan.nodes.reverse.find? fun node => node.nodeId = nodeId).map
          GraphNode.dependencies).getD []
  | _ => .ok fun _ => []

/-- The row of a node that is recovered; the target gets the authority of the replacement. -/
def recoveredRow (r : Recovery) (ready target : Bool) (row : NodeExecution) : NodeExecution :=
  { row with
    state := if ready then .ready else .blocked
    currentAttemptId := if ready && target then r.replacementAttemptId else none
    leaseId := if ready && target then r.replacementLeaseId else none
    fenceEpoch := if ready && target then r.replacementFenceEpoch else none
    checkpointId := if ready && target then r.checkpointId else none
    error := none }

/-- The nodes of an execution are recovered one after the other; those that have succeeded stay. -/
def recoverNodes (r : Recovery) (dependencies : String → List String) (target : Option String)
    (executionId : String) : Bool → Tables → List (String × NodeExecution) → Tables
  | _, t, [] => t
  | bound, t, (nodeExecutionId, row) :: nodes =>
    if row.state = .succeeded then recoverNodes r dependencies target executionId bound t nodes
    else
      let ready := (dependencies row.graphNodeId).all fun dep =>
        t.stateOf executionId dep = some .succeeded
      let chosen := !bound && target.all (· = row.graphNodeId)
      recoverNodes r dependencies target executionId (bound || ready && chosen)
        (t.setNode nodeExecutionId (recoveredRow r ready chosen)) nodes

/-- `recover_plan_execution`, with the id of the execution. -/
def recoverPlanExecution (r : Recovery) : Except CoordinatorError (Tables × Option String) :=
  match t.latestExecution r.migrationId with
  | none => .ok (t, none)
  | some (executionId, row) =>
    match recoveryTarget r row (t.nodesOf executionId), t.artifactDependencies row with
    | .error e, _ => .error e
    | _, .error e => .error e
    | .ok target, .ok dependencies =>
      let written : Tables :=
        { t with
          planExecutions := t.planExecutions.set executionId
            { row with
              status := .accepted
              startOperationId := r.recoveryOperationId.or row.startOperationId
              checkpointId := r.checkpointId.or row.checkpointId } }
      .ok (recoverNodes r dependencies target executionId false written (t.nodesOf executionId),
        some executionId)

end Tables

end PlanCoordination

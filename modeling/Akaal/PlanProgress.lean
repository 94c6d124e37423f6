/-
# Progress of plan executions

`advance_plan_execution` by one worker, from the first rows of an execution to its return, when every
engine that it calls returns a valid successful result.  Resolver and fabric answer for each node, new ids
are new, and everything else that the surroundings give is arbitrary.

* `drive` : the call, unit of work by unit of work;
* `Underway` : what holds of the rows whenever the worker is at the head of the loop;
* `Underway.ends` : the call returns, and the execution has succeeded precisely when no node lists a
  dependency and every node passes the gate;
* `completed_iff` : so it is from the first rows of the execution of an accepted plan.
-/
import Akaal.NodeDispatch

open TransitionRun

namespace PlanCoordination

open PipelineLeases

/-! ## One call -/

/-- What the surroundings of a call give: the answers for each node, and times, ids and the results of
engines for each unit of work. -/
structure Surroundings where
  answer : String → GateAnswer
  now : ℕ → String
  attemptId : ℕ → String
  leaseId : ℕ → String
  invocationId : ℕ → String
  expiresAt : ℕ → String
  result : ℕ → EngineInvocationResult

namespace Surroundings

variable (env : Surroundings) (receiptCheck : ReceiptCheck) (w : ℕ)

/-- The unit of work that is next for a worker. -/
def next (k : ℕ) : Worker → Option Action
  | .checking _ => some (.check w)
  | .gating _ _ _ node => some (.gate w (env.answer node.graphNodeId) (env.now k))
  | .claiming _ _ _ _ _ _ =>
    some (.claim w (env.attemptId k) (env.leaseId k) (env.invocationId k) (env.now k)
      (env.expiresAt k))
  | .dispatching _ _ => some (.dispatch w)
  | .awaiting _ _ => some (.answer w (.returned (env.result k)))
  | .failing _ _ _ _ => some (.fail w)
  | .completing _ _ _ _ => some (.reconcile w)
  | .idle | .finished _ => none

/-- The coordinator after some units of work of a worker. -/
def drive (s : Coordinator) : ℕ → Coordinator
  | 0 => s
  | k + 1 =>
    match env.next w k ((drive s k).workers w) with
    | some a => ((drive s k).step receiptCheck a).getD (drive s k)
    | none => drive s k

/-- The ids that are drawn for a claim are new. -/
def DrawsNew (s : Coordinator) : Prop :=
  ∀ k call initializationFingerprint nodeExecutionId node bindingId preassigned,
    (env.drive receiptCheck w s k).workers w =
      .claiming call initializationFingerprint nodeExecutionId node bindingId preassigned →
    (env.drive receiptCheck w s k).tables.leases.get? (env.attemptId k) = none ∧
      (env.drive receiptCheck w s k).tables.leases.leaseIdTaken (env.leaseId k) (env.attemptId k) =
        false

/-- The engine returns a result that is complete, is reconciled as a success and can be written. -/
def Succeeds (t : Tables) (call : AdvanceCall) (d : Tables.Dispatch)
    (result : EngineInvocationResult) : Prop :=
  inProgress result = false ∧ ∃ payload text,
    receiptCheck.reconcileResult t.leases result (d.expectation call.executionId).expected =
      .ok (.succeeded payload) ∧ payload.jsonDumps = .ok text

/-- Every engine that is called returns a valid successful result. -/
def EnginesSucceed (s : Coordinator) : Prop :=
  ∀ k call d, (env.drive receiptCheck w s k).workers w = .awaiting call d →
    Succeeds receiptCheck (env.drive receiptCheck w s k).tables call d (env.result k)

variable {env receiptCheck w} {s : Coordinator}

/-- The next unit of work. -/
theorem drive_succ {k : ℕ} {a : Action} {s' : Coordinator}
    (hnext : env.next w k ((env.drive receiptCheck w s k).workers w) = some a)
    (hstep : (env.drive receiptCheck w s k).step receiptCheck a = some s') :
    env.drive receiptCheck w s (k + 1) = s' := by
  rw [drive, hnext]
  simp only
  rw [hstep, Option.getD_some]

theorem drive_of_finished {k : ℕ} {outcome : Except CoordinatorError ExecutionOutcome}
    (h : (env.drive receiptCheck w s k).workers w = .finished outcome) {n : ℕ} (hn : k ≤ n) :
    env.drive receiptCheck w s n = env.drive receiptCheck w s k := by
  induction n, hn using Nat.le_induction with
  | base => rfl
  | succ n _ ih =>
    rw [drive, ih, h]
    rfl

end Surroundings

/-! ## Rows under way -/

/-- The call for an execution that was materialised. -/
def Tables.Materialization.call (m : Tables.Materialization) (operationId ownerId : String) :
    AdvanceCall :=
  ⟨m.executionId, m.plan, operationId, ownerId⟩

@[simp] theorem Tables.Materialization.call_executionId (m : Tables.Materialization)
    (operationId ownerId : String) : (m.call operationId ownerId).executionId = m.executionId := rfl

@[simp] theorem Tables.Materialization.call_plan (m : Tables.Materialization)
    (operationId ownerId : String) : (m.call operationId ownerId).plan = m.plan := rfl

/-- A node passes the gate. -/
def Surroundings.Passes (env : Surroundings) (m : Tables.Materialization) (node : GraphNode) : Prop :=
  ∃ bindingId, gate m.plan (Tables.initialRow m.executionId m.migrationId node)
    (env.answer node.nodeId) = .ok bindingId

/-- No node lists a dependency, and every node passes the gate. -/
def Surroundings.Runnable (env : Surroundings) (m : Tables.Materialization) : Prop :=
  ∀ node ∈ m.plan.nodes, node.dependencies = [] ∧ env.Passes m node

/-- What holds of the rows of an execution at the head of the loop: they are first rows of nodes that were
not called, or the nodes have succeeded and were called once. -/
structure Underway (env : Surroundings) (m : Tables.Materialization) (s : Coordinator) : Prop where
  keyed : s.tables.Keyed
  execution : ∃ row, s.tables.planExecutions.get? m.executionId = some row ∧
    row.planFingerprint = m.plan.fingerprint ∧ row.planId = m.plan.planId ∧
    (row.status = .accepted ∨ row.status = .running)
  nodes : ∀ node ∈ m.plan.nodes, ∃ id row, s.tables.nodeExecutions.get? id = some row ∧
    row.key = (m.executionId, node.nodeId)
  rows : ∀ id row, s.tables.nodeExecutions.get? id = some row → row.executionId = m.executionId →
    ∃ node ∈ m.plan.nodes, node.nodeId = row.graphNodeId ∧
      (row = Tables.initialRow m.executionId m.migrationId node ∧
          s.log.count (.called m.executionId node.nodeId) = 0 ∨
        row.state = .succeeded ∧ node.dependencies = [] ∧ env.Passes m node ∧
          s.log.count (.called m.executionId node.nodeId) = 1)

/-- The call has driven the execution to its success, and called the engine of each node once. -/
structure Completed (w : ℕ) (m : Tables.Materialization) (s : Coordinator) : Prop where
  outcome : s.workers w = .finished (.ok ⟨true, "SUCCEEDED", none, none⟩)
  status : ∃ row, s.tables.planExecutions.get? m.executionId = some row ∧ row.status = .succeeded
  called : ∀ node ∈ m.plan.nodes, s.log.count (.called m.executionId node.nodeId) = 1

/-- The nodes that are ready. -/
def readyNodes (m : Tables.Materialization) (s : Coordinator) : List GraphNode :=
  m.plan.nodes.filter fun node => s.tables.stateOf m.executionId node.nodeId = some .ready

/-- A row that a unit of work lets succeed, or leaves. -/
def SucceededAt (id key : String) (row row' : NodeExecution) : Prop :=
  key ≠ id ∧ row' = row ∨ key = id ∧ row'.key = row.key ∧ row'.state = .succeeded

namespace Underway

variable {env : Surroundings} {m : Tables.Materialization} {s s' : Coordinator}

theorem initialRow_state (executionId migrationId : String) (node : GraphNode) :
    (Tables.initialRow executionId migrationId node).state = .ready ∧ node.dependencies = [] ∨
      (Tables.initialRow executionId migrationId node).state = .blocked ∧ node.dependencies ≠ [] := by
  by_cases hnone : node.dependencies = []
  · refine Or.inl ⟨?_, hnone⟩
    rw [Tables.initialRow]
    simp only
    rw [if_pos (List.length_eq_zero_iff.mpr hnone)]
  · refine Or.inr ⟨?_, hnone⟩
    rw [Tables.initialRow]
    simp only
    rw [if_neg (mt List.length_eq_zero_iff.mp hnone)]

variable {node : GraphNode} {operationId ownerId : String} {w : ℕ}

/-- The state of a node, by its row. -/
theorem stateOf_eq (hu : Underway env m s) (hnode : node ∈ m.plan.nodes)
    (hnodup : (m.plan.nodes.map GraphNode.nodeId).Nodup) :
    s.tables.stateOf m.executionId node.nodeId =
        some (Tables.initialRow m.executionId m.migrationId node).state ∨
      s.tables.stateOf m.executionId node.nodeId = some .succeeded ∧ node.dependencies = [] ∧
        env.Passes m node ∧ s.log.count (.called m.executionId node.nodeId) = 1 := by
  obtain ⟨id, row, hrow, hkey⟩ := hu.nodes node hnode
  obtain ⟨hexecution, hgraph⟩ := Prod.mk.inj hkey
  have hstate : s.tables.stateOf m.executionId node.nodeId = some row.state :=
    (Tables.stateOf_eq_some_iff hu.keyed).mpr ⟨id, row, hrow, hkey, rfl⟩
  obtain ⟨other, hother, hid, hrows⟩ := hu.rows id row hrow hexecution
  obtain rfl := List.inj_on_of_nodup_map hnodup hother hnode (hid.trans hgraph)
  rcases hrows with ⟨rfl, -⟩ | ⟨hsucceeded, hrest⟩
  · exact Or.inl hstate
  · rw [hsucceeded] at hstate
    exact Or.inr ⟨hstate, hrest⟩

/-- **Success.**  The success of a node that was ready and has been called leaves the rows as they should
be, with fewer nodes that are ready. -/
theorem succeed (hu : Underway env m s) (hnodup : (m.plan.nodes.map GraphNode.nodeId).Nodup)
    {id : String} (hnode : node ∈ m.plan.nodes) (hrow : s.tables.nodeExecutions.get? id =
      some (Tables.initialRow m.executionId m.migrationId node))
    (hnone : node.dependencies = []) (hpasses : env.Passes m node)
    (huncalled : s.log.count (.called m.executionId node.nodeId) = 0)
    (hnodes : PyDict.Updates (SucceededAt id) s.tables.nodeExecutions s'.tables.nodeExecutions)
    (hplans : PyDict.Updates (fun _ row row' => row'.planFingerprint = row.planFingerprint ∧
        row'.planId = row.planId ∧ (row'.status = row.status ∨ row'.status = .running))
      s.tables.planExecutions s'.tables.planExecutions)
    (hlog : s'.log = .called m.executionId node.nodeId :: s.log) :
    Underway env m s' ∧ (readyNodes m s').length < (readyNodes m s).length := by
  have hkeyed : s'.tables.Keyed := hu.keyed.of_updates (hnodes.imp fun _ row row' _ hstep => by
    rcases hstep with ⟨-, rfl⟩ | ⟨-, hkey, -⟩
    · rfl
    · exact hkey)
  have hcount : ∀ other ∈ m.plan.nodes, other ≠ node →
      s'.log.count (.called m.executionId other.nodeId) =
        s.log.count (.called m.executionId other.nodeId) := by
    intro other hother hne
    rw [hlog, List.count_cons_of_ne]
    intro heq
    exact hne (List.inj_on_of_nodup_map hnodup hother hnode (Event.called.inj heq).2.symm)
  have hready : s.tables.stateOf m.executionId node.nodeId = some .ready := by
    refine (Tables.stateOf_eq_some_iff hu.keyed).mpr ⟨id, _, hrow, rfl, ?_⟩
    exact ((initialRow_state m.executionId m.migrationId node).resolve_right
      fun hblocked => hblocked.2 hnone).1
  refine ⟨⟨hkeyed, ?_, ?_, ?_⟩, ?_⟩
  · obtain ⟨row, hget, hfingerprint, hid, hactive⟩ := hu.execution
    obtain ⟨row', hget', hfingerprint', hid', hstatus⟩ := hplans.get hget
    refine ⟨row', hget', hfingerprint'.trans hfingerprint, hid'.trans hid, ?_⟩
    rcases hstatus with hsame | hrunning
    · rw [hsame]
      exact hactive
    · exact Or.inr hrunning
  · intro other hother
    obtain ⟨otherId, row, hget, hkey⟩ := hu.nodes other hother
    obtain ⟨row', hget', hstep⟩ := hnodes.get hget
    refine ⟨otherId, row', hget', ?_⟩
    rcases hstep with ⟨-, rfl⟩ | ⟨-, hkey', -⟩
    · exact hkey
    · exact hkey'.trans hkey
  · intro otherId row' hget' hexecution
    obtain ⟨row, hget, hstep⟩ := hnodes.get_back hget'
    rcases hstep with ⟨hid, rfl⟩ | ⟨rfl, hkey, hsucceeded⟩
    · obtain ⟨other, hother, hgraph, hrows⟩ := hu.rows otherId row' hget hexecution
      have hne : other ≠ node := by
        rintro rfl
        refine hid (hu.keyed _ _ _ _ hget hrow ?_)
        rw [NodeExecution.key, hexecution, ← hgraph]
        rfl
      refine ⟨other, hother, hgraph, ?_⟩
      rw [hcount other hother hne]
      exact hrows
    · rw [hget, Option.some.injEq] at hrow
      rw [hrow] at hkey
      refine ⟨node, hnode, (congrArg Prod.snd hkey).symm, Or.inr ⟨hsucceeded, hnone, hpasses, ?_⟩⟩
      rw [hlog, List.count_cons_self, huncalled]
  · have hsub : readyNodes m s' = (readyNodes m s).filter fun other =>
        s'.tables.stateOf m.executionId other.nodeId = some .ready := by
      rw [readyNodes, readyNodes, List.filter_filter]
      refine List.filter_congr fun other _ => ?_
      by_cases hstate : s'.tables.stateOf m.executionId other.nodeId = some .ready
      · have hbefore : s.tables.stateOf m.executionId other.nodeId = some .ready := by
          obtain ⟨otherId, row', hget', hkey, hstate'⟩ :=
            (Tables.stateOf_eq_some_iff hkeyed).mp hstate
          obtain ⟨row, hget, hstep⟩ := hnodes.get_back hget'
          rcases hstep with ⟨-, rfl⟩ | ⟨-, -, hsucceeded⟩
          · exact (Tables.stateOf_eq_some_iff hu.keyed).mpr ⟨otherId, row', hget, hkey, hstate'⟩
          · rw [hsucceeded] at hstate'
            cases hstate'
        rw [decide_eq_true hstate, decide_eq_true hbefore]
        rfl
      · rw [decide_eq_false hstate]
        rfl
    rw [hsub, List.length_filter_lt_length_iff_exists]
    refine ⟨node, List.mem_filter.mpr ⟨hnode, decide_eq_true hready⟩, fun hstate => ?_⟩
    obtain ⟨row', hget', hstep⟩ := hnodes.get hrow
    have hsucceeded : s'.tables.stateOf m.executionId node.nodeId = some .succeeded := by
      rcases hstep with ⟨hid, -⟩ | ⟨-, hkey, hstate⟩
      · exact absurd rfl hid
      · exact (Tables.stateOf_eq_some_iff hkeyed).mpr ⟨id, row', hget', hkey, hstate⟩
    rw [hsucceeded] at hstate
    cases of_decide_eq_true hstate

/-! ## Units of work of the call -/

theorem checkExecution_eq (hu : Underway env m s) :
    ∃ row, s.tables.checkExecution m.executionId m.plan =
      s.tables.checkNodes m.executionId m.plan row := by
  obtain ⟨row, hrow, hfingerprint, hid, hactive⟩ := hu.execution
  refine ⟨row, ?_⟩
  rw [Tables.checkExecution, hrow]
  simp only
  rw [if_neg (by rw [hfingerprint, hid]; simp)]
  rcases hactive with hstatus | hstatus <;> rw [hstatus]

/-- A node that the head of the loop finds ready has its first row. -/
theorem of_find (hu : Underway env m s) {id : String} {row : NodeExecution}
    (hfind : (s.tables.nodesOf m.executionId).find? (fun item => item.2.state = .ready) =
      some (id, row)) :
    s.tables.nodeExecutions.get? id = some row ∧
      ∃ node ∈ m.plan.nodes, row = Tables.initialRow m.executionId m.migrationId node ∧
        node.dependencies = [] ∧ s.log.count (.called m.executionId node.nodeId) = 0 := by
  obtain ⟨hget, hexecution⟩ := Tables.mem_nodesOf_iff.mp (List.mem_of_find?_eq_some hfind)
  have hready : row.state = .ready := by
    have hstate := List.find?_some hfind
    exact of_decide_eq_true hstate
  obtain ⟨node, hnode, -, hrows⟩ := hu.rows id row hget hexecution
  refine ⟨hget, node, hnode, ?_⟩
  rcases hrows with ⟨rfl, hcount⟩ | ⟨hsucceeded, -⟩
  · refine ⟨rfl, ?_, hcount⟩
    rcases initialRow_state m.executionId m.migrationId node with ⟨-, hnone⟩ | ⟨hblocked, -⟩
    · exact hnone
    · rw [hblocked] at hready
      cases hready
  · rw [hsucceeded] at hready
    cases hready

theorem failed_ne_succeeded (category : IPCErrorCategory) (code : String) :
    (.ok (.failed category code) : Except CoordinatorError ExecutionOutcome) ≠
      .ok ⟨true, "SUCCEEDED", none, none⟩ := by
  intro heq
  cases congrArg ExecutionOutcome.isSuccess (Except.ok.inj heq)

/-- The check of an execution with a node that is ready. -/
theorem step_check (hu : Underway env m s) (receiptCheck : ReceiptCheck)
    (hw : s.workers w = .checking (m.call operationId ownerId)) {id : String}
    {row : NodeExecution}
    (hfind : (s.tables.nodesOf m.executionId).find? (fun item => item.2.state = .ready) =
      some (id, row)) :
    ∃ initializationFingerprint, s.step receiptCheck (.check w) =
      some (s.become w (.gating (m.call operationId ownerId)
        initializationFingerprint id row)) := by
  obtain ⟨planRow, hcheck⟩ := hu.checkExecution_eq
  refine ⟨planRow.initializationFingerprint, ?_⟩
  rw [Coordinator.step, hw]
  simp only [Tables.Materialization.call_executionId, Tables.Materialization.call_plan]
  rw [hcheck, Tables.checkNodes, hfind]
  rfl

/-- The check of an execution without a node that is ready. -/
theorem step_check_none (hu : Underway env m s) (receiptCheck : ReceiptCheck)
    (hw : s.workers w = .checking (m.call operationId ownerId))
    (hfind : (s.tables.nodesOf m.executionId).find? (fun item => item.2.state = .ready) = none) :
    s.tables.allSucceeded m.executionId m.plan = true ∧ s.step receiptCheck (.check w) =
          some ((s.commit (s.tables.markPlanSucceeded m.executionId)).become w
            (.finished (.ok ⟨true, "SUCCEEDED", none, none⟩))) ∨
      s.tables.allSucceeded m.executionId m.plan = false ∧
        ∃ outcome, outcome ≠ .ok ⟨true, "SUCCEEDED", none, none⟩ ∧
          s.step receiptCheck (.check w) = some (s.become w (.finished outcome)) := by
  obtain ⟨planRow, hcheck⟩ := hu.checkExecution_eq
  rw [Coordinator.step, hw]
  simp only [Tables.Materialization.call_executionId, Tables.Materialization.call_plan]
  rw [hcheck, Tables.checkNodes, hfind]
  simp only
  cases hall : s.tables.allSucceeded m.executionId m.plan with
  | true => exact Or.inl ⟨rfl, by rw [if_pos rfl]⟩
  | false =>
    rw [if_neg Bool.false_ne_true]
    refine Or.inr ⟨rfl, ?_⟩
    split_ifs
    · exact ⟨.ok (.failed .internalError "NODE_FAILED"), mt Except.ok.inj (by decide), rfl⟩
    · exact ⟨.ok ⟨true, "RUNNING", none, none⟩, mt Except.ok.inj (by decide), rfl⟩

/-- The gate of a node that has its first row: it goes on to the claim, without a lease that was assigned
before, precisely when the node passes. -/
theorem step_gate (env : Surroundings) (receiptCheck : ReceiptCheck) (now : String)
    {id initializationFingerprint : String} (hw : s.workers w = .gating (m.call operationId ownerId)
      initializationFingerprint id (Tables.initialRow m.executionId m.migrationId node)) :
    (∃ bindingId, env.Passes m node ∧ s.step receiptCheck (.gate w (env.answer node.nodeId) now) =
        some (s.become w (.claiming (m.call operationId ownerId)
          initializationFingerprint id (Tables.initialRow m.executionId m.migrationId node) bindingId
          none))) ∨
      ¬ env.Passes m node ∧ ∃ outcome s', outcome ≠ .ok ⟨true, "SUCCEEDED", none, none⟩ ∧
        s.step receiptCheck (.gate w (env.answer node.nodeId) now) = some s' ∧
        s'.workers w = .finished outcome := by
  rw [Coordinator.step, hw]
  simp only [Tables.Materialization.call_plan]
  cases hgate : gate m.plan (Tables.initialRow m.executionId m.migrationId node)
      (env.answer node.nodeId) with
  | ok bindingId => exact Or.inl ⟨bindingId, ⟨bindingId, hgate⟩, rfl⟩
  | error failure =>
    have hnot : ¬ env.Passes m node := by
      rintro ⟨bindingId, hpasses⟩
      rw [hgate] at hpasses
      cases hpasses
    refine Or.inr ⟨hnot, ?_⟩
    cases failure with
    | marked category code =>
      exact ⟨_, _, failed_ne_succeeded category code, rfl, Function.update_self _ _ _⟩
    | raised error =>
      exact ⟨_, _, (fun heq => by cases heq), rfl, Function.update_self _ _ _⟩

/-- The claim of a node that has its first row, under new ids. -/
theorem step_claim (receiptCheck : ReceiptCheck) (invocationId now expiresAt : String)
    {id initializationFingerprint bindingId attemptId leaseId : String}
    (hw : s.workers w = .claiming (m.call operationId ownerId)
      initializationFingerprint id (Tables.initialRow m.executionId m.migrationId node) bindingId none)
    (hrow : s.tables.nodeExecutions.get? id =
      some (Tables.initialRow m.executionId m.migrationId node))
    (hnone : node.dependencies = [])
    (hnew : s.tables.leases.get? attemptId = none ∧
      s.tables.leases.leaseIdTaken leaseId attemptId = false) :
    ∃ t d, s.step receiptCheck (.claim w attemptId leaseId invocationId now expiresAt) =
        some ((s.commit t).become w
          (.dispatching (m.call operationId ownerId) d)) ∧
      d.graphNodeId = node.nodeId ∧ d.nodeExecutionId = id ∧
      t.nodeExecutions = s.tables.nodeExecutions.updateRow id d.claimed ∧
      ∃ start : PlanExecution → Option String,
        t.planExecutions = s.tables.planExecutions.updateRow m.executionId fun plan =>
          { plan with status := .running, startOperationId := start plan } := by
  obtain ⟨⟨leases, lease⟩, hlease⟩ : ∃ r, s.tables.leases.acquireLease leaseId attemptId
      (m.call operationId ownerId).ownerId expiresAt initializationFingerprint now = .ok r := by
    refine LeaseTable.acquireLease_accepted_iff.mpr ⟨hnew.2, fun found hfound => ?_⟩
    rw [hnew.1] at hfound
    cases hfound
  have hready : (Tables.initialRow m.executionId m.migrationId node).state = .ready :=
    ((initialRow_state _ _ _).resolve_right fun hblocked => hblocked.2 hnone).1
  rw [Coordinator.step, hw]
  simp only
  rw [Tables.claimNode]
  simp only
  rw [hrow]
  simp only
  rw [if_pos hready, Tables.claimLease]
  simp only
  rw [hlease]
  exact ⟨_, _, rfl, rfl, rfl, rfl, _, rfl⟩

/-- The return of an engine with a valid successful result: the call goes on when the activation of
successors does, and marks the node and the execution as failed when that raises. -/
theorem step_answer {receiptCheck : ReceiptCheck} {call : AdvanceCall} {d : Tables.Dispatch}
    {result : EngineInvocationResult} (hw : s.workers w = .awaiting call d)
    (hresult : Surroundings.Succeeds receiptCheck s.tables call d result) :
    ∃ text, (Tables.activateSuccessors call.executionId
          (s.tables.setNode d.nodeExecutionId (Tables.succeededRow text)) call.plan.nodes =
        .ok (s.tables.setNode d.nodeExecutionId (Tables.succeededRow text)) →
        s.step receiptCheck (.answer w (.returned result)) =
          some ((s.commit (s.tables.setNode d.nodeExecutionId (Tables.succeededRow text))).become w
            (.checking call))) ∧
      (Tables.activateSuccessors call.executionId
          (s.tables.setNode d.nodeExecutionId (Tables.succeededRow text)) call.plan.nodes =
        .error .attributeError →
        s.step receiptCheck (.answer w (.returned result)) =
          some (s.become w (.failing call.executionId d.nodeExecutionId .internalError
            "RECONCILIATION_ERROR"))) := by
  obtain ⟨hprogress, payload, text, hreconcile, hdumps⟩ := hresult
  have hexecution : (d.expectation call.executionId).executionId = call.executionId := rfl
  have hid : (d.expectation call.executionId).nodeExecutionId = d.nodeExecutionId := rfl
  refine ⟨text, fun hactivate => ?_, fun hactivate => ?_⟩
  all_goals
    rw [Coordinator.step, hw]
    simp only
    rw [Coordinator.answered, if_neg (Bool.not_eq_true _ ▸ hprogress), Tables.recordResult, hreconcile]
    simp only
    rw [hdumps]
    simp only
    rw [hexecution, hid, hactivate]

/-- What the units of work from the head of the loop to the return of an engine have done. -/
structure Called (env : Surroundings) (m : Tables.Materialization) (s : Coordinator) (id : String)
    (node : GraphNode) (d : Tables.Dispatch) (s' : Coordinator) : Prop where
  passes : env.Passes m node
  nodeExecutionId : d.nodeExecutionId = id
  nodes : s'.tables.nodeExecutions = s.tables.nodeExecutions.updateRow id d.claimed
  plans : ∃ start : PlanExecution → Option String,
    s'.tables.planExecutions = s.tables.planExecutions.updateRow m.executionId fun plan =>
      { plan with status := .running, startOperationId := start plan }
  log : s'.log = .called m.executionId node.nodeId :: s.log

section Rounds

variable {receiptCheck : ReceiptCheck} {w k : ℕ} {operationId ownerId : String}

variable {node : GraphNode}

/-- From the head of the loop with a node that is ready, the call reaches the engine of the node, or the
node does not pass the gate. -/
theorem reaches_engine (hu : Underway env m (env.drive receiptCheck w s k))
    (hnew : env.DrawsNew receiptCheck w s)
    (hw : (env.drive receiptCheck w s k).workers w = .checking (m.call operationId ownerId))
    {id : String} (hnone : node.dependencies = [])
    (hfind : ((env.drive receiptCheck w s k).tables.nodesOf m.executionId).find?
      (fun item => item.2.state = .ready) =
        some (id, Tables.initialRow m.executionId m.migrationId node)) :
    (∃ outcome, (env.drive receiptCheck w s (k + 2)).workers w = .finished outcome ∧
        outcome ≠ .ok ⟨true, "SUCCEEDED", none, none⟩ ∧ ¬ env.Passes m node) ∨
      ∃ d, (env.drive receiptCheck w s (k + 4)).workers w =
          .awaiting (m.call operationId ownerId) d ∧
        Called env m (env.drive receiptCheck w s k) id node d (env.drive receiptCheck w s (k + 4)) := by
  obtain ⟨hrow, -⟩ := hu.of_find hfind
  obtain ⟨fingerprint, hcheck⟩ := hu.step_check receiptCheck hw hfind
  have h1 := Surroundings.drive_succ (by rw [hw]; rfl) hcheck
  have hw1 := (congrArg (fun s => Coordinator.workers s w) h1).trans (Coordinator.workers_become _ w _)
  rcases step_gate env receiptCheck (env.now (k + 1)) hw1 with
    ⟨bindingId, hpasses, hgate⟩ | ⟨hfails, outcome, s2, houtcome, hgate, hs2⟩
  · have h2 := Surroundings.drive_succ (by rw [hw1]; rfl) hgate
    have hw2 := (congrArg (fun s => Coordinator.workers s w) h2).trans (Coordinator.workers_become _ w _)
    have ht2 : (env.drive receiptCheck w s (k + 2)).tables = (env.drive receiptCheck w s k).tables := by
      rw [h2]
      show (env.drive receiptCheck w s (k + 1)).tables = _
      rw [h1]
      rfl
    have hlog2 : (env.drive receiptCheck w s (k + 2)).log = (env.drive receiptCheck w s k).log := by
      rw [h2]
      show (env.drive receiptCheck w s (k + 1)).log = _
      rw [h1]
      rfl
    rw [← ht2] at hrow
    obtain ⟨t, d, hclaim, hgraph, hid, hnodes, start, hplans⟩ :=
      step_claim receiptCheck (env.invocationId (k + 2)) (env.now (k + 2)) (env.expiresAt (k + 2)) hw2
        hrow hnone (hnew (k + 2) _ _ _ _ _ _ hw2)
    have h3 := Surroundings.drive_succ (by rw [hw2]; rfl) hclaim
    have hw3 := (congrArg (fun s => Coordinator.workers s w) h3).trans (Coordinator.workers_become _ w _)
    have hdispatch : (env.drive receiptCheck w s (k + 3)).step receiptCheck (.dispatch w) =
        some (((env.drive receiptCheck w s (k + 3)).become w
          (.awaiting (m.call operationId ownerId) d)).record
            (.called m.executionId d.graphNodeId)) := by
      rw [Coordinator.step, hw3]
      rfl
    have h4 := Surroundings.drive_succ (by rw [hw3]; rfl) hdispatch
    have ht4 : (env.drive receiptCheck w s (k + 4)).tables = t := by
      rw [h4]
      show (env.drive receiptCheck w s (k + 3)).tables = _
      rw [h3]
      rfl
    refine Or.inr ⟨d,
      (congrArg (fun s => Coordinator.workers s w) h4).trans (Coordinator.workers_become _ w _),
      hpasses, hid, ?_, ⟨start, ?_⟩, ?_⟩
    · rw [ht4, hnodes, ht2]
    · rw [ht4, hplans, ht2]
    · rw [← hlog2, ← hgraph, h4]
      show _ :: (env.drive receiptCheck w s (k + 3)).log = _
      rw [h3]
      rfl
  · have h2 := Surroundings.drive_succ (by rw [hw1]; rfl) hgate
    refine Or.inl ⟨outcome, ?_, houtcome, hfails⟩
    rw [h2]
    exact hs2

/-- The success of a node whose engine was called leaves the rows as they should be. -/
theorem succeed_of_called (hu : Underway env m s)
    (hnodup : (m.plan.nodes.map GraphNode.nodeId).Nodup) {id : String} (hnode : node ∈ m.plan.nodes)
    (hrow : s.tables.nodeExecutions.get? id =
      some (Tables.initialRow m.executionId m.migrationId node))
    (hnone : node.dependencies = [])
    (huncalled : s.log.count (.called m.executionId node.nodeId) = 0) {d : Tables.Dispatch}
    (hcalled : Called env m s id node d s') (text : String) (worker : Worker) :
    Underway env m ((s'.commit (s'.tables.setNode d.nodeExecutionId
        (Tables.succeededRow text))).become w worker) ∧
      (readyNodes m ((s'.commit (s'.tables.setNode d.nodeExecutionId
        (Tables.succeededRow text))).become w worker)).length < (readyNodes m s).length := by
  obtain ⟨hpasses, hid, hnodes, ⟨start, hplans⟩, hlog⟩ := hcalled
  refine hu.succeed hnodup hnode hrow hnone hpasses huncalled ?_ ?_ hlog
  · have hclaimed : PyDict.Updates (fun key row row' =>
        key ≠ id ∧ row' = row ∨ key = id ∧ row' = d.claimed row)
        s.tables.nodeExecutions s'.tables.nodeExecutions := by
      rw [hnodes]
      apply PyDict.Updates.updateRow
      · exact fun key row hkey => Or.inl ⟨hkey, rfl⟩
      · exact fun row _ => Or.inr ⟨rfl, rfl⟩
    have hsucceeded : PyDict.Updates (fun key row row' =>
        key ≠ id ∧ row' = row ∨ key = id ∧ row' = Tables.succeededRow text row)
        s'.tables.nodeExecutions
        (s'.tables.setNode d.nodeExecutionId (Tables.succeededRow text)).nodeExecutions := by
      rw [hid]
      apply PyDict.Updates.updateRow
      · exact fun key row hkey => Or.inl ⟨hkey, rfl⟩
      · exact fun row _ => Or.inr ⟨rfl, rfl⟩
    refine hclaimed.trans hsucceeded fun key row row' row'' hfirst hsecond => ?_
    rcases hfirst with ⟨hkey, rfl⟩ | ⟨rfl, rfl⟩
    · exact Or.inl ⟨hkey, (hsecond.resolve_right fun hsame => hkey hsame.1).2⟩
    · rw [(hsecond.resolve_left fun hother => hother.1 rfl).2]
      exact Or.inr ⟨rfl, rfl, rfl⟩
  · show PyDict.Updates _ s.tables.planExecutions s'.tables.planExecutions
    rw [hplans]
    apply PyDict.Updates.updateRow
    · exact fun _ _ _ => ⟨rfl, rfl, Or.inl rfl⟩
    · exact fun _ _ => ⟨rfl, rfl, Or.inr rfl⟩

/-- A node that is blocked lists a dependency. -/
theorem dependencies_ne_of_blocked (hu : Underway env m s)
    (hnodup : (m.plan.nodes.map GraphNode.nodeId).Nodup)
    (hnode : node ∈ m.plan.nodes)
    (hblocked : s.tables.stateOf m.executionId node.nodeId = some .blocked) :
    node.dependencies ≠ [] := by
  rcases hu.stateOf_eq hnode hnodup with hstate | ⟨hstate, -⟩
  · rw [hblocked, Option.some.injEq] at hstate
    rcases initialRow_state m.executionId m.migrationId node with ⟨hready, -⟩ | ⟨-, hsome⟩
    · rw [hready] at hstate
      cases hstate
    · exact hsome
  · rw [hblocked] at hstate
    cases hstate

/-- A node that lists a dependency is blocked. -/
theorem blocked_of_dependencies_ne (hu : Underway env m s)
    (hnodup : (m.plan.nodes.map GraphNode.nodeId).Nodup)
    (hnode : node ∈ m.plan.nodes) (hsome : node.dependencies ≠ []) :
    s.tables.stateOf m.executionId node.nodeId = some .blocked := by
  rcases hu.stateOf_eq hnode hnodup with hstate | ⟨-, hnone, -⟩
  · rcases initialRow_state m.executionId m.migrationId node with ⟨-, hnone⟩ | ⟨hblocked, -⟩
    · exact absurd hnone hsome
    · rwa [hblocked] at hstate
  · exact absurd hnone hsome

/-- **Rounds.**  From the head of the loop with a node that is ready, the call comes back to it with fewer
nodes that are ready, or it fails, and then some node lists a dependency or does not pass the gate. -/
theorem round (hu : Underway env m (env.drive receiptCheck w s k))
    (hnodup : (m.plan.nodes.map GraphNode.nodeId).Nodup) (hnew : env.DrawsNew receiptCheck w s)
    (hengines : env.EnginesSucceed receiptCheck w s)
    (hw : (env.drive receiptCheck w s k).workers w = .checking (m.call operationId ownerId))
    {id : String} {row : NodeExecution}
    (hfind : ((env.drive receiptCheck w s k).tables.nodesOf m.executionId).find?
      (fun item => item.2.state = .ready) = some (id, row)) :
    (∃ n outcome, (env.drive receiptCheck w s n).workers w = .finished outcome ∧
        outcome ≠ .ok ⟨true, "SUCCEEDED", none, none⟩ ∧ ¬ env.Runnable m) ∨
      ∃ n, (env.drive receiptCheck w s n).workers w = .checking (m.call operationId ownerId) ∧
        Underway env m (env.drive receiptCheck w s n) ∧
        (readyNodes m (env.drive receiptCheck w s n)).length <
          (readyNodes m (env.drive receiptCheck w s k)).length := by
  obtain ⟨hrow, node, hnode, rfl, hnone, hcount⟩ := hu.of_find hfind
  rcases hu.reaches_engine hnew hw hnone hfind with
    ⟨outcome, hfinished, houtcome, hfails⟩ | ⟨d, hw4, hcalled⟩
  · exact Or.inl ⟨k + 2, outcome, hfinished, houtcome, fun hrunnable =>
      hfails (hrunnable node hnode).2⟩
  · obtain ⟨text, hok, hraise⟩ := step_answer hw4 (hengines (k + 4) _ _ hw4)
    obtain ⟨hu', hless⟩ := hu.succeed_of_called (w := w) hnodup hnode hrow hnone hcount hcalled text
      (.checking (m.call operationId ownerId))
    by_cases hall : ∀ other ∈ m.plan.nodes, other.dependencies = []
    · have h5 := Surroundings.drive_succ (by rw [hw4]; rfl)
        (hok (Tables.activateSuccessors_of_not_blocked fun other hother hblocked =>
          hu'.dependencies_ne_of_blocked hnodup hother hblocked (hall other hother)))
      refine Or.inr ⟨k + 5, ?_⟩
      rw [h5]
      exact ⟨Function.update_self _ _ _, hu', hless⟩
    · obtain ⟨other, hother⟩ := not_forall.mp hall
      obtain ⟨hmem, hsome⟩ := Classical.not_imp.mp hother
      have h5 := Surroundings.drive_succ (by rw [hw4]; rfl)
        (hraise (Tables.activateSuccessors_of_blocked
          ⟨other, hmem, hu'.blocked_of_dependencies_ne hnodup hmem hsome⟩
          fun other hother hblocked => hu'.dependencies_ne_of_blocked hnodup hother hblocked))
      have hw5 := (congrArg (fun s => Coordinator.workers s w) h5).trans (Function.update_self _ _ _)
      have hfail : (env.drive receiptCheck w s (k + 5)).step receiptCheck (.fail w) =
          some ((env.drive receiptCheck w s (k + 5)).markFailed w m.executionId d.nodeExecutionId
            .internalError "RECONCILIATION_ERROR") := by
        rw [Coordinator.step, hw5]
        rfl
      have h6 := Surroundings.drive_succ (by rw [hw5]; rfl) hfail
      refine Or.inl ⟨k + 6, _, ?_, failed_ne_succeeded .internalError "RECONCILIATION_ERROR",
        fun hrunnable => hsome (hrunnable other hmem).1⟩
      rw [h6]
      exact Function.update_self _ _ _

theorem length_nodesOf (hu : Underway env m s)
    (hnodup : (m.plan.nodes.map GraphNode.nodeId).Nodup) :
    (s.tables.nodesOf m.executionId).length = m.plan.nodes.length := by
  have hitems : (s.tables.nodesOf m.executionId).Nodup :=
    s.tables.nodeExecutions.nodup.of_map.filter _
  have hids : ((s.tables.nodesOf m.executionId).map fun item => item.2.graphNodeId).Nodup := by
    refine hitems.map_on fun item hitem other hother hgraph => ?_
    obtain ⟨hget, hexecution⟩ := Tables.mem_nodesOf_iff.mp hitem
    obtain ⟨hget', hexecution'⟩ := Tables.mem_nodesOf_iff.mp hother
    have hid := hu.keyed _ _ _ _ hget hget' (by
      rw [NodeExecution.key, NodeExecution.key, hexecution, hexecution', hgraph])
    rw [hid, hget', Option.some.injEq] at hget
    exact Prod.ext hid hget.symm
  have hperm : ((s.tables.nodesOf m.executionId).map fun item => item.2.graphNodeId).Perm
      (m.plan.nodes.map GraphNode.nodeId) := by
    refine (List.perm_ext_iff_of_nodup hids hnodup).mpr fun id => ?_
    rw [List.mem_map, List.mem_map]
    constructor
    · rintro ⟨item, hitem, rfl⟩
      obtain ⟨hget, hexecution⟩ := Tables.mem_nodesOf_iff.mp hitem
      obtain ⟨node, hnode, hgraph, -⟩ := hu.rows _ _ hget hexecution
      exact ⟨node, hnode, hgraph⟩
    · rintro ⟨node, hnode, rfl⟩
      obtain ⟨rowId, row, hget, hkey⟩ := hu.nodes node hnode
      exact ⟨(rowId, row), Tables.mem_nodesOf_iff.mpr ⟨hget, congrArg Prod.fst hkey⟩,
        congrArg Prod.snd hkey⟩
  have hlength := hperm.length_eq
  rwa [List.length_map, List.length_map] at hlength

/-- Where all nodes have succeeded none lists a dependency, each passes the gate, and each was called
once. -/
theorem of_allSucceeded (hu : Underway env m s) (hnodup : (m.plan.nodes.map GraphNode.nodeId).Nodup)
    (hall : s.tables.allSucceeded m.executionId m.plan = true) (hnode : node ∈ m.plan.nodes) :
    node.dependencies = [] ∧ env.Passes m node ∧
      s.log.count (.called m.executionId node.nodeId) = 1 := by
  obtain ⟨id, row, hget, hkey⟩ := hu.nodes node hnode
  have hexecution : row.executionId = m.executionId := congrArg Prod.fst hkey
  have hsucceeded : row.state = .succeeded := of_decide_eq_true
    (List.all_eq_true.mp (Bool.and_eq_true_iff.mp hall).2 (id, row)
      (Tables.mem_nodesOf_iff.mpr ⟨hget, hexecution⟩))
  obtain ⟨other, hother, hgraph, hrows⟩ := hu.rows id row hget hexecution
  obtain rfl := List.inj_on_of_nodup_map hnodup hother hnode
    (hgraph.trans (congrArg Prod.snd hkey))
  rcases hrows with ⟨rfl, -⟩ | ⟨-, hrest⟩
  · rcases initialRow_state m.executionId m.migrationId other with ⟨hstate, -⟩ | ⟨hstate, -⟩ <;>
      rw [hsucceeded] at hstate <;> cases hstate
  · exact hrest

/-- Without a node that is ready all nodes have succeeded precisely when the plan can be run. -/
theorem allSucceeded_iff (hu : Underway env m s)
    (hnodup : (m.plan.nodes.map GraphNode.nodeId).Nodup)
    (hfind : (s.tables.nodesOf m.executionId).find? (fun item => item.2.state = .ready) = none) :
    s.tables.allSucceeded m.executionId m.plan = true ↔ env.Runnable m := by
  constructor
  · intro hall node hnode
    obtain ⟨hnone, hpasses, -⟩ := hu.of_allSucceeded hnodup hall hnode
    exact ⟨hnone, hpasses⟩
  · intro hrunnable
    rw [Tables.allSucceeded, decide_eq_true (hu.length_nodesOf hnodup), Bool.true_and,
      List.all_eq_true]
    intro item hitem
    obtain ⟨hget, hexecution⟩ := Tables.mem_nodesOf_iff.mp hitem
    obtain ⟨node, hnode, -, hrows⟩ := hu.rows _ _ hget hexecution
    rcases hrows with ⟨hrow, -⟩ | ⟨hsucceeded, -⟩
    · rcases initialRow_state m.executionId m.migrationId node with ⟨hready, -⟩ | ⟨-, hsome⟩
      · rw [← hrow] at hready
        exact absurd (decide_eq_true hready) (List.find?_eq_none.mp hfind item hitem)
      · exact absurd (hrunnable node hnode).1 hsome
    · exact decide_eq_true hsucceeded

/-- **The end of a call.**  From the head of the loop the call returns, and it has driven the execution to
its success precisely when no node lists a dependency and every node passes the gate. -/
theorem ends (hu : Underway env m (env.drive receiptCheck w s k))
    (hnodup : (m.plan.nodes.map GraphNode.nodeId).Nodup) (hnew : env.DrawsNew receiptCheck w s)
    (hengines : env.EnginesSucceed receiptCheck w s)
    (hw : (env.drive receiptCheck w s k).workers w = .checking (m.call operationId ownerId)) :
    ∃ n outcome, (env.drive receiptCheck w s n).workers w = .finished outcome ∧
      (Completed w m (env.drive receiptCheck w s n) ↔ env.Runnable m) := by
  -- by induction on the number of nodes that are ready, round by round
  induction hrank : (readyNodes m (env.drive receiptCheck w s k)).length
    using Nat.strong_induction_on generalizing k with
  | _ rank ih =>
    cases hfind : ((env.drive receiptCheck w s k).tables.nodesOf m.executionId).find?
        (fun item => item.2.state = .ready) with
    | some item =>
      rcases hu.round hnodup hnew hengines hw hfind with
        ⟨n, outcome, hfinished, houtcome, hnot⟩ | ⟨n, hw', hu', hless⟩
      · refine ⟨n, outcome, hfinished, iff_of_false (fun hcompleted => houtcome ?_) hnot⟩
        exact Worker.finished.inj (hfinished.symm.trans hcompleted.outcome)
      · exact ih _ (hrank ▸ hless) hu' hw' rfl
    | none =>
      have hiff := hu.allSucceeded_iff hnodup hfind
      rcases hu.step_check_none receiptCheck hw hfind with
        ⟨hall, hstep⟩ | ⟨hnot, outcome, houtcome, hstep⟩
      · have h1 := Surroundings.drive_succ (by rw [hw]; rfl) hstep
        have hw1 := (congrArg (fun s => Coordinator.workers s w) h1).trans
          (Function.update_self _ _ _)
        have hrunnable := hiff.mp hall
        refine ⟨k + 1, _, hw1, iff_of_true ⟨hw1, ?_, fun node hnode => ?_⟩ hrunnable⟩
        · obtain ⟨row, hrow, -⟩ := hu.execution
          refine ⟨{ row with status := .succeeded }, ?_, rfl⟩
          rw [h1]
          show ((env.drive receiptCheck w s k).tables.planExecutions.updateRow _ _).get? _ = _
          rw [PyDict.get?_updateRow, if_pos rfl, hrow]
          rfl
        · rw [h1]
          show (env.drive receiptCheck w s k).log.count _ = 1
          exact (hu.of_allSucceeded hnodup hall hnode).2.2
      · have h1 := Surroundings.drive_succ (by rw [hw]; rfl) hstep
        have hw1 := (congrArg (fun s => Coordinator.workers s w) h1).trans
          (Function.update_self _ _ _)
        refine ⟨k + 1, _, hw1, iff_of_false (fun hcompleted => houtcome ?_) fun hrunnable => ?_⟩
        · exact Worker.finished.inj (hw1.symm.trans hcompleted.outcome)
        · rw [hiff.mpr hrunnable] at hnot
          cases hnot

end Rounds

end Underway

/-! ## From the first rows -/

/-- A materialisation makes a new execution: the migration has no active one, and the ids that are drawn
are new. -/
structure Fresh (m : Tables.Materialization) (s : Coordinator) : Prop where
  inactive : s.tables.activeExecution m.migrationId = none
  execution : s.tables.planExecutions.get? m.executionId = none
  rows : ∀ id row, s.tables.nodeExecutions.get? id = some row → row.executionId ≠ m.executionId
  ids : ∀ k, s.tables.nodeExecutions.get? (m.nodeExecutionId k) = none
  injective : Function.Injective m.nodeExecutionId
  uncalled : ∀ graphNodeId, .called m.executionId graphNodeId ∉ s.log

/-- The first rows of nodes are inserted under new ids when their keys are new and distinct. -/
theorem insertNodes_ok {executionId migrationId : String} {newId : ℕ → String}
    (hinjective : Function.Injective newId) {nodes : List (GraphNode × ℕ)} {t : Tables}
    (hids : ∀ item ∈ nodes, t.nodeExecutions.get? (newId item.2) = none)
    (hkeys : ∀ item ∈ nodes, ∀ id row, t.nodeExecutions.get? id = some row →
      row.key ≠ (executionId, item.1.nodeId))
    (hindices : (nodes.map Prod.snd).Nodup)
    (hnodup : (nodes.map fun item => item.1.nodeId).Nodup) :
    ∃ t', Tables.insertNodes executionId migrationId newId t nodes = .ok t' ∧
      (∀ id row, t.nodeExecutions.get? id = some row → t'.nodeExecutions.get? id = some row) ∧
      ∀ item ∈ nodes, t'.nodeExecutions.get? (newId item.2) =
        some (Tables.initialRow executionId migrationId item.1) := by
  induction nodes generalizing t with
  | nil => exact ⟨t, rfl, fun _ _ hrow => hrow, fun item hitem => absurd hitem List.not_mem_nil⟩
  | cons item nodes ih =>
    obtain ⟨node, k⟩ := item
    obtain ⟨hid, hids⟩ := List.forall_mem_cons.mp hids
    obtain ⟨hkey, hkeys⟩ := List.forall_mem_cons.mp hkeys
    rw [List.map_cons, List.nodup_cons] at hindices hnodup
    have hinsert : t.insertNode (newId k) (Tables.initialRow executionId migrationId node) =
        .ok { t with
          nodeExecutions := t.nodeExecutions.set (newId k)
            (Tables.initialRow executionId migrationId node) } := by
      rw [Tables.insertNode, if_neg]
      rintro (htaken | htaken)
      · rw [hid] at htaken
        cases htaken
      · obtain ⟨item, hitem, hgraph⟩ := List.any_eq_true.mp htaken
        obtain ⟨hget, hexecution⟩ := Tables.mem_nodesOf_iff.mp hitem
        exact hkey item.1 item.2 hget (Prod.ext hexecution (of_decide_eq_true hgraph))
    have hold : ∀ id row, t.nodeExecutions.get? id = some row →
        (t.nodeExecutions.set (newId k) (Tables.initialRow executionId migrationId node)).get? id =
          some row := by
      intro id row hrow
      rw [PyDict.get?_set_of_ne _ _ (by rintro rfl; rw [hid] at hrow; cases hrow), hrow]
    obtain ⟨t', hinserted, hkept, hrows⟩ := ih (t := { t with
        nodeExecutions := t.nodeExecutions.set (newId k)
          (Tables.initialRow executionId migrationId node) })
      (fun other hother => by
        have hne : newId other.2 ≠ newId k := fun heq =>
          hindices.1 (List.mem_map.mpr ⟨other, hother, hinjective heq⟩)
        exact (PyDict.get?_set_of_ne _ _ hne).trans (hids other hother))
      (fun other hother id row hrow hsame => by
        by_cases hnew : id = newId k
        · rw [hnew, PyDict.get?_set, Option.some.injEq] at hrow
          rw [← hrow] at hsame
          have hsameId : node.nodeId = other.1.nodeId := congrArg Prod.snd hsame
          exact hnodup.1 (List.mem_map.mpr ⟨other, hother, hsameId.symm⟩)
        · rw [PyDict.get?_set_of_ne _ _ hnew] at hrow
          exact hkeys other hother id row hrow hsame)
      hindices.2 hnodup.2
    refine ⟨t', ?_, fun id row hrow => hkept id row (hold id row hrow), ?_⟩
    · rw [Tables.insertNodes, hinsert]
      exact hinserted
    · refine List.forall_mem_cons.mpr ⟨?_, hrows⟩
      exact hkept _ _ (PyDict.get?_set _ _ _)

/-- **First rows.**  The materialisation of an accepted plan as a new execution leaves its rows as they
should be at the head of the loop. -/
theorem underway_of_fresh {m : Tables.Materialization} {s s' : Coordinator}
    {receiptCheck : ReceiptCheck} (hs : s.tables.Keyed) (hfresh : Fresh m s)
    (hvalid : validatePlan m.plan = .ok ()) (hstep : s.step receiptCheck (.materialize m) = some s')
    (env : Surroundings) : Underway env m s' := by
  have hnodup := nodup_of_validatePlan hvalid
  have hindices : (m.plan.nodes.zipIdx.map Prod.snd).Nodup := by
    rw [List.zipIdx_map_snd]
    exact List.nodup_range'
  have hids : (m.plan.nodes.zipIdx.map fun item => item.1.nodeId).Nodup := by
    have hfirst := congrArg (List.map GraphNode.nodeId) (List.zipIdx_map_fst 0 m.plan.nodes)
    rw [List.map_map] at hfirst
    exact hfirst.symm ▸ hnodup
  obtain ⟨t, hinsert, -, hrows⟩ := insertNodes_ok (t := { s.tables with
      planExecutions := s.tables.planExecutions.set m.executionId m.row }) hfresh.injective
    (fun item _ => hfresh.ids item.2)
    (fun item _ id row hrow hkey => hfresh.rows id row hrow (congrArg Prod.fst hkey)) hindices hids
  have hmaterialize : s.tables.materializePlanExecution m = .ok (t, m.executionId) := by
    rw [Tables.materializePlanExecution, hfresh.inactive]
    simp only
    rw [if_neg (by rw [hfresh.execution]; exact Bool.false_ne_true), hinsert]
  obtain rfl : s.commit t = s' := by
    rw [Coordinator.step, hmaterialize] at hstep
    exact Option.some.inj hstep
  obtain ⟨hkeyed, hplans, -, -, -, hfrom⟩ := Tables.insertNodes_spec hinsert hs
  refine ⟨hkeyed, ⟨m.row, ?_, rfl, rfl, Or.inl rfl⟩, fun node hnode => ?_,
    fun id row hrow hexecution => ?_⟩
  · show t.planExecutions.get? m.executionId = _
    rw [hplans]
    exact PyDict.get?_set _ _ _
  · rw [← List.zipIdx_map_fst 0 m.plan.nodes] at hnode
    obtain ⟨item, hitem, rfl⟩ := List.mem_map.mp hnode
    exact ⟨_, _, hrows item hitem, rfl⟩
  · rcases hfrom id row hrow with hold | ⟨⟨node, hnode, rfl⟩, -⟩
    · exact absurd hexecution (hfresh.rows id row hold)
    · rw [List.zipIdx_map_fst] at hnode
      refine ⟨node, hnode, rfl, Or.inl ⟨rfl, List.count_eq_zero.mpr (hfresh.uncalled _)⟩⟩

/-- **Progress.**  After the materialisation of an accepted plan as a new execution, a call whose engines
all return valid successful results drives the execution to its success, with one call for each node,
precisely when no node lists a dependency and every node passes the gate. -/
theorem completed_iff (receiptCheck : ReceiptCheck) (env : Surroundings) (w : ℕ)
    (m : Tables.Materialization) (operationId ownerId : String) {s s' : Coordinator}
    (hs : s.tables.Keyed) (hfresh : Fresh m s) (hvalid : validatePlan m.plan = .ok ())
    (hrun : run (Coordinator.step receiptCheck) s
      [.materialize m, .advance w (m.call operationId ownerId)] = some s')
    (hnew : env.DrawsNew receiptCheck w s') (hengines : env.EnginesSucceed receiptCheck w s') :
    (∃ n, ∀ k ≥ n, Completed w m (env.drive receiptCheck w s' k)) ↔ env.Runnable m := by
  obtain ⟨s1, hmaterialize, hrest⟩ := run_cons_eq_some.mp hrun
  obtain ⟨s2, hadvance, hend⟩ := run_cons_eq_some.mp hrest
  cases hend
  have hu := underway_of_fresh hs hfresh hvalid hmaterialize env
  rw [Coordinator.step] at hadvance
  split_ifs at hadvance
  cases hadvance
  have hu' : Underway env m (env.drive receiptCheck w
      (s1.become w (.checking (m.call operationId ownerId))) 0) :=
    ⟨hu.keyed, hu.execution, hu.nodes, hu.rows⟩
  obtain ⟨n, outcome, hfinished, hiff⟩ :=
    hu'.ends (nodup_of_validatePlan hvalid) hnew hengines (Function.update_self _ _ _)
  rw [← hiff]
  constructor
  · rintro ⟨j, hall⟩
    have hlast := hall (max j n) (le_max_left j n)
    rwa [Surroundings.drive_of_finished hfinished (le_max_right j n)] at hlast
  · intro hcompleted
    refine ⟨n, fun k hk => ?_⟩
    rw [Surroundings.drive_of_finished hfinished hk]
    exact hcompleted

/-! ## Plans with and without dependencies -/

/-- `==` on texts and integers, and a signature that is the same for all messages. -/
def plainReceipts : ReceiptCheck where
  equal
    | .str a, .str b => a = b
    | .int a, .int b => a = b
    | _, _ => false
  str := fun _ => ""
  signature := some fun _ => "signature"

/-- Surroundings in which every capability is bound, with the result of the first engine that is called. -/
def plainSurroundings (nodeId : String) : Surroundings where
  answer := fun _ => { evaluation := ⟨true, true, some ⟨"binding", true⟩⟩ }
  now := fun _ => "2024-01-01T00:00:00"
  attemptId := fun _ => "att-1"
  leaseId := fun _ => "lease-1"
  invocationId := fun _ => "inv-1"
  expiresAt := fun _ => "2024-01-01T00:05:00"
  result := fun _ =>
    { invocationId := "inv-1"
      attemptId := "att-1"
      leaseId := "lease-1"
      fenceEpoch := 1
      isSuccess := true
      initializationFingerprint := some "init"
      graphNodeId := some nodeId
      bindingId := some "binding"
      resultPayload := .dict [("engine_execution_receipt", .dict [
        ("gateway_run_id", .str "att-1"), ("gateway_fencing_epoch", .int 1),
        ("gateway_migration_id", .str "m"), ("graph_node_id", .str nodeId),
        ("initialization_fingerprint", .str "init"), ("gateway_status_code", .str "SUCCESS"),
        ("receipt_signature", .str "signature")])] }

/-- The materialisation of a plan. -/
def materializationOf (plan : ExecutionPlan) : Tables.Materialization where
  plan := plan
  migrationId := "m"
  initializationFingerprint := "init"
  executionId := "pe-1"
  nodeExecutionId := fun k => String.ofList (List.replicate k 'n')
  now := "2024-01-01T00:00:00"

theorem fresh_materializationOf (plan : ExecutionPlan) :
    Fresh (materializationOf plan) (Coordinator.start PyDict.empty PyDict.empty) where
  inactive := rfl
  execution := rfl
  rows := fun _ _ hrow => by cases hrow
  ids := fun _ => rfl
  injective := by
    intro j k hjk
    have hlength := congrArg (fun text => text.toList.length) hjk
    simpa [materializationOf] using hlength
  uncalled := fun _ => List.not_mem_nil

/-- The materialisation of a plan in empty tables, and a call for it. -/
def beginPlan (plan : ExecutionPlan) : List Action :=
  [.materialize (materializationOf plan), .advance 0 ((materializationOf plan).call "op-1" "actor")]

/-- For the plan with one node and for the pair, the ids that are drawn are new and the engine succeeds. -/
theorem plainSurroundings_succeed {plan : ExecutionPlan} {nodeId : String} {s' : Coordinator}
    (hplan : plan = Coordinator.singlePlan ∧ nodeId = "n" ∨
      plan = DispatchHistory.pairPlan ∧ nodeId = "a")
    (hrun : run (Coordinator.step plainReceipts) (Coordinator.start PyDict.empty PyDict.empty)
      (beginPlan plan) = some s') :
    (plainSurroundings nodeId).DrawsNew plainReceipts 0 s' ∧
      (plainSurroundings nodeId).EnginesSucceed plainReceipts 0 s' := by
  -- a node is claimed in the third unit of work, its engine answers in the fifth, and six are all
  rcases hplan with ⟨rfl, rfl⟩ | ⟨rfl, rfl⟩
  all_goals
    cases hrun
    constructor
    · intro k call fingerprint id node bindingId preassigned hw
      rcases k with _ | _ | _ | _ | _ | _ | k
      · cases hw
      · cases hw
      · exact ⟨rfl, rfl⟩
      · cases hw
      · cases hw
      · cases hw
      · rw [Surroundings.drive_of_finished (k := 6) rfl (by omega)] at hw
        cases hw
    · intro k call d hw
      rcases k with _ | _ | _ | _ | _ | _ | k
      · cases hw
      · cases hw
      · cases hw
      · cases hw
      · obtain ⟨rfl, rfl⟩ := Worker.awaiting.inj hw
        exact ⟨rfl, _, _, rfl, rfl⟩
      · cases hw
      · rw [Surroundings.drive_of_finished (k := 6) rfl (by omega)] at hw
        cases hw

/-- The plan with one node is driven to its success. -/
theorem completed_single :
    ∃ s', run (Coordinator.step plainReceipts) (Coordinator.start PyDict.empty PyDict.empty)
        (beginPlan Coordinator.singlePlan) = some s' ∧
      ∃ n, ∀ k ≥ n, Completed 0 (materializationOf Coordinator.singlePlan)
        ((plainSurroundings "n").drive plainReceipts 0 s' k) := by
  refine ⟨_, rfl, (completed_iff plainReceipts (plainSurroundings "n") 0
    (materializationOf Coordinator.singlePlan) "op-1" "actor" (Coordinator.keyed_start _ _)
    (fresh_materializationOf _) rfl rfl ?_ ?_).mpr ?_⟩
  · exact (plainSurroundings_succeed (Or.inl ⟨rfl, rfl⟩) rfl).1
  · exact (plainSurroundings_succeed (Or.inl ⟨rfl, rfl⟩) rfl).2
  · intro node hnode
    obtain rfl := List.mem_singleton.mp hnode
    exact ⟨rfl, _, rfl⟩

/-- A plan whose two nodes depend on each other, though no edge says so. -/
def crossedPlan : ExecutionPlan :=
  { DispatchHistory.pairPlan with
    nodes :=
      [⟨"a", ⟨"schema_create", .reversible⟩, ["b"]⟩, ⟨"b", ⟨"schema_create", .reversible⟩, ["a"]⟩]
    edges := [] }

/-- A plan whose second node depends on the first fails when the first succeeds; and a call for the plan
whose nodes depend on each other returns as running with nodes that are all blocked. -/
theorem dependent_plan_fails : validatePlan DispatchHistory.pairPlan = .ok () ∧
    (∃ s', run (Coordinator.step plainReceipts) (Coordinator.start PyDict.empty PyDict.empty)
        (beginPlan DispatchHistory.pairPlan) = some s' ∧
      (plainSurroundings "a").DrawsNew plainReceipts 0 s' ∧
      (plainSurroundings "a").EnginesSucceed plainReceipts 0 s' ∧
      ¬ ∃ n, ∀ k ≥ n, Completed 0 (materializationOf DispatchHistory.pairPlan)
        ((plainSurroundings "a").drive plainReceipts 0 s' k)) ∧
    validatePlan crossedPlan = .ok () ∧
    ∃ s', run (Coordinator.step plainReceipts) (Coordinator.start PyDict.empty PyDict.empty)
        (beginPlan crossedPlan) = some s' ∧
      ∀ k ≥ 1, ((plainSurroundings "a").drive plainReceipts 0 s' k).workers 0 =
          .finished (.ok ⟨true, "RUNNING", none, none⟩) ∧
        ((((plainSurroundings "a").drive plainReceipts 0 s' k).tables.nodesOf "pe-1").map
          fun item => item.2.state) = [.blocked, .blocked] := by
  refine ⟨rfl, ⟨_, rfl, ?_, ?_, ?_⟩, rfl, _, rfl, ?_⟩
  · exact (plainSurroundings_succeed (Or.inr ⟨rfl, rfl⟩) rfl).1
  · exact (plainSurroundings_succeed (Or.inr ⟨rfl, rfl⟩) rfl).2
  · rintro ⟨n, hall⟩
    have houtcome := (hall (max n 6) (le_max_left n 6)).outcome
    rw [Surroundings.drive_of_finished (k := 6) rfl (le_max_right n 6)] at houtcome
    exact Underway.failed_ne_succeeded .internalError "RECONCILIATION_ERROR"
      (Worker.finished.inj houtcome)
  · intro k hk
    rw [Surroundings.drive_of_finished (k := 1) rfl hk]
    exact ⟨rfl, rfl⟩

end PlanCoordination

/-
# Dispatches of nodes

Engines are called for the nodes of executions of accepted plans, by any number of workers, between
completions, failures, cancellations and recoveries.  A call is in order when the dependencies of the
node have succeeded and the node has not been called since the latest recovery of its execution.

* `Ordered` : what holds of rows, of workers and of the record in the runs of orderly calls;
* `Ordered.step` : one unit of work keeps it;
* `dispatched_along` : calls are in order along every run in which a worker that has claimed a node calls
  its engine before a recovery, recoveries know the dependencies, and nodes that have succeeded do not fail
  while another node counts on them.
-/
import Akaal.LateResults

open TransitionRun

namespace PlanCoordination

open PipelineLeases

/-! ## Accepted plans -/

/-- Plans under their ids, all of which the validation accepts. -/
structure AcceptedPlans where
  plan : String → Option ExecutionPlan
  planId_eq : ∀ id found, plan id = some found → found.planId = id
  accepted : ∀ id found, plan id = some found → validatePlan found = .ok ()

theorem AcceptedPlans.eq_of_nodeId (plans : AcceptedPlans) {id : String} {plan : ExecutionPlan}
    (hplan : plans.plan id = some plan) {node node' : GraphNode} (hnode : node ∈ plan.nodes)
    (hnode' : node' ∈ plan.nodes) (h : node.nodeId = node'.nodeId) : node = node' :=
  List.inj_on_of_nodup_map (nodup_of_validatePlan (plans.accepted id plan hplan)) hnode hnode' h

/-- A unit of work is given a plan that is known under its id. -/
def Action.Uses (plans : AcceptedPlans) : Action → Prop
  | .materialize m => plans.plan m.plan.planId = some m.plan
  | .advance _ call => plans.plan call.plan.planId = some call.plan
  | _ => True

namespace Tables

variable (t : Tables) (plans : AcceptedPlans)

/-- The artifacts of the plans that can be read describe these plans. -/
def Describes : Prop :=
  ∀ id plan described, plans.plan id = some plan → t.planArtifact id = some (some described) →
    described = plan

/-- An execution is one of a plan. -/
def Runs (executionId : String) (plan : ExecutionPlan) : Prop :=
  ∃ row, t.planExecutions.get? executionId = some row ∧ plans.plan row.planId = some plan

/-- A node of an execution lists a dependency. -/
def Lists (executionId graphNodeId dependency : String) : Prop :=
  ∃ plan, t.Runs plans executionId plan ∧
    ∃ node ∈ plan.nodes, node.nodeId = graphNodeId ∧ dependency ∈ node.dependencies

/-- All the dependencies of a node have succeeded. -/
def Satisfied (executionId graphNodeId : String) : Prop :=
  ∀ dependency, t.Lists plans executionId graphNodeId dependency →
    t.stateOf executionId dependency = some .succeeded

variable {t plans}

variable {executionId : String} {plan : ExecutionPlan}

theorem Runs.unique {plan' : ExecutionPlan}
    (h : t.Runs plans executionId plan) (h' : t.Runs plans executionId plan') : plan = plan' := by
  obtain ⟨row, hrow, hplan⟩ := h
  obtain ⟨row', hrow', hplan'⟩ := h'
  rw [hrow, Option.some.injEq] at hrow'
  rw [← hrow', hplan, Option.some.injEq] at hplan'
  exact hplan'

theorem Runs.plan_eq (h : t.Runs plans executionId plan) : plans.plan plan.planId = some plan := by
  obtain ⟨row, -, hplan⟩ := h
  rw [plans.planId_eq _ _ hplan]
  exact hplan

theorem Runs.satisfied_of_nil
    (h : t.Runs plans executionId plan) {node : GraphNode} (hnode : node ∈ plan.nodes)
    (hnone : node.dependencies = []) : t.Satisfied plans executionId node.nodeId := by
  rintro dependency ⟨plan', hplan', node', hnode', hid, hdep⟩
  obtain rfl := h.unique hplan'
  obtain rfl := plans.eq_of_nodeId h.plan_eq hnode' hnode hid
  rw [hnone] at hdep
  cases hdep

/-! ## What units of work keep -/

/-- Executions stay ones of their plans, nodes keep their keys, and artifacts stay. -/
structure Keeps (t t' : Tables) : Prop where
  plans : ∀ id row, t.planExecutions.get? id = some row →
    ∃ row', t'.planExecutions.get? id = some row' ∧ row'.planId = row.planId
  nodes : ∀ id row, t.nodeExecutions.get? id = some row →
    ∃ row', t'.nodeExecutions.get? id = some row' ∧ row'.key = row.key
  artifacts : t'.artifacts = t.artifacts

variable {t' : Tables}

theorem Runs.keep (hkeep : t.Keeps t')
    (h : t.Runs plans executionId plan) : t'.Runs plans executionId plan := by
  obtain ⟨row, hrow, hplan⟩ := h
  obtain ⟨row', hrow', hid⟩ := hkeep.plans _ _ hrow
  exact ⟨row', hrow', by rw [hid, hplan]⟩

/-- A node of an execution that has a plan lists what it listed. -/
theorem Lists.of_keep (hkeep : t.Keeps t') {graphNodeId dependency : String}
    (h : t.Runs plans executionId plan)
    (hlists : t'.Lists plans executionId graphNodeId dependency) :
    t.Lists plans executionId graphNodeId dependency := by
  obtain ⟨plan', hplan', hnode⟩ := hlists
  obtain rfl := (h.keep hkeep).unique hplan'
  exact ⟨plan, h, hnode⟩

/-- A node keeps its dependencies where those that it lists stay succeeded. -/
theorem Satisfied.keep (hkeep : t.Keeps t') {graphNodeId : String}
    (hplan : t.Runs plans executionId plan) (h : t.Satisfied plans executionId graphNodeId)
    (hstay : ∀ dependency, t.Lists plans executionId graphNodeId dependency →
      t.stateOf executionId dependency = some .succeeded →
        t'.stateOf executionId dependency = some .succeeded) :
    t'.Satisfied plans executionId graphNodeId := by
  intro dependency hlists
  have hbefore := hlists.of_keep hkeep hplan
  exact hstay dependency hbefore (h dependency hbefore)

theorem get?_of_latestExecution {migrationId : String} {row : PlanExecution}
    (h : t.latestExecution migrationId = some (executionId, row)) :
    t.planExecutions.get? executionId = some row := by
  have hmem := List.mem_of_find?_eq_some h
  exact (t.planExecutions.mem_items_iff).mp (List.mem_reverse.mp hmem)

end Tables

namespace Coordinator

variable {receiptCheck : ReceiptCheck} {s s' : Coordinator}

variable {a : Action} {t : Tables}

theorem Effect.artifacts {ws : List Write} (hs : s.tables.Keyed)
    (h : s.Effect a ws t) : t.artifacts = s.tables.artifacts := by
  cases h with
  | claim _ hclaim =>
    obtain ⟨row, leases, lease, -, -, -, -, rfl⟩ := Tables.claimNode_spec hclaim
    rfl
  | succeed _ _ _ _ hartifacts => exact hartifacts
  | complete _ _ _ _ hartifacts => exact hartifacts
  | materialize hm =>
    rcases Tables.materializePlanExecution_spec hm with ⟨row, -, -, rfl | rfl⟩ | ⟨-, -, hinsert⟩
    · rfl
    · rfl
    · obtain ⟨-, -, -, hartifacts, -⟩ := Tables.insertNodes_spec hinsert hs
      exact hartifacts
  | recover hr =>
    obtain ⟨row, dependencies, -, -, -, -, hartifacts, -⟩ := Tables.recoverPlanExecution_spec hs hr
    exact hartifacts
  | _ => rfl

theorem step_recover {r : Tables.Recovery} (h : s.step receiptCheck (.recover r) = some s') :
    s' = s ∨ ∃ t executionId, s.tables.recoverPlanExecution r = .ok (t, some executionId) ∧
      s' = (s.commit t).record (.recovered executionId) := by
  rw [step] at h
  split at h
  · exact Or.inl (Option.some.inj h).symm
  · exact Or.inl (Option.some.inj h).symm
  · rename_i t executionId hrecover
    exact Or.inr ⟨t, executionId, hrecover, (Option.some.inj h).symm⟩

theorem keeps_of_recover {t' : Tables} {r : Tables.Recovery} {executionId : String} (ht : t.Keyed)
    (h : t.recoverPlanExecution r = .ok (t', some executionId)) : t.Keeps t' := by
  obtain ⟨found, dependencies, hlatest, -, hplans, -, hartifacts, hnodes⟩ :=
    Tables.recoverPlanExecution_spec ht h
  refine ⟨fun id row hrow => ?_, fun id row hrow => ?_, hartifacts⟩
  · rw [hplans]
    by_cases hid : id = executionId
    · rw [hid, Tables.get?_of_latestExecution hlatest, Option.some.injEq] at hrow
      rw [hid, ← hrow]
      exact ⟨_, PyDict.get?_set _ _ _, rfl⟩
    · exact ⟨row, (PyDict.get?_set_of_ne _ _ hid).trans hrow, rfl⟩
  · obtain ⟨row', hrow', hrecovered⟩ := hnodes.get hrow
    refine ⟨row', hrow', ?_⟩
    rcases hrecovered with ⟨rfl, -⟩ | ⟨-, -, ready, chosen, rfl, -⟩ <;> rfl

theorem step_keeps (hs : s.tables.Keyed) (h : s.step receiptCheck a = some s') :
    s.tables.Keeps s'.tables := by
  have heffect := step_effect hs h
  rcases a.recover_or with ⟨r, rfl⟩ | ha
  · rcases step_recover h with rfl | ⟨t, executionId, hrecover, rfl⟩
    · exact ⟨fun _ row hrow => ⟨row, hrow, rfl⟩, fun _ row hrow => ⟨row, hrow, rfl⟩, rfl⟩
    · exact keeps_of_recover hs hrecover
  · refine ⟨fun id row hrow => ?_, fun id row hrow => ?_, heffect.artifacts hs⟩
    · obtain ⟨row', hrow', hid, -⟩ := heffect.planStep hs ha hrow
      exact ⟨row', hrow', hid⟩
    · obtain ⟨row', hrow', hkey, -⟩ := heffect.nodeStep hs ha hrow
      exact ⟨row', hrow', hkey⟩

theorem Effect.written_state {ws : List Write} (h : s.Effect a ws t)
    {id : String} {state : NodeExecutionState} (hwrite : .node id state ∈ ws) :
    state = .failed ∨ state = .succeeded := by
  cases h with
  | fail _ executionId nodeExecutionId code =>
    rcases List.mem_cons.mp hwrite with hnode | hplan
    · exact Or.inl (Write.node.inj hnode).2
    · cases List.mem_singleton.mp hplan
  | claim => cases List.mem_singleton.mp hwrite
  | succeed => exact Or.inr (Write.node.inj (List.mem_singleton.mp hwrite)).2
  | complete =>
    rcases List.mem_cons.mp hwrite with hnode | hplan
    · exact Or.inr (Write.node.inj hnode).2
    · cases List.mem_singleton.mp hplan
  | cancel => cases List.mem_singleton.mp hwrite
  | _ => exact absurd hwrite List.not_mem_nil

/-- **Successes.**  A node that has succeeded stays so unless its failure is written. -/
theorem stateOf_succeeded_step (hs : s.tables.Keyed)
    (h : s.step receiptCheck a = some s') {executionId graphNodeId : String}
    (hstate : s.tables.stateOf executionId graphNodeId = some .succeeded)
    (hopen : ∀ id row, s.tables.nodeExecutions.get? id = some row →
      row.key = (executionId, graphNodeId) → row.state = .succeeded →
      .node id .failed ∉ s.writes receiptCheck a) :
    s'.tables.stateOf executionId graphNodeId = some .succeeded := by
  have heffect := step_effect hs h
  obtain ⟨id, row, hrow, hkey, hsucceeded⟩ := (Tables.stateOf_eq_some_iff hs).mp hstate
  refine (Tables.stateOf_eq_some_iff (heffect.keyed hs)).mpr ?_
  rcases a.recover_or with ⟨r, rfl⟩ | ha
  · rcases step_recover h with rfl | ⟨t, found, hrecover, rfl⟩
    · exact ⟨id, row, hrow, hkey, hsucceeded⟩
    · obtain ⟨_, _, -, -, -, -, -, hnodes⟩ := Tables.recoverPlanExecution_spec hs hrecover
      obtain ⟨row', hrow', hrecovered⟩ := hnodes.get hrow
      rcases hrecovered with ⟨rfl, -⟩ | ⟨hnot, -⟩
      · exact ⟨id, row', hrow', hkey, hsucceeded⟩
      · exact absurd hsucceeded hnot
  · obtain ⟨row', hrow', hkey', hstep⟩ := heffect.nodeStep hs ha hrow
    refine ⟨id, row', hrow', hkey'.trans hkey, ?_⟩
    rw [hsucceeded] at hstep
    rcases hstep with hsame | ⟨-, hblocked, -⟩ | ⟨hready, -⟩ | ⟨hcancellable, -⟩ | hwrite
    · exact hsame
    · cases hblocked
    · cases hready
    · cases hcancellable
    · refine (heffect.written_state hwrite).resolve_left fun hfailed => ?_
      rw [hfailed] at hwrite
      exact hopen id row hrow hkey hsucceeded hwrite

/-! ## Workers -/

end Coordinator

/-- What a worker knows is still there: the execution of its plan, and the row of its node. -/
def Worker.Knows (plans : AcceptedPlans) (t : Tables) : Worker → Prop
  | .checking call => plans.plan call.plan.planId = some call.plan
  | .gating call _ id node | .claiming call _ id node _ _ =>
    t.Runs plans call.executionId call.plan ∧
      ∃ row, t.nodeExecutions.get? id = some row ∧ row.key = (call.executionId, node.graphNodeId)
  | .dispatching call d | .awaiting call d =>
    t.Runs plans call.executionId call.plan ∧
      ∃ row, t.nodeExecutions.get? d.nodeExecutionId = some row ∧
        row.key = (call.executionId, d.graphNodeId)
  | .completing _ f _ _ => t.Runs plans f.node.executionId f.plan
  | _ => True

theorem Worker.Knows.keep {plans : AcceptedPlans} {t t' : Tables} (hkeep : t.Keeps t')
    {worker : Worker} (h : worker.Knows plans t) : worker.Knows plans t' := by
  have hrow : ∀ {id : String} {key : String × String},
      (∃ row, t.nodeExecutions.get? id = some row ∧ row.key = key) →
      ∃ row, t'.nodeExecutions.get? id = some row ∧ row.key = key := by
    rintro id key ⟨row, hrow, hkey⟩
    obtain ⟨row', hrow', hkey'⟩ := hkeep.nodes id row hrow
    exact ⟨row', hrow', hkey'.trans hkey⟩
  cases worker with
  | gating | claiming | dispatching | awaiting => exact ⟨h.1.keep hkeep, hrow h.2⟩
  | completing => exact Tables.Runs.keep hkeep h
  | _ => exact h

namespace Coordinator

variable {receiptCheck : ReceiptCheck} {s s' : Coordinator} {plans : AcceptedPlans}

variable {a : Action} {executionId : String} {w : ℕ}

theorem knows_of_isStopped {worker : Worker} (h : worker.isStopped = true) (t : Tables) :
    worker.Knows plans t := by
  cases worker with
  | failing | finished => trivial
  | _ => cases h

/-- **Knowledge.**  A unit of work that is given a known plan leaves the worker that does it with
something that is there. -/
theorem knows_step (hs : s.tables.Keyed) (hdescribes : s.tables.Describes plans)
    (hruns : ∀ id row, s.tables.nodeExecutions.get? id = some row →
      ∃ plan, s.tables.Runs plans row.executionId plan)
    (huses : a.Uses plans) (hknows : (s.workers w).Knows plans s.tables)
    (hw : a.worker = some w) (h : s.step receiptCheck a = some s') :
    (s'.workers w).Knows plans s'.tables := by
  have hkeep := step_keeps hs h
  cases step_move h with
  | commit ha =>
    rw [ha] at hw
    cases hw
  | recover => cases hw
  | stop ha hstops =>
    cases ha.symm.trans hw
    rw [workers_become]
    exact knows_of_isStopped hstops _
  | start =>
    cases hw
    rw [workers_become]
    exact huses
  | find hfound =>
    cases hw
    obtain ⟨hnode, hrow, hartifact⟩ := Tables.findCompletion_spec hfound
    obtain ⟨plan, row, hrow', hplan⟩ := hruns _ _ hnode
    obtain rfl := Option.some.inj (hrow.symm.trans hrow')
    rw [workers_become]
    refine ⟨_, hrow, ?_⟩
    rw [hdescribes _ _ _ hplan hartifact]
    exact hplan
  | check hworker hcheck =>
    cases hw
    rw [hworker] at hknows
    obtain ⟨rfl, hnode, hexecution, -, row, hrow, hid⟩ := Tables.checkExecution_ready hcheck
    rw [workers_become]
    refine ⟨⟨row, hrow, ?_⟩, _, hnode, ?_⟩
    · rw [hid]
      exact hknows
    · rw [NodeExecution.key, hexecution]
  | gate hworker | dispatch hworker =>
    cases hw
    rw [hworker] at hknows
    rw [workers_become]
    exact hknows
  | claim hworker hclaim =>
    cases hw
    rw [hworker] at hknows
    obtain ⟨row, leases, lease, -, -, -, rfl, -⟩ := Tables.claimNode_spec hclaim
    rw [workers_become]
    exact Worker.Knows.keep hkeep hknows
  | lose hworker | succeed hworker | complete hworker =>
    cases hw
    rw [hworker] at hknows
    rw [workers_become]
    first
      | exact hknows.1.plan_eq
      | exact hknows.plan_eq

/-- A worker that is about to call an engine was so before, or has just claimed a node. -/
theorem dispatching_step (h : s.step receiptCheck a = some s')
    {call : AdvanceCall} {d : Tables.Dispatch} (hw : s'.workers w = .dispatching call d) :
    s.workers w = .dispatching call d ∨ ∃ attemptId leaseId invocationId now expiresAt,
        a = .claim w attemptId leaseId invocationId now expiresAt := by
  by_cases hworker : a.worker = some w
  · cases step_move h with
    | claim =>
      cases hworker
      exact Or.inr ⟨_, _, _, _, _, rfl⟩
    | commit ha =>
      rw [ha] at hworker
      cases hworker
    | stop ha hstops =>
      cases ha.symm.trans hworker
      rw [workers_become] at hw
      rw [hw] at hstops
      cases hstops
    | recover => cases hworker
    | _ =>
      cases hworker
      rw [workers_become] at hw
      cases hw
  · rw [step_workers_of_ne h hworker] at hw
    exact Or.inl hw

theorem activates_runs (hknows : ∀ w, (s.workers w).Knows plans s.tables)
    {plan : ExecutionPlan} (h : s.activates a = some (executionId, plan)) :
    s.tables.Runs plans executionId plan := by
  cases a with
  | answer w answer =>
    rw [activates] at h
    split at h
    · rename_i call d hw
      cases h
      have hw' := hknows w
      rw [hw] at hw'
      exact hw'.1
    · cases h
  | reconcile w =>
    rw [activates] at h
    split at h
    · rename_i hw
      cases h
      have hw' := hknows w
      rw [hw] at hw'
      exact hw'
    · cases h
  | _ => cases h

/-! ## The record of calls -/

/-- The engine of a node has been called since the latest recovery of its execution. -/
def CalledSince (s : Coordinator) (executionId graphNodeId : String) : Prop :=
  .called executionId graphNodeId ∈ s.log.takeWhile fun event => event ≠ .recovered executionId

/-- Whether an engine has been called is found in the record. -/
instance (s : Coordinator) (executionId graphNodeId : String) :
    Decidable (s.CalledSince executionId graphNodeId) :=
  inferInstanceAs (Decidable (_ ∈ _))

/-- A call is on record afterwards, with those before it. -/
theorem calledSince_called {graphNodeId executionId' graphNodeId' : String}
    (hlog : s'.log = .called executionId' graphNodeId' :: s.log) :
    s'.CalledSince executionId graphNodeId ↔
      executionId = executionId' ∧ graphNodeId = graphNodeId' ∨
        s.CalledSince executionId graphNodeId := by
  rw [CalledSince, hlog, List.takeWhile_cons_of_pos (by simp), List.mem_cons, Event.called.injEq,
    CalledSince]

/-- A recovery begins a new record for its execution and leaves those of the others. -/
theorem calledSince_recovered {graphNodeId executionId' : String}
    (hlog : s'.log = .recovered executionId' :: s.log) :
    s'.CalledSince executionId graphNodeId ↔
      executionId ≠ executionId' ∧ s.CalledSince executionId graphNodeId := by
  rw [CalledSince, hlog]
  by_cases h : executionId = executionId'
  · rw [List.takeWhile_cons_of_neg (by simp [h])]
    exact iff_of_false List.not_mem_nil fun hnot => hnot.1 h
  · rw [List.takeWhile_cons_of_pos (by simpa using Ne.symm h), List.mem_cons,
      and_iff_right h, CalledSince]
    exact or_iff_right fun heq => by cases heq

theorem step_log (h : s.step receiptCheck a = some s') (hd : ∀ w, a ≠ .dispatch w)
    (hr : ∀ r, a ≠ .recover r) : s'.log = s.log := by
  cases step_move h with
  | dispatch => exact absurd rfl (hd _)
  | recover => exact absurd rfl (hr _)
  | _ => rfl

end Coordinator

/-! ## Orderly calls -/

/-- A node that waits for its claim. -/
def NodeExecutionState.isWaiting : NodeExecutionState → Bool
  | .blocked | .ready => true
  | _ => false

/-- The execution that a recovery recovers. -/
def Tables.recovers (t : Tables) (r : Tables.Recovery) : Option String :=
  match t.recoverPlanExecution r with
  | .ok (_, executionId) => executionId
  | .error _ => none

/-- The coordinator, and the workers whose execution was recovered after they claimed a node. -/
structure DispatchHistory where
  coordinator : Coordinator
  superseded : ℕ → Bool

namespace DispatchHistory

variable (receiptCheck : ReceiptCheck) (plans : AcceptedPlans) (h : DispatchHistory)

/-- A worker is about to call an engine for a node of an execution. -/
def dispatchesFor (executionId : String) : Worker → Bool
  | .dispatching call _ => call.executionId = executionId
  | _ => false

/-- The workers whose claims are superseded after a unit of work. -/
def supersededAfter : Action → ℕ → Bool
  | .claim w _ _ _ _ _ => Function.update h.superseded w false
  | .recover r => fun w => h.superseded w ||
      (h.coordinator.tables.recovers r).any fun executionId =>
        dispatchesFor executionId (h.coordinator.workers w)
  | _ => h.superseded

/-- One unit of work and its record. -/
def step (a : Action) : Option DispatchHistory :=
  (h.coordinator.step receiptCheck a).map fun s' => ⟨s', h.supersededAfter a⟩

/-- An engine is called for a node whose dependencies have succeeded and which has not been called since
the latest recovery of its execution. -/
def WellDispatched : Action → Prop
  | .dispatch w => ∀ call d, h.coordinator.workers w = .dispatching call d →
      (∀ node ∈ call.plan.nodes, node.nodeId = d.graphNodeId → ∀ dependency ∈ node.dependencies,
        h.coordinator.tables.stateOf call.executionId dependency = some .succeeded) ∧
      ¬ h.coordinator.CalledSince call.executionId d.graphNodeId
  | _ => True

/-- A node that is ready, or claimed since the latest recovery and not yet called, lists a dependency. -/
def Awaited (executionId dependency : String) : Prop :=
  (∃ id row, h.coordinator.tables.nodeExecutions.get? id = some row ∧
    row.executionId = executionId ∧ row.state = .ready ∧
    h.coordinator.tables.Lists plans executionId row.graphNodeId dependency) ∨
  ∃ w call d, h.coordinator.workers w = .dispatching call d ∧ h.superseded w = false ∧
    call.executionId = executionId ∧
    h.coordinator.tables.Lists plans executionId d.graphNodeId dependency

/-- A worker that calls an engine has claimed the node since the latest recovery, a recovery can read the
plan or need not, and no failure is written over the success of a node that another one counts on. -/
def Safe : Action → Prop
  | .dispatch w => h.superseded w = false
  | .recover r => ∀ executionId row,
      h.coordinator.tables.latestExecution r.migrationId = some (executionId, row) →
      (∃ plan, h.coordinator.tables.planArtifact row.planId = some (some plan)) ∨
        ∀ id node, h.coordinator.tables.nodeExecutions.get? id = some node →
          node.executionId = executionId → node.state ≠ .succeeded →
          h.coordinator.tables.Satisfied plans executionId node.graphNodeId
  | a => ∀ id row, .node id .failed ∈ h.coordinator.writes receiptCheck a →
      h.coordinator.tables.nodeExecutions.get? id = some row → row.state = .succeeded →
      ¬ h.Awaited plans row.executionId row.graphNodeId

/-- What holds of a row: a node that waits has not been called, and one that is ready has its
dependencies. -/
structure OrderedRow (s : Coordinator) (row : NodeExecution) : Prop where
  runs : ∃ plan, s.tables.Runs plans row.executionId plan
  uncalled : row.state.isWaiting = true → ¬ s.CalledSince row.executionId row.graphNodeId
  satisfied : row.state = .ready → s.tables.Satisfied plans row.executionId row.graphNodeId

/-- What holds of a claim that is not superseded. -/
structure OrderedClaim (s : Coordinator) (call : AdvanceCall) (d : Tables.Dispatch) : Prop where
  satisfied : s.tables.Satisfied plans call.executionId d.graphNodeId
  uncalled : ¬ s.CalledSince call.executionId d.graphNodeId
  claimed : ∀ row, s.tables.nodeExecutions.get? d.nodeExecutionId = some row →
    row.state.isWaiting = false

/-- What holds in the runs of orderly calls. -/
structure Ordered : Prop where
  keyed : h.coordinator.tables.Keyed
  describes : h.coordinator.tables.Describes plans
  knows : ∀ w, (h.coordinator.workers w).Knows plans h.coordinator.tables
  called : ∀ executionId graphNodeId, .called executionId graphNodeId ∈ h.coordinator.log →
    ∃ id row, h.coordinator.tables.nodeExecutions.get? id = some row ∧
      row.key = (executionId, graphNodeId)
  rows : ∀ id row, h.coordinator.tables.nodeExecutions.get? id = some row →
    OrderedRow plans h.coordinator row
  claims : ∀ w call d, h.coordinator.workers w = .dispatching call d → h.superseded w = false →
    OrderedClaim plans h.coordinator call d
  unique : ∀ v w call d call' d', h.coordinator.workers v = .dispatching call d →
    h.coordinator.workers w = .dispatching call' d' → h.superseded v = false →
    h.superseded w = false → d.nodeExecutionId = d'.nodeExecutionId → v = w

variable {receiptCheck plans} {h : DispatchHistory} {s' : Coordinator}

variable {a : Action} {d : Tables.Dispatch} {executionId : String} {row' : NodeExecution}
  {t : Tables} {w : ℕ}

theorem Ordered.wellDispatched (ho : h.Ordered plans)
    (hsafe : h.Safe receiptCheck plans a) : h.WellDispatched a := by
  cases a with
  | dispatch w =>
    intro call d hw
    have hclaim := ho.claims w call d hw hsafe
    have hknows := ho.knows w
    rw [hw] at hknows
    refine ⟨fun node hnode hid dependency hdep => ?_, hclaim.uncalled⟩
    exact hclaim.satisfied dependency ⟨call.plan, hknows.1, node, hnode, hid, hdep⟩
  | _ => trivial

/-- What a failure is not written over. -/
theorem Safe.open_of_awaited (hsafe : h.Safe receiptCheck plans a) {id : String}
    {row : NodeExecution} (hrow : h.coordinator.tables.nodeExecutions.get? id = some row)
    (hstate : row.state = .succeeded) (hawaited : h.Awaited plans row.executionId row.graphNodeId) :
    .node id .failed ∉ h.coordinator.writes receiptCheck a := by
  intro hwrite
  cases a with
  | dispatch => cases hwrite
  | recover => cases hwrite
  | _ => exact hsafe id row hwrite hrow hstate hawaited

/-- A node keeps its dependencies while it is ready, or claimed and not yet called. -/
theorem Ordered.satisfied_step (ho : h.Ordered plans)
    (hsafe : h.Safe receiptCheck plans a) (hstep : h.coordinator.step receiptCheck a = some s')
    {graphNodeId : String} {plan : ExecutionPlan}
    (hplan : h.coordinator.tables.Runs plans executionId plan)
    (hsatisfied : h.coordinator.tables.Satisfied plans executionId graphNodeId)
    (hawaited : ∀ dependency, h.coordinator.tables.Lists plans executionId graphNodeId dependency →
        h.Awaited plans executionId dependency) :
    s'.tables.Satisfied plans executionId graphNodeId := by
  refine hsatisfied.keep (Coordinator.step_keeps ho.keyed hstep) hplan
    fun dependency hlists hstate => ?_
  refine Coordinator.stateOf_succeeded_step ho.keyed hstep hstate fun id row hrow hkey hsucceeded => ?_
  obtain ⟨rfl, rfl⟩ := Prod.mk.inj hkey
  exact hsafe.open_of_awaited hrow hsucceeded (hawaited _ hlists)

/-- So a node that is ready keeps its dependencies. -/
theorem Ordered.satisfied_of_ready (ho : h.Ordered plans)
    (hsafe : h.Safe receiptCheck plans a) (hstep : h.coordinator.step receiptCheck a = some s')
    {id : String} {row : NodeExecution}
    (hrow : h.coordinator.tables.nodeExecutions.get? id = some row) (hready : row.state = .ready) :
    s'.tables.Satisfied plans row.executionId row.graphNodeId := by
  obtain ⟨plan, hplan⟩ := (ho.rows id row hrow).runs
  exact ho.satisfied_step hsafe hstep hplan ((ho.rows id row hrow).satisfied hready)
    fun dependency hlists => Or.inl ⟨id, row, hrow, rfl, hready, hlists⟩

/-! ## Rows -/

/-- A node waits only if it waited before. -/
theorem isWaiting_of_nodeStep {s : Coordinator} {ws : List Write}
    (heffect : s.Effect a ws t) {id : String} {row : NodeExecution}
    (hstep : s.NodeStep a ws id row row') (hwaiting : row'.state.isWaiting = true) :
    row.state.isWaiting = true := by
  rcases hstep.2 with hsame | ⟨-, hblocked, -⟩ | ⟨hready, -⟩ | ⟨-, hcancelled⟩ | hwrite
  · rwa [hsame] at hwaiting
  · rw [hblocked]
    rfl
  · rw [hready]
    rfl
  · rw [hcancelled] at hwaiting
    cases hwaiting
  · rcases heffect.written_state hwrite with hstate | hstate <;> rw [hstate] at hwaiting <;>
      cases hwaiting

/-- Rows stay ordered under a unit of work that calls no engine and recovers nothing. -/
theorem Ordered.rows_step (ho : h.Ordered plans) (huses : a.Uses plans)
    (hsafe : h.Safe receiptCheck plans a) (hstep : h.coordinator.step receiptCheck a = some s')
    (hd : ∀ w, a ≠ .dispatch w) (hr : ∀ r, a ≠ .recover r) {id : String}
    (hrow' : s'.tables.nodeExecutions.get? id = some row') : OrderedRow plans s' row' := by
  have hkeep := Coordinator.step_keeps ho.keyed hstep
  have heffect := Coordinator.step_effect ho.keyed hstep
  have hcalled : ∀ executionId graphNodeId, s'.CalledSince executionId graphNodeId →
      h.coordinator.CalledSince executionId graphNodeId := by
    intro executionId graphNodeId hsince
    rwa [Coordinator.CalledSince, Coordinator.step_log hstep hd hr] at hsince
  have hold : ∀ id row, h.coordinator.tables.nodeExecutions.get? id = some row →
      OrderedRow plans s' row := by
    intro id row hrow
    obtain ⟨⟨plan, hplan⟩, huncalled, -⟩ := ho.rows id row hrow
    exact ⟨⟨plan, hplan.keep hkeep⟩, fun hwaiting hsince => huncalled hwaiting (hcalled _ _ hsince),
      ho.satisfied_of_ready hsafe hstep hrow⟩
  rcases heffect.updates with hupdates | ⟨m, executionId, rfl, hm⟩ | ⟨r, -, rfl, -⟩
  · obtain ⟨row, hrow, hnode⟩ := hupdates.get_back hrow'
    obtain ⟨hexecution, hgraph⟩ := Prod.mk.inj hnode.1
    obtain ⟨⟨plan, hplan⟩, huncalled, -⟩ := ho.rows id row hrow
    refine ⟨⟨plan, ?_⟩, fun hwaiting hsince => ?_, fun hready => ?_⟩
    · rw [hexecution]
      exact hplan.keep hkeep
    · rw [hexecution, hgraph] at hsince
      exact huncalled (isWaiting_of_nodeStep heffect hnode hwaiting) (hcalled _ _ hsince)
    · rw [hexecution, hgraph]
      rcases hnode.2 with hsame | ⟨⟨plan', hactivates, node, hmem, hid, hnone⟩, -⟩ | ⟨-, hdispatched⟩ |
        ⟨-, hcancelled⟩ | hwrite
      · exact ho.satisfied_of_ready hsafe hstep hrow (hsame ▸ hready)
      · rw [← hid]
        exact ((Coordinator.activates_runs ho.knows hactivates).keep hkeep).satisfied_of_nil hmem hnone
      · rw [hready] at hdispatched
        cases hdispatched
      · rw [hready] at hcancelled
        cases hcancelled
      · rcases heffect.written_state hwrite with hstate | hstate <;> rw [hready] at hstate <;>
          cases hstate
  · rcases Tables.materializePlanExecution_spec hm with
      ⟨found, -, -, hsame | hsame⟩ | ⟨-, -, hinsert⟩
    · rw [hsame] at hrow'
      exact hold id row' hrow'
    · rw [hsame] at hrow'
      exact hold id row' hrow'
    · obtain ⟨-, hplans, -, -, -, hfrom⟩ := Tables.insertNodes_spec hinsert ho.keyed
      rcases hfrom id row' hrow' with hin | ⟨⟨node, hnode, rfl⟩, hfresh⟩
      · exact hold id row' hin
      · rw [List.zipIdx_map_fst] at hnode
        have hplan : s'.tables.Runs plans m.executionId m.plan := by
          refine ⟨m.row, ?_, huses⟩
          rw [hplans]
          exact PyDict.get?_set _ _ _
        refine ⟨⟨m.plan, hplan⟩, fun _ hsince => ?_, fun hready => ?_⟩
        · have hlog := (List.takeWhile_sublist _).subset (hcalled _ _ hsince)
          obtain ⟨other, found, hfound, hkey⟩ := ho.called _ _ hlog
          exact hfresh other found hfound hkey
        · refine hplan.satisfied_of_nil hnode ?_
          rw [Tables.initialRow] at hready
          simp only at hready
          split_ifs at hready with hnone
          exact List.length_eq_zero_iff.mp hnone
  · exact absurd rfl (hr r)

/-- What the artifact of an accepted plan lists for a node. -/
theorem artifactDependencies_of_mem {row : PlanExecution}
    {dependencies : String → List String} (ht : t.Describes plans)
    (h : t.artifactDependencies row = .ok dependencies) {plan described : ExecutionPlan}
    (hplan : plans.plan row.planId = some plan)
    (hartifact : t.planArtifact row.planId = some (some described)) {node : GraphNode}
    (hnode : node ∈ plan.nodes) : dependencies node.nodeId = node.dependencies := by
  obtain rfl := ht _ _ _ hplan hartifact
  rw [Tables.artifactDependencies, hartifact] at h
  simp only at h
  split_ifs at h
  obtain rfl := Except.ok.inj h
  simp only
  cases hfind : described.nodes.reverse.find? (fun other => other.nodeId = node.nodeId) with
  | none =>
    have hnot := List.find?_eq_none.mp hfind node (List.mem_reverse.mpr hnode)
    exact absurd (decide_eq_true rfl) hnot
  | some other =>
    have hid := List.find?_some hfind
    have hother := List.mem_reverse.mp (List.mem_of_find?_eq_some hfind)
    rw [plans.eq_of_nodeId hplan hother hnode (of_decide_eq_true hid)]
    rfl

/-- Rows stay ordered under a recovery. -/
theorem Ordered.rows_recover (ho : h.Ordered plans) {r : Tables.Recovery}
    (hsafe : h.Safe receiptCheck plans (.recover r))
    (hrecover : h.coordinator.tables.recoverPlanExecution r = .ok (t, some executionId))
    (hstep : h.coordinator.step receiptCheck (.recover r) =
      some ((h.coordinator.commit t).record (.recovered executionId)))
    {id : String} (hrow' : t.nodeExecutions.get? id = some row') :
    OrderedRow plans ((h.coordinator.commit t).record (.recovered executionId)) row' := by
  have hkeep := Coordinator.step_keeps ho.keyed hstep
  have hcalled : ∀ found graphNodeId,
      ((h.coordinator.commit t).record (.recovered executionId)).CalledSince found graphNodeId ↔
        found ≠ executionId ∧ h.coordinator.CalledSince found graphNodeId := fun found graphNodeId =>
    Coordinator.calledSince_recovered (s := h.coordinator) rfl
  obtain ⟨planRow, dependencies, hlatest, hdependencies, -, -, -, hnodes⟩ :=
    Tables.recoverPlanExecution_spec ho.keyed hrecover
  obtain ⟨row, hrow, hrecovered⟩ := hnodes.get_back hrow'
  have hordered := ho.rows id row hrow
  obtain ⟨plan, hplan⟩ := hordered.runs
  rcases hrecovered with ⟨rfl, -⟩ | ⟨hopen, hexecution, ready, chosen, rfl, hready⟩
  · exact ⟨⟨plan, hplan.keep hkeep⟩,
      fun hwaiting hsince => hordered.uncalled hwaiting ((hcalled _ _).mp hsince).2,
      ho.satisfied_of_ready hsafe hstep hrow⟩
  · refine ⟨⟨plan, hplan.keep hkeep⟩, fun _ hsince => ((hcalled _ _).mp hsince).1 hexecution,
      fun hstate => ?_⟩
    have hsatisfied : h.coordinator.tables.Satisfied plans executionId row.graphNodeId := by
      rcases hsafe executionId planRow hlatest with ⟨artifact, hartifact⟩ | hall
      · have hdeps : ∀ dep ∈ dependencies row.graphNodeId,
            h.coordinator.tables.stateOf executionId dep = some .succeeded := by
          refine hready.mp ?_
          cases ready with
          | true => rfl
          | false => cases hstate
        rintro dependency ⟨plan', hplan', node, hnode, hid, hdep⟩
        obtain ⟨planRow', hrow', hknown⟩ := hplan'
        rw [Tables.get?_of_latestExecution hlatest, Option.some.injEq] at hrow'
        subst hrow'
        refine hdeps dependency ?_
        rw [← hid, artifactDependencies_of_mem ho.describes hdependencies hknown hartifact hnode]
        exact hdep
      · exact hall id row hrow hexecution hopen
    show t.Satisfied plans row.executionId row.graphNodeId
    rw [hexecution] at hplan ⊢
    refine hsatisfied.keep hkeep hplan fun dependency _ hdep => ?_
    exact Coordinator.stateOf_succeeded_step ho.keyed hstep hdep fun _ _ _ _ _ => List.not_mem_nil

/-! ## Claims -/

/-- A claim that is not superseded afterwards was not before, unless it is new. -/
theorem superseded_of_superseded_step
    (hstep : h.coordinator.step receiptCheck a = some s') {call : AdvanceCall}
    (hw : h.coordinator.workers w = .dispatching call d)
    (hlive : h.supersededAfter a w = false) : h.superseded w = false := by
  cases a with
  | claim v attemptId leaseId invocationId now expiresAt =>
    by_cases hv : w = v
    · rw [Coordinator.step, ← hv, hw] at hstep
      cases hstep
    · rwa [supersededAfter, Function.update_of_ne hv] at hlive
  | recover r => exact (Bool.or_eq_false_iff.mp hlive).1
  | _ => exact hlive

/-- The node that a worker has just claimed was ready. -/
theorem Ordered.row_of_claim (ho : h.Ordered plans)
    {attemptId leaseId invocationId now expiresAt : String}
    (hstep : h.coordinator.step receiptCheck
      (.claim w attemptId leaseId invocationId now expiresAt) = some s')
    {call : AdvanceCall} (hw : s'.workers w = .dispatching call d) :
    ∃ row, h.coordinator.tables.nodeExecutions.get? d.nodeExecutionId = some row ∧
      row.state = .ready ∧ row.key = (call.executionId, d.graphNodeId) ∧
      s'.tables.nodeExecutions.get? d.nodeExecutionId = some (d.claimed row) := by
  cases Coordinator.step_move hstep with
  | commit ha => cases ha
  | lose =>
    rw [Coordinator.workers_become] at hw
    cases hw
  | stop ha hstops =>
    cases ha
    rw [Coordinator.workers_become] at hw
    rw [hw] at hstops
    cases hstops
  | claim hclaiming hclaim =>
    rw [Coordinator.workers_become] at hw
    cases hw
    have hknows := ho.knows w
    rw [hclaiming] at hknows
    obtain ⟨row, leases, lease, hrow, hready, -, rfl, rfl⟩ := Tables.claimNode_spec hclaim
    obtain ⟨-, found, hfound, hkey⟩ := hknows
    cases hrow.symm.trans hfound
    refine ⟨row, hrow, hready, hkey, ?_⟩
    show (h.coordinator.tables.nodeExecutions.updateRow _ _).get? _ = _
    rw [PyDict.get?_updateRow, hrow]
    exact if_pos rfl

/-- A claim stays ordered while it is not superseded. -/
theorem Ordered.claim_keep (ho : h.Ordered plans)
    (hsafe : h.Safe receiptCheck plans a) (hstep : h.coordinator.step receiptCheck a = some s')
    {call : AdvanceCall}
    (hw : h.coordinator.workers w = .dispatching call d) (hw' : s'.workers w = .dispatching call d)
    (hlive : h.supersededAfter a w = false) : OrderedClaim plans s' call d := by
  have hlive' := superseded_of_superseded_step hstep hw hlive
  obtain ⟨hsatisfied, huncalled, hclaimed⟩ := ho.claims w call d hw hlive'
  have hknows := ho.knows w
  rw [hw] at hknows
  obtain ⟨hplan, row, hrow, hkey⟩ := hknows
  have heffect := Coordinator.step_effect ho.keyed hstep
  refine ⟨?_, fun hsince => ?_, fun row' hrow' => ?_⟩
  · exact ho.satisfied_step hsafe hstep hplan hsatisfied
      fun dependency hlists => Or.inr ⟨w, call, d, hw, hlive', rfl, hlists⟩
  · rcases a.dispatch_or_recover_or with ⟨v, rfl⟩ | ⟨r, rfl⟩ | ⟨hdispatch, hrecover⟩
    · rw [Coordinator.step] at hstep
      split at hstep
      · rename_i call' d' hv
        cases hstep
        rcases (Coordinator.calledSince_called (s := h.coordinator) rfl).mp hsince with
          ⟨hexecution, hgraph⟩ | hbefore
        · -- the node that is called is the one of the claim, so the workers are the same
          have hknows' := ho.knows v
          rw [hv] at hknows'
          obtain ⟨-, row', hrow', hkey'⟩ := hknows'
          have hid := ho.keyed _ _ _ _ hrow hrow' (by rw [hkey, hkey', hexecution, hgraph])
          obtain rfl := ho.unique w v call d call' d' hw hv hlive' hsafe hid
          have hawaiting : (h.coordinator.become w (.awaiting call' d')).workers w =
              .dispatching call d := hw'
          rw [Coordinator.workers_become] at hawaiting
          cases hawaiting
        · exact huncalled hbefore
      · cases hstep
    · rcases Coordinator.step_recover hstep with rfl | ⟨t, found, hrecover, rfl⟩
      · exact huncalled hsince
      · exact huncalled
          ((Coordinator.calledSince_recovered (s := h.coordinator) rfl).mp hsince).2
    · rw [Coordinator.CalledSince, Coordinator.step_log hstep hdispatch hrecover] at hsince
      exact huncalled hsince
  · rcases a.recover_or with ⟨r, rfl⟩ | hother
    · rcases Coordinator.step_recover hstep with rfl | ⟨t, found, hrecover, rfl⟩
      · exact hclaimed row' hrow'
      · obtain ⟨_, _, -, -, -, -, -, hnodes⟩ :=
          Tables.recoverPlanExecution_spec ho.keyed hrecover
        obtain ⟨row'', hrow'', hrecovered⟩ := hnodes.get hrow
        obtain rfl := Option.some.inj (hrow''.symm.trans hrow')
        rcases hrecovered with ⟨rfl, -⟩ | ⟨-, hexecution, -⟩
        · exact hclaimed row'' hrow
        · -- the recovery of the execution supersedes the claim
          have hother := (Bool.or_eq_false_iff.mp hlive).2
          have hfor : call.executionId = found := (congrArg Prod.fst hkey).symm.trans hexecution
          rw [Tables.recovers, hrecover, hw] at hother
          simp [dispatchesFor, hfor] at hother
    · obtain ⟨row'', hrow'', hnode⟩ := heffect.nodeStep ho.keyed hother hrow
      obtain rfl := Option.some.inj (hrow''.symm.trans hrow')
      refine Bool.eq_false_iff.mpr fun hwaiting => ?_
      have hbefore := isWaiting_of_nodeStep heffect hnode hwaiting
      rw [hclaimed row hrow] at hbefore
      cases hbefore

/-- A claim that is made is ordered. -/
theorem Ordered.claim_step (ho : h.Ordered plans)
    {attemptId leaseId invocationId now expiresAt : String}
    (hsafe : h.Safe receiptCheck plans (.claim w attemptId leaseId invocationId now expiresAt))
    (hstep : h.coordinator.step receiptCheck
      (.claim w attemptId leaseId invocationId now expiresAt) = some s')
    {call : AdvanceCall} (hw : s'.workers w = .dispatching call d) :
    OrderedClaim plans s' call d := by
  obtain ⟨row, hrow, hready, hkey, hclaimed⟩ := ho.row_of_claim hstep hw
  obtain ⟨hexecution, hgraph⟩ := Prod.mk.inj hkey
  have hordered := ho.rows _ row hrow
  refine ⟨?_, fun hsince => ?_, fun row' hrow' => ?_⟩
  · rw [← hexecution, ← hgraph]
    exact ho.satisfied_of_ready hsafe hstep hrow hready
  · rw [Coordinator.CalledSince, Coordinator.step_log hstep (fun _ hd => by cases hd)
      fun _ hr => by cases hr] at hsince
    refine hordered.uncalled (by rw [hready]; rfl) ?_
    rw [hexecution, hgraph]
    exact hsince
  · rw [hclaimed, Option.some.injEq] at hrow'
    rw [← hrow']
    rfl

/-- Two claims that are not superseded are of different nodes. -/
theorem Ordered.unique_step (ho : h.Ordered plans)
    (hstep : h.coordinator.step receiptCheck a = some s') {v : ℕ} {call call' : AdvanceCall}
    {d' : Tables.Dispatch} (hv : s'.workers v = .dispatching call d)
    (hw : s'.workers w = .dispatching call' d') (hv' : h.supersededAfter a v = false)
    (hw' : h.supersededAfter a w = false) (hid : d.nodeExecutionId = d'.nodeExecutionId) : v = w := by
  -- a node that has just been claimed was ready, so no other claim of it was there
  have hnew : ∀ {v w : ℕ} {call call' : AdvanceCall} {d d' : Tables.Dispatch}
      {attemptId leaseId invocationId now expiresAt : String},
      h.coordinator.step receiptCheck (.claim v attemptId leaseId invocationId now expiresAt) =
        some s' → s'.workers v = .dispatching call d →
      h.coordinator.workers w = .dispatching call' d' → h.superseded w = false →
      d.nodeExecutionId ≠ d'.nodeExecutionId := by
    intro v w call call' d d' _ _ _ _ _ hstep hv hw hlive hid
    obtain ⟨row, hrow, hready, -⟩ := ho.row_of_claim hstep hv
    rw [hid] at hrow
    have hclaimed := (ho.claims w call' d' hw hlive).claimed row hrow
    rw [hready] at hclaimed
    cases hclaimed
  rcases Coordinator.dispatching_step hstep hv with hbefore | ⟨_, _, _, _, _, rfl⟩
  · have hlive := superseded_of_superseded_step hstep hbefore hv'
    rcases Coordinator.dispatching_step hstep hw with hbefore' | ⟨_, _, _, _, _, rfl⟩
    · exact ho.unique v w call d call' d' hbefore hbefore' hlive
        (superseded_of_superseded_step hstep hbefore' hw') hid
    · exact absurd hid.symm (hnew hstep hw hbefore hlive)
  · rcases Coordinator.dispatching_step hstep hw with hbefore' | ⟨_, _, _, _, _, heq⟩
    · exact absurd hid
        (hnew hstep hv hbefore' (superseded_of_superseded_step hstep hbefore' hw'))
    · exact (Action.claim.inj heq).1

/-! ## Runs -/

/-- Rows stay ordered. -/
theorem Ordered.rows_of_step (ho : h.Ordered plans) (huses : a.Uses plans)
    (hsafe : h.Safe receiptCheck plans a) (hstep : h.coordinator.step receiptCheck a = some s')
    {id : String} (hrow' : s'.tables.nodeExecutions.get? id = some row') :
    OrderedRow plans s' row' := by
  rcases a.dispatch_or_recover_or with ⟨w, rfl⟩ | ⟨r, rfl⟩ | ⟨hdispatch, hother⟩
  · rw [Coordinator.step] at hstep
    split at hstep
    · rename_i call d hw
      cases hstep
      obtain ⟨hplan, huncalled, hsatisfied⟩ := ho.rows id row' hrow'
      refine ⟨hplan, fun hwaiting hsince => ?_, hsatisfied⟩
      rcases (Coordinator.calledSince_called (s := h.coordinator) rfl).mp hsince with
        ⟨hexecution, hgraph⟩ | hbefore
      · have hknows := ho.knows w
        rw [hw] at hknows
        obtain ⟨-, row, hrow, hkey⟩ := hknows
        have hid := ho.keyed _ _ _ _ hrow' hrow (by rw [hkey, NodeExecution.key, hexecution, hgraph])
        rw [hid] at hrow'
        rw [(ho.claims w call d hw hsafe).claimed row' hrow'] at hwaiting
        cases hwaiting
      · exact huncalled hwaiting hbefore
    · cases hstep
  · rcases Coordinator.step_recover hstep with rfl | ⟨t, found, hrecover, rfl⟩
    · exact ho.rows id row' hrow'
    · exact ho.rows_recover hsafe hrecover hstep hrow'
  · exact ho.rows_step huses hsafe hstep hdispatch hother hrow'

/-- A call that is on record is of a node that has a row. -/
theorem Ordered.called_step (ho : h.Ordered plans)
    (hstep : h.coordinator.step receiptCheck a = some s') {graphNodeId : String}
    (hmem : .called executionId graphNodeId ∈ s'.log) :
    ∃ id row, s'.tables.nodeExecutions.get? id = some row ∧ row.key = (executionId, graphNodeId) := by
  have hkeep := Coordinator.step_keeps ho.keyed hstep
  have hrow : ∀ {id : String} {row : NodeExecution},
      h.coordinator.tables.nodeExecutions.get? id = some row → row.key = (executionId, graphNodeId) →
      ∃ id row, s'.tables.nodeExecutions.get? id = some row ∧
        row.key = (executionId, graphNodeId) := by
    intro id row hrow hkey
    obtain ⟨row', hrow', hkey'⟩ := hkeep.nodes id row hrow
    exact ⟨id, row', hrow', hkey'.trans hkey⟩
  by_cases hbefore : .called executionId graphNodeId ∈ h.coordinator.log
  · obtain ⟨id, row, hget, hkey⟩ := ho.called _ _ hbefore
    exact hrow hget hkey
  · rcases a.dispatch_or_recover_or with ⟨w, rfl⟩ | ⟨r, rfl⟩ | ⟨hdispatch, hrecover⟩
    · cases Coordinator.step_move hstep with
      | commit | stop => exact absurd hmem hbefore
      | dispatch hw =>
        obtain ⟨rfl, rfl⟩ := Event.called.inj ((List.mem_cons.mp hmem).resolve_right hbefore)
        have hknows := ho.knows w
        rw [hw] at hknows
        obtain ⟨-, row, hget, hkey⟩ := hknows
        exact hrow hget hkey
    · rcases Coordinator.step_recover hstep with rfl | ⟨t, found, -, rfl⟩
      · exact absurd hmem hbefore
      · cases (List.mem_cons.mp hmem).resolve_right hbefore
    · rw [Coordinator.step_log hstep hdispatch hrecover] at hmem
      exact absurd hmem hbefore

/-- **Order.**  A safe unit of work keeps rows, claims and the record in order. -/
theorem Ordered.step (ho : h.Ordered plans) (huses : a.Uses plans)
    (hsafe : h.Safe receiptCheck plans a) {h' : DispatchHistory}
    (hstep : h.step receiptCheck a = some h') : h'.Ordered plans := by
  obtain ⟨s', hs', rfl⟩ := Option.map_eq_some_iff.mp hstep
  have hkeep := Coordinator.step_keeps ho.keyed hs'
  exact
    { keyed := (Coordinator.step_effect ho.keyed hs').keyed ho.keyed
      describes := by
        intro id plan described hplan hartifact
        rw [Tables.planArtifact, hkeep.artifacts] at hartifact
        exact ho.describes id plan described hplan hartifact
      knows := by
        intro w
        by_cases hw : a.worker = some w
        · exact Coordinator.knows_step ho.keyed ho.describes (fun id row hrow => (ho.rows id row hrow).runs)
            huses (ho.knows w) hw hs'
        · show (s'.workers w).Knows plans s'.tables
          rw [Coordinator.step_workers_of_ne hs' hw]
          exact (ho.knows w).keep hkeep
      called := fun _ _ hmem => ho.called_step hs' hmem
      rows := fun _ _ hrow => ho.rows_of_step huses hsafe hs' hrow
      claims := by
        intro w call d hw hlive
        rcases Coordinator.dispatching_step hs' hw with hbefore | ⟨_, _, _, _, _, rfl⟩
        · exact ho.claim_keep hsafe hs' hbefore hw hlive
        · exact ho.claim_step hsafe hs' hw
      unique := fun _ _ _ _ _ _ hv hw hv' hw' hid => ho.unique_step hs' hv hw hv' hw' hid }

/-- The record before any call. -/
def start (leases : LeaseTable) (artifacts : PyDict (Option ExecutionPlan)) : DispatchHistory :=
  ⟨Coordinator.start leases artifacts, fun _ => false⟩

/-- Everything is in order before any call. -/
theorem ordered_start (plans : AcceptedPlans) (leases : LeaseTable)
    (artifacts : PyDict (Option ExecutionPlan))
    (hdescribes : (Coordinator.start leases artifacts).tables.Describes plans) :
    (start leases artifacts).Ordered plans where
  keyed := Coordinator.keyed_start leases artifacts
  describes := hdescribes
  knows := fun _ => trivial
  called := fun _ _ hmem => absurd hmem List.not_mem_nil
  rows := fun _ _ hrow => by cases hrow
  claims := fun _ _ _ hw => by cases hw
  unique := fun _ _ _ _ _ _ hv => by cases hv

/-- **Dispatches.**  Along every interleaving of units of work of executions of accepted plans, engines
are called for nodes whose dependencies have succeeded, and for a node once between two recoveries, when
workers call before their claims are superseded, recoveries can read the plan or need not, and no failure
is written over the success of a node that another one counts on. -/
theorem dispatched_along (receiptCheck : ReceiptCheck) (plans : AcceptedPlans) (leases : LeaseTable)
    (artifacts : PyDict (Option ExecutionPlan)) (actions : List Action)
    (hdescribes : (Coordinator.start leases artifacts).tables.Describes plans)
    (huses : ∀ a ∈ actions, a.Uses plans)
    (hsafe : MeetsAlong (step receiptCheck) (Safe receiptCheck plans) (start leases artifacts)
      actions) :
    MeetsAlong (step receiptCheck) WellDispatched (start leases artifacts) actions := by
  refine meetsAlong_of_meetsAlong (I := Ordered plans) ?_ (ordered_start plans _ _ hdescribes)
    ((meetsAlong_of_forall _ huses).and hsafe)
  intro h a h' ho hcond hstep
  exact ⟨ho.wellDispatched hcond.2, ho.step hcond.1 hcond.2 hstep⟩

/-- The plan with one node alone. -/
def singlePlans : AcceptedPlans where
  plan := fun id => if id = "plan-m" then some Coordinator.singlePlan else none
  planId_eq := by
    intro id found h
    split_ifs at h with hid
    rw [← Option.some.inj h, hid]
    rfl
  accepted := by
    intro id found h
    split_ifs at h
    rw [← Option.some.inj h]
    rfl

/-- The only node of an execution is called, recovered and called again. -/
theorem dispatched_single : MeetsAlong (step ⟨fun _ _ => false, fun _ => "", none⟩) WellDispatched
      (start PyDict.empty (PyDict.empty.set "art-plan-m" (some Coordinator.singlePlan)))
      (RecoveryHistory.recoverSingle ++ Coordinator.claimSingle 1 "att-3" "lease-3" "inv-2" ++
        [.dispatch 1]) := by
  refine dispatched_along _ singlePlans _ _ _ ?_ ?_ ?_
  · intro id plan described hplan hartifact
    obtain ⟨item, hitem, hdescribed⟩ := Option.map_eq_some_iff.mp hartifact
    obtain rfl := List.mem_singleton.mp (List.mem_of_find?_eq_some hitem)
    rw [singlePlans] at hplan
    simp only at hplan
    split_ifs at hplan
    exact (Option.some.inj hdescribed).symm.trans (Option.some.inj hplan)
  · simp only [RecoveryHistory.recoverSingle, Coordinator.claimSingle, List.cons_append,
      List.nil_append, List.forall_mem_cons, List.not_mem_nil]
    exact ⟨rfl, rfl, trivial, trivial, trivial, trivial, trivial, trivial, rfl, trivial, trivial,
      trivial, trivial, fun _ hnot => hnot.elim⟩
  · -- nothing is written as failed, and the recovery finds the artifact
    have hplan : ∀ {executionId id : String} {status : PlanExecutionStatus},
        .node id .failed ∉ [Write.plan executionId status] := fun hmem => by
      cases List.mem_singleton.mp hmem
    refine .cons rfl (fun _ _ hmem => absurd hmem List.not_mem_nil) ?_
    refine .cons rfl (fun _ _ hmem => absurd hmem List.not_mem_nil) ?_
    refine .cons rfl (fun _ _ hmem => absurd hmem List.not_mem_nil) ?_
    refine .cons rfl (fun _ _ hmem => absurd hmem List.not_mem_nil) ?_
    refine .cons rfl (fun _ _ hmem => absurd hmem hplan) ?_
    refine .cons rfl rfl ?_
    refine .cons rfl (fun _ _ hmem => absurd hmem List.not_mem_nil) ?_
    refine .cons rfl (fun executionId row hlatest => Or.inl ⟨Coordinator.singlePlan, ?_⟩) ?_
    · obtain ⟨-, rfl⟩ := Prod.mk.inj (Option.some.inj hlatest)
      rfl
    refine .cons rfl (fun _ _ hmem => absurd hmem List.not_mem_nil) ?_
    refine .cons rfl (fun _ _ hmem => absurd hmem List.not_mem_nil) ?_
    refine .cons rfl (fun _ _ hmem => absurd hmem List.not_mem_nil) ?_
    refine .cons rfl (fun _ _ hmem => absurd hmem hplan) ?_
    exact .cons rfl rfl trivial

/-- A plan with two nodes, the second of which depends on the first. -/
def pairPlan : ExecutionPlan where
  planId := "plan-m"
  migrationId := "m"
  mode := .m1Bulk
  nodes :=
    [⟨"a", ⟨"schema_create", .reversible⟩, []⟩, ⟨"b", ⟨"schema_create", .reversible⟩, ["a"]⟩]
  edges := [⟨"a", "b"⟩]
  fingerprint := "fp"

/-- A worker claims a node of that plan. -/
def claimPair (w : ℕ) (attemptId leaseId invocationId : String) : List Action :=
  [.advance w ⟨"pe-1", pairPlan, "op-1", "actor"⟩, .check w,
    .gate w { evaluation := ⟨true, true, some ⟨"binding", true⟩⟩ } "2024-01-01T00:00:00",
    .claim w attemptId leaseId invocationId "2024-01-01T00:00:00" "2024-01-01T00:05:00"]

/-- A node that was claimed before a recovery and again after it is called by both workers; and after a
recovery that finds no artifact of the plan a node is called while the one that it depends on runs. -/
theorem recovered_node_called_twice : validatePlan Coordinator.singlePlan = .ok () ∧
    ¬ MeetsAlong (step ⟨fun _ _ => false, fun _ => "", none⟩) WellDispatched
      (start PyDict.empty (PyDict.empty.set "art-plan-m" (some Coordinator.singlePlan)))
      (.materialize Coordinator.singleMaterialization ::
        Coordinator.claimSingle 0 "att-1" "lease-1" "inv-1" ++ [.recover { migrationId := "m" }] ++
        Coordinator.claimSingle 1 "att-2" "lease-2" "inv-2" ++ [.dispatch 1, .dispatch 0]) ∧
    validatePlan pairPlan = .ok () ∧
    ¬ MeetsAlong (step ⟨fun _ _ => false, fun _ => "", none⟩) WellDispatched
      (start PyDict.empty PyDict.empty)
      (.materialize
        { Coordinator.singleMaterialization with
          plan := pairPlan
          nodeExecutionId := fun k => if k = 0 then "ne-a" else "ne-b" } ::
        .recover { migrationId := "m" } :: claimPair 0 "att-1" "lease-1" "inv-1" ++
        claimPair 1 "att-2" "lease-2" "inv-2" ++ [.dispatch 1]) := by
  refine ⟨rfl, fun h => ?_, rfl, fun h => ?_⟩
  · have hlast := ((((((((((((h _ rfl).2 _ rfl).2 _ rfl).2 _ rfl).2 _ rfl).2 _ rfl).2 _ rfl).2 _
      rfl).2 _ rfl).2 _ rfl).2 _ rfl).2 _ rfl).1
    have hcalled := (hlast _ _ rfl).2
    revert hcalled
    decide
  · have hlast := (((((((((((h _ rfl).2 _ rfl).2 _ rfl).2 _ rfl).2 _ rfl).2 _ rfl).2 _ rfl).2 _
      rfl).2 _ rfl).2 _ rfl).2 _ rfl).1
    have hstate := (hlast _ _ rfl).1 _ (List.mem_cons_of_mem _ List.mem_cons_self) rfl "a"
      List.mem_cons_self
    revert hstate
    decide

end DispatchHistory

end PlanCoordination

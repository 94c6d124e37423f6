/-
# Terminal states of plan executions

Along the runs of workers, completions and cancellations, from empty tables: the states in which a node
and an execution have ended, and the units of work that leave them.

* `Effect.written_node`, `Effect.written_plan` : what a unit of work writes stands in the row afterwards;
* `absorbing_step_iff`, `absorbing_along_iff` : ended nodes and executions stay as they are, but for
  recoveries, precisely when no unit of work writes over one that ended otherwise.
-/
import Akaal.PlanExecutionRuns

open TransitionRun

namespace PlanCoordination

open PipelineLeases

/-! ## Ended nodes and executions -/

/-- A node that has succeeded or was cancelled has ended. -/
def NodeExecutionState.isFinal : NodeExecutionState → Bool
  | .succeeded | .cancelled => true
  | _ => false

theorem NodeExecutionState.isCancellable_of_isFinal {state : NodeExecutionState}
    (h : state.isFinal = true) : state.isCancellable = false := by
  cases state with
  | succeeded => rfl
  | cancelled => rfl
  | _ => cases h

/-- An execution that has succeeded or failed or was cancelled has ended. -/
def PlanExecutionStatus.isTerminal : PlanExecutionStatus → Bool
  | .succeeded | .failed | .cancelled => true
  | _ => false

namespace Tables

/-- The nodes and executions that have ended stay as they are. -/
def Absorbs (t t' : Tables) : Prop :=
  (∀ id row, t.nodeExecutions.get? id = some row → row.state.isFinal = true →
    ∃ row', t'.nodeExecutions.get? id = some row' ∧ row'.state = row.state) ∧
  ∀ id row, t.planExecutions.get? id = some row → row.status.isTerminal = true →
    ∃ row', t'.planExecutions.get? id = some row' ∧ row'.status = row.status

/-- What is written does not change a node or an execution that has ended. -/
def Open (t : Tables) : Write → Prop
  | .node id state => ∀ row, t.nodeExecutions.get? id = some row → row.state.isFinal = true →
      row.state = state
  | .plan id status => ∀ row, t.planExecutions.get? id = some row → row.status.isTerminal = true →
      row.status = status

end Tables

namespace Coordinator

/-- Empty tables but for leases and artifacts, and no calls. -/
def start (leases : LeaseTable) (artifacts : PyDict (Option ExecutionPlan)) : Coordinator where
  tables := ⟨PyDict.empty, PyDict.empty, leases, artifacts⟩
  workers := fun _ => .idle
  log := []

theorem keyed_start (leases : LeaseTable) (artifacts : PyDict (Option ExecutionPlan)) :
    (start leases artifacts).tables.Keyed := by
  intro id id' row row' hrow
  cases hrow

variable (receiptCheck : ReceiptCheck)

/-- A unit of work other than a recovery leaves what has ended as it is. -/
def Absorbing (s : Coordinator) (a : Action) : Prop :=
  (∀ r, a ≠ .recover r) → ∀ s', s.step receiptCheck a = some s' → s.tables.Absorbs s'.tables

/-- A unit of work writes over no node and no execution that ended otherwise. -/
def Unfinished (s : Coordinator) (a : Action) : Prop :=
  ∀ write ∈ s.writes receiptCheck a, s.tables.Open write

variable {receiptCheck} {s s' : Coordinator}

variable {a : Action} {t : Tables} {ws : List Write}

/-- What is written stands in the row of the node afterwards. -/
theorem Effect.written_node (h : s.Effect a ws t)
    {id : String} {state : NodeExecutionState} (hwrite : .node id state ∈ ws) {row : NodeExecution}
    (hrow : s.tables.nodeExecutions.get? id = some row) :
    ∃ row', t.nodeExecutions.get? id = some row' ∧ row'.state = state := by
  have hset : ∀ f : NodeExecution → NodeExecution,
      (s.tables.setNode id f).nodeExecutions.get? id = some (f row) := by
    intro f
    show (s.tables.nodeExecutions.updateRow id f).get? id = some (f row)
    rw [PyDict.get?_updateRow, if_pos rfl, hrow, Option.map_some]
  have hactivated : ∀ {executionId text : String} {nodes : List GraphNode} {t : Tables},
      PyDict.Updates (fun _ => Tables.Activated executionId nodes)
        (s.tables.setNode id (Tables.succeededRow text)).nodeExecutions t.nodeExecutions →
      ∃ row', t.nodeExecutions.get? id = some row' ∧ row'.state = .succeeded := by
    intro executionId text nodes t hnodes
    obtain ⟨row', hrow', hactivated⟩ := hnodes.get (hset _)
    rw [hactivated.eq_of_ne fun hblocked => by cases hblocked] at hrow'
    exact ⟨_, hrow', rfl⟩
  cases h with
  | fail _ executionId nodeExecutionId code =>
    rcases List.mem_cons.mp hwrite with hnode | hplan
    · obtain ⟨rfl, rfl⟩ := Write.node.inj hnode
      exact ⟨_, hset _, rfl⟩
    · cases List.mem_singleton.mp hplan
  | claim => cases List.mem_singleton.mp hwrite
  | succeed _ _ hnodes =>
    obtain ⟨rfl, rfl⟩ := Write.node.inj (List.mem_singleton.mp hwrite)
    exact hactivated hnodes
  | complete _ _ hnodes =>
    rcases List.mem_cons.mp hwrite with hnode | hplan
    · obtain ⟨rfl, rfl⟩ := Write.node.inj hnode
      exact hactivated hnodes
    · cases List.mem_singleton.mp hplan
  | cancel => cases List.mem_singleton.mp hwrite
  | _ => exact absurd hwrite List.not_mem_nil

/-- So it does in the row of the execution. -/
theorem Effect.written_plan (h : s.Effect a ws t)
    {id : String} {status : PlanExecutionStatus} (hwrite : .plan id status ∈ ws)
    {row : PlanExecution} (hrow : s.tables.planExecutions.get? id = some row) :
    ∃ row', t.planExecutions.get? id = some row' ∧ row'.status = status := by
  have hset : ∀ f : PlanExecution → PlanExecution,
      (s.tables.planExecutions.updateRow id f).get? id = some (f row) := by
    intro f
    rw [PyDict.get?_updateRow, if_pos rfl, hrow, Option.map_some]
  cases h with
  | fail _ executionId nodeExecutionId code =>
    rcases List.mem_cons.mp hwrite with hnode | hplan
    · cases hnode
    · obtain ⟨rfl, rfl⟩ := Write.plan.inj (List.mem_singleton.mp hplan)
      exact ⟨_, hset fun row => { row with status := .failed }, rfl⟩
  | @claim _ c d _ hclaim =>
    obtain ⟨rfl, rfl⟩ := Write.plan.inj (List.mem_singleton.mp hwrite)
    obtain ⟨found, leases, lease, -, -, -, -, rfl⟩ := Tables.claimNode_spec hclaim
    exact ⟨_, hset fun plan =>
      { plan with
        status := .running
        startOperationId := plan.startOperationId.or (some c.operationId) }, rfl⟩
  | succeed => cases List.mem_singleton.mp hwrite
  | complete _ _ _ hplans =>
    rcases List.mem_cons.mp hwrite with hnode | hplan
    · cases hnode
    · obtain ⟨rfl, rfl⟩ := Write.plan.inj (List.mem_singleton.mp hplan)
      rw [Tables.markPlanSucceeded, Tables.setStatus]
      simp only
      rw [hplans]
      exact ⟨_, hset fun row => { row with status := .succeeded }, rfl⟩
  | cancel executionId =>
    obtain ⟨rfl, rfl⟩ := Write.plan.inj (List.mem_singleton.mp hwrite)
    exact ⟨_, hset fun row => { row with status := .cancelled }, rfl⟩
  | _ => exact absurd hwrite List.not_mem_nil

/-- **Ended rows.**  A unit of work that is no recovery leaves what has ended as it is precisely when it
writes over nothing that ended otherwise. -/
theorem Effect.absorbs_iff (hs : s.tables.Keyed) (h : s.Effect a ws t) (ha : ∀ r, a ≠ .recover r) :
    s.tables.Absorbs t ↔ ∀ write ∈ ws, s.tables.Open write := by
  constructor
  · rintro ⟨hnodes, hplans⟩ write hwrite
    cases write with
    | node id state =>
      intro row hrow hfinal
      obtain ⟨row', hrow', hsame⟩ := hnodes id row hrow hfinal
      obtain ⟨written, hwritten, hstate⟩ := h.written_node hwrite hrow
      rw [hrow', Option.some.injEq] at hwritten
      rw [← hsame, hwritten, hstate]
    | plan id status =>
      intro row hrow hterminal
      obtain ⟨row', hrow', hsame⟩ := hplans id row hrow hterminal
      obtain ⟨written, hwritten, hstatus⟩ := h.written_plan hwrite hrow
      rw [hrow', Option.some.injEq] at hwritten
      rw [← hsame, hwritten, hstatus]
  · intro hopen
    constructor
    · intro id row hrow hfinal
      obtain ⟨row', hrow', -, hstep⟩ := h.nodeStep hs ha hrow
      refine ⟨row', hrow', ?_⟩
      rcases hstep with hsame | ⟨-, hblocked, -⟩ | ⟨hready, -⟩ | ⟨hcancellable, -⟩ | hwrite
      · exact hsame
      · rw [hblocked] at hfinal
        cases hfinal
      · rw [hready] at hfinal
        cases hfinal
      · rw [NodeExecutionState.isCancellable_of_isFinal hfinal] at hcancellable
        cases hcancellable
      · exact (hopen _ hwrite row hrow hfinal).symm
    · intro id row hrow hterminal
      obtain ⟨row', hrow', -, hsame | ⟨hactive, -⟩ | hwrite⟩ := h.planStep hs ha hrow
      · exact ⟨row', hrow', hsame⟩
      · rcases hactive with hactive | hactive
        · rw [hactive] at hterminal
          cases hterminal
        · rw [hactive] at hterminal
          cases hterminal
      · exact ⟨row', hrow', (hopen _ hwrite row hrow hterminal).symm⟩

theorem writes_recover (s : Coordinator) (r : Tables.Recovery) :
    s.writes receiptCheck (.recover r) = [] := rfl

/-- One unit of work leaves what has ended as it is precisely when it writes over nothing that ended
otherwise. -/
theorem absorbing_step_iff (hs : s.tables.Keyed) (hstep : s.step receiptCheck a = some s') :
    s.Absorbing receiptCheck a ↔ s.Unfinished receiptCheck a := by
  have heffect := step_effect hs hstep
  rcases a.recover_or with ⟨r, rfl⟩ | ha
  · refine iff_of_true (fun hnot => absurd rfl (hnot r)) fun write hwrite => ?_
    rw [writes_recover] at hwrite
    exact absurd hwrite List.not_mem_nil
  · refine Iff.trans ?_ (heffect.absorbs_iff hs ha)
    constructor
    · intro h
      exact h ha s' hstep
    · intro h _ t ht
      rw [hstep, Option.some.injEq] at ht
      exact ht ▸ h

/-- **Absorption.**  Along every interleaving of units of work, nodes that have succeeded or were
cancelled and executions that have ended stay as they are, but for recoveries, precisely when no unit of
work writes over one that ended otherwise. -/
theorem absorbing_along_iff (receiptCheck : ReceiptCheck) (leases : LeaseTable)
    (artifacts : PyDict (Option ExecutionPlan)) (actions : List Action) :
    MeetsAlong (step receiptCheck) (Absorbing receiptCheck) (start leases artifacts) actions ↔
      MeetsAlong (step receiptCheck) (Unfinished receiptCheck) (start leases artifacts) actions :=
  meetsAlong_iff_meetsAlong (I := fun s => s.tables.Keyed)
    (fun _ _ _ hs _ hstep => (step_effect hs hstep).keyed hs)
    (fun _ _ _ hs hstep => absorbing_step_iff hs hstep) (keyed_start leases artifacts) actions

/-- A plan with one node. -/
def singlePlan : ExecutionPlan where
  planId := "plan-m"
  migrationId := "m"
  mode := .m1Bulk
  nodes := [⟨"n", ⟨"schema_create", .reversible⟩, []⟩]
  edges := []
  fingerprint := "fp"

/-- The first rows of an execution of that plan. -/
def singleMaterialization : Tables.Materialization where
  plan := singlePlan
  migrationId := "m"
  initializationFingerprint := "init"
  executionId := "pe-1"
  nodeExecutionId := fun _ => "ne-1"
  now := "2024-01-01T00:00:00"

/-- A worker claims the node of that plan. -/
def claimSingle (w : ℕ) (attemptId leaseId invocationId : String) : List Action :=
  [.advance w ⟨"pe-1", singlePlan, "op-1", "actor"⟩, .check w,
    .gate w { evaluation := ⟨true, true, some ⟨"binding", true⟩⟩ } "2024-01-01T00:00:00",
    .claim w attemptId leaseId invocationId "2024-01-01T00:00:00" "2024-01-01T00:05:00"]

/-- The engine that runs the only node of an execution raises after the execution was cancelled. -/
theorem cancelled_becomes_failed : ¬ MeetsAlong (step ⟨fun _ _ => false, fun _ => "", none⟩)
      (Absorbing ⟨fun _ _ => false, fun _ => "", none⟩) (start PyDict.empty PyDict.empty)
      (.materialize singleMaterialization :: claimSingle 0 "att-1" "lease-1" "inv-1" ++
        [.dispatch 0, .cancel "pe-1", .answer 0 .raised]) := by
  intro h
  have hlast := ((((((((h _ rfl).2 _ rfl).2 _ rfl).2 _ rfl).2 _ rfl).2 _ rfl).2 _ rfl).2 _ rfl).1
  obtain ⟨row', hrow', hstate⟩ := (hlast (fun r hr => by cases hr) _ rfl).1 "ne-1" _ rfl rfl
  cases hrow'
  cases hstate

end Coordinator

end PlanCoordination

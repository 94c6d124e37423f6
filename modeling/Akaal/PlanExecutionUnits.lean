/-
# Units of work on plan executions

What each unit of work of `PlanExecutionCoordinator` needs and does to the rows, stated once for each.

* `stateOf_eq_some_iff` : the states of the nodes of an execution, read by their graph ids;
* `activateSuccessors_spec`, `recordResult_spec` : the reconciliation of a result;
* `claimNode_spec`, `checkExecution_spec` : a claim and the head of the loop;
* `checkExecution_ready`, `findCompletion_spec` : what a worker finds;
* `materializePlanExecution_spec`, `recoverPlanExecution_spec` : the first rows and those of a recovery.
-/
import Akaal.PlanExecutionTables

namespace PlanCoordination

open PipelineLeases

/-! ## Distinct nodes -/

/-- The execution and the graph id of a node, which are unique. -/
def NodeExecution.key (row : NodeExecution) : String × String := (row.executionId, row.graphNodeId)

/-- No two rows have the same execution and graph id. -/
def Tables.Keyed (t : Tables) : Prop :=
  ∀ id id' row row', t.nodeExecutions.get? id = some row → t.nodeExecutions.get? id' = some row' →
    row.key = row'.key → id = id'

namespace Tables

variable {t : Tables}

theorem mem_nodesOf_iff {executionId : String} {item : String × NodeExecution} :
    item ∈ t.nodesOf executionId ↔
      t.nodeExecutions.get? item.1 = some item.2 ∧ item.2.executionId = executionId := by
  rw [nodesOf, List.mem_filter, ← t.nodeExecutions.mem_items_iff]
  exact and_congr_right fun _ => decide_eq_true_iff

theorem Keyed.of_updates (ht : t.Keyed) {t' : Tables}
    (h : PyDict.Updates (fun _ row row' => row'.key = row.key) t.nodeExecutions t'.nodeExecutions) :
    t'.Keyed := by
  intro id id' row row' hrow hrow' hkey
  obtain ⟨before, hbefore, hsame⟩ := h.get_back hrow
  obtain ⟨before', hbefore', hsame'⟩ := h.get_back hrow'
  refine ht id id' before before' hbefore hbefore' ?_
  rw [← hsame, ← hsame', hkey]

theorem Keyed.setNode (ht : t.Keyed) (id : String) {f : NodeExecution → NodeExecution}
    (hf : ∀ row, (f row).key = row.key) : (t.setNode id f).Keyed := by
  refine ht.of_updates ?_
  apply PyDict.Updates.updateRow
  · intro _ _ _
    rfl
  · intro row _
    exact hf row

/-- **States.**  Where rows are distinct, the state that is read for a node is that of its row. -/
theorem stateOf_eq_some_iff (ht : t.Keyed) {executionId graphNodeId : String}
    {state : NodeExecutionState} :
    t.stateOf executionId graphNodeId = some state ↔
      ∃ id row, t.nodeExecutions.get? id = some row ∧ row.key = (executionId, graphNodeId) ∧
        row.state = state := by
  have hmem : ∀ item, item ∈ (t.nodesOf executionId).filter
      (fun item => item.2.graphNodeId = graphNodeId) ↔
      t.nodeExecutions.get? item.1 = some item.2 ∧ item.2.key = (executionId, graphNodeId) := by
    intro item
    rw [List.mem_filter, mem_nodesOf_iff, decide_eq_true_iff, NodeExecution.key, Prod.mk.injEq,
      and_assoc]
  have hnodup : (((t.nodesOf executionId).filter
      (fun item => item.2.graphNodeId = graphNodeId)).map Prod.fst).Nodup :=
    t.nodeExecutions.nodup.sublist ((List.filter_sublist.trans List.filter_sublist).map Prod.fst)
  rw [stateOf]
  cases hrows : (t.nodesOf executionId).filter (fun item => item.2.graphNodeId = graphNodeId) with
  | nil =>
    refine iff_of_false (fun h => ?_) ?_
    · cases h
    · rintro ⟨id, row, hrow, hkey, -⟩
      have hin := (hmem (id, row)).mpr ⟨hrow, hkey⟩
      rw [hrows] at hin
      exact List.not_mem_nil hin
  | cons item items =>
    rw [hrows] at hmem hnodup
    obtain ⟨hitem, hkey⟩ := (hmem item).mp List.mem_cons_self
    have hnone : items = [] := by
      cases items with
      | nil => rfl
      | cons other items =>
        obtain ⟨hother, hkey'⟩ :=
          (hmem other).mp (List.mem_cons_of_mem item List.mem_cons_self)
        have hid := ht _ _ _ _ hitem hother (hkey.trans hkey'.symm)
        rw [List.map_cons, List.map_cons, List.nodup_cons] at hnodup
        exact absurd (hid ▸ List.mem_cons_self) hnodup.1
    subst hnone
    rw [List.map_cons, List.map_nil, List.getLast?_singleton, Option.some.injEq]
    constructor
    · intro hstate
      exact ⟨item.1, item.2, hitem, hkey, hstate⟩
    · rintro ⟨id, row, hrow, hkey', hstate⟩
      have hid := ht _ _ _ _ hitem hrow (hkey.trans hkey'.symm)
      rw [← hid, hitem] at hrow
      rw [Option.some.inj hrow]
      exact hstate

/-! ## What the units of work do to the rows -/

/-- The activation of a successor of an execution: a blocked node becomes ready when it lists no
dependency. -/
def Activated (executionId : String) (nodes : List GraphNode) (row row' : NodeExecution) : Prop :=
  row' = row ∨ row.executionId = executionId ∧
    (∃ node ∈ nodes, node.nodeId = row.graphNodeId ∧ node.dependencies = []) ∧
    row.state = .blocked ∧ row' = { row with state := .ready }

section Activated

variable {executionId : String} {nodes : List GraphNode} {row row' row'' : NodeExecution}

theorem Activated.refl (executionId : String) (nodes : List GraphNode) (row : NodeExecution) :
    Activated executionId nodes row row :=
  Or.inl rfl

theorem Activated.trans (h : Activated executionId nodes row row')
    (h' : Activated executionId nodes row' row'') : Activated executionId nodes row row'' := by
  rcases h with rfl | ⟨hexecution, hnode, hblocked, rfl⟩
  · exact h'
  · rcases h' with rfl | ⟨-, -, hready, -⟩
    · exact Or.inr ⟨hexecution, hnode, hblocked, rfl⟩
    · cases hready

theorem Activated.cons {node : GraphNode} (h : Activated executionId nodes row row') :
    Activated executionId (node :: nodes) row row' := by
  rcases h with rfl | ⟨hexecution, ⟨other, hmem, hother⟩, hrest⟩
  · exact Activated.refl _ _ _
  · exact Or.inr ⟨hexecution, ⟨other, List.mem_cons_of_mem node hmem, hother⟩, hrest⟩

theorem Activated.key (h : Activated executionId nodes row row') : row'.key = row.key := by
  rcases h with rfl | ⟨-, -, -, rfl⟩ <;> rfl

theorem Activated.eq_of_ne (h : Activated executionId nodes row row') (hne : row.state ≠ .blocked) :
    row' = row :=
  h.resolve_right fun hactivated => hne hactivated.2.2.1

end Activated

/-- **Activation.**  The successors that are activated were blocked; nothing else changes. -/
theorem activateSuccessors_spec (ht : t.Keyed) {executionId : String} {nodes : List GraphNode}
    {t' : Tables} (h : activateSuccessors executionId t nodes = .ok t') :
    PyDict.Updates (fun _ => Activated executionId nodes) t.nodeExecutions t'.nodeExecutions ∧
      t'.planExecutions = t.planExecutions ∧ t'.leases = t.leases ∧ t'.artifacts = t.artifacts := by
  induction nodes generalizing t with
  | nil =>
    rw [activateSuccessors] at h
    obtain rfl := Except.ok.inj h
    exact ⟨PyDict.Updates.refl (fun _ => Activated.refl _ _) _, rfl, rfl, rfl⟩
  | cons node nodes ih =>
    rw [activateSuccessors] at h
    split_ifs at h with hblocked
    · split at h
      · rename_i hnone
        have hupdate : PyDict.Updates (fun _ => Activated executionId (node :: nodes)) t.nodeExecutions
            (t.nodeExecutions.updateWhere
              (fun row => row.executionId = executionId ∧ row.graphNodeId = node.nodeId)
              fun row => { row with state := .ready }) := by
          refine PyDict.Updates.updateWhere (fun _ => Activated.refl _ _) fun key row hrow hp => ?_
          obtain ⟨id, found, hfound, hkey, hstate⟩ := (stateOf_eq_some_iff ht).mp hblocked
          obtain ⟨hexecution, hgraph⟩ := of_decide_eq_true hp
          have hid := ht _ _ _ _ hrow hfound (by rw [hkey, NodeExecution.key, hexecution, hgraph])
          rw [hid, hfound] at hrow
          rw [← Option.some.inj hrow]
          have hname : found.graphNodeId = node.nodeId := congrArg Prod.snd hkey
          exact Or.inr ⟨congrArg Prod.fst hkey, ⟨node, List.mem_cons_self, hname.symm, hnone⟩, hstate,
            rfl⟩
        have hkeyed : Keyed { t with
            nodeExecutions := t.nodeExecutions.updateWhere
              (fun row => row.executionId = executionId ∧ row.graphNodeId = node.nodeId)
              fun row => { row with state := .ready } } :=
          ht.of_updates (hupdate.imp fun _ _ _ _ hrow => hrow.key)
        obtain ⟨hrest, hplans, hleases, hartifacts⟩ := ih hkeyed h
        exact ⟨hupdate.trans hrest fun _ _ _ _ hfirst hsecond => hfirst.trans hsecond.cons, hplans,
          hleases, hartifacts⟩
      · cases h
    · obtain ⟨hrest, hother⟩ := ih ht h
      exact ⟨hrest.imp fun _ _ _ _ hrow => hrow.cons, hother⟩

theorem activateSuccessors_error {executionId : String} {nodes : List GraphNode}
    {e : CoordinatorError} (h : activateSuccessors executionId t nodes = .error e) :
    e = .attributeError := by
  induction nodes generalizing t with
  | nil => cases h
  | cons node nodes ih =>
    rw [activateSuccessors] at h
    split_ifs at h
    · split at h
      · exact ih h
      · exact (Except.error.inj h).symm
    · exact ih h

theorem activateSuccessors_of_not_blocked {executionId : String} {nodes : List GraphNode}
    (h : ∀ node ∈ nodes, t.stateOf executionId node.nodeId ≠ some .blocked) :
    activateSuccessors executionId t nodes = .ok t := by
  induction nodes with
  | nil => rfl
  | cons node nodes ih =>
    obtain ⟨hnode, hnodes⟩ := List.forall_mem_cons.mp h
    rw [activateSuccessors, if_neg hnode]
    exact ih hnodes

/-- Where the blocked nodes list dependencies, the first of them makes the activation raise. -/
theorem activateSuccessors_of_blocked {executionId : String} {nodes : List GraphNode}
    (h : ∃ node ∈ nodes, t.stateOf executionId node.nodeId = some .blocked)
    (hall : ∀ node ∈ nodes, t.stateOf executionId node.nodeId = some .blocked →
      node.dependencies ≠ []) :
    activateSuccessors executionId t nodes = .error .attributeError := by
  induction nodes with
  | nil =>
    obtain ⟨node, hnode, -⟩ := h
    exact absurd hnode List.not_mem_nil
  | cons node nodes ih =>
    obtain ⟨hnode, hnodes⟩ := List.forall_mem_cons.mp hall
    rw [activateSuccessors]
    by_cases hblocked : t.stateOf executionId node.nodeId = some .blocked
    · rw [if_pos hblocked]
      cases hdeps : node.dependencies with
      | nil => exact absurd hdeps (hnode hblocked)
      | cons dependency dependencies => rfl
    · rw [if_neg hblocked]
      refine ih ?_ hnodes
      obtain ⟨other, hother, hstate⟩ := h
      rcases List.mem_cons.mp hother with rfl | hother
      · exact absurd hstate hblocked
      · exact ⟨other, hother, hstate⟩

/-- What a claim that is made needs and does. -/
theorem claimNode_spec {c : Claim} {t' : Tables} {d : Dispatch}
    (h : t.claimNode c = .ok (some (t', d))) :
    ∃ row leases lease, t.nodeExecutions.get? c.nodeExecutionId = some row ∧ row.state = .ready ∧
      t.claimLease c = .ok (leases, lease) ∧ d = c.dispatch lease ∧
      t' = { t.setNode c.nodeExecutionId d.claimed with
        leases := leases
        planExecutions := t.planExecutions.updateRow c.executionId fun plan =>
          { plan with
            status := .running
            startOperationId := plan.startOperationId.or (some c.operationId) } } := by
  rw [claimNode] at h
  cases hrow : t.nodeExecutions.get? c.nodeExecutionId with
  | none =>
    rw [hrow] at h
    cases h
  | some row =>
    rw [hrow] at h
    simp only at h
    by_cases hready : row.state = .ready
    · rw [if_pos hready] at h
      cases hlease : t.claimLease c with
      | error e =>
        rw [hlease] at h
        cases h
      | ok found =>
        obtain ⟨leases, lease⟩ := found
        rw [hlease] at h
        obtain ⟨rfl, rfl⟩ := Prod.mk.inj (Option.some.inj (Except.ok.inj h))
        exact ⟨row, leases, lease, rfl, hready, rfl, rfl, rfl⟩
    · rw [if_neg hready] at h
      cases h

/-- The head of the loop leaves the tables alone, unless it finds that an execution which has not ended
has succeeded. -/
theorem checkExecution_spec (t : Tables) (executionId : String) (plan : ExecutionPlan) :
    (t.checkExecution executionId plan).1 = t ∨
      (t.checkExecution executionId plan).1 = t.markPlanSucceeded executionId ∧
        t.allSucceeded executionId plan = true ∧
        ∃ row, t.planExecutions.get? executionId = some row ∧
          (row.status = .accepted ∨ row.status = .running) := by
  have hnodes : ∀ row, (t.checkNodes executionId plan row).1 = t ∨
      (t.checkNodes executionId plan row).1 = t.markPlanSucceeded executionId ∧
        t.allSucceeded executionId plan = true := by
    intro row
    rw [checkNodes]
    cases (t.nodesOf executionId).find? fun item => item.2.state = .ready with
    | some item => exact Or.inl rfl
    | none =>
      simp only
      split_ifs with hall hfailed
      · exact Or.inr ⟨rfl, hall⟩
      · exact Or.inl rfl
      · exact Or.inl rfl
  rw [checkExecution]
  cases hrow : t.planExecutions.get? executionId with
  | none => exact Or.inl rfl
  | some row =>
    simp only
    by_cases hmismatch : row.planFingerprint ≠ plan.fingerprint ∨ row.planId ≠ plan.planId
    · rw [if_pos hmismatch]
      exact Or.inl rfl
    · rw [if_neg hmismatch]
      cases hstatus : row.status with
      | accepted =>
        exact (hnodes row).imp_right fun h => ⟨h.1, h.2, row, rfl, Or.inl hstatus⟩
      | running =>
        exact (hnodes row).imp_right fun h => ⟨h.1, h.2, row, rfl, Or.inr hstatus⟩
      | succeeded => exact Or.inl rfl
      | failed => exact Or.inl rfl
      | cancelled => exact Or.inl rfl

/-- A node that the head of the loop finds ready is one of the execution, which is one of the plan. -/
theorem checkExecution_ready {executionId : String} {plan : ExecutionPlan} {t' : Tables}
    {initializationFingerprint nodeExecutionId : String} {node : NodeExecution}
    (h : t.checkExecution executionId plan =
      (t', .ready initializationFingerprint nodeExecutionId node)) :
    t' = t ∧ t.nodeExecutions.get? nodeExecutionId = some node ∧ node.executionId = executionId ∧
      node.state = .ready ∧
      ∃ row, t.planExecutions.get? executionId = some row ∧ row.planId = plan.planId := by
  have hnodes : ∀ row, t.checkNodes executionId plan row =
      (t', .ready initializationFingerprint nodeExecutionId node) →
      t' = t ∧ (nodeExecutionId, node) ∈ t.nodesOf executionId ∧ node.state = .ready := by
    intro row hcheck
    rw [checkNodes] at hcheck
    cases hfind : (t.nodesOf executionId).find? fun item => item.2.state = .ready with
    | some item =>
      rw [hfind] at hcheck
      obtain ⟨rfl, hready⟩ := Prod.mk.inj hcheck
      obtain ⟨-, rfl, rfl⟩ := Checked.ready.inj hready
      have hstate := List.find?_some hfind
      exact ⟨rfl, List.mem_of_find?_eq_some hfind, of_decide_eq_true hstate⟩
    | none =>
      rw [hfind] at hcheck
      simp only at hcheck
      split_ifs at hcheck
      all_goals cases (Prod.mk.inj hcheck).2
  rw [checkExecution] at h
  cases hrow : t.planExecutions.get? executionId with
  | none =>
    rw [hrow] at h
    cases (Prod.mk.inj h).2
  | some row =>
    rw [hrow] at h
    simp only at h
    by_cases hmismatch : row.planFingerprint ≠ plan.fingerprint ∨ row.planId ≠ plan.planId
    · rw [if_pos hmismatch] at h
      cases (Prod.mk.inj h).2
    · rw [if_neg hmismatch] at h
      rw [not_or, not_not, not_not] at hmismatch
      cases hstatus : row.status with
      | accepted | running =>
        rw [hstatus] at h
        obtain ⟨rfl, hmem, hready⟩ := hnodes row h
        obtain ⟨hget, hexecution⟩ := mem_nodesOf_iff.mp hmem
        exact ⟨rfl, hget, hexecution, hready, row, rfl, hmismatch.2⟩
      | _ =>
        rw [hstatus] at h
        cases (Prod.mk.inj h).2

/-- What a completion finds: a node, its execution, and the plan that the artifact describes. -/
theorem findCompletion_spec {result : EngineInvocationResult} {f : Found}
    (h : t.findCompletion result = .ok (.inr f)) :
    t.nodeExecutions.get? f.nodeExecutionId = some f.node ∧
      t.planExecutions.get? f.node.executionId = some f.planRow ∧
      t.planArtifact f.planRow.planId = some (some f.plan) := by
  rw [findCompletion] at h
  cases hrow : t.findRow result.attemptId result.invocationId with
  | none =>
    rw [hrow] at h
    cases h
  | some found =>
    obtain ⟨id, node, planRow⟩ := found
    rw [hrow] at h
    simp only at h
    split at h
    · cases h
    · cases h
    · rename_i plan hartifact
      obtain rfl := Sum.inr.inj (Except.ok.inj h)
      obtain ⟨item, hitem, hfound⟩ := List.exists_of_findSome?_eq_some hrow
      split_ifs at hfound
      obtain ⟨planRow', hplan, heq⟩ := Option.map_eq_some_iff.mp hfound
      obtain ⟨rfl, rfl, rfl⟩ : item.1 = id ∧ item.2 = node ∧ planRow' = planRow := by
        simpa using heq
      exact ⟨(t.nodeExecutions.mem_items_iff).mp hitem, hplan, hartifact⟩

/-- What the reconciliation of a result does: the node and the execution fail, or the node succeeds and
successors are activated. -/
theorem recordResult_spec {receiptCheck : ReceiptCheck} {plan : ExecutionPlan} {e : Expectation}
    {result : EngineInvocationResult} {t' : Tables} {code : Option String} (ht : t.Keyed)
    (h : t.recordResult receiptCheck plan e result = .ok (t', code)) :
    (∃ text, code = some text ∧ t' = t.markNodeAndPlanFailed e.executionId e.nodeExecutionId text) ∨
    code = none ∧ (∃ text, PyDict.Updates (fun _ => Activated e.executionId plan.nodes)
        (t.setNode e.nodeExecutionId (succeededRow text)).nodeExecutions t'.nodeExecutions) ∧
      t'.planExecutions = t.planExecutions ∧ t'.leases = t.leases ∧ t'.artifacts = t.artifacts := by
  rw [recordResult] at h
  cases hresult : receiptCheck.reconcileResult t.leases result e.expected with
  | error error =>
    rw [hresult] at h
    cases h
  | ok found =>
    rw [hresult] at h
    cases found with
    | failed errorCode errorMessage =>
      cases h
      exact Or.inl ⟨errorCode, rfl, rfl⟩
    | succeeded payload =>
      simp only at h
      cases hdumps : payload.jsonDumps with
      | error error =>
        rw [hdumps] at h
        cases h
      | ok text =>
        rw [hdumps] at h
        simp only at h
        cases hactivate : activateSuccessors e.executionId
            (t.setNode e.nodeExecutionId (succeededRow text)) plan.nodes with
        | error error =>
          rw [hactivate] at h
          cases h
        | ok activated =>
          rw [hactivate] at h
          cases h
          have hkeyed := ht.setNode e.nodeExecutionId (f := succeededRow text) fun _ => rfl
          obtain ⟨hnodes, hplans, hleases, hartifacts⟩ :=
            activateSuccessors_spec hkeyed hactivate
          exact Or.inr ⟨rfl, ⟨text, hnodes⟩, hplans, hleases, hartifacts⟩

/-! ## The first rows -/

/-- What the insertion of a node needs and does. -/
theorem insertNode_spec {id : String} {row : NodeExecution} {t' : Tables}
    (h : t.insertNode id row = .ok t') :
    t.nodeExecutions.get? id = none ∧
      (∀ other found, t.nodeExecutions.get? other = some found → found.key ≠ row.key) ∧
      t' = { t with nodeExecutions := t.nodeExecutions.set id row } := by
  rw [insertNode] at h
  split_ifs at h with htaken
  obtain rfl := Except.ok.inj h
  rw [not_or, Option.not_isSome_iff_eq_none, List.any_eq_true] at htaken
  refine ⟨htaken.1, fun other found hfound hkey => htaken.2 ?_, rfl⟩
  obtain ⟨hexecution, hgraph⟩ := Prod.mk.inj hkey
  exact ⟨(other, found), mem_nodesOf_iff.mpr ⟨hfound, hexecution⟩, decide_eq_true hgraph⟩

/-- **First rows.**  The rows of the nodes of a plan come under keys that are new; those that were there
stay. -/
theorem insertNodes_spec {executionId migrationId : String} {newId : ℕ → String}
    {nodes : List (GraphNode × ℕ)} {t' : Tables}
    (h : insertNodes executionId migrationId newId t nodes = .ok t') (ht : t.Keyed) :
    t'.Keyed ∧ t'.planExecutions = t.planExecutions ∧ t'.leases = t.leases ∧
      t'.artifacts = t.artifacts ∧
      (∀ id row, t.nodeExecutions.get? id = some row → t'.nodeExecutions.get? id = some row) ∧
      ∀ id row, t'.nodeExecutions.get? id = some row → t.nodeExecutions.get? id = some row ∨
        (∃ node ∈ nodes.map Prod.fst, row = initialRow executionId migrationId node) ∧
          ∀ other found, t.nodeExecutions.get? other = some found → found.key ≠ row.key := by
  induction nodes generalizing t with
  | nil =>
    rw [insertNodes] at h
    obtain rfl := Except.ok.inj h
    exact ⟨ht, rfl, rfl, rfl, fun _ _ hrow => hrow, fun _ _ hrow => Or.inl hrow⟩
  | cons item nodes ih =>
    obtain ⟨node, k⟩ := item
    rw [insertNodes] at h
    cases hinsert : t.insertNode (newId k) (initialRow executionId migrationId node) with
    | error e =>
      rw [hinsert] at h
      cases h
    | ok inserted =>
      rw [hinsert] at h
      obtain ⟨hnew, hkeys, rfl⟩ := insertNode_spec hinsert
      have hget : ∀ id row, (t.nodeExecutions.set (newId k)
          (initialRow executionId migrationId node)).get? id = some row →
          id = newId k ∧ row = initialRow executionId migrationId node ∨
            id ≠ newId k ∧ t.nodeExecutions.get? id = some row := by
        intro id row hrow
        by_cases hid : id = newId k
        · rw [hid, PyDict.get?_set] at hrow
          exact Or.inl ⟨hid, (Option.some.inj hrow).symm⟩
        · rw [PyDict.get?_set_of_ne _ _ hid] at hrow
          exact Or.inr ⟨hid, hrow⟩
      have hkept : ∀ id row, t.nodeExecutions.get? id = some row →
          (t.nodeExecutions.set (newId k) (initialRow executionId migrationId node)).get? id =
            some row := by
        intro id row hrow
        have hid : id ≠ newId k := by
          rintro rfl
          rw [hnew] at hrow
          cases hrow
        rw [PyDict.get?_set_of_ne _ _ hid, hrow]
      have hkeyed : Keyed { t with
          nodeExecutions := t.nodeExecutions.set (newId k)
            (initialRow executionId migrationId node) } := by
        intro id id' row row' hrow hrow' hkey
        rcases hget id row hrow with ⟨rfl, rfl⟩ | ⟨-, hold⟩ <;>
          rcases hget id' row' hrow' with ⟨rfl, rfl⟩ | ⟨-, hold'⟩
        · rfl
        · exact absurd hkey.symm (hkeys id' row' hold')
        · exact absurd hkey (hkeys id row hold)
        · exact ht id id' row row' hold hold' hkey
      obtain ⟨hkeyed', hplans, hleases, hartifacts, hkeep, hfrom⟩ := ih h hkeyed
      refine ⟨hkeyed', hplans, hleases, hartifacts,
        fun id row hrow => hkeep id row (hkept id row hrow), fun id row hrow => ?_⟩
      rcases hfrom id row hrow with hin | ⟨⟨other, hother, rfl⟩, hfresh⟩
      · rcases hget id row hin with ⟨-, rfl⟩ | ⟨-, hold⟩
        · exact Or.inr ⟨⟨node, List.mem_cons_self, rfl⟩, hkeys⟩
        · exact Or.inl hold
      · exact Or.inr ⟨⟨other, List.mem_cons_of_mem _ hother, rfl⟩,
          fun id' found hfound => hfresh id' found (hkept id' found hfound)⟩

/-- A fold that keeps what it has found, or takes the item, ends with an item or with its start. -/
theorem eq_or_mem_of_foldl {α : Type*} {f : Option α → α → Option α}
    (hf : ∀ latest item, f latest item = some item ∨ f latest item = latest) {found : α}
    {items : List α} {start : Option α} (h : items.foldl f start = some found) :
    start = some found ∨ found ∈ items := by
  induction items generalizing start with
  | nil => exact Or.inl h
  | cons item items ih =>
    rcases ih h with hnext | hmem
    · rcases hf start item with htaken | hkept
      · rw [htaken] at hnext
        exact Or.inr (Option.some.inj hnext ▸ List.mem_cons_self)
      · exact Or.inl (hkept.symm.trans hnext)
    · exact Or.inr (List.mem_cons_of_mem item hmem)

/-- The execution that is found active is one that has not ended. -/
theorem mem_of_activeExecution {migrationId executionId : String} {row : PlanExecution}
    (h : t.activeExecution migrationId = some (executionId, row)) :
    t.planExecutions.get? executionId = some row ∧
      (row.status = .accepted ∨ row.status = .running) := by
  rw [activeExecution] at h
  refine (eq_or_mem_of_foldl ?_ h).elim (fun hnone => absurd hnone (by simp)) fun hmem => ?_
  · intro latest item
    cases latest with
    | none => exact Or.inl rfl
    | some found =>
      simp only
      split_ifs
      · exact Or.inl rfl
      · exact Or.inr rfl
  · obtain ⟨hin, hactive⟩ := List.mem_filter.mp hmem
    exact ⟨(t.planExecutions.mem_items_iff).mp hin, (of_decide_eq_true hactive).2⟩

/-- **Materialisation.**  An execution that is active is used again, with its nodes as they are;
otherwise a new one gets the first rows of its nodes. -/
theorem materializePlanExecution_spec {m : Materialization} {t' : Tables} {executionId : String}
    (h : t.materializePlanExecution m = .ok (t', executionId)) :
    (∃ row, t.planExecutions.get? executionId = some row ∧
        (row.status = .accepted ∨ row.status = .running) ∧
        (t' = t ∨ t' = { t with
          planExecutions := t.planExecutions.set executionId
            { row with startOperationId := m.operationId } })) ∨
      executionId = m.executionId ∧ t.planExecutions.get? m.executionId = none ∧
        insertNodes m.executionId m.migrationId m.nodeExecutionId
          { t with planExecutions := t.planExecutions.set m.executionId m.row } m.plan.nodes.zipIdx =
            .ok t' := by
  rw [materializePlanExecution] at h
  cases hactive : t.activeExecution m.migrationId with
  | some found =>
    obtain ⟨activeId, row⟩ := found
    obtain ⟨hrow, hopen⟩ := mem_of_activeExecution hactive
    rw [hactive] at h
    simp only at h
    split_ifs at h with hplan hinit hoperation
    · cases h
      exact Or.inl ⟨row, hrow, hopen, Or.inr rfl⟩
    · cases h
      exact Or.inl ⟨row, hrow, hopen, Or.inl rfl⟩
  | none =>
    rw [hactive] at h
    simp only at h
    by_cases htaken : (t.planExecutions.get? m.executionId).isSome = true
    · rw [if_pos htaken] at h
      cases h
    · rw [if_neg htaken] at h
      split at h
      · cases h
      · rename_i hinsert
        cases h
        exact Or.inr ⟨rfl, Option.not_isSome_iff_eq_none.mp htaken, hinsert⟩

/-! ## Recoveries -/

/-- Nodes that have succeeded are read alike where rows change but for that. -/
theorem stateOf_succeeded_congr (ht : t.Keyed) {t' : Tables}
    (h : PyDict.Updates (fun _ row row' => row'.key = row.key ∧
      (row'.state = .succeeded ↔ row.state = .succeeded)) t.nodeExecutions t'.nodeExecutions)
    (executionId graphNodeId : String) :
    t'.stateOf executionId graphNodeId = some .succeeded ↔
      t.stateOf executionId graphNodeId = some .succeeded := by
  have ht' : t'.Keyed := ht.of_updates (h.imp fun _ _ _ _ hrow => hrow.1)
  rw [stateOf_eq_some_iff ht, stateOf_eq_some_iff ht']
  constructor
  · rintro ⟨id, row', hrow', hkey, hstate⟩
    obtain ⟨row, hrow, hsame, hiff⟩ := h.get_back hrow'
    exact ⟨id, row, hrow, hsame ▸ hkey, hiff.mp hstate⟩
  · rintro ⟨id, row, hrow, hkey, hstate⟩
    obtain ⟨row', hrow', hsame, hiff⟩ := h.get hrow
    exact ⟨id, row', hrow', hsame.trans hkey, hiff.mpr hstate⟩

/-- What a recovery does to the row of a node: it stays when it has succeeded or is not among those
recovered; otherwise it becomes ready precisely when its dependencies have succeeded. -/
def Recovered (r : Recovery) (dependencies : String → List String) (executionId : String)
    (among : Prop) (t : Tables) (row row' : NodeExecution) : Prop :=
  row' = row ∧ (row.state = .succeeded ∨ ¬ among) ∨
    row.state ≠ .succeeded ∧ among ∧ ∃ ready chosen, row' = recoveredRow r ready chosen row ∧
      (ready = true ↔
        ∀ dep ∈ dependencies row.graphNodeId, t.stateOf executionId dep = some .succeeded)

theorem recoveredRow_state_ne (r : Recovery) (ready chosen : Bool) (row : NodeExecution) :
    (recoveredRow r ready chosen row).state ≠ .succeeded := by
  cases ready <;> exact fun h => NodeExecutionState.noConfusion h

/-- The nodes of an execution are recovered one after the other. -/
theorem recoverNodes_spec {r : Recovery} {dependencies : String → List String}
    {target : Option String} {executionId : String} {rows : List (String × NodeExecution)}
    (bound : Bool) (ht : t.Keyed) (hrows : ∀ item ∈ rows, t.nodeExecutions.get? item.1 = some item.2)
    (hnodup : (rows.map Prod.fst).Nodup) :
    PyDict.Updates
        (fun id => Recovered r dependencies executionId (id ∈ rows.map Prod.fst) t)
        t.nodeExecutions
        (recoverNodes r dependencies target executionId bound t rows).nodeExecutions ∧
      (recoverNodes r dependencies target executionId bound t rows).planExecutions =
        t.planExecutions ∧
      (recoverNodes r dependencies target executionId bound t rows).leases = t.leases ∧
      (recoverNodes r dependencies target executionId bound t rows).artifacts = t.artifacts := by
  induction rows generalizing t bound with
  | nil =>
    refine ⟨?_, rfl, rfl, rfl⟩
    apply PyDict.Updates.refl
    exact fun _ _ => Or.inl ⟨rfl, Or.inr List.not_mem_nil⟩
  | cons item rows ih =>
    obtain ⟨id, row⟩ := item
    obtain ⟨hrow, hrest⟩ := List.forall_mem_cons.mp hrows
    rw [List.map_cons, List.nodup_cons] at hnodup
    rw [recoverNodes]
    by_cases hsucceeded : row.state = .succeeded
    · rw [if_pos hsucceeded]
      obtain ⟨hnodes, hother⟩ := ih bound ht hrest hnodup.2
      refine ⟨hnodes.imp fun key found found' hfound hrecovered => ?_, hother⟩
      rw [List.map_cons, List.mem_cons]
      rcases hrecovered with ⟨rfl, hkept | hnot⟩ | ⟨hopen, hin, hready⟩
      · exact Or.inl ⟨rfl, Or.inl hkept⟩
      · by_cases hkey : key = id
        · rw [hkey, hrow] at hfound
          exact Or.inl ⟨rfl, Or.inl (Option.some.inj hfound ▸ hsucceeded)⟩
        · exact Or.inl ⟨rfl, Or.inr (not_or.mpr ⟨hkey, hnot⟩)⟩
      · exact Or.inr ⟨hopen, Or.inr hin, hready⟩
    · rw [if_neg hsucceeded]
      simp only
      set ready := (dependencies row.graphNodeId).all fun dep =>
        t.stateOf executionId dep = some .succeeded with hreadyDef
      set chosen := !bound && target.all (· = row.graphNodeId)
      have hset : PyDict.Updates (fun key found found' =>
          key ≠ id ∧ found' = found ∨ key = id ∧ found = row ∧
            found' = recoveredRow r ready chosen row) t.nodeExecutions
          (t.setNode id (recoveredRow r ready chosen)).nodeExecutions := by
        apply PyDict.Updates.updateRow
        · exact fun key found hkey => Or.inl ⟨hkey, rfl⟩
        · intro found hfound
          rw [hrow] at hfound
          cases hfound
          exact Or.inr ⟨rfl, rfl, rfl⟩
      have hrest' : ∀ item ∈ rows,
          (t.setNode id (recoveredRow r ready chosen)).nodeExecutions.get? item.1 = some item.2 := by
        intro item hitem
        obtain ⟨found, hfound, hkept | ⟨hid, -, -⟩⟩ := hset.get (hrest item hitem)
        · rw [hfound, hkept.2]
        · exact absurd (List.mem_map.mpr ⟨item, hitem, hid⟩) hnodup.1
      have hkeyed : (t.setNode id (recoveredRow r ready chosen)).Keyed :=
        ht.setNode id (f := recoveredRow r ready chosen) fun _ => rfl
      obtain ⟨hnodes, hother⟩ := ih (bound || ready && chosen) hkeyed hrest' hnodup.2
      refine ⟨hset.trans hnodes fun key found found' found'' hfirst hsecond => ?_, hother⟩
      have hstates := stateOf_succeeded_congr ht (hset.imp fun key found found' hfound hstep => by
        rcases hstep with ⟨-, rfl⟩ | ⟨-, rfl, rfl⟩
        · exact ⟨rfl, Iff.rfl⟩
        · exact ⟨rfl, iff_of_false (recoveredRow_state_ne r ready chosen _) hsucceeded⟩)
      rw [List.map_cons, List.mem_cons]
      rcases hfirst with ⟨hkey, rfl⟩ | ⟨rfl, rfl, rfl⟩
      · rcases hsecond with ⟨rfl, hkept | hnot⟩ | ⟨hopen, hin, ready', chosen', rfl, hready⟩
        · exact Or.inl ⟨rfl, Or.inl hkept⟩
        · exact Or.inl ⟨rfl, Or.inr (not_or.mpr ⟨hkey, hnot⟩)⟩
        · refine Or.inr ⟨hopen, Or.inr hin, ready', chosen', rfl, hready.trans ?_⟩
          exact forall₂_congr fun dep _ => hstates executionId dep
      · rcases hsecond with ⟨rfl, -⟩ | ⟨-, hin, -⟩
        · refine Or.inr ⟨hsucceeded, Or.inl rfl, ready, chosen, rfl, ?_⟩
          rw [hreadyDef, List.all_eq_true]
          exact forall₂_congr fun dep _ => decide_eq_true_iff
        · exact absurd hin hnodup.1

/-- **Recovery.**  The latest execution of the migration is accepted again, and its nodes that have not
succeeded are ready or blocked by the dependencies that the artifact of the plan lists. -/
theorem recoverPlanExecution_spec {r : Recovery} {t' : Tables} {executionId : String} (ht : t.Keyed)
    (h : t.recoverPlanExecution r = .ok (t', some executionId)) :
    ∃ row dependencies, t.latestExecution r.migrationId = some (executionId, row) ∧
      t.artifactDependencies row = .ok dependencies ∧
      t'.planExecutions = t.planExecutions.set executionId
        { row with
          status := .accepted
          startOperationId := r.recoveryOperationId.or row.startOperationId
          checkpointId := r.checkpointId.or row.checkpointId } ∧
      t'.leases = t.leases ∧ t'.artifacts = t.artifacts ∧
      PyDict.Updates (fun _ found =>
          Recovered r dependencies executionId (found.executionId = executionId) t found)
        t.nodeExecutions t'.nodeExecutions := by
  rw [recoverPlanExecution] at h
  split at h
  · cases h
  · rename_i found row hlatest
    split at h
    · cases h
    · cases h
    · rename_i target dependencies htarget hdependencies
      obtain ⟨rfl, hid⟩ := Prod.mk.inj (Except.ok.inj h)
      obtain rfl := Option.some.inj hid
      have hrows : ∀ item ∈ t.nodesOf found, t.nodeExecutions.get? item.1 = some item.2 :=
        fun item hitem => (mem_nodesOf_iff.mp hitem).1
      have hnodup : ((t.nodesOf found).map Prod.fst).Nodup :=
        t.nodeExecutions.nodup.sublist (List.filter_sublist.map Prod.fst)
      have hwritten : Keyed { t with
          planExecutions := t.planExecutions.set found
            { row with
              status := .accepted
              startOperationId := r.recoveryOperationId.or row.startOperationId
              checkpointId := r.checkpointId.or row.checkpointId } } := ht
      obtain ⟨hnodes, hplans, hleases, hartifacts⟩ :=
        @recoverNodes_spec _ r dependencies target found _ false hwritten hrows hnodup
      refine ⟨row, dependencies, hlatest, hdependencies, hplans, hleases, hartifacts,
        hnodes.imp fun key node node' hnode hrecovered => ?_⟩
      have hamong : key ∈ (t.nodesOf found).map Prod.fst ↔ node.executionId = found := by
        constructor
        · intro hmem
          obtain ⟨item, hitem, rfl⟩ := List.mem_map.mp hmem
          obtain ⟨hget, hexecution⟩ := mem_nodesOf_iff.mp hitem
          exact Option.some.inj (hget.symm.trans hnode) ▸ hexecution
        · intro hexecution
          exact List.mem_map.mpr ⟨(key, node), mem_nodesOf_iff.mpr ⟨hnode, hexecution⟩, rfl⟩
      rw [hamong] at hrecovered
      exact hrecovered

end Tables

end PlanCoordination

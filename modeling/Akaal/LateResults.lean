/-
# Results of superseded attempts

A recovery takes nodes away from the attempts they ran under; what becomes of the results that engines
post for those attempts afterwards.  A recovery leaves the invocation of a node in its row, under which
the row is still found.

* `LateIdle.step` : the call for such a result goes no further than its reconciliation;
* `untouched_along` : no such result changes a node or an execution in the runs in which none is
  reconciled unless the reconciliation raises something other than a `StaleResultError`.
-/
import Akaal.TerminalStates

open TransitionRun

namespace PlanCoordination

open PipelineLeases

/-! ## The record of recoveries -/

/-- The attempts that nodes no longer run under. -/
def Tables.lost (t t' : Tables) : List String :=
  t.nodeExecutions.items.filterMap fun item =>
    item.2.currentAttemptId.filter fun attemptId =>
      !(t'.nodeExecutions.get? item.1).any fun row => row.currentAttemptId = some attemptId

/-- The coordinator, the attempts that recoveries have superseded, and the workers whose last call
reconciles a result of such an attempt. -/
structure RecoveryHistory where
  coordinator : Coordinator
  superseded : List String
  late : ℕ → Bool

namespace RecoveryHistory

variable (receiptCheck : ReceiptCheck) (h : RecoveryHistory)

/-- A result is of an attempt that a recovery has superseded and no node runs under. -/
def isLate (result : EngineInvocationResult) : Bool :=
  decide (result.attemptId ∈ h.superseded) &&
    h.coordinator.tables.nodeExecutions.items.all fun item =>
      item.2.currentAttemptId ≠ some result.attemptId

/-- The attempts that are superseded after a unit of work. -/
def supersededAfter (s' : Coordinator) : Action → List String
  | .recover _ => h.superseded ++ h.coordinator.tables.lost s'.tables
  | _ => h.superseded

/-- The workers that reconcile late results after a unit of work. -/
def lateAfter : Action → ℕ → Bool
  | .advance w _ => Function.update h.late w false
  | .complete w result _ _ => Function.update h.late w (h.isLate result)
  | _ => h.late

/-- One unit of work and its record. -/
def step (a : Action) : Option RecoveryHistory :=
  (h.coordinator.step receiptCheck a).map fun s' => ⟨s', h.supersededAfter s' a, h.lateAfter a⟩

/-- The units of work for a late result leave nodes and executions as they are. -/
def Untouched (a : Action) : Prop :=
  ∀ h' w, h.step receiptCheck a = some h' → a.worker = some w → h'.late w = true →
    h'.coordinator.tables.nodeExecutions = h.coordinator.tables.nodeExecutions ∧
      h'.coordinator.tables.planExecutions = h.coordinator.tables.planExecutions

end RecoveryHistory

/-! ## Reconciliations that raise -/

/-- The reconciliation of a completion raises, but no `StaleResultError`: the signature is not ASCII, the
payload cannot be written, or a blocked node lists a dependency. -/
def Tables.Raises (receiptCheck : ReceiptCheck) (t : Tables) (f : Tables.Found)
    (result : EngineInvocationResult) : Prop :=
  receiptCheck.reconcileResult t.leases result f.expectation.expected = .error .typeError ∨
    ∃ payload, receiptCheck.reconcileResult t.leases result f.expectation.expected =
        .ok (.succeeded payload) ∧
      ((∃ e, payload.jsonDumps = .error e) ∨ ∃ text, payload.jsonDumps = .ok text ∧
        ∃ e, Tables.activateSuccessors f.node.executionId
          (t.setNode f.nodeExecutionId (Tables.succeededRow text)) f.plan.nodes = .error e)

/-- A completion that raises so ends with what it raised. -/
theorem Tables.Raises.recordCompletion {receiptCheck : ReceiptCheck} {t : Tables} {f : Tables.Found}
    {result : EngineInvocationResult} (h : t.Raises receiptCheck f result) :
    ∃ e, t.recordCompletion receiptCheck f result = .error e ∧
      ∀ reason, e ≠ .reconcile (.stale reason) := by
  have hresult : ∃ e, t.recordResult receiptCheck f.plan f.expectation result = .error e ∧
      ∀ reason, e ≠ .reconcile (.stale reason) := by
    rw [Tables.recordResult]
    rcases h with htype | ⟨payload, hpayload, ⟨e, hdumps⟩ | ⟨text, hdumps, e, hactivate⟩⟩
    · rw [htype]
      exact ⟨_, rfl, fun _ hstale => by cases hstale⟩
    · rw [hpayload]
      simp only
      rw [hdumps]
      exact ⟨_, rfl, fun _ hstale => by cases hstale⟩
    · rw [hpayload]
      simp only
      rw [hdumps]
      simp only
      have hexecution : f.expectation.executionId = f.node.executionId := rfl
      have hid : f.expectation.nodeExecutionId = f.nodeExecutionId := rfl
      rw [hexecution, hid, hactivate]
      exact ⟨e, rfl, fun _ hstale => by
        rw [Tables.activateSuccessors_error hactivate] at hstale
        cases hstale⟩
  obtain ⟨e, he, hstale⟩ := hresult
  refine ⟨e, ?_, hstale⟩
  rw [Tables.recordCompletion, he]

namespace RecoveryHistory

variable (receiptCheck : ReceiptCheck)

/-- A late result is reconciled only where the reconciliation raises something other than a
`StaleResultError`. -/
def Refused (h : RecoveryHistory) : Action → Prop
  | .reconcile w => h.late w = true → ∀ result f operationId ownerId,
      h.coordinator.workers w = .completing result f operationId ownerId →
        h.coordinator.tables.Raises receiptCheck f result
  | _ => True

/-- A worker with a late result is about to reconcile it or has returned. -/
def LateIdle (h : RecoveryHistory) : Prop :=
  ∀ w, h.late w = true → (∃ result f operationId ownerId,
    h.coordinator.workers w = .completing result f operationId ownerId) ∨
    ∃ outcome, h.coordinator.workers w = .finished outcome

variable {receiptCheck} {h h' : RecoveryHistory}

/-- A unit of work for a late result leaves the tables as they are, and the call is about to reconcile
the result or has returned. -/
theorem late_step {a : Action} {w : ℕ} (hidle : h.LateIdle) (hrefused : h.Refused receiptCheck a)
    (hstep : h.step receiptCheck a = some h') (hw : a.worker = some w) (hlate : h'.late w = true) :
    h'.coordinator.tables = h.coordinator.tables ∧ ((∃ result f operationId ownerId,
        h'.coordinator.workers w = .completing result f operationId ownerId) ∨
        ∃ outcome, h'.coordinator.workers w = .finished outcome) := by
  obtain ⟨s', hs', rfl⟩ := Option.map_eq_some_iff.mp hstep
  -- a worker with a late result does nothing but reconcile it
  have helsewhere : ∀ {v : ℕ} {worker : Worker}, some v = some w → h.late w = true →
      h.coordinator.workers v = worker →
      (∃ result f operationId ownerId, worker = .completing result f operationId ownerId) ∨
        ∃ outcome, worker = .finished outcome := by
    intro v worker hv hlate hworker
    rw [← hworker, Option.some.inj hv]
    exact hidle w hlate
  cases a with
  | advance v call =>
    obtain rfl := Option.some.inj hw
    replace hlate : Function.update h.late v false v = true := hlate
    rw [Function.update_self] at hlate
    cases hlate
  | complete v result operationId ownerId =>
    cases hw
    rw [Coordinator.step] at hs'
    split_ifs at hs'
    cases hfound : h.coordinator.tables.findCompletion result with
    | error e =>
      rw [hfound] at hs'
      cases hs'
      exact ⟨rfl, Or.inr ⟨_, Function.update_self _ _ _⟩⟩
    | ok found =>
      rw [hfound] at hs'
      cases found with
      | inl outcome =>
        cases hs'
        exact ⟨rfl, Or.inr ⟨_, Function.update_self _ _ _⟩⟩
      | inr f =>
        cases hs'
        exact ⟨rfl, Or.inl ⟨_, _, _, _, Function.update_self _ _ _⟩⟩
  | reconcile v =>
    obtain rfl := Option.some.inj hw
    rw [Coordinator.step] at hs'
    split at hs'
    · rename_i result f operationId ownerId hcompleting
      obtain rfl := Option.some.inj hs'
      obtain ⟨e, he, hstale⟩ :=
        (hrefused hlate result f operationId ownerId hcompleting).recordCompletion
      have hended : h.coordinator.reconciled receiptCheck v result f operationId ownerId =
          h.coordinator.become v (.finished (.error e)) := by
        rw [Coordinator.reconciled, he]
        cases e with
        | reconcile error =>
          cases error with
          | stale reason => exact absurd rfl (hstale reason)
          | typeError => rfl
        | _ => rfl
      rw [hended]
      exact ⟨rfl, Or.inr ⟨_, Function.update_self _ _ _⟩⟩
    · cases hs'
  | check v | gate v | claim v | dispatch v | answer v | fail v =>
    rw [Coordinator.step] at hs'
    split at hs'
    · rename_i hworker
      rcases helsewhere hw hlate hworker with ⟨_, _, _, _, hnot⟩ | ⟨_, hnot⟩
      · cases hnot
      · cases hnot
    · cases hs'
  | _ => cases hw

/-- A unit of work keeps the calls for late results where they can do nothing. -/
theorem LateIdle.step {a : Action} (hidle : h.LateIdle) (hrefused : h.Refused receiptCheck a)
    (hstep : h.step receiptCheck a = some h') : h'.LateIdle := by
  intro w hlate
  by_cases hw : a.worker = some w
  · exact (late_step hidle hrefused hstep hw hlate).2
  · obtain ⟨s', hs', rfl⟩ := Option.map_eq_some_iff.mp hstep
    have hkept : h.late w = true := by
      cases a with
      | advance v call | complete v =>
        have hv : w ≠ v := fun heq => hw (congrArg some heq.symm)
        rw [← hlate]
        exact (Function.update_of_ne hv _ _).symm
      | _ => exact hlate
    rw [Coordinator.step_workers_of_ne hs' hw]
    exact hidle w hkept

/-- The record before any call. -/
def start (leases : LeaseTable) (artifacts : PyDict (Option ExecutionPlan)) : RecoveryHistory :=
  ⟨Coordinator.start leases artifacts, [], fun _ => false⟩

/-- **Late results.**  Along every interleaving in which the results of superseded attempts are
reconciled only where that raises something other than a `StaleResultError`, they leave all nodes and
executions as they are. -/
theorem untouched_along (receiptCheck : ReceiptCheck) (leases : LeaseTable)
    (artifacts : PyDict (Option ExecutionPlan)) (actions : List Action)
    (h : MeetsAlong (fun h a => step receiptCheck h a) (Refused receiptCheck)
      (start leases artifacts) actions) :
    MeetsAlong (fun h a => step receiptCheck h a) (Untouched receiptCheck) (start leases artifacts)
      actions := by
  refine meetsAlong_of_meetsAlong (I := LateIdle) ?_ ?_ h
  · intro h a h' hidle hrefused hstep
    refine ⟨fun t w ht hw hlate => ?_, hidle.step hrefused hstep⟩
    rw [(late_step hidle hrefused ht hw hlate).1]
    exact ⟨rfl, rfl⟩
  · intro w hlate
    cases hlate

/-- A recovery gives the only node of an execution to a new attempt while an engine runs it. -/
def recoverSingle : List Action :=
  .materialize Coordinator.singleMaterialization ::
    Coordinator.claimSingle 0 "att-1" "lease-1" "inv-1" ++ [.dispatch 0,
        .acquireLease "lease-2" "att-2" "actor" "2024-01-01T00:05:00" "init" "2024-01-01T00:00:01",
        .recover
          { migrationId := "m"
            sourceAttemptId := some "att-1"
            replacementAttemptId := some "att-2"
            replacementLeaseId := some "lease-2"
            replacementFenceEpoch := some 1 }]

/-- The node is claimed for the new attempt before the result of the old one is posted. -/
theorem untouched_single : MeetsAlong (fun h a => step ⟨fun _ _ => false, fun _ => "", none⟩ h a)
      (Untouched ⟨fun _ _ => false, fun _ => "", none⟩)
      (start PyDict.empty (PyDict.empty.set "art-plan-m" (some Coordinator.singlePlan)))
      (recoverSingle ++ Coordinator.claimSingle 1 "att-3" "lease-3" "inv-2" ++
        [.complete 2 ⟨"inv-1", "att-1", "lease-1", 1, true, some "init", some "n", some "binding",
          some "1.0.0", .dict [], none, none, false⟩ "op-1" "actor"]) :=
  untouched_along _ _ _ _ fun _ _ => ⟨trivial, fun _ _ => ⟨trivial, fun _ _ => ⟨trivial, fun _ _ =>
    ⟨trivial, fun _ _ => ⟨trivial, fun _ _ => ⟨trivial, fun _ _ => ⟨trivial, fun _ _ =>
    ⟨trivial, fun _ _ => ⟨trivial, fun _ _ => ⟨trivial, fun _ _ => ⟨trivial, fun _ _ =>
    ⟨trivial, fun _ _ => ⟨trivial, trivial⟩⟩⟩⟩⟩⟩⟩⟩⟩⟩⟩⟩⟩

/-- The node is still found by its invocation when the result of the old attempt is posted, and fails. -/
theorem recovered_node_fails :
    ¬ MeetsAlong (fun h a => step ⟨fun _ _ => false, fun _ => "", none⟩ h a)
      (Untouched ⟨fun _ _ => false, fun _ => "", none⟩)
      (start PyDict.empty (PyDict.empty.set "art-plan-m" (some Coordinator.singlePlan)))
      (recoverSingle ++
        [.complete 1 ⟨"inv-1", "att-1", "lease-1", 1, true, some "init", some "n", some "binding",
          some "1.0.0", .dict [], none, none, false⟩ "op-1" "actor", .reconcile 1, .fail 1]) := by
  intro h
  have hlast := (((((((((((h _ rfl).2 _ rfl).2 _ rfl).2 _ rfl).2 _ rfl).2 _ rfl).2 _ rfl).2 _
    rfl).2 _ rfl).2 _ rfl).2 _ rfl).1
  have hrows := congrArg (fun d => (d.get? "ne-1").map NodeExecution.state)
    (hlast _ 1 rfl rfl rfl).1
  exact absurd hrows (by decide)

end RecoveryHistory

end PlanCoordination

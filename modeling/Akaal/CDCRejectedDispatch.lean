/-
# Rejected dispatches

`dispatch_transaction` of `cdc/sharding/parallel_engine.py` when it raises.  The hash of the payload is
kept and the position registered before the barrier is prepared, which is where a stale epoch is
rejected; nothing takes them back.

* `dispatchRouted_keeps_iff` : which dispatches leave the engine alone when they raise after routing;
* `rejects_keep_iff` : the exact condition for all dispatches.
-/
import Akaal.CDCParallelEngine

namespace CDC

namespace CDCParallelApplyEngine

variable {rt : DigestRuntime} {s s' : CDCParallelApplyEngine}

/-! ## The property and the condition -/

/-- What a rejected dispatch has to leave as it was. -/
structure Keeps (s s' : CDCParallelApplyEngine) : Prop where
  pending : s'.frontierTracker.pendingPositions = s.frontierTracker.pendingPositions
  hashes : s'.pendingTxHashes = s.pendingTxHashes
  queues : s'.partitionQueues = s.partitionQueues
  locks : s'.barriers.locks = s.barriers.locks

/-- The dispatch of a transaction passes the checks that come before the tracker, and is routed. -/
structure ReachesTracker (rt : DigestRuntime) (s : CDCParallelApplyEngine) (tx : CDCTransaction)
    (routed : CDCRoutedTransaction) : Prop where
  running : s.isPaused = false
  session : tx.identity.migrationId = s.identity.migrationId ∧
    tx.identity.cdcSessionId = s.identity.cdcSessionId
  payload : ∀ existing ∈ s.pendingTxHashes.get? tx.txId, existing = payloadHash rt tx
  routes : routeTransaction rt s.router tx = .ok routed

/-- The position is pending already. -/
def IsPending (s : CDCParallelApplyEngine) (p : CDCSourcePosition) : Prop :=
  isIn p s.frontierTracker.pendingPositions = true

/-- The condition.  A dispatch that gets to the tracker is of a position that is pending already or
can be sorted among those that are; and under a stale epoch a transaction over several partitions is
one whose position is pending and whose hash is kept already. -/
def RejectsEarly (rt : DigestRuntime) (s : CDCParallelApplyEngine) (tx : CDCTransaction)
    (activeEpoch fencingEpoch : ℤ) : Prop :=
  ∀ routed, ReachesTracker rt s tx routed → (s.IsPending tx.commitPosition ∨
      ∃ sorted, sortPositions (s.frontierTracker.pendingPositions ++ [tx.commitPosition]) =
        .ok sorted) ∧
    (routed.isMultiPartition = true → validateFencingToken activeEpoch fencingEpoch = false →
      s.IsPending tx.commitPosition ∧ (s.pendingTxHashes.get? tx.txId).isSome)

/-! ## What is left behind -/

variable {e : PyRaised} {fencingEpoch : ℤ} {p : CDCSourcePosition} {routed : CDCRoutedTransaction}

theorem sortPositions_ne {ps sorted : List CDCSourcePosition}
    (h : sortPositions (ps ++ [p]) = .ok sorted) : sorted ≠ ps := by
  obtain ⟨-, -, h⟩ := Traversal.bind_eq_ok_iff.mp h
  cases h
  intro heq
  have hlength := congrArg List.length heq
  simp at hlength

theorem register_keeps_iff {t : CDCCheckpointFrontierTracker} :
    (t.registerPendingTransaction p).1.pendingPositions = t.pendingPositions ↔
      isIn p t.pendingPositions = true := by
  rw [CDCCheckpointFrontierTracker.registerPendingTransaction]
  split_ifs with hin
  · exact ⟨fun _ => hin, fun _ => rfl⟩
  · refine ⟨fun h => ?_, fun h => absurd h hin⟩
    exfalso
    dsimp only at h
    split at h
    · have hlength := congrArg List.length h
      simp at hlength
    · next sorted hsorted => exact sortPositions_ne hsorted h

/-- Registering returns when the position is pending already, or can be sorted among those that are. -/
theorem register_isOk_iff {t : CDCCheckpointFrontierTracker} :
    (t.registerPendingTransaction p).2 = .ok () ↔ isIn p t.pendingPositions = true ∨
        ∃ sorted, sortPositions (t.pendingPositions ++ [p]) = .ok sorted := by
  rw [CDCCheckpointFrontierTracker.registerPendingTransaction]
  split_ifs with hin
  · simp [hin]
  · dsimp only
    split
    · next e hsort => simp [hin, hsort]
    · next sorted hsort => simp [hin, hsort]

theorem hashes_eq_iff {hashes : PyDict String} {txId hash : String} :
    (if (hashes.get? txId).isSome then hashes else hashes.set txId hash) = hashes ↔
      (hashes.get? txId).isSome := by
  split_ifs with h
  · simp [h]
  · refine ⟨fun heq => ?_, fun h' => absurd h' h⟩
    rw [← heq, PyDict.get?_set]
    rfl

/-- Preparing a barrier under a stale epoch leaves the records and the locks alone. -/
theorem prepare_error {b b' : BarrierStore} {identity : CDCEventIdentity}
    {r : CDCRoutedTransaction} {activeEpoch : ℤ}
    (h : b.prepareCrossPartitionBarrier identity r activeEpoch fencingEpoch = (b', .error e)) :
    b' = b := by
  rw [BarrierStore.prepareCrossPartitionBarrier] at h
  split_ifs at h <;> cases h
  rfl

/-- What a dispatch that raises after routing has done: it has kept the hash and registered the
position. -/
theorem dispatchRouted_error {activeEpoch : ℤ}
    (h : (s.dispatchRouted rt routed activeEpoch fencingEpoch).2 = .error e) :
    (s.dispatchRouted rt routed activeEpoch fencingEpoch).1 = { s with
      pendingTxHashes := if (s.pendingTxHashes.get? routed.txId).isSome then s.pendingTxHashes
        else s.pendingTxHashes.set routed.txId (payloadHash rt routed.transaction)
      frontierTracker :=
        (s.frontierTracker.registerPendingTransaction routed.commitPosition).1 } := by
  revert h
  rw [dispatchRouted]
  split
  · next tracker e' hregister => exact fun _ => by rw [hregister]
  · next tracker hregister =>
      split
      · next barriers e' hbarrier =>
          intro _
          have hbarriers : barriers = s.barriers := by
            split_ifs at hbarrier with hmulti
            · exact prepare_error hbarrier
            · cases hbarrier
          rw [hregister, hbarriers]
      · intro h
        cases h

/-- **A dispatch that raises after routing**: it leaves the engine alone exactly when the position is
pending and the hash is kept already. -/
theorem dispatchRouted_keeps_iff {activeEpoch : ℤ}
    (h : (s.dispatchRouted rt routed activeEpoch fencingEpoch).2 = .error e) :
    Keeps s (s.dispatchRouted rt routed activeEpoch fencingEpoch).1 ↔
      s.IsPending routed.commitPosition ∧ (s.pendingTxHashes.get? routed.txId).isSome := by
  rw [dispatchRouted_error h]
  constructor
  · intro hkeeps
    exact ⟨register_keeps_iff.mp hkeeps.pending, hashes_eq_iff.mp hkeeps.hashes⟩
  · rintro ⟨hpending, hhash⟩
    exact ⟨register_keeps_iff.mpr hpending, hashes_eq_iff.mpr hhash, rfl, rfl⟩

/-- A dispatch after routing raises for a position that cannot be sorted among the pending ones, and
for a barrier under a stale epoch. -/
theorem dispatchRouted_isError_iff {activeEpoch : ℤ} :
    (∃ e, (s.dispatchRouted rt routed activeEpoch fencingEpoch).2 = .error e) ↔
      ¬ (s.frontierTracker.registerPendingTransaction routed.commitPosition).2 = .ok () ∨
        (routed.isMultiPartition = true ∧
          validateFencingToken activeEpoch fencingEpoch = false) := by
  by_cases hregister :
      (s.frontierTracker.registerPendingTransaction routed.commitPosition).2 = .ok ()
  · have hok : (∃ r, (s.dispatchRouted rt routed activeEpoch fencingEpoch).2 = .ok r) ↔ _ :=
      dispatchRouted_isOk_iff hregister
    have herror : (∃ e, (s.dispatchRouted rt routed activeEpoch fencingEpoch).2 = .error e) ↔
        ¬ ∃ r, (s.dispatchRouted rt routed activeEpoch fencingEpoch).2 = .ok r := by
      cases (s.dispatchRouted rt routed activeEpoch fencingEpoch).2 with
      | error e => simp
      | ok r => simp
    rw [herror, hok, Classical.not_imp, Bool.not_eq_true]
    exact ⟨Or.inr, fun h => h.resolve_left (not_not.mpr hregister)⟩
  · refine ⟨fun _ => .inl hregister, fun _ => ?_⟩
    rw [dispatchRouted]
    split
    · next tracker e h => exact ⟨e, rfl⟩
    · next tracker h =>
        rw [h] at hregister
        exact absurd rfl hregister

/-! ## All dispatches -/

/-- A dispatch that does not get to the tracker leaves the engine as it is; one that does goes on
after routing. -/
theorem dispatch_cases_tracker (s : CDCParallelApplyEngine) (tx : CDCTransaction)
    (activeEpoch fencingEpoch : ℤ) :
    ((∀ routed, ¬ ReachesTracker rt s tx routed) ∧
        (s.dispatchTransaction rt tx activeEpoch fencingEpoch).1 = s) ∨
      ∃ routed, ReachesTracker rt s tx routed ∧
        s.dispatchTransaction rt tx activeEpoch fencingEpoch =
          s.dispatchRouted rt routed activeEpoch fencingEpoch := by
  rw [dispatchTransaction]
  split_ifs with hpaused hsession hpayload
  · refine .inl ⟨fun routed h => ?_, rfl⟩
    rw [h.running] at hpaused
    cases hpaused
  · refine .inl ⟨fun routed h => ?_, rfl⟩
    rcases hsession with hne | hne
    · exact hne h.session.1
    · exact hne h.session.2
  · refine .inl ⟨fun routed h => ?_, rfl⟩
    obtain ⟨existing, hmem, hne⟩ := (Option.any_eq_true _ _).mp hpayload
    exact of_decide_eq_true hne (h.payload existing hmem)
  · rw [not_or, not_not, not_not] at hsession
    cases hroute : routeTransaction rt s.router tx with
    | error e =>
      refine .inl ⟨fun routed h => ?_, rfl⟩
      cases hroute.symm.trans h.routes
    | ok routed =>
      refine .inr ⟨routed, ⟨eq_false_of_ne_true hpaused, hsession, ?_, hroute⟩, rfl⟩
      intro existing hmem
      by_contra hne
      exact hpayload ((Option.any_eq_true _ _).mpr ⟨existing, hmem, decide_eq_true hne⟩)

/-- **The exact condition.**  A dispatch that raises leaves the pending positions, the hashes, the
queues and the locks as they were precisely when it is not rejected after it has been recorded. -/
theorem rejects_keep_iff (rt : DigestRuntime) (s : CDCParallelApplyEngine) (tx : CDCTransaction)
    (activeEpoch fencingEpoch : ℤ) :
    (∀ e, (s.dispatchTransaction rt tx activeEpoch fencingEpoch).2 = .error e →
        Keeps s (s.dispatchTransaction rt tx activeEpoch fencingEpoch).1) ↔
      RejectsEarly rt s tx activeEpoch fencingEpoch := by
  rcases @dispatch_cases_tracker rt s tx activeEpoch fencingEpoch with
    ⟨hnot, heq⟩ | ⟨routed, hreach, heq⟩
  · rw [heq]
    exact ⟨fun _ routed hreach => absurd hreach (hnot routed), fun _ e _ => ⟨rfl, rfl, rfl, rfl⟩⟩
  · have htx : routed.transaction = tx := (routeTransaction_ok rt hreach.routes).1
    have hposition : routed.commitPosition = tx.commitPosition := by
      rw [CDCRoutedTransaction.commitPosition, htx]
    have hid : routed.txId = tx.txId := by rw [CDCRoutedTransaction.txId, htx]
    have honly : ∀ routed', ReachesTracker rt s tx routed' → routed' = routed :=
      fun routed' h => Except.ok.inj (h.routes.symm.trans hreach.routes)
    have herror : (∃ e, (s.dispatchRouted rt routed activeEpoch fencingEpoch).2 = .error e) ↔ _ :=
      dispatchRouted_isError_iff
    rw [register_isOk_iff, hposition] at herror
    have hkeeps : ∀ e, (s.dispatchRouted rt routed activeEpoch fencingEpoch).2 = .error e →
        (Keeps s (s.dispatchRouted rt routed activeEpoch fencingEpoch).1 ↔
          s.IsPending tx.commitPosition ∧ (s.pendingTxHashes.get? tx.txId).isSome) := by
      intro e he
      rw [dispatchRouted_keeps_iff he, hposition, hid]
    rw [heq]
    constructor
    · intro h routed' hreach'
      rw [honly routed' hreach']
      refine ⟨?_, fun hmulti hstale => ?_⟩
      · by_contra hregister
        obtain ⟨e, he⟩ := herror.mpr (.inl hregister)
        exact hregister (.inl ((hkeeps e he).mp (h e he)).1)
      · obtain ⟨e, he⟩ := herror.mpr (.inr ⟨hmulti, hstale⟩)
        exact (hkeeps e he).mp (h e he)
    · intro h e he
      obtain ⟨hregister, hstale⟩ := h routed hreach
      rw [hkeeps e he]
      rcases herror.mp ⟨e, he⟩ with hnot | hmulti
      · exact absurd hregister hnot
      · exact hstale hmulti.1 hmulti.2

/-- A transaction over both partitions is dispatched under an epoch that is no longer active. -/
def staleDispatch : CDCParallelApplyEngine × Except PyRaised CDCRoutedTransaction :=
  sampleEngine.dispatchTransaction sampleRuntime
    (sampleTransaction "t1" 1 [sampleEvent "1", sampleEvent "2"]) 2 1

/-- The dispatch is rejected, and its position stays pending. -/
theorem not_keeps_of_stale_epoch :
    ¬ ∀ e, staleDispatch.2 = .error e → Keeps sampleEngine staleDispatch.1 := by
  intro h
  have hpositions : staleDispatch.1.frontierTracker.pendingPositions = [samplePosition 1] := by
    decide
  have hraises : staleDispatch.2.toOption.isSome = false := by decide
  cases hresult : staleDispatch.2 with
  | ok routed =>
    rw [hresult] at hraises
    cases hraises
  | error e =>
    have hpending := (h e hresult).pending
    rw [hpositions] at hpending
    cases hpending

end CDCParallelApplyEngine

end CDC

/-
# Fencing by leases

Runs of acquisitions and revocations of leases, with the record of what they issued and revoked.  One
row for each attempt, whose epoch every accepted call raises, fences off whatever was issued before.

* `Recorded.step` : the events of an attempt have rising epochs, and the last one is the row;
* `Fenced` : what that gives: rising epochs, no takeover of an unexpired lease, and no use of a lease
  that was superseded or revoked;
* `fenced_along` : every run of acquisitions and revocations is fenced.

The clock is any; a call that raises leaves the table as it was.
-/
import Akaal.ResultReconciliation

open TransitionRun

namespace PipelineLeases

/-! ## Calls and their record -/

/-- The two calls, each with the time it reads. -/
inductive LeaseAction where
  | acquire (leaseId attemptId ownerId expiresAt initializationFingerprint now : String)
  | revoke (attemptId now : String)

/-- What an accepted call did. -/
inductive LeaseEvent where
  | issued (lease : ExecutionLease)
  | revoked (attemptId : String) (fenceEpoch : ℤ)
  deriving DecidableEq

/-- The attempt of an event. -/
def LeaseEvent.attemptId : LeaseEvent → String
  | issued lease => lease.attemptId
  | revoked attemptId _ => attemptId

/-- The epoch of an event. -/
def LeaseEvent.fenceEpoch : LeaseEvent → ℤ
  | issued lease => lease.fenceEpoch
  | revoked _ fenceEpoch => fenceEpoch

/-- The table and the events so far. -/
structure LeaseHistory where
  table : LeaseTable
  log : List LeaseEvent

namespace LeaseHistory

/-- The table and its log after an accepted call. -/
def record (s : LeaseHistory) (table : LeaseTable) (event : LeaseEvent) : LeaseHistory :=
  ⟨table, s.log ++ [event]⟩

/-- One call. -/
def step (s : LeaseHistory) : LeaseAction → Option LeaseHistory
  | .acquire leaseId attemptId ownerId expiresAt fingerprint now =>
    match s.table.acquireLease leaseId attemptId ownerId expiresAt fingerprint now with
    | .ok (table, lease) => some (s.record table (.issued lease))
    | .error _ => some s
  | .revoke attemptId now =>
    match s.table.getLease attemptId with
    | some row => some (s.record (s.table.revokeLease attemptId now)
        (.revoked attemptId (row.fenceEpoch + 1)))
    | none => some s

/-- The events of an attempt. -/
def eventsOf (s : LeaseHistory) (attemptId : String) : List LeaseEvent :=
  s.log.filter fun event => event.attemptId = attemptId

/-- The leases that were issued for an attempt. -/
def leasesOf (s : LeaseHistory) (attemptId : String) : List ExecutionLease :=
  (s.eventsOf attemptId).filterMap fun
    | .issued lease => some lease
    | .revoked _ _ => none

/-- A lease that follows another one of its attempt is of the same owner, or was issued when that one had
expired. -/
def Succeeds : LeaseEvent → LeaseEvent → Prop
  | .issued before, .issued lease =>
    before.ownerId = lease.ownerId ∨ before.isExpired lease.issuedAt = true
  | _, _ => True

/-- No consumer accepts a lease id and an epoch for an attempt. -/
structure Refused (receiptCheck : ReceiptCheck) (t : LeaseTable) (lease : ExecutionLease) :
    Prop where
  validate : ∀ row, t.validateLease lease.attemptId lease.leaseId lease.fenceEpoch ≠ .ok row
  checkpoint : ∀ checkpoints checkpoints' candidate expected,
    candidate.attemptId = lease.attemptId → candidate.leaseId = lease.leaseId →
    candidate.fenceEpoch = lease.fenceEpoch →
    recordCheckpoint t checkpoints candidate expected ≠ .ok checkpoints'
  result : ∀ result expected reconciled,
    result.attemptId = lease.attemptId → result.leaseId = lease.leaseId →
    result.fenceEpoch = lease.fenceEpoch →
    receiptCheck.reconcileResult t result expected ≠ .ok reconciled

/-- **Fencing.**  Epochs rise, unexpired leases are not taken over, and a lease that was superseded or
revoked is refused. -/
structure Fenced (receiptCheck : ReceiptCheck) (s : LeaseHistory) : Prop where
  rising : ∀ attemptId,
    (s.leasesOf attemptId).Pairwise fun before lease => before.fenceEpoch < lease.fenceEpoch
  takeover : ∀ attemptId, (s.eventsOf attemptId).IsChain Succeeds
  superseded : ∀ before lease after, s.log = before ++ .issued lease :: after →
    (∃ event ∈ after, event.attemptId = lease.attemptId) → Refused receiptCheck s.table lease

/-! ## The invariant -/

/-- The events of every attempt have rising epochs and succeed one another; the last one is the row. -/
def Recorded (s : LeaseHistory) : Prop :=
  ∀ attemptId, (s.eventsOf attemptId).Pairwise (fun a b => a.fenceEpoch < b.fenceEpoch) ∧
    (s.eventsOf attemptId).IsChain Succeeds ∧
    ∀ last ∈ (s.eventsOf attemptId).getLast?, ∃ row, s.table.get? attemptId = some row ∧
      row.fenceEpoch = last.fenceEpoch ∧ ∀ lease, last = .issued lease → row = lease

/-- The events of an attempt after one more event. -/
theorem eventsOf_record (s : LeaseHistory) (table : LeaseTable) (event : LeaseEvent)
    (attemptId : String) :
    (s.record table event).eventsOf attemptId =
      s.eventsOf attemptId ++ if event.attemptId = attemptId then [event] else [] := by
  rw [eventsOf, record, List.filter_append]
  by_cases h : event.attemptId = attemptId
  · rw [if_pos h, List.filter_cons, if_pos (decide_eq_true h), List.filter_nil, eventsOf]
  · rw [if_neg h, List.filter_cons, if_neg (by simpa using h), List.filter_nil, eventsOf]

/-- In a list with rising epochs no epoch is above that of the last event. -/
theorem fenceEpoch_le_getLast {events : List LeaseEvent}
    (h : events.Pairwise fun a b => a.fenceEpoch < b.fenceEpoch) {last event : LeaseEvent}
    (hlast : last ∈ events.getLast?) (hevent : event ∈ events) :
    event.fenceEpoch ≤ last.fenceEpoch := by
  obtain ⟨before, rfl⟩ := List.getLast?_eq_some_iff.mp hlast
  obtain ⟨-, -, hrel⟩ := List.pairwise_append.mp h
  rcases List.mem_append.mp hevent with hmem | hmem
  · exact le_of_lt (hrel event hmem last List.mem_cons_self)
  · rw [List.mem_singleton.mp hmem]

/-- One more event is recorded when it has the next epoch of its attempt, succeeds the last event of the
attempt, and the row of the attempt, alone, becomes what it says. -/
theorem Recorded.record {s : LeaseHistory} (hs : s.Recorded) {table : LeaseTable}
    {event : LeaseEvent}
    (hother : ∀ a, a ≠ event.attemptId → table.get? a = s.table.get? a)
    (hrow : ∃ row, table.get? event.attemptId = some row ∧ row.fenceEpoch = event.fenceEpoch ∧
      ∀ lease, event = .issued lease → row = lease)
    (hepoch : ∀ row, s.table.get? event.attemptId = some row → row.fenceEpoch < event.fenceEpoch)
    (hsucceeds : ∀ last ∈ (s.eventsOf event.attemptId).getLast?, Succeeds last event) :
    (s.record table event).Recorded := by
  intro a
  obtain ⟨hrising, hchain, hlast⟩ := hs a
  rw [eventsOf_record]
  by_cases ha : event.attemptId = a
  · subst ha
    rw [if_pos rfl]
    refine ⟨?_, ?_, ?_⟩
    · refine List.pairwise_append.mpr ⟨hrising, List.pairwise_singleton _ _, ?_⟩
      intro before hbefore b hb
      rw [List.mem_singleton.mp hb]
      have hne : (s.eventsOf event.attemptId) ≠ [] := List.ne_nil_of_mem hbefore
      have hmem := List.getLast?_eq_some_getLast hne
      obtain ⟨row, hget, hsame, -⟩ := hlast _ hmem
      calc before.fenceEpoch ≤ _ := fenceEpoch_le_getLast hrising hmem hbefore
        _ = row.fenceEpoch := hsame.symm
        _ < event.fenceEpoch := hepoch row hget
    · refine hchain.append (List.isChain_singleton _) fun last hmem b hb => ?_
      rw [List.head?_cons, Option.mem_some_iff] at hb
      rw [← hb]
      exact hsucceeds last hmem
    · intro last hmem
      rw [List.getLast?_concat, Option.mem_some_iff] at hmem
      rw [← hmem]
      exact hrow
  · rw [if_neg ha, List.append_nil]
    refine ⟨hrising, hchain, fun last hmem => ?_⟩
    obtain ⟨row, hget, hsame⟩ := hlast last hmem
    exact ⟨row, (hother a (Ne.symm ha)).trans hget, hsame⟩

/-- **The record is kept.**  Every call leaves the events with rising epochs, each succeeding the one
before, and the rows as the last events say. -/
theorem Recorded.step {s s' : LeaseHistory} {action : LeaseAction} (hs : s.Recorded)
    (h : s.step action = some s') : s'.Recorded := by
  cases action with
  | acquire leaseId attemptId ownerId expiresAt fingerprint now =>
    rw [LeaseHistory.step] at h
    cases hacquire : s.table.acquireLease leaseId attemptId ownerId expiresAt fingerprint now with
    | error e =>
      rw [hacquire] at h
      rw [← Option.some.inj h]
      exact hs
    | ok r =>
      obtain ⟨table, lease⟩ := r
      rw [hacquire] at h
      rw [← Option.some.inj h]
      obtain ⟨hfree, rfl, rfl⟩ := LeaseTable.acquireLease_ok hacquire
      refine hs.record (fun a ha => PyDict.get?_set_of_ne _ _ ha) ?_ ?_ ?_
      · refine ⟨_, PyDict.get?_set _ _ _, rfl, fun lease hlease => ?_⟩
        exact LeaseEvent.issued.inj hlease
      · intro row hrow
        show row.fenceEpoch < s.table.nextEpoch attemptId
        replace hrow : s.table.get? attemptId = some row := hrow
        rw [LeaseTable.nextEpoch, hrow]
        exact lt_add_one _
      · intro last hlast
        obtain ⟨row, hrow, -, hsame⟩ := (hs attemptId).2.2 last hlast
        cases last with
        | revoked other fenceEpoch => trivial
        | issued before =>
          have hbefore : row = before := hsame before rfl
          rw [← hbefore]
          exact (hfree row hrow).imp_right decide_eq_true
  | revoke attemptId now =>
    rw [LeaseHistory.step, LeaseTable.getLease] at h
    cases hrow : s.table.get? attemptId with
    | none =>
      rw [hrow] at h
      rw [← Option.some.inj h]
      exact hs
    | some row =>
      rw [hrow] at h
      rw [← Option.some.inj h]
      refine hs.record (fun a ha => LeaseTable.get?_revokeLease_of_ne now ha) ?_ ?_ ?_
      · refine ⟨{ row with
          expiresAt := LeaseTable.pastIso
          fenceEpoch := row.fenceEpoch + 1
          renewedAt := now }, ?_, rfl, fun lease hlease => ?_⟩
        · show (s.table.revokeLease attemptId now).get? attemptId = _
          rw [LeaseTable.get?_revokeLease, hrow]
          rfl
        · cases hlease
      · intro found hfound
        replace hfound : s.table.get? attemptId = some found := hfound
        rw [hrow] at hfound
        rw [← Option.some.inj hfound]
        exact lt_add_one _
      · intro last _
        cases last <;> trivial

/-! ## What the record gives -/

theorem refused_of_epoch_ne {receiptCheck : ReceiptCheck} {t : LeaseTable} {lease row : ExecutionLease}
    (hrow : t.get? lease.attemptId = some row) (hne : row.fenceEpoch ≠ lease.fenceEpoch) :
    Refused receiptCheck t lease := by
  refine ⟨fun found h => ?_, fun checkpoints checkpoints' candidate expected ha hl he h => ?_,
    fun result expected reconciled ha hl he h => ?_⟩
  · obtain ⟨hfound, -, hepoch⟩ := LeaseTable.validateLease_eq_ok_iff.mp h
    rw [hrow] at hfound
    exact hne (by rw [Option.some.inj hfound, hepoch])
  · obtain ⟨found, hfound, -, hepoch⟩ := recordCheckpoint_ok h
    rw [ha, hrow] at hfound
    exact hne (by rw [Option.some.inj hfound, hepoch, he])
  · obtain ⟨found, hfound, -, hepoch⟩ := reconcileResult_ok receiptCheck h
    rw [ha, hrow] at hfound
    exact hne (by rw [Option.some.inj hfound, hepoch, he])

theorem Recorded.fenced {s : LeaseHistory} (hs : s.Recorded) (receiptCheck : ReceiptCheck) :
    Fenced receiptCheck s := by
  refine ⟨fun a => ?_, fun a => (hs a).2.1, ?_⟩
  · refine List.Pairwise.filterMap _ (fun x y hxy lease hlease lease' hlease' => ?_) (hs a).1
    cases x with
    | revoked => cases hlease
    | issued before =>
      cases y with
      | revoked => cases hlease'
      | issued after =>
        rw [← Option.some.inj hlease, ← Option.some.inj hlease']
        exact hxy
  · rintro before lease after hlog ⟨event, hevent, hattempt⟩
    obtain ⟨hrising, -, hlast⟩ := hs lease.attemptId
    have hevents : s.eventsOf lease.attemptId =
        before.filter (fun e => e.attemptId = lease.attemptId) ++ .issued lease ::
          after.filter fun e => e.attemptId = lease.attemptId := by
      rw [eventsOf, hlog, List.filter_append, List.filter_cons, if_pos (decide_eq_true (by rfl))]
    have hmem : event ∈ after.filter fun e => e.attemptId = lease.attemptId :=
      List.mem_filter.mpr ⟨hevent, decide_eq_true hattempt⟩
    -- the event comes after the lease and is not above the row
    have hlt : lease.fenceEpoch < event.fenceEpoch := by
      rw [hevents] at hrising
      exact (List.pairwise_cons.mp (List.pairwise_append.mp hrising).2.1).1 event hmem
    have hevent' : event ∈ s.eventsOf lease.attemptId := by
      rw [hevents]
      exact List.mem_append_right _ (List.mem_cons_of_mem _ hmem)
    have hgetLast := List.getLast?_eq_some_getLast (List.ne_nil_of_mem hevent')
    obtain ⟨row, hrow, hsame, -⟩ := hlast _ hgetLast
    refine refused_of_epoch_ne hrow (ne_of_gt (lt_of_lt_of_le hlt ?_))
    rw [hsame]
    exact fenceEpoch_le_getLast hrising hgetLast hevent'

theorem recorded_start (t : LeaseTable) : Recorded ⟨t, []⟩ := by
  intro a
  refine ⟨List.Pairwise.nil, List.IsChain.nil, fun last hlast => ?_⟩
  cases hlast

/-- **Every run is fenced.**  Along every sequence of acquisitions and revocations of leases, by any
owners at any times, from any table, the epochs issued for an attempt rise, an unexpired lease is taken
over by its owner only unless it is revoked, and a lease that was superseded or revoked is refused by
every consumer. -/
theorem fenced_along (receiptCheck : ReceiptCheck) (t : LeaseTable) (actions : List LeaseAction) :
    HoldsAlong step (Fenced receiptCheck) ⟨t, []⟩ actions :=
  (HoldsAlong.of_step (P := Recorded) (fun _ _ _ hs hstep => hs.step hstep) (recorded_start t)
    actions).imp fun _ hs => hs.fenced receiptCheck

end LeaseHistory

end PipelineLeases

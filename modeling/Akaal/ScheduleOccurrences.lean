/-
# Occurrences of schedules

`claim_occurrence`, `mark_dispatched`, `mark_completed` and `mark_failed` of
`akaalPipeline/operations/schedules.py`, for any occurrences, owners and attempts.  A claim takes the
lease of the attempt that its caller names; nothing ties the attempt to the occurrence, and only a claim
looks at the status.

* `claimOccurrence_cases` : when a claim is accepted, and what it does;
* `wellFenced_step_iff`, `wellFenced_along_iff` : owners exclude one another, no occurrence is claimed
  and dispatched again under an unexpired claim, and ended occurrences stay as they are, precisely when
  no call that the tables accept is one of the calls described.

Times, the ids of leases and the texts of errors are arguments of the calls.
-/
import Akaal.LeaseManager
import Akaal.TransitionRun

open TransitionRun

namespace ScheduleOccurrences

open PipelineLeases

/-! ## Occurrences -/

/-- `OccurrenceStatus`. -/
inductive OccurrenceStatus where
  | pending
  | claimed
  | dispatched
  | completed
  | failed
  | misfired
  | skippedOverlap
  deriving DecidableEq

/-- The statuses that `claim_occurrence` takes for terminal. -/
def OccurrenceStatus.isTerminal : OccurrenceStatus → Bool
  | .completed | .failed | .misfired | .skippedOverlap => true
  | _ => false

/-- A row of `schedule_occurrences`, with the columns that the calls read or write. -/
structure Occurrence where
  status : OccurrenceStatus := .pending
  claimAttemptId : Option String := none
  claimOwnerId : Option String := none
  leaseId : Option String := none
  fenceEpoch : ℤ := 1
  dispatchedAt : Option String := none
  dispatchedCommandId : Option String := none
  dispatchedOperationId : Option String := none
  completedAt : Option String := none
  resultSummary : Option String := none
  errorPayload : Option String := none
  updatedAt : String
  deriving DecidableEq

/-- The table `schedule_occurrences`, by the id of the occurrence. -/
abbrev OccurrenceTable := PyDict Occurrence

/-- The exceptions of the calls. -/
inductive ScheduleError where
  | notFound (occurrenceId : String)
  | alreadyTerminal (occurrenceId : String) (status : OccurrenceStatus)
  | lease (error : LeaseError)
  deriving DecidableEq

section Calls

variable (leases : LeaseTable) (occurrences : OccurrenceTable)

/-- `claim_occurrence`. -/
def claimOccurrence (occurrenceId ownerId attemptId leaseId now expiresAt : String) :
    Except ScheduleError (LeaseTable × OccurrenceTable × ExecutionLease) :=
  match occurrences.get? occurrenceId with
  | none => .error (.notFound occurrenceId)
  | some occ =>
    if occ.status.isTerminal then .error (.alreadyTerminal occurrenceId occ.status)
    else
      match leases.acquireLease leaseId attemptId ownerId expiresAt ("fp-occ-" ++ occurrenceId)
          now with
      | .error e => .error (.lease e)
      | .ok (leases, lease) =>
        .ok (leases, occurrences.set occurrenceId { occ with
          status := .claimed
          claimAttemptId := some attemptId
          claimOwnerId := some ownerId
          leaseId := some lease.leaseId
          fenceEpoch := lease.fenceEpoch
          updatedAt := now }, lease)

/-- The validation of the claim that `mark_dispatched` and `mark_completed` make. -/
def checkClaim (occ : Occurrence) (leaseId : String) (fenceEpoch : ℤ) : Except ScheduleError Unit :=
  match occ.claimAttemptId with
  | none => .ok ()
  | some attemptId =>
    if attemptId = "" then .ok ()
    else
      match leases.validateLease attemptId leaseId fenceEpoch with
      | .error e => .error (.lease e)
      | .ok _ => .ok ()

/-- A change of a row that presents a lease. -/
def markUnderClaim (occurrenceId leaseId : String) (fenceEpoch : ℤ) (change : Occurrence → Occurrence) :
    Except ScheduleError OccurrenceTable :=
  match occurrences.get? occurrenceId with
  | none => .error (.notFound occurrenceId)
  | some occ =>
    match checkClaim leases occ leaseId fenceEpoch with
    | .error e => .error e
    | .ok () => .ok (occurrences.set occurrenceId (change occ))

/-- `mark_dispatched`. -/
def markDispatched (occurrenceId commandId leaseId : String) (fenceEpoch : ℤ) (now : String) :
    Except ScheduleError OccurrenceTable :=
  markUnderClaim leases occurrences occurrenceId leaseId fenceEpoch fun occ =>
    { occ with
      status := .dispatched
      dispatchedCommandId := some commandId
      dispatchedAt := some now
      updatedAt := now }

/-- `mark_completed`. -/
def markCompleted (occurrenceId operationId resultSummary leaseId : String) (fenceEpoch : ℤ)
    (now : String) : Except ScheduleError OccurrenceTable :=
  markUnderClaim leases occurrences occurrenceId leaseId fenceEpoch fun occ =>
    { occ with
      status := .completed
      dispatchedOperationId := some operationId
      completedAt := some now
      resultSummary := some resultSummary
      updatedAt := now }

/-- `mark_failed`; a lease conflict is passed over, so that the lease it is given plays no part. -/
def markFailed (occurrenceId errorJson : String) (_leaseId : Option String) (_fenceEpoch : Option ℤ)
    (now : String) : Except ScheduleError OccurrenceTable :=
  match occurrences.get? occurrenceId with
  | none => .error (.notFound occurrenceId)
  | some occ => .ok (occurrences.set occurrenceId
      { occ with status := .failed, errorPayload := some errorJson, updatedAt := now })

end Calls

/-! ## Owners and their claims -/

/-- What has happened to an occurrence: the claims it was given, whether it was dispatched since the last
one, and the earlier claims under which it was dispatched. -/
structure ClaimRecord where
  claims : List ExecutionLease := []
  dispatched : Bool := false
  spent : List ExecutionLease := []

/-- A claim is given: the last claim is spent if the occurrence was dispatched under it. -/
def ClaimRecord.claim (r : ClaimRecord) (lease : ExecutionLease) : ClaimRecord where
  claims := r.claims ++ [lease]
  dispatched := false
  spent := if r.dispatched then r.spent ++ r.claims.getLast?.toList else r.spent

/-- The tables, and the record of every occurrence. -/
structure Scheduler where
  leases : LeaseTable
  occurrences : OccurrenceTable
  record : String → ClaimRecord

/-- The calls. -/
inductive Call where
  | claim (occurrenceId ownerId attemptId leaseId now expiresAt : String)
  | markDispatched (occurrenceId commandId leaseId : String) (fenceEpoch : ℤ) (now : String)
  | markCompleted (occurrenceId operationId resultSummary leaseId : String) (fenceEpoch : ℤ)
      (now : String)
  | markFailed (occurrenceId errorJson : String) (leaseId : Option String)
      (fenceEpoch : Option ℤ) (now : String)

namespace Scheduler

variable (s : Scheduler)

/-- The scheduler with other occurrences, or as it was after an exception. -/
def marked (r : Except ScheduleError OccurrenceTable) : Scheduler :=
  match r with
  | .ok occurrences => { s with occurrences := occurrences }
  | .error _ => s

/-- One call; one that raises leaves everything as it was. -/
def step : Call → Option Scheduler
  | .claim occurrenceId ownerId attemptId leaseId now expiresAt =>
    match claimOccurrence s.leases s.occurrences occurrenceId ownerId attemptId leaseId now
        expiresAt with
    | .ok (leases, occurrences, lease) => some ⟨leases, occurrences,
        Function.update s.record occurrenceId ((s.record occurrenceId).claim lease)⟩
    | .error _ => some s
  | .markDispatched occurrenceId commandId leaseId fenceEpoch now =>
    match ScheduleOccurrences.markDispatched s.leases s.occurrences occurrenceId commandId leaseId
        fenceEpoch now with
    | .ok occurrences => some ⟨s.leases, occurrences, Function.update s.record occurrenceId
          { s.record occurrenceId with dispatched := true }⟩
    | .error _ => some s
  | .markCompleted occurrenceId operationId resultSummary leaseId fenceEpoch now =>
    some (s.marked (ScheduleOccurrences.markCompleted s.leases s.occurrences occurrenceId
      operationId resultSummary leaseId fenceEpoch now))
  | .markFailed occurrenceId errorJson leaseId fenceEpoch now =>
    some (s.marked (ScheduleOccurrences.markFailed s.occurrences occurrenceId errorJson leaseId
      fenceEpoch now))

/-! ### When the calls are accepted -/

/-- The tables accept a claim: the occurrence has not ended, no other attempt holds a lease of the id,
and no other owner an unexpired lease of the attempt. -/
def Claimable (occurrenceId ownerId attemptId leaseId now : String) : Prop :=
  ∃ occ, s.occurrences.get? occurrenceId = some occ ∧ occ.status.isTerminal = false ∧
    s.leases.leaseIdTaken leaseId attemptId = false ∧
    ∀ row, s.leases.get? attemptId = some row → row.ownerId = ownerId ∨ row.expiresAt < now

/-- The occurrence is under no attempt, or a lease id and an epoch are those of the lease of its
attempt. -/
def Presents (occ : Occurrence) (leaseId : String) (fenceEpoch : ℤ) : Prop :=
  ∀ attemptId, occ.claimAttemptId = some attemptId → attemptId ≠ "" →
    ∃ row, s.leases.get? attemptId = some row ∧ row.leaseId = leaseId ∧ row.fenceEpoch = fenceEpoch

variable {s}

/-- A claim is refused, or it is accepted and does what it says. -/
theorem claimOccurrence_cases (occurrenceId ownerId attemptId leaseId now expiresAt : String) :
    (¬ s.Claimable occurrenceId ownerId attemptId leaseId now ∧
      ∃ e, claimOccurrence s.leases s.occurrences occurrenceId ownerId attemptId leaseId now
        expiresAt = .error e) ∨
    ∃ occ claimed leases lease, s.Claimable occurrenceId ownerId attemptId leaseId now ∧
      s.occurrences.get? occurrenceId = some occ ∧ occ.status.isTerminal = false ∧
      lease.ownerId = ownerId ∧ lease.issuedAt = now ∧ lease.expiresAt = expiresAt ∧
      claimOccurrence s.leases s.occurrences occurrenceId ownerId attemptId leaseId now expiresAt =
        .ok (leases, s.occurrences.set occurrenceId claimed, lease) := by
  rw [claimOccurrence, Claimable]
  cases hocc : s.occurrences.get? occurrenceId with
  | none =>
    refine Or.inl ⟨?_, _, rfl⟩
    rintro ⟨occ, hsome, -⟩
    cases hsome
  | some occ =>
    simp only
    cases hterminal : occ.status.isTerminal with
    | true =>
      refine Or.inl ⟨?_, _, if_pos rfl⟩
      rintro ⟨found, hfound, hopen, -⟩
      rw [← Option.some.inj hfound, hterminal] at hopen
      cases hopen
    | false =>
      rw [if_neg Bool.false_ne_true]
      cases hacquire : s.leases.acquireLease leaseId attemptId ownerId expiresAt
          ("fp-occ-" ++ occurrenceId) now with
      | error e =>
        refine Or.inl ⟨?_, _, rfl⟩
        rintro ⟨found, -, -, haccept⟩
        obtain ⟨r, hok⟩ := LeaseTable.acquireLease_accepted_iff.mpr haccept
        rw [hacquire] at hok
        cases hok
      | ok r =>
        obtain ⟨leases, lease⟩ := r
        have haccept := LeaseTable.acquireLease_accepted_iff.mp ⟨_, hacquire⟩
        obtain ⟨-, rfl, -⟩ := LeaseTable.acquireLease_ok hacquire
        exact Or.inr ⟨occ, _, leases, _, ⟨occ, rfl, hterminal, haccept⟩, rfl, hterminal, rfl,
          rfl, rfl, rfl⟩

theorem checkClaim_eq_ok_iff {occ : Occurrence} {leaseId : String} {fenceEpoch : ℤ} :
    checkClaim s.leases occ leaseId fenceEpoch = .ok () ↔ s.Presents occ leaseId fenceEpoch := by
  rw [checkClaim, Presents]
  cases occ.claimAttemptId with
  | none => exact iff_of_true rfl fun attemptId h => by cases h
  | some attemptId =>
    simp only
    split_ifs with hempty
    · refine iff_of_true rfl fun other hother hne => ?_
      rw [← Option.some.inj hother] at hne
      exact absurd hempty hne
    · constructor
      · intro h other hother _
        rw [← Option.some.inj hother]
        cases hvalid : s.leases.validateLease attemptId leaseId fenceEpoch with
        | error e =>
          rw [hvalid] at h
          cases h
        | ok row => exact ⟨row, LeaseTable.validateLease_eq_ok_iff.mp hvalid⟩
      · intro h
        obtain ⟨row, hrow⟩ := h attemptId rfl hempty
        rw [LeaseTable.validateLease_eq_ok_iff.mpr hrow]

/-- A change under a claim is refused, or it is accepted and changes the row. -/
theorem markUnderClaim_cases (occurrenceId leaseId : String) (fenceEpoch : ℤ)
    (change : Occurrence → Occurrence) :
    ((∀ occ, s.occurrences.get? occurrenceId = some occ → ¬ s.Presents occ leaseId fenceEpoch) ∧
      ∃ e, markUnderClaim s.leases s.occurrences occurrenceId leaseId fenceEpoch change =
        .error e) ∨
    ∃ occ, s.occurrences.get? occurrenceId = some occ ∧ s.Presents occ leaseId fenceEpoch ∧
      markUnderClaim s.leases s.occurrences occurrenceId leaseId fenceEpoch change =
        .ok (s.occurrences.set occurrenceId (change occ)) := by
  rw [markUnderClaim]
  cases hocc : s.occurrences.get? occurrenceId with
  | none =>
    refine Or.inl ⟨fun occ h => ?_, _, rfl⟩
    cases h
  | some occ =>
    simp only
    cases hcheck : checkClaim s.leases occ leaseId fenceEpoch with
    | error e =>
      refine Or.inl ⟨fun found hfound hpresents => ?_, _, rfl⟩
      rw [← Option.some.inj hfound] at hpresents
      rw [checkClaim_eq_ok_iff.mpr hpresents] at hcheck
      cases hcheck
    | ok _ => exact Or.inr ⟨occ, rfl, checkClaim_eq_ok_iff.mp hcheck, rfl⟩

/-! ### What should hold -/

/-- The lease is held at a time: issued by then, and unexpired. -/
def HeldAt (lease : ExecutionLease) (time : String) : Prop :=
  lease.issuedAt ≤ time ∧ time ≤ lease.expiresAt

/-- At any time at most one owner holds an unexpired claim of an occurrence. -/
def Exclusive (s : Scheduler) : Prop :=
  ∀ occurrenceId, ∀ a ∈ (s.record occurrenceId).claims, ∀ b ∈ (s.record occurrenceId).claims,
    ∀ time, HeldAt a time → HeldAt b time → a.ownerId = b.ownerId

/-- An occurrence that has ended keeps its status. -/
def TerminalKept (s s' : Scheduler) : Prop :=
  ∀ occurrenceId occ, s.occurrences.get? occurrenceId = some occ → occ.status.isTerminal = true →
    ∃ occ', s'.occurrences.get? occurrenceId = some occ' ∧ occ'.status = occ.status

/-- An accepted dispatch is not the second one under an unexpired claim: the earlier claims under which
the occurrence was dispatched have expired. -/
def FiresOnce (s : Scheduler) (call : Call) : Prop :=
  ∀ occurrenceId commandId leaseId fenceEpoch now occurrences,
    call = .markDispatched occurrenceId commandId leaseId fenceEpoch now →
    ScheduleOccurrences.markDispatched s.leases s.occurrences occurrenceId commandId leaseId
      fenceEpoch now = .ok occurrences →
    ∀ claim ∈ (s.record occurrenceId).spent, claim.isExpired now = true

/-- A call leaves owners exclusive and ended occurrences as they were, and fires nothing twice. -/
structure WellFenced (s : Scheduler) (call : Call) : Prop where
  exclusive : ∀ s', s.step call = some s' → s'.Exclusive
  terminal : ∀ s', s.step call = some s' → s.TerminalKept s'
  firesOnce : s.FiresOnce call

/-- The call is none of those that the tables accept though they should not: a claim while another owner
holds one; a dispatch of an ended occurrence, or of one dispatched under an earlier claim that is
unexpired; a completion of an occurrence that ended otherwise; a failure of one that did. -/
def Undisputed (s : Scheduler) : Call → Prop
  | .claim occurrenceId ownerId attemptId leaseId now expiresAt =>
    s.Claimable occurrenceId ownerId attemptId leaseId now →
      ∀ held ∈ (s.record occurrenceId).claims, held.ownerId ≠ ownerId →
        ∀ time, HeldAt held time → ¬ (now ≤ time ∧ time ≤ expiresAt)
  | .markDispatched occurrenceId _ leaseId fenceEpoch now =>
    ∀ occ, s.occurrences.get? occurrenceId = some occ → s.Presents occ leaseId fenceEpoch →
      occ.status.isTerminal = false ∧ ∀ claim ∈ (s.record occurrenceId).spent, claim.expiresAt < now
  | .markCompleted occurrenceId _ _ leaseId fenceEpoch _ =>
    ∀ occ, s.occurrences.get? occurrenceId = some occ → s.Presents occ leaseId fenceEpoch →
      occ.status.isTerminal = true → occ.status = .completed
  | .markFailed occurrenceId _ _ _ _ =>
    ∀ occ, s.occurrences.get? occurrenceId = some occ → occ.status.isTerminal = true →
      occ.status = .failed

/-! ### One call -/

theorem terminalKept_refl (s : Scheduler) : s.TerminalKept s := fun _ occ hocc _ => ⟨occ, hocc, rfl⟩

theorem wellFenced_of_refused {call : Call} (hs : s.Exclusive) (hstep : s.step call = some s)
    (hfires : s.FiresOnce call) : s.WellFenced call := by
  refine ⟨fun s' h => ?_, fun s' h => ?_, hfires⟩
  · rw [hstep] at h
    rw [← Option.some.inj h]
    exact hs
  · rw [hstep] at h
    rw [← Option.some.inj h]
    exact terminalKept_refl s

/-- Writing one occurrence keeps those that have ended precisely when it does not end another way. -/
theorem terminalKept_set_iff {occurrenceId : String} {occ : Occurrence}
    (hocc : s.occurrences.get? occurrenceId = some occ) (written : Occurrence) (leases : LeaseTable)
    (record : String → ClaimRecord) :
    s.TerminalKept ⟨leases, s.occurrences.set occurrenceId written, record⟩ ↔
      (occ.status.isTerminal = true → written.status = occ.status) := by
  constructor
  · intro h hterminal
    obtain ⟨found, hfound, hsame⟩ := h occurrenceId occ hocc hterminal
    replace hfound : (s.occurrences.set occurrenceId written).get? occurrenceId = some found := hfound
    rw [PyDict.get?_set] at hfound
    rw [Option.some.inj hfound, hsame]
  · intro h other found hfound hterminal
    by_cases hother : other = occurrenceId
    · subst hother
      rw [hocc] at hfound
      cases hfound
      exact ⟨written, PyDict.get?_set _ _ _, h hterminal⟩
    · exact ⟨found, (PyDict.get?_set_of_ne _ _ hother).trans hfound, rfl⟩

/-- One more claim leaves owners exclusive precisely when no other owner holds one at a time of it. -/
theorem exclusive_claim_iff (hs : s.Exclusive) (occurrenceId : String) (lease : ExecutionLease)
    (leases : LeaseTable) (occurrences : OccurrenceTable) :
    Exclusive ⟨leases, occurrences,
      Function.update s.record occurrenceId ((s.record occurrenceId).claim lease)⟩ ↔
      ∀ held ∈ (s.record occurrenceId).claims, held.ownerId ≠ lease.ownerId →
        ∀ time, HeldAt held time → ¬ HeldAt lease time := by
  constructor
  · intro h held hheld howner time hheldAt hleaseAt
    have hclaims := h occurrenceId
    simp only [Function.update_self] at hclaims
    exact howner (hclaims held (List.mem_append_left _ hheld) lease
      (List.mem_append_right _ List.mem_cons_self) time hheldAt hleaseAt)
  · intro h other a ha b hb time hat hbt
    by_cases hother : other = occurrenceId
    · subst hother
      simp only [Function.update_self] at ha hb
      rcases List.mem_append.mp ha with ha | ha <;> rcases List.mem_append.mp hb with hb | hb
      · exact hs other a ha b hb time hat hbt
      · rw [List.mem_singleton.mp hb] at hbt ⊢
        by_contra howner
        exact h a ha howner time hat hbt
      · rw [List.mem_singleton.mp ha] at hat ⊢
        by_contra howner
        exact h b hb (Ne.symm howner) time hbt hat
      · rw [List.mem_singleton.mp ha, List.mem_singleton.mp hb]
    · simp only [Function.update_of_ne hother] at ha hb
      exact hs other a ha b hb time hat hbt

/-- What a completion or a failure does is well fenced when the occurrence had not ended another
way. -/
theorem wellFenced_marked_iff {call : Call} (hs : s.Exclusive) {occurrenceId : String}
    {occ written : Occurrence} (hocc : s.occurrences.get? occurrenceId = some occ)
    (hstep : s.step call = some { s with occurrences := s.occurrences.set occurrenceId written })
    (hfires : s.FiresOnce call) :
    s.WellFenced call ↔ (occ.status.isTerminal = true → occ.status = written.status) := by
  have hkept := terminalKept_set_iff hocc written s.leases s.record
  constructor
  · intro h hterminal
    exact (hkept.mp (h.terminal _ hstep) hterminal).symm
  · intro h
    refine ⟨fun s' hs' => ?_, fun s' hs' => ?_, hfires⟩
    · rw [hstep] at hs'
      rw [← Option.some.inj hs']
      exact hs
    · rw [hstep] at hs'
      rw [← Option.some.inj hs']
      exact hkept.mpr fun hterminal => (h hterminal).symm

/-- A claim is well fenced precisely when it is undisputed. -/
theorem wellFenced_claim_iff (hs : s.Exclusive)
    (occurrenceId ownerId attemptId leaseId now expiresAt : String) :
    s.WellFenced (.claim occurrenceId ownerId attemptId leaseId now expiresAt) ↔
      s.Undisputed (.claim occurrenceId ownerId attemptId leaseId now expiresAt) := by
  have hfires : s.FiresOnce (.claim occurrenceId ownerId attemptId leaseId now expiresAt) := by
    intro _ _ _ _ _ _ hcall
    cases hcall
  rcases s.claimOccurrence_cases occurrenceId ownerId attemptId leaseId now expiresAt with
    ⟨hnot, e, herror⟩ | ⟨occ, claimed, leases, lease, hclaimable, hocc, hopen, rfl, rfl, rfl, hok⟩
  · refine iff_of_true (wellFenced_of_refused hs ?_ hfires) fun hclaimable => absurd hclaimable hnot
    rw [step, herror]
  · have hstep : s.step (.claim occurrenceId lease.ownerId attemptId leaseId lease.issuedAt
        lease.expiresAt) = some ⟨leases, s.occurrences.set occurrenceId claimed,
          Function.update s.record occurrenceId ((s.record occurrenceId).claim lease)⟩ := by
      rw [step, hok]
    have hexclusive := exclusive_claim_iff hs occurrenceId lease leases
      (s.occurrences.set occurrenceId claimed)
    constructor
    · intro h _
      exact hexclusive.mp (h.exclusive _ hstep)
    · intro h
      refine ⟨fun s' hs' => ?_, fun s' hs' => ?_, hfires⟩
      · rw [hstep] at hs'
        rw [← Option.some.inj hs']
        exact hexclusive.mpr (h hclaimable)
      · rw [hstep] at hs'
        rw [← Option.some.inj hs']
        refine (terminalKept_set_iff hocc _ _ _).mpr fun hterminal => ?_
        rw [hopen] at hterminal
        cases hterminal

/-- So is a dispatch. -/
theorem wellFenced_markDispatched_iff (hs : s.Exclusive)
    (occurrenceId commandId leaseId : String) (fenceEpoch : ℤ) (now : String) :
    s.WellFenced (.markDispatched occurrenceId commandId leaseId fenceEpoch now) ↔
      s.Undisputed (.markDispatched occurrenceId commandId leaseId fenceEpoch now) := by
  rcases s.markUnderClaim_cases occurrenceId leaseId fenceEpoch (fun occ => { occ with
      status := .dispatched
      dispatchedCommandId := some commandId
      dispatchedAt := some now
      updatedAt := now }) with ⟨hnot, e, herror⟩ | ⟨occ, hocc, hpresents, hok⟩
  · refine iff_of_true (wellFenced_of_refused hs ?_ ?_) fun occ hocc hpresents =>
      absurd hpresents (hnot occ hocc)
    · rw [step, markDispatched, herror]
    · rintro _ _ _ _ _ occurrences ⟨⟩ hmarked
      rw [markDispatched, herror] at hmarked
      cases hmarked
  · obtain ⟨written, hstatus, hmarked⟩ : ∃ written : Occurrence, written.status = .dispatched ∧
        ScheduleOccurrences.markDispatched s.leases s.occurrences occurrenceId commandId leaseId
          fenceEpoch now = .ok (s.occurrences.set occurrenceId written) := ⟨_, rfl, hok⟩
    have hstep : s.step (.markDispatched occurrenceId commandId leaseId fenceEpoch now) = some
        ⟨s.leases, s.occurrences.set occurrenceId written, Function.update s.record occurrenceId
          { s.record occurrenceId with dispatched := true }⟩ := by
      rw [step, hmarked]
    constructor
    · intro h found hfound _
      obtain rfl : occ = found := Option.some.inj (hocc.symm.trans hfound)
      refine ⟨?_, fun claim hclaim => ?_⟩
      · by_contra hterminal
        rw [Bool.not_eq_false] at hterminal
        have hsame := (terminalKept_set_iff hocc _ _ _).mp (h.terminal _ hstep) hterminal
        rw [← hsame, hstatus] at hterminal
        cases hterminal
      · exact of_decide_eq_true
          (h.firesOnce occurrenceId commandId leaseId fenceEpoch now _ rfl hmarked claim hclaim)
    · intro h
      obtain ⟨hopen, hspent⟩ := h occ hocc hpresents
      refine ⟨fun s' hs' => ?_, fun s' hs' => ?_, ?_⟩
      · rw [hstep] at hs'
        rw [← Option.some.inj hs']
        intro other
        have hclaims : (Function.update s.record occurrenceId
            { s.record occurrenceId with dispatched := true } other).claims =
              (s.record other).claims := by
          by_cases hother : other = occurrenceId
          · rw [hother, Function.update_self]
          · rw [Function.update_of_ne hother]
        rw [hclaims]
        exact hs other
      · rw [hstep] at hs'
        rw [← Option.some.inj hs']
        refine (terminalKept_set_iff hocc _ _ _).mpr fun hterminal => ?_
        rw [hopen] at hterminal
        cases hterminal
      · rintro _ _ _ _ _ occurrences ⟨⟩ _ claim hclaim
        exact decide_eq_true (hspent claim hclaim)

/-- And a completion. -/
theorem wellFenced_markCompleted_iff (hs : s.Exclusive)
    (occurrenceId operationId resultSummary leaseId : String) (fenceEpoch : ℤ) (now : String) :
    s.WellFenced (.markCompleted occurrenceId operationId resultSummary leaseId fenceEpoch now) ↔
      s.Undisputed
        (.markCompleted occurrenceId operationId resultSummary leaseId fenceEpoch now) := by
  have hfires : s.FiresOnce
      (.markCompleted occurrenceId operationId resultSummary leaseId fenceEpoch now) := by
    intro _ _ _ _ _ _ hcall
    cases hcall
  rcases s.markUnderClaim_cases occurrenceId leaseId fenceEpoch (fun occ => { occ with
      status := .completed
      dispatchedOperationId := some operationId
      completedAt := some now
      resultSummary := some resultSummary
      updatedAt := now }) with ⟨hnot, e, herror⟩ | ⟨occ, hocc, hpresents, hok⟩
  · refine iff_of_true (wellFenced_of_refused hs ?_ hfires) fun occ hocc hpresents =>
      absurd hpresents (hnot occ hocc)
    rw [step, markCompleted, herror]
    rfl
  · refine (wellFenced_marked_iff hs hocc (by rw [step, markCompleted, hok]; rfl) hfires).trans ?_
    constructor
    · intro h found hfound _ hterminal
      obtain rfl : occ = found := Option.some.inj (hocc.symm.trans hfound)
      exact h hterminal
    · intro h
      exact h occ hocc hpresents

/-- And a failure. -/
theorem wellFenced_markFailed_iff (hs : s.Exclusive) (occurrenceId errorJson : String)
    (leaseId : Option String) (fenceEpoch : Option ℤ) (now : String) :
    s.WellFenced (.markFailed occurrenceId errorJson leaseId fenceEpoch now) ↔
      s.Undisputed (.markFailed occurrenceId errorJson leaseId fenceEpoch now) := by
  have hfires : s.FiresOnce (.markFailed occurrenceId errorJson leaseId fenceEpoch now) := by
    intro _ _ _ _ _ _ hcall
    cases hcall
  cases hocc : s.occurrences.get? occurrenceId with
  | none =>
    refine iff_of_true (wellFenced_of_refused hs ?_ hfires) fun occ hfound => ?_
    · rw [step, markFailed, hocc]
      rfl
    · rw [hocc] at hfound
      cases hfound
  | some occ =>
    refine (wellFenced_marked_iff hs hocc (by rw [step, markFailed, hocc]; rfl) hfires).trans ?_
    constructor
    · intro h found hfound hterminal
      obtain rfl : occ = found := Option.some.inj (hocc.symm.trans hfound)
      exact h hterminal
    · intro h
      exact h occ hocc

/-- One call is well fenced precisely when it is undisputed. -/
theorem wellFenced_step_iff (hs : s.Exclusive) (call : Call) :
    s.WellFenced call ↔ s.Undisputed call := by
  cases call with
  | claim occurrenceId ownerId attemptId leaseId now expiresAt =>
    exact wellFenced_claim_iff hs occurrenceId ownerId attemptId leaseId now expiresAt
  | markDispatched occurrenceId commandId leaseId fenceEpoch now =>
    exact wellFenced_markDispatched_iff hs occurrenceId commandId leaseId fenceEpoch now
  | markCompleted occurrenceId operationId resultSummary leaseId fenceEpoch now =>
    exact wellFenced_markCompleted_iff hs occurrenceId operationId resultSummary leaseId fenceEpoch
      now
  | markFailed occurrenceId errorJson leaseId fenceEpoch now =>
    exact wellFenced_markFailed_iff hs occurrenceId errorJson leaseId fenceEpoch now

/-- The tables before any claim. -/
def start (leases : LeaseTable) (occurrences : OccurrenceTable) : Scheduler :=
  ⟨leases, occurrences, fun _ => {}⟩

/-- **Firing once.**  Along every interleaving of calls, from any tables, every call is well fenced
precisely when every call is undisputed. -/
theorem wellFenced_along_iff (leases : LeaseTable) (occurrences : OccurrenceTable)
    (calls : List Call) :
    MeetsAlong step WellFenced (start leases occurrences) calls ↔
      MeetsAlong step Undisputed (start leases occurrences) calls :=
  meetsAlong_iff_meetsAlong (I := Exclusive) (fun _ _ _ _ h hstep => h.exclusive _ hstep)
    (fun _ call _ hs _ => wellFenced_step_iff hs call)
    (fun _ _ ha => absurd ha List.not_mem_nil) calls

/-- Two owners claim one occurrence, each under its own attempt. -/
theorem two_owners_claim : ¬ MeetsAlong step WellFenced
      (start PyDict.empty (PyDict.empty.set "occ-1" { updatedAt := "2024-01-01T00:00:00" }))
      [.claim "occ-1" "owner-a" "att-a" "lease-a" "2024-01-01T00:00:00" "2024-01-01T00:01:00",
        .claim "occ-1" "owner-b" "att-b" "lease-b" "2024-01-01T00:00:01" "2024-01-01T00:01:01"] := by
  intro h
  have hexclusive := ((h _ rfl).2 _ rfl).1.exclusive _ rfl
  have howners := hexclusive "occ-1" _ List.mem_cons_self _
    (List.mem_cons_of_mem _ List.mem_cons_self) "2024-01-01T00:00:30"
    ⟨show "2024-01-01T00:00:00" ≤ "2024-01-01T00:00:30" by decide,
      show "2024-01-01T00:00:30" ≤ "2024-01-01T00:01:00" by decide⟩
    ⟨show "2024-01-01T00:00:01" ≤ "2024-01-01T00:00:30" by decide,
      show "2024-01-01T00:00:30" ≤ "2024-01-01T00:01:01" by decide⟩
  exact absurd howners (by decide)

end Scheduler

end ScheduleOccurrences

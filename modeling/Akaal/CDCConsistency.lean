/-
# The consistency boundary

`CDCConsistencyBoundary` of `cdc/domain/consistency.py`: the positions up to which changes are
captured, applied and acknowledged.  Each of the three setters compares a new position with one
other position only.

* `consistent_iff` : the sequences of updates along which the three positions stay in order and
  none moves backwards;
* `not_consistent_of_regression` : the applied position falls behind the acknowledged one.
-/
import Akaal.CDCFrontier
import Akaal.TransitionRun

open TransitionRun

namespace CDC

/-! ## The boundary -/

/-- `CDCConsistencyBoundary`. -/
structure CDCConsistencyBoundary where
  migrationId : String
  jobId : String
  runId : String
  initialLoadSnapshotPosition : CDCSourcePosition
  cdcCaptureStartPosition : CDCSourcePosition
  lastDurablyCapturedPosition : Option CDCSourcePosition
  lastDurablyAppliedPosition : Option CDCSourcePosition
  lastAcknowledgedPosition : Option CDCSourcePosition
  migration_ne : migrationId ≠ ""
  job_ne : jobId ≠ ""
  run_ne : runId ≠ ""
  start_engine : cdcCaptureStartPosition.engine = initialLoadSnapshotPosition.engine
  start_notAfter : cdcCaptureStartPosition.isAfter initialLoadSnapshotPosition = .ok false

namespace CDCConsistencyBoundary

/-- `CDCConsistencyBoundary(...)`. -/
def new (migrationId jobId runId : String) (snapshot : CDCSourcePosition)
    (captureStart : Option CDCSourcePosition) : Except PyRaised CDCConsistencyBoundary :=
  let start := captureStart.getD snapshot
  if hids : migrationId = "" ∨ jobId = "" ∨ runId = "" then
    .error (.valueError "Consistency boundary identity bindings (migration_id, job_id, run_id) must be non-empty.")
  else if hengine : start.engine ≠ snapshot.engine then
    .error (.typeError ("[CONSISTENCY BOUNDARY ERROR] Cross-engine position comparison rejected: " ++
      "cdc_capture_start (" ++ start.engine ++ ") vs snapshot (" ++ snapshot.engine ++ ")."))
  else
    match hafter : start.isAfter snapshot with
    | .error e => .error e
    | .ok true =>
      .error (.valueError ("[CONSISTENCY BOUNDARY ERROR] CDC capture start position (" ++
        start.str ++ ") is AFTER initial load snapshot position (" ++ snapshot.str ++
        ")! Changes committed during initial bulk load would be lost."))
    | .ok false => .ok {
        migrationId := migrationId
        jobId := jobId
        runId := runId
        initialLoadSnapshotPosition := snapshot
        cdcCaptureStartPosition := start
        lastDurablyCapturedPosition := none
        lastDurablyAppliedPosition := none
        lastAcknowledgedPosition := none
        migration_ne := fun h => hids (.inl h)
        job_ne := fun h => hids (.inr (.inl h))
        run_ne := fun h => hids (.inr (.inr h))
        start_engine := not_not.mp hengine
        start_notAfter := hafter }

/-- The checks of a setter: the engine of the new position, and a comparison with one position
that is held. -/
def checkPosition (b : CDCConsistencyBoundary) (pos : CDCSourcePosition)
    (held : Option CDCSourcePosition) (violated : CDCSourcePosition → Except PyRaised Bool)
    (message : CDCSourcePosition → String) : Except PyRaised Unit :=
  if pos.engine ≠ b.initialLoadSnapshotPosition.engine then
    .error (.typeError ("Cross-engine position updated: " ++ pos.engine ++ " vs " ++
      b.initialLoadSnapshotPosition.engine))
  else
    match held with
    | none => .ok ()
    | some current => do
        if ← violated current then .error (.valueError (message current)) else .ok ()

/-- `update_captured_position`. -/
def updateCapturedPosition (b : CDCConsistencyBoundary) (pos : CDCSourcePosition) :
    Except PyRaised CDCConsistencyBoundary := do
  b.checkPosition pos b.lastDurablyCapturedPosition (fun captured => captured.isAfter pos)
    fun captured => "Non-monotonic capture position regression: " ++ pos.str ++ " < " ++
      captured.str
  return { b with lastDurablyCapturedPosition := some pos }

/-- `update_applied_position`. -/
def updateAppliedPosition (b : CDCConsistencyBoundary) (pos : CDCSourcePosition) :
    Except PyRaised CDCConsistencyBoundary := do
  b.checkPosition pos b.lastDurablyCapturedPosition (fun captured => pos.isAfter captured)
    fun captured => "Applied position " ++ pos.str ++ " cannot exceed captured position " ++
      captured.str
  return { b with lastDurablyAppliedPosition := some pos }

/-- `update_acknowledged_position`. -/
def updateAcknowledgedPosition (b : CDCConsistencyBoundary) (pos : CDCSourcePosition) :
    Except PyRaised CDCConsistencyBoundary := do
  b.checkPosition pos b.lastDurablyAppliedPosition (fun applied => pos.isAfter applied)
    fun applied => "Acknowledged position " ++ pos.str ++ " cannot exceed applied position " ++
      applied.str
  return { b with lastAcknowledgedPosition := some pos }

/-! ## Runs of the setters -/

/-- A call of a setter. -/
inductive PositionUpdate where
  | captured (pos : CDCSourcePosition)
  | applied (pos : CDCSourcePosition)
  | acknowledged (pos : CDCSourcePosition)

/-- The setter that is called. -/
def update (b : CDCConsistencyBoundary) : PositionUpdate → Except PyRaised CDCConsistencyBoundary
  | .captured pos => b.updateCapturedPosition pos
  | .applied pos => b.updateAppliedPosition pos
  | .acknowledged pos => b.updateAcknowledgedPosition pos

/-- The boundary, with what it was before the last update that was accepted. -/
structure BoundaryRun where
  before : CDCConsistencyBoundary
  now : CDCConsistencyBoundary

/-- One call; a rejected one changes nothing. -/
def updateStep (s : BoundaryRun) (a : PositionUpdate) : Option BoundaryRun :=
  match s.now.update a with
  | .ok b => some ⟨s.now, b⟩
  | .error _ => some s

/-! ## The property and the condition -/

/-- When both positions are set, the first is not after the second. -/
def NotAfter (first second : Option CDCSourcePosition) : Prop :=
  ∀ p ∈ first, ∀ q ∈ second, p.isAfter q ≠ .ok true

/-- The three positions are in order, and the last update moved none of them backwards. -/
structure Consistent (s : BoundaryRun) : Prop where
  acknowledged : NotAfter s.now.lastAcknowledgedPosition s.now.lastDurablyAppliedPosition
  applied : NotAfter s.now.lastDurablyAppliedPosition s.now.lastDurablyCapturedPosition
  capturedForward : NotAfter s.before.lastDurablyCapturedPosition s.now.lastDurablyCapturedPosition
  appliedForward : NotAfter s.before.lastDurablyAppliedPosition s.now.lastDurablyAppliedPosition
  acknowledgedForward : NotAfter s.before.lastAcknowledgedPosition s.now.lastAcknowledgedPosition

/-- The checks the setters make. -/
def Accepted (b : CDCConsistencyBoundary) : PositionUpdate → Prop
  | .captured pos => pos.engine = b.initialLoadSnapshotPosition.engine ∧
      ∀ captured ∈ b.lastDurablyCapturedPosition, captured.isAfter pos = .ok false
  | .applied pos => pos.engine = b.initialLoadSnapshotPosition.engine ∧
      ∀ captured ∈ b.lastDurablyCapturedPosition, pos.isAfter captured = .ok false
  | .acknowledged pos => pos.engine = b.initialLoadSnapshotPosition.engine ∧
      ∀ applied ∈ b.lastDurablyAppliedPosition, pos.isAfter applied = .ok false

/-- The checks the setters leave out: a captured position is not before the applied one, an applied
position is before neither the applied nor the acknowledged one, an acknowledged position is not
before the acknowledged one. -/
def MeetsUnchecked (b : CDCConsistencyBoundary) : PositionUpdate → Prop
  | .captured pos => NotAfter b.lastDurablyAppliedPosition (some pos)
  | .applied pos => NotAfter b.lastDurablyAppliedPosition (some pos) ∧
      NotAfter b.lastAcknowledgedPosition (some pos)
  | .acknowledged pos => NotAfter b.lastAcknowledgedPosition (some pos)

/-- The condition: what passes the checks of its setter meets those that are left out. -/
def KeepsOrder (s : BoundaryRun) (a : PositionUpdate) : Prop :=
  Accepted s.now a → MeetsUnchecked s.now a

variable {b b' : CDCConsistencyBoundary} {s s' : BoundaryRun}

/-! ## The setters -/

theorem isAfter_self_ne (p : CDCSourcePosition) : p.isAfter p ≠ .ok true := by
  cases p <;> simp [CDCSourcePosition.isAfter]

theorem notAfter_self (held : Option CDCSourcePosition) : NotAfter held held := by
  intro p hp q hq
  cases Option.mem_unique hp hq
  exact isAfter_self_ne p

theorem ne_true_of_eq_false {x : Except PyRaised Bool} (h : x = .ok false) : x ≠ .ok true := by
  rw [h]
  intro heq
  cases heq

/-- When the checks of a setter are passed. -/
theorem checkPosition_eq_ok_iff {pos : CDCSourcePosition} {held : Option CDCSourcePosition}
    {violated : CDCSourcePosition → Except PyRaised Bool} {message : CDCSourcePosition → String} :
    b.checkPosition pos held violated message = .ok () ↔
      pos.engine = b.initialLoadSnapshotPosition.engine ∧
        ∀ current ∈ held, violated current = .ok false := by
  unfold checkPosition
  by_cases hengine : pos.engine = b.initialLoadSnapshotPosition.engine
  · rw [if_neg (not_not.mpr hengine)]
    cases held with
    | none => simp [hengine]
    | some current =>
      simp only [hengine, true_and, Option.mem_some_iff, forall_eq']
      cases violated current with
      | error e => simp
      | ok found => cases found <;> simp
  · rw [if_pos hengine]
    simp [hengine]

theorem check_then_eq_ok_iff {check : Except PyRaised Unit} :
    (do check; return b) = Except.ok b' ↔ check = .ok () ∧ b' = b := by
  cases check with
  | error e =>
    constructor
    · intro h
      cases h
    · rintro ⟨h, -⟩
      cases h
  | ok _ =>
    constructor
    · intro h
      cases h
      exact ⟨rfl, rfl⟩
    · rintro ⟨-, rfl⟩
      rfl

/-- **When a call is accepted, and what it sets.** -/
theorem update_eq_ok_iff {a : PositionUpdate} : b.update a = .ok b' ↔ Accepted b a ∧ b' =
      match a with
      | .captured pos => { b with lastDurablyCapturedPosition := some pos }
      | .applied pos => { b with lastDurablyAppliedPosition := some pos }
      | .acknowledged pos => { b with lastAcknowledgedPosition := some pos } := by
  cases a with
  | captured pos =>
    show updateCapturedPosition b pos = .ok b' ↔ _
    rw [updateCapturedPosition, check_then_eq_ok_iff, checkPosition_eq_ok_iff]
    exact Iff.rfl
  | applied pos =>
    show updateAppliedPosition b pos = .ok b' ↔ _
    rw [updateAppliedPosition, check_then_eq_ok_iff, checkPosition_eq_ok_iff]
    exact Iff.rfl
  | acknowledged pos =>
    show updateAcknowledgedPosition b pos = .ok b' ↔ _
    rw [updateAcknowledgedPosition, check_then_eq_ok_iff, checkPosition_eq_ok_iff]
    exact Iff.rfl

/-- **One call, exactly.** -/
theorem consistent_step_iff (hP : Consistent s) {a : PositionUpdate}
    (h : updateStep s a = some s') : Consistent s' ↔ KeepsOrder s a := by
  rw [updateStep] at h
  cases hupdate : s.now.update a with
  | error e =>
    rw [hupdate, Option.some.injEq] at h
    subst h
    refine ⟨fun _ haccepted => ?_, fun _ => hP⟩
    -- A call that passes the checks is not rejected.
    rw [update_eq_ok_iff.mpr ⟨haccepted, rfl⟩] at hupdate
    cases hupdate
  | ok b =>
    rw [hupdate, Option.some.injEq] at h
    subst h
    obtain ⟨haccepted, rfl⟩ := update_eq_ok_iff.mp hupdate
    cases a with
    | captured pos =>
      constructor
      · intro hconsistent _
        exact hconsistent.applied
      · intro hC
        refine ⟨hP.acknowledged, hC haccepted, ?_, notAfter_self _, notAfter_self _⟩
        intro captured hcaptured q hq
        cases hq
        exact ne_true_of_eq_false (haccepted.2 captured hcaptured)
    | applied pos =>
      constructor
      · intro hconsistent _
        exact ⟨hconsistent.appliedForward, hconsistent.acknowledged⟩
      · intro hC
        obtain ⟨hforward, hacknowledged⟩ := hC haccepted
        refine ⟨hacknowledged, ?_, notAfter_self _, hforward, notAfter_self _⟩
        intro p hp captured hcaptured
        cases hp
        exact ne_true_of_eq_false (haccepted.2 captured hcaptured)
    | acknowledged pos =>
      constructor
      · intro hconsistent _
        exact hconsistent.acknowledgedForward
      · intro hC
        refine ⟨?_, hP.applied, notAfter_self _, notAfter_self _, hC haccepted⟩
        intro p hp applied happlied
        cases hp
        exact ne_true_of_eq_false (haccepted.2 applied happlied)

/-! ## Runs -/

/-- A new boundary has no positions yet. -/
theorem positions_of_new {migrationId jobId runId : String} {snapshot : CDCSourcePosition}
    {captureStart : Option CDCSourcePosition}
    (hnew : new migrationId jobId runId snapshot captureStart = .ok b) :
    b.lastDurablyAppliedPosition = none ∧ b.lastAcknowledgedPosition = none := by
  unfold new at hnew
  dsimp only at hnew
  split_ifs at hnew
  split at hnew
  · cases hnew
  · cases hnew
  · cases hnew
    exact ⟨rfl, rfl⟩

/-- **The exact condition.**  Along every sequence of updates of a new boundary the acknowledged
position is never after the applied one, nor the applied one after the captured one, and none of
them moves backwards, precisely when every accepted update meets the checks its setter leaves
out. -/
theorem consistent_iff {migrationId jobId runId : String} {snapshot : CDCSourcePosition}
    {captureStart : Option CDCSourcePosition}
    (hnew : new migrationId jobId runId snapshot captureStart = .ok b)
    (updates : List PositionUpdate) :
    HoldsAlong updateStep Consistent ⟨b, b⟩ updates ↔ MeetsAlong updateStep KeepsOrder ⟨b, b⟩ updates := by
  apply holdsAlong_iff_meetsAlong (I := fun _ => True)
  · exact fun _ _ _ _ _ => trivial
  · exact fun s a s' _ hP h => consistent_step_iff hP h
  · trivial
  · obtain ⟨happlied, hacknowledged⟩ := positions_of_new hnew
    refine ⟨?_, ?_, notAfter_self _, notAfter_self _, notAfter_self _⟩
    · rw [hacknowledged]
      exact fun p hp => absurd hp (Option.not_mem_none p)
    · rw [happlied]
      exact fun p hp => absurd hp (Option.not_mem_none p)

/-! ## A regression -/

/-- The boundary of a load whose snapshot is at an SCN. -/
def sampleBoundary : CDCConsistencyBoundary where
  migrationId := "m"
  jobId := "j"
  runId := "r"
  initialLoadSnapshotPosition := samplePosition 1
  cdcCaptureStartPosition := samplePosition 1
  lastDurablyCapturedPosition := none
  lastDurablyAppliedPosition := none
  lastAcknowledgedPosition := none
  migration_ne := sampleIdentity.migration_ne
  job_ne := sampleIdentity.job_ne
  run_ne := sampleIdentity.run_ne
  start_engine := rfl
  start_notAfter := by decide

/-- Applied and acknowledged up to 5, then applied up to 3. -/
def regression : List PositionUpdate :=
  [.captured (samplePosition 9), .applied (samplePosition 5), .acknowledged (samplePosition 5),
    .applied (samplePosition 3)]

/-- The acknowledged position is left after the applied one. -/
theorem not_consistent_of_regression :
    ¬ HoldsAlong updateStep Consistent ⟨sampleBoundary, sampleBoundary⟩ regression := by
  intro h
  have hrun : (run updateStep ⟨sampleBoundary, sampleBoundary⟩ regression).map
      (fun s => (s.now.lastAcknowledgedPosition, s.now.lastDurablyAppliedPosition)) =
        some (some (samplePosition 5), some (samplePosition 3)) := by
    rfl
  obtain ⟨s, hs, hparts⟩ := Option.map_eq_some_iff.mp hrun
  simp only [Prod.mk.injEq] at hparts
  obtain ⟨hacknowledged, happlied⟩ := hparts
  have hnot := (h.finish hs).acknowledged
  rw [hacknowledged, happlied] at hnot
  exact hnot _ rfl _ rfl (by decide)

/-- The exact condition for these updates. -/
theorem consistent_regression_iff :
    HoldsAlong updateStep Consistent ⟨sampleBoundary, sampleBoundary⟩ regression ↔
      MeetsAlong updateStep KeepsOrder ⟨sampleBoundary, sampleBoundary⟩ regression := by
  have hnew : new "m" "j" "r" (samplePosition 1) none = .ok sampleBoundary := rfl
  exact consistent_iff hnew regression

end CDCConsistencyBoundary

end CDC

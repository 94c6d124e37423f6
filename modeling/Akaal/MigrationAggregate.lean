/-
# The migration aggregate

`MigrationAggregate` of `akaalPipeline/state/aggregates.py`, with the transition table of
`akaalPipeline/state/lifecycle.py` and the change classification of
`akaalPipeline/configuration/invalidation.py`.  Four mutators change the state: `update_state` through
the table, the others partly past it.

* `updateState_lawful` : what goes through the table first is lawful without a condition;
* `lawful_along_iff` : along a sequence of calls every change of state is in the table, and every call
  that raises changes nothing, precisely when configurations are changed and plans and initializations
  are set in the states the table opens to them.

The values of a configuration are of any type with a comparison; `none` is the Python `None`.
-/
import Akaal.PythonValue
import Akaal.TransitionRun

open TransitionRun

namespace MigrationState

/-! ## States and transitions -/

/-- `MigrationLifecycleState`. -/
inductive MigrationLifecycleState where
  | draft
  | configuring
  | discovered
  | planned
  | governancePending
  | authorized
  | initialized
  | active
  | pausing
  | paused
  | cancellationPending
  | completed
  | failed
  | cancelled
  | archived
  deriving DecidableEq

namespace MigrationLifecycleState

/-- The value of a state. -/
def value : MigrationLifecycleState → String
  | draft => "DRAFT"
  | configuring => "CONFIGURING"
  | discovered => "DISCOVERED"
  | planned => "PLANNED"
  | governancePending => "GOVERNANCE_PENDING"
  | authorized => "AUTHORIZED"
  | initialized => "INITIALIZED"
  | active => "ACTIVE"
  | pausing => "PAUSING"
  | paused => "PAUSED"
  | cancellationPending => "CANCELLATION_PENDING"
  | completed => "COMPLETED"
  | failed => "FAILED"
  | cancelled => "CANCELLED"
  | archived => "ARCHIVED"

/-- `_VALID_MIGRATION_TRANSITIONS`. -/
def validTransitions : MigrationLifecycleState → List MigrationLifecycleState
  | draft => [configuring, planned, initialized, cancelled, archived]
  | configuring => [discovered, planned, initialized, draft, cancelled, archived]
  | discovered => [planned, configuring, cancelled, archived]
  | planned => [governancePending, authorized, initialized, configuring, cancelled, archived]
  | governancePending => [authorized, planned, initialized, failed, cancelled, archived]
  | authorized => [initialized, configuring, cancelled, archived]
  | initialized => [active, configuring, failed, cancelled, archived]
  | active => [pausing, paused, cancellationPending, completed, failed, initialized, cancelled,
      archived]
  | pausing => [paused, failed, cancelled, active]
  | paused => [active, cancelled, failed, initialized, archived]
  | cancellationPending => [cancelled, failed, active]
  | completed => [archived]
  | failed => [initialized, configuring, cancelled, archived]
  | cancelled => [initialized, configuring, archived]
  | archived => []

end MigrationLifecycleState

/-- The errors of the mutators. -/
inductive AggregateError where
  /-- `RevisionConflictError`, raised while doing something to a migration. -/
  | revisionConflict (doing migrationId : String) (expectedRevision actualRevision : ℤ)
  /-- `PipelineError` with the code `INVALID_TRANSITION`. -/
  | invalidTransition (message : String)
  deriving DecidableEq

/-- `MigrationLifecycleMachine.validate_transition`. -/
def validateTransition (fromState toState : MigrationLifecycleState) : Except AggregateError Unit :=
  if fromState = toState then .ok ()
  else if toState ∉ fromState.validTransitions then
    .error (.invalidTransition ("Illegal migration lifecycle transition from '" ++ fromState.value ++
      "' to '" ++ toState.value ++ "'."))
  else .ok ()

theorem validateTransition_eq_ok_iff {a b : MigrationLifecycleState} :
    validateTransition a b = .ok () ↔ a = b ∨ b ∈ a.validTransitions := by
  rw [validateTransition]
  split_ifs with heq hmem
  · exact ⟨fun _ => Or.inl heq, fun _ => rfl⟩
  · exact ⟨fun _ => Or.inr hmem, fun _ => rfl⟩
  · refine ⟨fun h => ?_, fun h => absurd h (not_or.mpr ⟨heq, hmem⟩)⟩
    cases h

/-! ## Changes of the configuration -/

/-- A configuration. -/
abbrev Configuration (α : Type*) := PyDict (Option α)

/-- `MaterialChangeClassification`. -/
inductive MaterialChangeClassification where
  | none
  | minor
  | material
  deriving DecidableEq

/-- `MATERIAL_SETTINGS`. -/
def materialSettings : List String :=
  ["source_connection", "target_connection", "mode", "selected_tables", "schema_mappings",
    "cdc_slot", "validation_level"]

/-- `InvalidationEffect`. -/
structure InvalidationEffect where
  classification : MaterialChangeClassification
  invalidatesPlan : Bool
  invalidatesApproval : Bool
  invalidatesInitialization : Bool
  invalidatesSchedule : Bool
  changedKeys : List String
  deriving DecidableEq

section Classification

variable {α : Type*} [BEq α]

/-- The keys of two configurations whose values differ; a missing value is `None`. -/
def changedKeys (oldConfig newConfig : Configuration α) : List String :=
  (oldConfig.keys ++ newConfig.keys.filter fun k => k ∉ oldConfig.keys).filter fun k =>
    (oldConfig.get? k).join != (newConfig.get? k).join

/-- `ConfigurationInvalidator.classify_change`. -/
def classifyChange (oldConfig newConfig : Configuration α) : InvalidationEffect :=
  let changed := changedKeys oldConfig newConfig
  if changed = [] then ⟨.none, false, false, false, false, []⟩
  else if changed.any fun k => k ∈ materialSettings then ⟨.material, true, true, true, true, changed⟩
  else ⟨.minor, false, false, false, false, changed⟩

/-- Some material setting differs between two configurations. -/
def IsMaterial (oldConfig newConfig : Configuration α) : Prop :=
  ∃ k ∈ changedKeys oldConfig newConfig, k ∈ materialSettings

/-- A change invalidates the plan and the initialization together, precisely when it is material. -/
theorem classifyChange_invalidates_iff (oldConfig newConfig : Configuration α) :
    ((classifyChange oldConfig newConfig).invalidatesInitialization ||
      (classifyChange oldConfig newConfig).invalidatesPlan) = true ↔
      IsMaterial oldConfig newConfig := by
  rw [classifyChange]
  split_ifs with hnone hmaterial
  · refine iff_of_false Bool.false_ne_true ?_
    rintro ⟨k, hk, -⟩
    rw [hnone] at hk
    exact absurd hk List.not_mem_nil
  · refine ⟨fun _ => ?_, fun _ => rfl⟩
    obtain ⟨k, hk, hsetting⟩ := List.any_eq_true.mp hmaterial
    exact ⟨k, hk, of_decide_eq_true hsetting⟩
  · refine iff_of_false Bool.false_ne_true ?_
    rintro ⟨k, hk, hsetting⟩
    exact absurd (List.any_eq_true.mpr ⟨k, hk, decide_eq_true hsetting⟩) hmaterial

end Classification

/-! ## The aggregate -/

/-- `MigrationMode`. -/
inductive MigrationMode where
  | m1Bulk
  | m2BulkCdc
  | m3Cdc
  | m4Incremental
  | m5StateSync
  | m6SchemaOnly
  | m7DataOnly
  | m8ValidationOnly
  deriving DecidableEq

/-- `LineageType`. -/
inductive LineageType where
  | root
  | clone
  | rerun
  | revisionUpgrade
  deriving DecidableEq

/-- `LineageRecord`. -/
structure LineageRecord where
  lineageType : LineageType
  parentMigrationId : Option String := none
  parentRevisionId : Option String := none
  parentInitializationId : Option String := none
  reason : Option String := none
  deriving DecidableEq

/-- `MigrationAggregate`. -/
structure MigrationAggregate (α : Type*) where
  migrationId : String
  revision : ℤ
  name : String
  mode : MigrationMode
  state : MigrationLifecycleState
  tenantId : Option String := none
  workspaceId : Option String := none
  projectId : Option String := none
  configuration : Configuration α := PyDict.empty
  planId : Option String := none
  initializationId : Option String := none
  activeAttemptId : Option String := none
  activeScheduleId : Option String := none
  lineage : LineageRecord := ⟨.root, none, none, none, none⟩
  createdAt : String
  updatedAt : String

namespace MigrationAggregate

variable {α : Type*} (a : MigrationAggregate α)

/-- The check of the revision that every mutator makes first. -/
def checkRevision (doing : String) (expectedRevision : ℤ) : Except AggregateError Unit :=
  if a.revision ≠ expectedRevision then
    .error (.revisionConflict doing a.migrationId expectedRevision a.revision)
  else .ok ()

/-- The revision and the time that every mutator sets last. -/
def touched (now : String) : MigrationAggregate α :=
  { a with revision := a.revision + 1, updatedAt := now }

/-- A mutator: what it leaves behind, and whether it raises. -/
abbrev Outcome (α : Type*) := MigrationAggregate α × Except AggregateError Unit

/-- The last steps of the mutators that check the transition: the move to a state, or the exception,
which leaves behind what was assigned before. -/
def moveTo (newState : MigrationLifecycleState) (now : String) : Outcome α :=
  match validateTransition a.state newState with
  | .error e => (a, .error e)
  | .ok () => ({ a with state := newState }.touched now, .ok ())

/-- `update_state`. -/
def updateState (newState : MigrationLifecycleState) (expectedRevision : ℤ) (now : String) :
    Outcome α :=
  match a.checkRevision "updating state of" expectedRevision with
  | .error e => (a, .error e)
  | .ok () => a.moveTo newState now

/-- `update_configuration`. -/
def updateConfiguration [BEq α] (newConfig : Configuration α) (expectedRevision : ℤ)
    (now : String) : Outcome α :=
  match a.checkRevision "updating configuration of" expectedRevision with
  | .error e => (a, .error e)
  | .ok () =>
    let effect := classifyChange a.configuration newConfig
    let a := { a with configuration := newConfig }
    let a :=
      if effect.invalidatesInitialization || effect.invalidatesPlan then
        { a with
          initializationId := none
          planId := none
          activeScheduleId := none
          state := .configuring }
      else if a.state = .draft ∨ a.state = .discovered ∨ a.state = .planned then
        { a with state := .configuring }
      else a
    (a.touched now, .ok ())

/-- `set_plan`; the plan is assigned before the transition is checked. -/
def setPlan (planId : String) (expectedRevision : ℤ) (now : String) : Outcome α :=
  match a.checkRevision "setting plan for" expectedRevision with
  | .error e => (a, .error e)
  | .ok () => { a with planId := some planId }.moveTo .planned now

/-- `set_initialization`; so is the initialization. -/
def setInitialization (initializationId : String) (expectedRevision : ℤ) (now : String) :
    Outcome α :=
  match a.checkRevision "setting initialization for" expectedRevision with
  | .error e => (a, .error e)
  | .ok () => { a with initializationId := some initializationId }.moveTo .initialized now

/-! ## What the mutators may do -/

/-- An outcome is lawful: a change of state is in the table, and an exception leaves every field as it
was. -/
def LawfulOutcome (r : Outcome α) : Prop :=
  (r.1.state ≠ a.state → r.1.state ∈ a.state.validTransitions) ∧ ∀ e, r.2 = .error e → r.1 = a

variable {a}

theorem lawfulOutcome_error (e : AggregateError) : a.LawfulOutcome (a, .error e) :=
  ⟨fun h => absurd rfl h, fun _ _ => rfl⟩

theorem lawfulOutcome_ok_iff {b : MigrationAggregate α} :
    a.LawfulOutcome (b, .ok ()) ↔ a.state = b.state ∨ b.state ∈ a.state.validTransitions := by
  constructor
  · rintro ⟨h, -⟩
    by_cases heq : b.state = a.state
    · exact Or.inl heq.symm
    · exact Or.inr (h heq)
  · intro h
    refine ⟨fun hne => h.resolve_left (Ne.symm hne), fun e he => ?_⟩
    cases he

theorem checkRevision_cases (doing : String) (expectedRevision : ℤ) :
    (a.revision = expectedRevision ∧ a.checkRevision doing expectedRevision = .ok ()) ∨
      (a.revision ≠ expectedRevision ∧ ∃ e, a.checkRevision doing expectedRevision = .error e) := by
  rw [checkRevision]
  by_cases h : a.revision = expectedRevision
  · rw [if_neg (not_not_intro h)]
    exact Or.inl ⟨h, rfl⟩
  · rw [if_pos h]
    exact Or.inr ⟨h, _, rfl⟩

/-- A move, after an assignment that leaves the state alone, is lawful precisely when the assignment
changes nothing or the transition is valid. -/
theorem moveTo_lawful_iff {assigned : MigrationAggregate α} (hstate : assigned.state = a.state)
    (newState : MigrationLifecycleState) (now : String) :
    a.LawfulOutcome (assigned.moveTo newState now) ↔
      assigned = a ∨ a.state = newState ∨ newState ∈ a.state.validTransitions := by
  rw [moveTo, hstate, ← validateTransition_eq_ok_iff]
  cases hvalid : validateTransition a.state newState with
  | error e =>
    constructor
    · rintro ⟨-, h⟩
      exact Or.inl (h e rfl)
    · rintro (h | h)
      · rw [h]
        exact lawfulOutcome_error e
      · cases h
  | ok _ =>
    refine iff_of_true ?_ (Or.inr rfl)
    exact lawfulOutcome_ok_iff.mpr (validateTransition_eq_ok_iff.mp hvalid)

/-- Changing the state through the table is lawful. -/
theorem updateState_lawful (newState : MigrationLifecycleState) (expectedRevision : ℤ)
    (now : String) : a.LawfulOutcome (a.updateState newState expectedRevision now) := by
  rw [updateState]
  rcases a.checkRevision_cases "updating state of" expectedRevision with ⟨-, h⟩ | ⟨-, e, h⟩
  · rw [h]
    exact (moveTo_lawful_iff rfl newState now).mpr (Or.inl rfl)
  · rw [h]
    exact lawfulOutcome_error e

/-- The states in which the table lets a migration be configured. -/
def reconfigurable : List MigrationLifecycleState :=
  [.configuring, .draft, .discovered, .planned, .authorized, .initialized, .failed, .cancelled]

/-- The states in which the table lets a migration be planned. -/
def plannable : List MigrationLifecycleState :=
  [.planned, .draft, .configuring, .discovered, .governancePending]

/-- The states in which the table lets a migration be initialized. -/
def initializable : List MigrationLifecycleState :=
  [.initialized, .draft, .configuring, .planned, .governancePending, .authorized, .active, .paused,
    .failed, .cancelled]

theorem mem_reconfigurable_iff (s : MigrationLifecycleState) :
    s ∈ reconfigurable ↔ s = .configuring ∨ .configuring ∈ s.validTransitions := by
  cases s <;> decide

theorem mem_plannable_iff (s : MigrationLifecycleState) :
    s ∈ plannable ↔ s = .planned ∨ .planned ∈ s.validTransitions := by
  cases s <;> decide

theorem mem_initializable_iff (s : MigrationLifecycleState) :
    s ∈ initializable ↔ s = .initialized ∨ .initialized ∈ s.validTransitions := by
  cases s <;> decide

theorem setPlan_lawful_iff (planId : String) (expectedRevision : ℤ) (now : String) :
    a.LawfulOutcome (a.setPlan planId expectedRevision now) ↔
      (a.revision = expectedRevision → a.planId = some planId ∨ a.state ∈ plannable) := by
  rw [setPlan]
  rcases a.checkRevision_cases "setting plan for" expectedRevision with
    ⟨hrevision, h⟩ | ⟨hrevision, e, h⟩
  · rw [h]
    have hset : { a with planId := some planId } = a ↔ a.planId = some planId :=
      ⟨fun heq => by rw [← heq], fun heq => by rw [← heq]⟩
    refine (moveTo_lawful_iff (by rfl) .planned now).trans ?_
    rw [hset, mem_plannable_iff]
    exact ⟨fun h _ => h, fun h => h hrevision⟩
  · rw [h]
    exact iff_of_true (lawfulOutcome_error e) fun hr => absurd hr hrevision

/-- Setting an initialization is lawful precisely when, at the expected revision, it is the one already
set or the migration may be initialized. -/
theorem setInitialization_lawful_iff (initializationId : String) (expectedRevision : ℤ)
    (now : String) :
    a.LawfulOutcome (a.setInitialization initializationId expectedRevision now) ↔
      (a.revision = expectedRevision →
        a.initializationId = some initializationId ∨ a.state ∈ initializable) := by
  rw [setInitialization]
  rcases a.checkRevision_cases "setting initialization for" expectedRevision with
    ⟨hrevision, h⟩ | ⟨hrevision, e, h⟩
  · rw [h]
    have hset : { a with initializationId := some initializationId } = a ↔
        a.initializationId = some initializationId :=
      ⟨fun heq => by rw [← heq], fun heq => by rw [← heq]⟩
    refine (moveTo_lawful_iff (by rfl) .initialized now).trans ?_
    rw [hset, mem_initializable_iff]
    exact ⟨fun h _ => h, fun h => h hrevision⟩
  · rw [h]
    exact iff_of_true (lawfulOutcome_error e) fun hr => absurd hr hrevision

variable [BEq α]

/-- A change of the configuration is lawful precisely when a material change, at the expected revision,
meets a state in which a migration may be configured. -/
theorem updateConfiguration_lawful_iff (newConfig : Configuration α) (expectedRevision : ℤ)
    (now : String) :
    a.LawfulOutcome (a.updateConfiguration newConfig expectedRevision now) ↔
      (a.revision = expectedRevision → IsMaterial a.configuration newConfig →
        a.state ∈ reconfigurable) := by
  rw [updateConfiguration]
  rcases a.checkRevision_cases "updating configuration of" expectedRevision with
    ⟨hrevision, h⟩ | ⟨hrevision, e, h⟩
  · rw [h]
    show a.LawfulOutcome (_, Except.ok ()) ↔ _
    rw [lawfulOutcome_ok_iff]
    by_cases hmaterial : IsMaterial a.configuration newConfig
    · rw [if_pos ((classifyChange_invalidates_iff _ _).mpr hmaterial), mem_reconfigurable_iff]
      exact ⟨fun h _ _ => h, fun h => h hrevision hmaterial⟩
    · rw [if_neg (mt (classifyChange_invalidates_iff _ _).mp hmaterial)]
      refine iff_of_true ?_ fun _ hm => absurd hm hmaterial
      -- from the early states the table leads to CONFIGURING
      by_cases hearly : a.state = .draft ∨ a.state = .discovered ∨ a.state = .planned
      · rw [if_pos hearly]
        show a.state = .configuring ∨ .configuring ∈ a.state.validTransitions
        rcases hearly with hstate | hstate | hstate <;> rw [hstate] <;> decide
      · rw [if_neg hearly]
        exact Or.inl rfl
  · rw [h]
    exact iff_of_true (lawfulOutcome_error e) fun hr => absurd hr hrevision

/-! ## Calls -/

/-- The calls that change an aggregate, each with the time of its call. -/
inductive Call (α : Type*) where
  | updateState (newState : MigrationLifecycleState) (expectedRevision : ℤ) (now : String)
  | updateConfiguration (newConfig : Configuration α) (expectedRevision : ℤ) (now : String)
  | setPlan (planId : String) (expectedRevision : ℤ) (now : String)
  | setInitialization (initializationId : String) (expectedRevision : ℤ) (now : String)

/-- What a call does. -/
def perform (a : MigrationAggregate α) : Call α → Outcome α
  | .updateState newState expectedRevision now => a.updateState newState expectedRevision now
  | .updateConfiguration newConfig expectedRevision now =>
    a.updateConfiguration newConfig expectedRevision now
  | .setPlan planId expectedRevision now => a.setPlan planId expectedRevision now
  | .setInitialization initializationId expectedRevision now =>
    a.setInitialization initializationId expectedRevision now

theorem perform_migrationId (a : MigrationAggregate α) (call : Call α) :
    (a.perform call).1.migrationId = a.migrationId := by
  have hmove : ∀ (b : MigrationAggregate α) newState now,
      (b.moveTo newState now).1.migrationId = b.migrationId := by
    intro b newState now
    rw [moveTo]
    split <;> rfl
  cases call with
  | updateState newState expectedRevision now =>
    rw [perform, updateState]
    split
    · rfl
    · exact hmove a newState now
  | updateConfiguration newConfig expectedRevision now =>
    rw [perform, updateConfiguration]
    split
    · rfl
    · simp only [touched]
      split_ifs <;> rfl
  | setPlan planId expectedRevision now =>
    rw [perform, setPlan]
    split
    · rfl
    · exact hmove _ _ now
  | setInitialization initializationId expectedRevision now =>
    rw [perform, setInitialization]
    split
    · rfl
    · exact hmove _ _ now

/-- A call leaves the aggregate as it leaves it, whether it raises or not. -/
def step (a : MigrationAggregate α) (call : Call α) : Option (MigrationAggregate α) :=
  some (a.perform call).1

/-- A call is lawful. -/
def Lawful (a : MigrationAggregate α) (call : Call α) : Prop := a.LawfulOutcome (a.perform call)

/-- A call that is made where the table expects it: at a revision other than the expected one, or with
a material change, a new plan or a new initialization in the states that are open to them. -/
def Regular (a : MigrationAggregate α) : Call α → Prop
  | .updateState _ _ _ => True
  | .updateConfiguration newConfig expectedRevision _ =>
    a.revision = expectedRevision → IsMaterial a.configuration newConfig → a.state ∈ reconfigurable
  | .setPlan planId expectedRevision _ =>
    a.revision = expectedRevision → a.planId = some planId ∨ a.state ∈ plannable
  | .setInitialization initializationId expectedRevision _ =>
    a.revision = expectedRevision →
      a.initializationId = some initializationId ∨ a.state ∈ initializable

theorem lawful_iff_regular (a : MigrationAggregate α) (call : Call α) :
    a.Lawful call ↔ a.Regular call := by
  cases call with
  | updateState newState expectedRevision now =>
    exact iff_of_true (updateState_lawful newState expectedRevision now) trivial
  | updateConfiguration newConfig expectedRevision now =>
    exact updateConfiguration_lawful_iff newConfig expectedRevision now
  | setPlan planId expectedRevision now => exact setPlan_lawful_iff planId expectedRevision now
  | setInitialization initializationId expectedRevision now =>
    exact setInitialization_lawful_iff initializationId expectedRevision now

/-- **Lawful runs.**  Along every sequence of calls on an aggregate, changes of state are in the table
and calls that raise change nothing precisely when material changes, plans and initializations come in
the states that are open to them. -/
theorem lawful_along_iff (a : MigrationAggregate α) (calls : List (Call α)) :
    MeetsAlong step Lawful a calls ↔ MeetsAlong step Regular a calls :=
  meetsAlong_iff_meetsAlong (I := fun _ => True) (fun _ _ _ _ _ _ => trivial)
    (fun s call _ _ _ => lawful_iff_regular s call) trivial calls

/-- A completed migration. -/
def sampleCompleted : MigrationAggregate String where
  migrationId := "mig-1"
  revision := 7
  name := "orders"
  mode := .m1Bulk
  state := .completed
  configuration := PyDict.empty.set "mode" (some "M1")
  planId := some "plan-1"
  createdAt := "2024-01-01T00:00:00+00:00"
  updatedAt := "2024-01-02T00:00:00+00:00"

/-- A change of a material setting opens a completed migration again. -/
theorem completed_is_reopened : ¬ MeetsAlong step Lawful sampleCompleted [.updateConfiguration
      (PyDict.empty.set "mode" (some "M2")) 7 "2024-01-03T00:00:00+00:00"] := by
  intro h
  exact absurd ((h _ rfl).1.1 (by decide)) (by decide)

end MigrationAggregate

end MigrationState

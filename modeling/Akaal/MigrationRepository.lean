/-
# The repository of migrations

`save` and `get_by_id` of `SQLiteMigrationRepository` in `akaalPipeline/state/repositories.py`, and any
number of clients that load an aggregate, change it and save it.  A save is refused when the stored
revision is not below that of the aggregate; how far the client has advanced it plays no part.

* `Consistent.step` : a client has missed a save precisely when the stored revision is not the one it
  knows;
* `seesAll_along_iff` : no accepted save follows one that its client has missed precisely when every
  client that saves knows the stored revision or has not advanced past it.

Each save is one transaction.  The configuration and the lineage stand in the row as they are, not as
their JSON texts.
-/
import Akaal.MigrationAggregate

open TransitionRun

namespace MigrationState

variable {α : Type*}

/-! ## Rows -/

/-- A row of the table `migrations`. -/
structure MigrationRow (α : Type*) where
  revision : ℤ
  name : String
  mode : MigrationMode
  state : MigrationLifecycleState
  tenantId : String
  workspaceId : String
  projectId : Option String
  configuration : Configuration α
  planId : Option String
  initializationId : Option String
  activeAttemptId : Option String
  activeScheduleId : Option String
  lineage : LineageRecord
  createdAt : String
  updatedAt : String

/-- The table `migrations`, by the id of the migration. -/
abbrev MigrationTable (α : Type*) := PyDict (MigrationRow α)

/-- `value or default`, for an optional text. -/
def orDefault (value : Option String) (default : String) : String :=
  match value with
  | none => default
  | some text => if text = "" then default else text

/-- The columns that `save` writes for an aggregate that was created at a time. -/
def MigrationAggregate.row (aggregate : MigrationAggregate α) (createdAt : String) :
    MigrationRow α where
  revision := aggregate.revision
  name := aggregate.name
  mode := aggregate.mode
  state := aggregate.state
  tenantId := orDefault aggregate.tenantId "default-tenant"
  workspaceId := orDefault aggregate.workspaceId "default-workspace"
  projectId := aggregate.projectId
  configuration := aggregate.configuration
  planId := aggregate.planId
  initializationId := aggregate.initializationId
  activeAttemptId := aggregate.activeAttemptId
  activeScheduleId := aggregate.activeScheduleId
  lineage := aggregate.lineage
  createdAt := createdAt
  updatedAt := aggregate.updatedAt

namespace MigrationRepository

/-- `RevisionConflictError`, as `save` raises it. -/
structure SaveConflict where
  migrationId : String
  expectedRevision : ℤ
  actualRevision : ℤ
  deriving DecidableEq

/-- `save`. -/
def save (rows : MigrationTable α) (aggregate : MigrationAggregate α) :
    Except SaveConflict (MigrationTable α) :=
  match rows.get? aggregate.migrationId with
  | some row =>
    if aggregate.revision ≤ row.revision then
      .error ⟨aggregate.migrationId, row.revision + 1, row.revision⟩
    else .ok (rows.set aggregate.migrationId (aggregate.row row.createdAt))
  | none => .ok (rows.set aggregate.migrationId (aggregate.row aggregate.createdAt))

/-- `get_by_id`. -/
def getById (rows : MigrationTable α) (migrationId : String) : Option (MigrationAggregate α) :=
  (rows.get? migrationId).map fun row =>
    { migrationId := migrationId
      revision := row.revision
      name := row.name
      mode := row.mode
      state := row.state
      tenantId := some row.tenantId
      workspaceId := some row.workspaceId
      projectId := row.projectId
      configuration := row.configuration
      planId := row.planId
      initializationId := row.initializationId
      activeAttemptId := row.activeAttemptId
      activeScheduleId := row.activeScheduleId
      lineage := row.lineage
      createdAt := row.createdAt
      updatedAt := row.updatedAt }

variable {aggregate : MigrationAggregate α}

/-- What a save that is accepted does. -/
theorem save_ok {rows rows' : MigrationTable α} (h : save rows aggregate = .ok rows') :
    (∀ row, rows.get? aggregate.migrationId = some row → row.revision < aggregate.revision) ∧
      ∃ createdAt, rows' = rows.set aggregate.migrationId (aggregate.row createdAt) := by
  rw [save] at h
  cases hrow : rows.get? aggregate.migrationId with
  | none =>
    rw [hrow] at h
    refine ⟨fun row hnone => ?_, aggregate.createdAt, (Except.ok.inj h).symm⟩
    cases hnone
  | some row =>
    rw [hrow] at h
    simp only at h
    split_ifs at h with hle
    refine ⟨fun found hfound => ?_, row.createdAt, (Except.ok.inj h).symm⟩
    rw [← Option.some.inj hfound]
    exact not_le.mp hle

theorem save_accepted_iff {rows : MigrationTable α}
    {row : MigrationRow α} (hrow : rows.get? aggregate.migrationId = some row) :
    (∃ rows', save rows aggregate = .ok rows') ↔ row.revision < aggregate.revision := by
  constructor
  · rintro ⟨rows', h⟩
    exact (save_ok h).1 row hrow
  · intro h
    rw [save, hrow]
    exact ⟨_, if_neg (not_le.mpr h)⟩

/-- The revision that is read is the stored one. -/
theorem getById_eq_some {rows : MigrationTable α} {migrationId : String}
    (h : getById rows migrationId = some aggregate) :
    aggregate.migrationId = migrationId ∧
      ∃ row, rows.get? migrationId = some row ∧ row.revision = aggregate.revision := by
  obtain ⟨row, hrow, rfl⟩ := Option.map_eq_some_iff.mp h
  exact ⟨rfl, row, hrow, rfl⟩

/-! ## Clients -/

/-- What a client holds: the aggregate, and for the record the revision it last loaded or saved and the
clients whose saves of the migration were accepted since it loaded. -/
structure Session (α : Type*) where
  aggregate : MigrationAggregate α
  known : ℤ
  missed : List String

/-- The stored rows and the clients. -/
structure System (α : Type*) where
  rows : MigrationTable α
  sessions : String → Option (Session α)

/-- What a client can do. -/
inductive Action (α : Type*) where
  | load (client migrationId : String)
  | mutate (client : String) (call : MigrationAggregate.Call α)
  | save (client : String)

namespace System

/-- The sessions after an accepted save: the client knows what it saved, the others that hold the
migration have missed it. -/
def afterSave (sessions : String → Option (Session α)) (client : String) (session : Session α) :
    String → Option (Session α) := fun other =>
  if other = client then some { session with known := session.aggregate.revision }
  else (sessions other).map fun held =>
    if held.aggregate.migrationId = session.aggregate.migrationId then
      { held with missed := held.missed ++ [client] }
    else held

/-- The client holds something else. -/
def hold (s : System α) (client : String) (session : Option (Session α)) : System α :=
  { s with sessions := Function.update s.sessions client session }

/-- One action; a client that holds nothing can only load. -/
def step [BEq α] (s : System α) : Action α → Option (System α)
  | .load client migrationId =>
    some (s.hold client
      ((getById s.rows migrationId).map fun aggregate => ⟨aggregate, aggregate.revision, []⟩))
  | .mutate client call =>
    (s.sessions client).map fun session =>
      s.hold client (some { session with aggregate := (session.aggregate.perform call).1 })
  | .save client =>
    (s.sessions client).map fun session =>
      match MigrationRepository.save s.rows session.aggregate with
      | .error _ => s
      | .ok rows => ⟨rows, afterSave s.sessions client session⟩

/-- The stored rows before any client has loaded. -/
def start (rows : MigrationTable α) : System α := ⟨rows, fun _ => none⟩

/-- No accepted save is of a client that has missed another one. -/
def SeesAll (s : System α) (action : Action α) : Prop :=
  ∀ client session rows, action = .save client → s.sessions client = some session →
    MigrationRepository.save s.rows session.aggregate = .ok rows → session.missed = []

/-- A client that saves knows the stored revision, or its own is not above it. -/
def KnowsStored (s : System α) (action : Action α) : Prop :=
  ∀ client session row, action = .save client → s.sessions client = some session →
    s.rows.get? session.aggregate.migrationId = some row →
    row.revision = session.known ∨ session.aggregate.revision ≤ row.revision

/-- Every migration that a client holds is stored; the client has missed no save precisely when the
stored revision is the one it knows, and it knows no later one. -/
def Consistent (s : System α) : Prop :=
  ∀ client session, s.sessions client = some session →
    ∃ row, s.rows.get? session.aggregate.migrationId = some row ∧ session.known ≤ row.revision ∧
      (session.missed = [] ↔ row.revision = session.known)

variable {s s' : System α}

/-- A client that holds something consistent in the place of what it held. -/
theorem Consistent.hold (hs : s.Consistent) {client : String} {session : Option (Session α)}
    (hsession : ∀ held, session = some held → ∃ row,
      s.rows.get? held.aggregate.migrationId = some row ∧ held.known ≤ row.revision ∧
        (held.missed = [] ↔ row.revision = held.known)) :
    (s.hold client session).Consistent := by
  intro other held hheld
  replace hheld : Function.update s.sessions client session other = some held := hheld
  by_cases hother : other = client
  · rw [hother, Function.update_self] at hheld
    exact hsession held hheld
  · rw [Function.update_of_ne hother] at hheld
    exact hs other held hheld

/-- An accepted save of a client that has missed none. -/
theorem Consistent.saved (hs : s.Consistent) {client : String} {session : Session α}
    {rows : MigrationTable α} (hsession : s.sessions client = some session)
    (hmissed : session.missed = []) (hsave : save s.rows session.aggregate = .ok rows) :
    Consistent ⟨rows, afterSave s.sessions client session⟩ := by
  obtain ⟨hlt, createdAt, rfl⟩ := save_ok hsave
  obtain ⟨stored, hstored, -, -⟩ := hs client session hsession
  intro other held hheld
  show ∃ row, (s.rows.set _ _).get? _ = some row ∧ _
  replace hheld : afterSave s.sessions client session other = some held := hheld
  rw [afterSave] at hheld
  split_ifs at hheld with hother
  · rw [← Option.some.inj hheld]
    exact ⟨_, PyDict.get?_set _ _ _, le_rfl, iff_of_true hmissed rfl⟩
  · obtain ⟨before, hbefore, hheld⟩ := Option.map_eq_some_iff.mp hheld
    obtain ⟨row, hrow, hknown, hexact⟩ := hs other before hbefore
    by_cases hsame : before.aggregate.migrationId = session.aggregate.migrationId
    · rw [if_pos hsame] at hheld
      rw [← hheld, hsame]
      -- the stored revision has risen above what the other client knows
      have hrises : before.known < session.aggregate.revision :=
        lt_of_le_of_lt hknown (hlt row (by rw [← hsame, hrow]))
      refine ⟨_, PyDict.get?_set _ _ _, le_of_lt hrises, ?_⟩
      exact iff_of_false (List.append_ne_nil_of_right_ne_nil _ (List.cons_ne_nil _ _))
        (ne_of_gt hrises)
    · rw [if_neg hsame] at hheld
      rw [← hheld, PyDict.get?_set_of_ne _ _ hsame]
      exact ⟨row, hrow, hknown, hexact⟩

/-- **What clients know.**  While no accepted save is of a client that has missed another one, the
clients that have missed none are those that know the stored revision. -/
theorem Consistent.step [BEq α] {action : Action α} (hs : s.Consistent) (hsees : s.SeesAll action)
    (h : s.step action = some s') : s'.Consistent := by
  cases action with
  | load client migrationId =>
    rw [← Option.some.inj h]
    refine hs.hold fun held hheld => ?_
    obtain ⟨aggregate, haggregate, rfl⟩ := Option.map_eq_some_iff.mp hheld
    obtain ⟨hid, row, hrow, hrevision⟩ := getById_eq_some haggregate
    refine ⟨row, by rw [← hrow, ← hid], le_of_eq hrevision.symm, ?_⟩
    exact iff_of_true rfl hrevision
  | mutate client call =>
    obtain ⟨session, hsession, rfl⟩ := Option.map_eq_some_iff.mp h
    refine hs.hold fun held hheld => ?_
    rw [← Option.some.inj hheld]
    show ∃ row, s.rows.get? (session.aggregate.perform call).1.migrationId = some row ∧ _
    rw [MigrationAggregate.perform_migrationId]
    exact hs client session hsession
  | save client =>
    obtain ⟨session, hsession, hs'⟩ := Option.map_eq_some_iff.mp h
    cases hsave : MigrationRepository.save s.rows session.aggregate with
    | error e =>
      rw [hsave] at hs'
      rw [← hs']
      exact hs
    | ok rows =>
      rw [hsave] at hs'
      rw [← hs']
      exact hs.saved hsession (hsees client session rows rfl hsession hsave) hsave

theorem seesAll_iff_knowsStored {action : Action α} (hs : s.Consistent) :
    s.SeesAll action ↔ s.KnowsStored action := by
  constructor
  · intro h client session row haction hsession hrow
    obtain ⟨stored, hstored, hknown, hexact⟩ := hs client session hsession
    obtain rfl : row = stored := Option.some.inj (hrow.symm.trans hstored)
    by_cases hle : session.aggregate.revision ≤ row.revision
    · exact Or.inr hle
    · obtain ⟨rows, hsave⟩ := (save_accepted_iff hrow).mpr (not_le.mp hle)
      exact Or.inl (hexact.mp (h client session rows haction hsession hsave))
  · intro h client session rows haction hsession hsave
    obtain ⟨row, hrow, hknown, hexact⟩ := hs client session hsession
    rcases h client session row haction hsession hrow with hsame | hle
    · exact hexact.mpr hsame
    · exact absurd hle (not_le.mpr ((save_ok hsave).1 row hrow))

theorem consistent_start (rows : MigrationTable α) : (start rows).Consistent := by
  intro client session hsession
  cases hsession

/-- **No lost update.**  Along every run of any number of clients, no accepted save follows one that
its client has missed precisely when every client that saves knows the stored revision or has not
advanced past it. -/
theorem seesAll_along_iff [BEq α] (rows : MigrationTable α) (actions : List (Action α)) :
    MeetsAlong step SeesAll (start rows) actions ↔
      MeetsAlong step KnowsStored (start rows) actions :=
  meetsAlong_iff_meetsAlong (I := Consistent) (fun _ _ _ hs hsees hstep => hs.step hsees hstep)
    (fun _ _ _ hs _ => seesAll_iff_knowsStored hs) (consistent_start rows) actions

/-- A stored draft. -/
def sampleRow : MigrationRow String where
  revision := 1
  name := "orders"
  mode := .m1Bulk
  state := .draft
  tenantId := "default-tenant"
  workspaceId := "default-workspace"
  projectId := none
  configuration := PyDict.empty
  planId := none
  initializationId := none
  activeAttemptId := none
  activeScheduleId := none
  lineage := ⟨.root, none, none, none, none⟩
  createdAt := "2024-01-01T00:00:00+00:00"
  updatedAt := "2024-01-01T00:00:00+00:00"

/-- Two clients load the same draft; the one that makes two changes overwrites what the other saved
after one. -/
theorem two_changes_overwrite_one :
    ¬ MeetsAlong step SeesAll (start (PyDict.empty.set "mig-1" sampleRow))
      [.load "a" "mig-1", .load "b" "mig-1",
        .mutate "b" (.setPlan "plan-b" 1 "2024-01-02T00:00:00+00:00"), .save "b",
        .mutate "a" (.updateState .configuring 1 "2024-01-02T00:00:01+00:00"),
        .mutate "a" (.setPlan "plan-a" 2 "2024-01-02T00:00:02+00:00"), .save "a"] := by
  intro h
  have hlast := ((((((h _ rfl).2 _ rfl).2 _ rfl).2 _ rfl).2 _ rfl).2 _ rfl).2 _ rfl
  exact absurd (hlast.1 "a" _ _ rfl rfl rfl) (by decide)

end System

end MigrationRepository

end MigrationState

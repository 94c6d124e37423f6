/-
# The conflict quarantine

`cdc/multi_master/quarantine.py`: records of quarantined entities, kept in the state store, and
beside them a set of texts `table:key` from which `is_entity_quarantined` answers.

* `lockKey_eq_iff_of_colonFree` : a text without further colons stands for one entity;
* `reload_eq` : a new manager restores the records that were persisted;
* `matches_iff` : the runs in which the set agrees with the records;
* `not_matches_of_two_conflicts` : two conflicts on one entity, of which one is released.

The logger is left out.
-/
import Akaal.RecoveryCoordinator
import Akaal.StateStore
import Akaal.DelimitedText

open JsonText StateStore TransitionRun

namespace CDC

/-! ## Entities -/

/-- `_get_entity_lock_key`. -/
def lockKey (table entityKey : String) : String := table ++ ":" ++ entityKey

theorem toList_lockKey (table entityKey : String) :
    (lockKey table entityKey).toList = table.toList ++ ':' :: entityKey.toList := by
  simp [lockKey]

/-- A table and a key without colons. -/
def ColonFreeEntity (table entityKey : String) : Prop :=
  ':' ∉ table.toList ∧ ':' ∉ entityKey.toList

/-- The text of a table and a key without colons stands for them alone. -/
theorem lockKey_eq_iff_of_colonFree {table entityKey : String} (h : ColonFreeEntity table entityKey)
    {table' entityKey' : String} :
    lockKey table' entityKey' = lockKey table entityKey ↔
      table' = table ∧ entityKey' = entityKey := by
  constructor
  · intro heq
    have hlist := congrArg String.toList heq
    rw [toList_lockKey, toList_lockKey] at hlist
    have hcount := congrArg (List.count ':') hlist
    rw [List.count_append, List.count_append, List.count_cons_self, List.count_cons_self,
      List.count_eq_zero.mpr h.1, List.count_eq_zero.mpr h.2] at hcount
    have htable : ':' ∉ table'.toList := List.count_eq_zero.mp (by omega)
    obtain ⟨h1, h2⟩ := FramedBytes.separate_left htable h.1 hlist
    exact ⟨String.toList_inj.mp h1, String.toList_inj.mp h2⟩
  · rintro ⟨rfl, rfl⟩
    rfl

theorem exists_other_of_colon {table entityKey : String} (h : ¬ ColonFreeEntity table entityKey) :
    ∃ table' entityKey', lockKey table' entityKey' = lockKey table entityKey ∧
      ¬ (table' = table ∧ entityKey' = entityKey) := by
  have hlength : ∀ s t : String, s.toList.length ≠ t.toList.length → s ≠ t := by
    rintro s t hne rfl
    exact hne rfl
  by_cases htable : ':' ∈ table.toList
  · obtain ⟨a, b, hab⟩ := List.append_of_mem htable
    refine ⟨String.ofList a, String.ofList (b ++ ':' :: entityKey.toList), ?_, fun hboth => ?_⟩
    · rw [← String.toList_inj, toList_lockKey, toList_lockKey, hab]
      simp
    · refine hlength _ _ ?_ hboth.1
      rw [hab]
      simp
  · have hkey : ':' ∈ entityKey.toList := by
      by_contra hnot
      exact h ⟨htable, hnot⟩
    obtain ⟨a, b, hab⟩ := List.append_of_mem hkey
    refine ⟨String.ofList (table.toList ++ ':' :: a), String.ofList b, ?_, fun hboth => ?_⟩
    · rw [← String.toList_inj, toList_lockKey, toList_lockKey, hab]
      simp
    · refine hlength _ _ ?_ hboth.2
      rw [hab]
      simp
      omega

/-! ## Records -/

/-- `CDCQuarantineState`. -/
inductive CDCQuarantineState where
  | active
  | awaitingManualDecision
  | resolutionPending
  | resolved
  | releasePending
  | released
  | failed
  deriving DecidableEq

namespace CDCQuarantineState

/-- The value of a state. -/
def value : CDCQuarantineState → String
  | .active => "ACTIVE"
  | .awaitingManualDecision => "AWAITING_MANUAL_DECISION"
  | .resolutionPending => "RESOLUTION_PENDING"
  | .resolved => "RESOLVED"
  | .releasePending => "RELEASE_PENDING"
  | .released => "RELEASED"
  | .failed => "FAILED"

/-- `CDCQuarantineState(s)`. -/
def parse (s : String) : Except PyRaised CDCQuarantineState :=
  match [active, awaitingManualDecision, resolutionPending, resolved, releasePending, released,
    failed].find? fun state => state.value == s with
  | some state => .ok state
  | none => .error (.valueError ("'" ++ s ++ "' is not a valid CDCQuarantineState"))

end CDCQuarantineState

/-- `CDCQuarantineRecord`. -/
structure CDCQuarantineRecord where
  quarantineId : String
  conflictId : String
  topologyId : String
  migrationId : String
  runId : String
  entityTable : String
  entityKey : String
  reason : String
  fencingEpoch : ℤ
  state : CDCQuarantineState
  resolutionId : Option String
  createdAt : String
  releasedAt : Option String
  deriving DecidableEq

namespace CDCQuarantineRecord

/-- A text or `None`. -/
def optText : Option String → PyValue
  | none => .none
  | some s => .str s

/-- `to_dict`. -/
def toDict (r : CDCQuarantineRecord) : PyItems :=
  [("quarantine_id", .str r.quarantineId), ("conflict_id", .str r.conflictId),
    ("topology_id", .str r.topologyId), ("migration_id", .str r.migrationId),
    ("run_id", .str r.runId), ("entity_table", .str r.entityTable),
    ("entity_key", .str r.entityKey), ("reason", .str r.reason),
    ("fencing_epoch", .int r.fencingEpoch), ("state", .str r.state.value),
    ("resolution_id", optText r.resolutionId), ("created_at", .str r.createdAt),
    ("released_at", optText r.releasedAt)]

/-- The names of the fields. -/
def fields : List String :=
  ["quarantine_id", "conflict_id", "topology_id", "migration_id", "run_id", "entity_table",
    "entity_key", "reason", "fencing_epoch", "state", "resolution_id", "created_at", "released_at"]

/-- `from_dict`, at a time that is the default of `created_at`. -/
def fromDict (now : String) (data : PyItems) : Except PyRaised CDCQuarantineRecord := do
  let state ← getStrD data "state" "ACTIVE" >>= CDCQuarantineState.parse
  match data.find? fun item => item.1 ∉ fields with
  | some item => throw (.typeError ("unexpected keyword argument '" ++ item.1 ++ "'"))
  | none => pure ()
  return {
    quarantineId := ← getStr data "quarantine_id"
    conflictId := ← getStr data "conflict_id"
    topologyId := ← getStr data "topology_id"
    migrationId := ← getStr data "migration_id"
    runId := ← getStr data "run_id"
    entityTable := ← getStr data "entity_table"
    entityKey := ← getStr data "entity_key"
    reason := ← getStr data "reason"
    fencingEpoch := ← getInt data "fencing_epoch"
    state := state
    resolutionId := ← getOptStr data "resolution_id"
    createdAt := ← getStrD data "created_at" now
    releasedAt := ← getOptStr data "released_at" }

theorem fromDict_toDict (now : String) (r : CDCQuarantineRecord) :
    fromDict now r.toDict = .ok r := by
  obtain ⟨_, _, _, _, _, _, _, _, _, state, resolutionId, _, releasedAt⟩ := r
  cases state <;> cases resolutionId <;> cases releasedAt <;> rfl

/-- Whether the record is neither released nor resolved. -/
def isActive (r : CDCQuarantineRecord) : Bool := r.state ≠ .released ∧ r.state ≠ .resolved

/-- The text that locks the entity of the record. -/
def lockKey (r : CDCQuarantineRecord) : String := CDC.lockKey r.entityTable r.entityKey

/-- The record is of an entity. -/
def IsOf (r : CDCQuarantineRecord) (table entityKey : String) : Prop :=
  r.entityTable = table ∧ r.entityKey = entityKey

end CDCQuarantineRecord

/-! ## The manager -/

/-- `CDCConflictQuarantineManager`. -/
structure CDCConflictQuarantineManager where
  topologyId : String
  recoveryCoordinator : Recovery.RecoveryCoordinator
  stateStore : CentralStateStore
  quarantines : PyDict CDCQuarantineRecord
  quarantinedKeys : Finset String

namespace CDCConflictQuarantineManager

variable (jsonDefault : String → String → Option PyValue) (m : CDCConflictQuarantineManager)

/-- A failure of the manager. -/
def failure (identity : CDCEventIdentity) (failureType : CDCFailureType) (message : String) :
    PyRaised :=
  .executionError {
    failureType := failureType
    category := .blocking
    message := message
    migrationId := identity.migrationId
    jobId := identity.jobId
    runId := identity.runId
    cdcSessionId := identity.cdcSessionId }

/-- The key of the persisted records. -/
def stateKey : String := "cdc_quarantine_records_" ++ m.topologyId

/-- The category of the persisted records. -/
def category : String := "quarantine_manager"

/-- The records as a dictionary. -/
def recordsValue (quarantines : PyDict CDCQuarantineRecord) : PyItems :=
  quarantines.items.map fun item => (item.1, .dict item.2.toDict)

/-- `_persist_quarantines`. -/
def persistQuarantines : Except PyRaised Unit × CDCConflictQuarantineManager :=
  let (result, store) :=
    m.stateStore.setState jsonDefault m.stateKey (.dict (recordsValue m.quarantines)) category
  (match result with
    | .ok () => .ok ()
    | .error e => .error (.notSerializable e), { m with stateStore := store })

/-- A restored record with its id. -/
def restoreRecord (now : String) (item : String × PyValue) :
    Except PyRaised (String × CDCQuarantineRecord) := do
  let record ← CDCQuarantineRecord.fromDict now (← asDict item.1 item.2)
  return (item.1, record)

/-- A restored record is added. -/
def addRestored (m : CDCConflictQuarantineManager) (item : String × CDCQuarantineRecord) :
    CDCConflictQuarantineManager :=
  { m with
    quarantines := m.quarantines.set item.1 item.2
    quarantinedKeys :=
      if item.2.isActive then insert item.2.lockKey m.quarantinedKeys else m.quarantinedKeys }

/-- The failure that is reported when records cannot be restored; what the exception says is left
out. -/
def restoreFailure : PyRaised :=
  .executionError {
    failureType := .quarantineFailure
    category := .blocking
    message := "[QUARANTINE STATE CORRUPTION] Failed to restore quarantine records: "
    migrationId := "mig-unknown"
    jobId := "job-unknown"
    runId := "run-unknown"
    cdcSessionId := "sess-unknown" }

/-- `_load_persisted_quarantines`. -/
def loadPersistedQuarantines (now : String) : Except PyRaised CDCConflictQuarantineManager :=
  let (qDict, store) := m.stateStore.getState m.stateKey .none category
  let m := { m with stateStore := store }
  match qDict with
  | .dict items =>
    match items.mapM (restoreRecord now) with
    | .ok records => .ok (records.foldl addRestored m)
    | .error _ => .error restoreFailure
  | _ => .ok m

/-- `CDCConflictQuarantineManager(topology_id, recovery_coordinator, state_store)`. -/
def new (now topologyId : String) (recoveryCoordinator : Recovery.RecoveryCoordinator)
    (stateStore : CentralStateStore) : Except PyRaised CDCConflictQuarantineManager :=
  loadPersistedQuarantines ⟨topologyId, recoveryCoordinator, stateStore, .empty, ∅⟩ now

/-- `quarantine_entity`, with the random part of the id and the time: its result, and the manager
after it. -/
def quarantineEntity (identity : CDCEventIdentity)
    (conflictId entityTable entityKey reason : String) (fencingEpoch : ℤ) (hex now : String) :
    Except PyRaised CDCQuarantineRecord × CDCConflictQuarantineManager :=
  if !m.recoveryCoordinator.validateFencingToken identity.migrationId fencingEpoch then
    (.error (failure identity .staleWorker ("[STALE WORKER] Stale epoch " ++ intText fencingEpoch ++
      " rejected for quarantine acquisition '" ++ lockKey entityTable entityKey ++ "'.")), m)
  else
    let qid := "quar-" ++ hex
    let record : CDCQuarantineRecord := {
      quarantineId := qid
      conflictId := conflictId
      topologyId := m.topologyId
      migrationId := identity.migrationId
      runId := identity.runId
      entityTable := entityTable
      entityKey := entityKey
      reason := reason
      fencingEpoch := fencingEpoch
      state := .active
      resolutionId := none
      createdAt := now
      releasedAt := none }
    let m := { m with
      quarantines := m.quarantines.set qid record
      quarantinedKeys := insert (lockKey entityTable entityKey) m.quarantinedKeys }
    let (result, m) := m.persistQuarantines jsonDefault
    (result.map fun _ => record, m)

/-- `is_entity_quarantined`. -/
def isEntityQuarantined (entityTable entityKey : String) : Bool :=
  lockKey entityTable entityKey ∈ m.quarantinedKeys

/-- `release_quarantine` at a time: its result, and the manager after it. -/
def releaseQuarantine (identity : CDCEventIdentity) (quarantineId resolutionId : String)
    (fencingEpoch : ℤ) (now : String) :
    Except PyRaised CDCQuarantineRecord × CDCConflictQuarantineManager :=
  if !m.recoveryCoordinator.validateFencingToken identity.migrationId fencingEpoch then
    (.error (failure identity .staleWorker ("[STALE WORKER] Stale epoch " ++ intText fencingEpoch ++
      " rejected for quarantine release '" ++ quarantineId ++ "'.")), m)
  else
    match m.quarantines.get? quarantineId with
    | none =>
      (.error (failure identity .quarantineFailure ("[QUARANTINE NOT FOUND] Quarantine record '" ++
        quarantineId ++ "' does not exist.")), m)
    | some record =>
      if record.topologyId ≠ m.topologyId ∨ record.runId ≠ identity.runId then
        (.error (failure identity .topologyIdentityMismatch
          ("[IDENTITY MISMATCH] Quarantine record run '" ++ record.runId ++
            "' does not match active run '" ++ identity.runId ++ "'.")), m)
      else
        let record := { record with
          state := .released, resolutionId := some resolutionId, releasedAt := some now }
        let m := { m with
          quarantines := m.quarantines.set quarantineId record
          quarantinedKeys := m.quarantinedKeys.erase record.lockKey }
        let (result, m) := m.persistQuarantines jsonDefault
        (result.map fun _ => record, m)

/-- `get_active_quarantines`. -/
def getActiveQuarantines : List CDCQuarantineRecord :=
  (m.quarantines.items.map Prod.snd).filter CDCQuarantineRecord.isActive

/-! ### What is persisted -/

theorem isValue_toDict (r : CDCQuarantineRecord) : IsValue (.dict r.toDict) := by
  refine ⟨?_, ?_⟩
  · show CDCQuarantineRecord.fields.Nodup
    decide
  · obtain ⟨_, _, _, _, _, _, _, _, _, _, resolutionId, _, releasedAt⟩ := r
    cases resolutionId <;> cases releasedAt <;> exact
      ⟨trivial, trivial, trivial, trivial, trivial, trivial, trivial, trivial, trivial, trivial,
        trivial, trivial, trivial, trivial⟩

theorem exists_dumps_toDict (r : CDCQuarantineRecord) :
    ∃ text, dumps false (.dict r.toDict) = .ok text := by
  obtain ⟨_, _, _, _, _, _, _, _, _, _, resolutionId, _, releasedAt⟩ := r
  cases resolutionId <;> cases releasedAt <;> exact ⟨_, rfl⟩

theorem isValue_recordsValue (quarantines : PyDict CDCQuarantineRecord) :
    IsValue (.dict (recordsValue quarantines)) := by
  obtain ⟨items, hnodup⟩ := quarantines
  refine ⟨?_, ?_⟩
  · rw [recordsValue, List.map_map]
    exact hnodup
  · show AreItems (items.map fun item => (item.1, .dict item.2.toDict))
    clear hnodup
    induction items with
    | nil => trivial
    | cons item items ih => exact ⟨isValue_toDict item.2, ih⟩

theorem exists_dumps_recordsValue (quarantines : PyDict CDCQuarantineRecord) :
    ∃ text, dumps false (.dict (recordsValue quarantines)) = .ok text := by
  have hmembers : ∀ items : List (String × CDCQuarantineRecord), ∃ members,
      dumpsMembers false (items.map fun item => (item.1, .dict item.2.toDict)) = .ok members := by
    intro items
    induction items with
    | nil => exact ⟨_, rfl⟩
    | cons item items ih =>
      obtain ⟨members, hmembers⟩ := ih
      obtain ⟨text, htext⟩ := exists_dumps_toDict item.2
      rw [List.map_cons, dumpsMembers, htext, hmembers]
      exact ⟨_, rfl⟩
  obtain ⟨members, hmembers⟩ := hmembers quarantines.items
  rw [recordsValue, dumps.eq_def]
  simp only [hmembers]
  exact ⟨_, rfl⟩

/-- The persisted records are those of the manager; nothing is persisted before there is one. -/
def Persisted : Prop :=
  (m.stateStore.rows category m.stateKey = none ∧
    m.stateStore.state.lookup category m.stateKey = none ∧
    m.quarantines = .empty ∧ m.quarantinedKeys = ∅) ∨
  ∃ text, m.stateStore.rows category m.stateKey = some text ∧
    dumps false (.dict (recordsValue m.quarantines)) = .ok text

/-- The records are written, and nothing else changes. -/
theorem persistQuarantines_spec : (m.persistQuarantines jsonDefault).1 = .ok () ∧ ∃ store,
      (m.persistQuarantines jsonDefault).2 = { m with stateStore := store } ∧
      (m.persistQuarantines jsonDefault).2.Persisted := by
  obtain ⟨text, htext⟩ := exists_dumps_recordsValue m.quarantines
  have hset := CentralStateStore.setState_of_dumps jsonDefault m.stateStore htext m.stateKey category
  rw [persistQuarantines, hset]
  exact ⟨rfl, _, rfl, .inr ⟨text, updateAt_self .., htext⟩⟩

theorem mapM_restoreRecord (now : String) (quarantines : PyDict CDCQuarantineRecord) :
    (recordsValue quarantines).mapM (restoreRecord now) = .ok quarantines.items := by
  rw [recordsValue]
  induction quarantines.items with
  | nil => rfl
  | cons item items ih =>
    have hitem : restoreRecord now (item.1, .dict item.2.toDict) = .ok item := by
      rw [restoreRecord, asDict, ok_bind, CDCQuarantineRecord.fromDict_toDict]
      rfl
    rw [List.map_cons, List.mapM_cons, hitem, ih]
    rfl

theorem items_foldl_addRestored (records : List (String × CDCQuarantineRecord)) :
    (records.foldl addRestored m).quarantines.items =
      records.foldl (fun items item => PyDict.setItem item.1 item.2 items) m.quarantines.items := by
  induction records generalizing m with
  | nil => rfl
  | cons record records ih => exact ih (addRestored m record)

theorem mem_keys_foldl_addRestored (records : List (String × CDCQuarantineRecord)) (text : String) :
    text ∈ (records.foldl addRestored m).quarantinedKeys ↔
      text ∈ m.quarantinedKeys ∨ ∃ item ∈ records, item.2.isActive ∧ item.2.lockKey = text := by
  induction records generalizing m with
  | nil => simp
  | cons record records ih =>
    rw [List.foldl_cons, ih, addRestored]
    by_cases hactive : record.2.isActive
    · rw [if_pos hactive, Finset.mem_insert, List.exists_mem_cons_iff]
      constructor
      · rintro ((rfl | hmem) | hrest)
        · exact .inr (.inl ⟨hactive, rfl⟩)
        · exact .inl hmem
        · exact .inr (.inr hrest)
      · rintro (hmem | ⟨-, rfl⟩ | hrest)
        · exact .inl (.inr hmem)
        · exact .inl (.inl rfl)
        · exact .inr hrest
    · rw [if_neg hactive, List.exists_mem_cons_iff]
      simp [hactive]

theorem frame_foldl_addRestored (records : List (String × CDCQuarantineRecord)) :
    (records.foldl addRestored m).topologyId = m.topologyId ∧
      (records.foldl addRestored m).stateStore = m.stateStore := by
  induction records generalizing m with
  | nil => exact ⟨rfl, rfl⟩
  | cons record records ih => exact ih (addRestored m record)

/-- Persisted records are restored. -/
theorem loadPersistedQuarantines_of_dict (now : String) {items : PyItems} {store : CentralStateStore}
    {records : List (String × CDCQuarantineRecord)}
    (hget : m.stateStore.getState m.stateKey .none category = (.dict items, store))
    (hrecords : items.mapM (restoreRecord now) = .ok records) :
    m.loadPersistedQuarantines now =
      .ok (records.foldl addRestored { m with stateStore := store }) := by
  unfold loadPersistedQuarantines
  rw [hget]
  simp only [hrecords]

theorem loadPersistedQuarantines_of_none (now : String) {store : CentralStateStore}
    (hget : m.stateStore.getState m.stateKey .none category = (.none, store)) :
    m.loadPersistedQuarantines now = .ok { m with stateStore := store } := by
  unfold loadPersistedQuarantines
  rw [hget]

/-- **A new manager** restores the records, and locks the entities of the active ones. -/
theorem reload_eq (h : m.Persisted) (now : String) (recoveryCoordinator : Recovery.RecoveryCoordinator)
    {store : CentralStateStore} (hrows : store.rows = m.stateStore.rows)
    (hstate : m.stateStore.state.lookup category m.stateKey = none →
      store.state.lookup category m.stateKey = none) :
    ∃ restored, new now m.topologyId recoveryCoordinator store = .ok restored ∧
      restored.topologyId = m.topologyId ∧ restored.quarantines = m.quarantines ∧
      (∀ text, text ∈ restored.quarantinedKeys ↔
        ∃ item ∈ m.quarantines.items, item.2.isActive ∧ item.2.lockKey = text) ∧
      restored.Persisted := by
  rw [new]
  set fresh : CDCConflictQuarantineManager :=
    ⟨m.topologyId, recoveryCoordinator, store, .empty, ∅⟩ with hfresh
  rcases h with ⟨hrow, hlookup, hempty, -⟩ | ⟨text, hrow, hdumps⟩
  · -- nothing was persisted yet
    rw [← hrows] at hrow
    refine ⟨fresh, ?_, rfl, hempty.symm, fun text => ?_, .inl ⟨hrow, hstate hlookup, rfl, rfl⟩⟩
    · exact fresh.loadPersistedQuarantines_of_none now
        (store.getState_of_none hrow (hstate hlookup) .none)
    · rw [hempty]
      simp [hfresh, PyDict.empty]
  · rw [← hrows] at hrow
    have hread : CentralStateStore.readRow (store.rows category m.stateKey) =
        some (.dict (recordsValue m.quarantines)) := by
      rw [hrow]
      exact CentralStateStore.readRow_of_dumps (isValue_recordsValue _) (by rintro ⟨⟩) hdumps
    set loaded : CentralStateStore := { store with
      state := store.state.insert category m.stateKey (.dict (recordsValue m.quarantines)) }
    set restored := m.quarantines.items.foldl addRestored { fresh with stateStore := loaded }
      with hrestored
    obtain ⟨htopology, hstore⟩ :=
      frame_foldl_addRestored { fresh with stateStore := loaded } m.quarantines.items
    have hquarantines : restored.quarantines = m.quarantines := by
      have hitems := items_foldl_addRestored { fresh with stateStore := loaded } m.quarantines.items
      rw [PyDict.foldl_setItem_of_nodup (by simpa [hfresh, PyDict.empty] using m.quarantines.nodup)]
        at hitems
      exact PyDict.ext hitems
    have hkey : restored.stateKey = m.stateKey :=
      congrArg (fun topologyId => "cdc_quarantine_records_" ++ topologyId) htopology
    refine ⟨restored, ?_, htopology, hquarantines, fun text' => ?_, .inr ⟨text, ?_, ?_⟩⟩
    · have hget : store.getState m.stateKey .none category =
          (.dict (recordsValue m.quarantines), loaded) := store.getState_of_readRow hread .none
      exact fresh.loadPersistedQuarantines_of_dict now hget (mapM_restoreRecord now m.quarantines)
    · rw [hrestored, mem_keys_foldl_addRestored]
      simp [hfresh]
    · rw [hkey, hstore]
      exact hrow
    · rw [hquarantines]
      exact hdumps

/-! ### The records of an entity -/

/-- An unreleased record of the entity, under another id. -/
def HeldElsewhere (id table entityKey : String) : Prop :=
  ∃ id' r, id' ≠ id ∧ m.quarantines.get? id' = some r ∧ r.isActive ∧ r.IsOf table entityKey

/-- An unreleased record of the entity. -/
def Held (table entityKey : String) : Prop :=
  ∃ r ∈ m.getActiveQuarantines, r.IsOf table entityKey

theorem mem_getActiveQuarantines_iff {r : CDCQuarantineRecord} :
    r ∈ m.getActiveQuarantines ↔ ∃ id, m.quarantines.get? id = some r ∧ r.isActive := by
  rw [getActiveQuarantines, List.mem_filter, List.mem_map]
  constructor
  · rintro ⟨⟨⟨id, r⟩, hmem, rfl⟩, hactive⟩
    exact ⟨id, m.quarantines.mem_items_iff.mp hmem, hactive⟩
  · rintro ⟨id, hget, hactive⟩
    exact ⟨⟨(id, r), m.quarantines.mem_items_iff.mpr hget, rfl⟩, hactive⟩

theorem held_iff (id table entityKey : String) :
    m.Held table entityKey ↔ m.HeldElsewhere id table entityKey ∨
      ∃ r, m.quarantines.get? id = some r ∧ r.isActive ∧ r.IsOf table entityKey := by
  constructor
  · rintro ⟨r, hmem, hof⟩
    obtain ⟨id', hget, hactive⟩ := m.mem_getActiveQuarantines_iff.mp hmem
    rcases eq_or_ne id' id with rfl | hne
    · exact .inr ⟨r, hget, hactive, hof⟩
    · exact .inl ⟨id', r, hne, hget, hactive, hof⟩
  · rintro (⟨id', r, -, hget, hactive, hof⟩ | ⟨r, hget, hactive, hof⟩)
    · exact ⟨r, m.mem_getActiveQuarantines_iff.mpr ⟨id', hget, hactive⟩, hof⟩
    · exact ⟨r, m.mem_getActiveQuarantines_iff.mpr ⟨id, hget, hactive⟩, hof⟩

/-- The unreleased records of an entity when a record is set. -/
theorem held_set_iff {m' : CDCConflictQuarantineManager} {id : String} {record : CDCQuarantineRecord}
    (h : m'.quarantines = m.quarantines.set id record) (table entityKey : String) :
    m'.Held table entityKey ↔
      (record.isActive ∧ record.IsOf table entityKey) ∨ m.HeldElsewhere id table entityKey := by
  rw [m'.held_iff id]
  constructor
  · rintro (⟨id', r, hne, hget, hactive, hof⟩ | ⟨r, hget, hactive, hof⟩)
    · rw [h, PyDict.get?_set_of_ne _ _ hne] at hget
      exact .inr ⟨id', r, hne, hget, hactive, hof⟩
    · rw [h, PyDict.get?_set, Option.some.injEq] at hget
      rw [hget]
      exact .inl ⟨hactive, hof⟩
  · rintro (⟨hactive, hof⟩ | ⟨id', r, hne, hget, hactive, hof⟩)
    · exact .inr ⟨record, by rw [h, PyDict.get?_set], hactive, hof⟩
    · exact .inl ⟨id', r, hne, by rw [h, PyDict.get?_set_of_ne _ _ hne, hget], hactive, hof⟩

/-! ### What the two calls do -/

/-- The parts of the manager that the answers depend on. -/
structure Becomes (m m' : CDCConflictQuarantineManager) (id : String) (record : CDCQuarantineRecord)
    (keys : Finset String) : Prop where
  topologyId : m'.topologyId = m.topologyId
  quarantines : m'.quarantines = m.quarantines.set id record
  keys : m'.quarantinedKeys = keys
  persisted : m'.Persisted

theorem becomes_persist (id : String) (record : CDCQuarantineRecord) (keys : Finset String) :
    Becomes m (persistQuarantines jsonDefault { m with
      quarantines := m.quarantines.set id record, quarantinedKeys := keys }).2 id record keys := by
  obtain ⟨-, store, hstore, hpersisted⟩ := persistQuarantines_spec jsonDefault { m with
    quarantines := m.quarantines.set id record, quarantinedKeys := keys }
  refine ⟨?_, ?_, ?_, hpersisted⟩
  · rw [hstore]
  · rw [hstore]
  · rw [hstore]

/-- A quarantine that is not stale adds a record, and locks its entity. -/
theorem quarantineEntity_spec (identity : CDCEventIdentity)
    (conflictId entityTable entityKey reason : String) (fencingEpoch : ℤ) (hex now : String) :
    (m.recoveryCoordinator.validateFencingToken identity.migrationId fencingEpoch = false ∧
      (m.quarantineEntity jsonDefault identity conflictId entityTable entityKey reason fencingEpoch
        hex now).2 = m) ∨
    (m.recoveryCoordinator.validateFencingToken identity.migrationId fencingEpoch = true ∧
      ∃ record : CDCQuarantineRecord, record.isActive ∧ record.IsOf entityTable entityKey ∧
        Becomes m (m.quarantineEntity jsonDefault identity conflictId entityTable entityKey reason
          fencingEpoch hex now).2 ("quar-" ++ hex) record
          (insert (lockKey entityTable entityKey) m.quarantinedKeys)) := by
  unfold quarantineEntity
  cases hvalid : m.recoveryCoordinator.validateFencingToken identity.migrationId fencingEpoch with
  | false => exact .inl ⟨rfl, rfl⟩
  | true =>
    right
    refine ⟨rfl, ⟨"quar-" ++ hex, conflictId, m.topologyId, identity.migrationId, identity.runId,
      entityTable, entityKey, reason, fencingEpoch, .active, none, now, none⟩, rfl, ⟨rfl, rfl⟩, ?_⟩
    simp only [Bool.not_true, Bool.false_eq_true, if_false]
    exact becomes_persist ..

/-- The record that a call of `release_quarantine` releases, if it releases one. -/
def releases (identity : CDCEventIdentity) (quarantineId : String) (fencingEpoch : ℤ) :
    Option CDCQuarantineRecord :=
  if m.recoveryCoordinator.validateFencingToken identity.migrationId fencingEpoch then
    (m.quarantines.get? quarantineId).filter fun record =>
      record.topologyId = m.topologyId ∧ record.runId = identity.runId
  else none

/-- A release changes nothing, or it releases its record and unlocks the entity. -/
theorem releaseQuarantine_spec (identity : CDCEventIdentity) (quarantineId resolutionId : String)
    (fencingEpoch : ℤ) (now : String) :
    (m.releases identity quarantineId fencingEpoch = none ∧
      (m.releaseQuarantine jsonDefault identity quarantineId resolutionId fencingEpoch now).2 = m) ∨
    ∃ record released : CDCQuarantineRecord,
      m.releases identity quarantineId fencingEpoch = some record ∧
      m.quarantines.get? quarantineId = some record ∧ released.isActive = false ∧
      Becomes m (m.releaseQuarantine jsonDefault identity quarantineId resolutionId fencingEpoch
        now).2 quarantineId released (m.quarantinedKeys.erase record.lockKey) := by
  unfold releaseQuarantine releases
  cases hvalid : m.recoveryCoordinator.validateFencingToken identity.migrationId fencingEpoch with
  | false => exact .inl ⟨rfl, rfl⟩
  | true =>
    cases hget : m.quarantines.get? quarantineId with
    | none => exact .inl ⟨rfl, rfl⟩
    | some record =>
      by_cases hidentity : record.topologyId = m.topologyId ∧ record.runId = identity.runId
      · right
        have hmismatch : ¬ (record.topologyId ≠ m.topologyId ∨ record.runId ≠ identity.runId) := by
          tauto
        simp only [Bool.not_true, Bool.false_eq_true, if_false, if_true, if_neg hmismatch]
        refine ⟨record, { record with
          state := .released, resolutionId := some resolutionId, releasedAt := some now },
          ?_, rfl, rfl, becomes_persist ..⟩
        simp [Option.filter, hidentity]
      · left
        have hmismatch : record.topologyId ≠ m.topologyId ∨ record.runId ≠ identity.runId := by
          tauto
        simp only [Bool.not_true, Bool.false_eq_true, if_false, if_true, if_pos hmismatch]
        refine ⟨?_, trivial⟩
        simp [Option.filter, hidentity]

/-! ## Runs -/

/-- A call, a change of the coordinator by others, or a new manager over the same records, in the
same process or in a new one. -/
inductive QuarantineAction where
  | fence (recoveryCoordinator : Recovery.RecoveryCoordinator)
  | quarantine (identity : CDCEventIdentity) (conflictId entityTable entityKey reason : String)
      (fencingEpoch : ℤ) (hex now : String)
  | release (identity : CDCEventIdentity) (quarantineId resolutionId : String) (fencingEpoch : ℤ)
      (now : String)
  | reload (now : String) (recoveryCoordinator : Recovery.RecoveryCoordinator) (newProcess : Bool)

/-- The store that a manager in the same process or in a new one finds. -/
def storeAt (newProcess : Bool) : CentralStateStore :=
  { m.stateStore with state := if newProcess then StateCache.new else m.stateStore.state }

/-- One call. -/
def quarantineStep : QuarantineAction → Option CDCConflictQuarantineManager
  | .fence recoveryCoordinator => some { m with recoveryCoordinator := recoveryCoordinator }
  | .quarantine identity conflictId entityTable entityKey reason fencingEpoch hex now =>
    some (m.quarantineEntity jsonDefault identity conflictId entityTable entityKey reason
      fencingEpoch hex now).2
  | .release identity quarantineId resolutionId fencingEpoch now =>
    some (m.releaseQuarantine jsonDefault identity quarantineId resolutionId fencingEpoch now).2
  | .reload now recoveryCoordinator newProcess =>
    (new now m.topologyId recoveryCoordinator (m.storeAt newProcess)).toOption

/-- A manager over an empty store. -/
def start (topologyId : String) (recoveryCoordinator : Recovery.RecoveryCoordinator) :
    CDCConflictQuarantineManager :=
  ⟨topologyId, recoveryCoordinator, ⟨fun _ _ => none, StateCache.new⟩, .empty, ∅⟩

/-- The set agrees with the records: an entity is quarantined when some record for exactly this
table and key is unreleased. -/
def Matches : Prop :=
  ∀ table entityKey, m.isEntityQuarantined table entityKey = true ↔ m.Held table entityKey

/-- The condition.  A quarantine that is not stale is of a table and a key without colons, or of an
entity with an unreleased record; its id is not the one of the only unreleased record of another
entity.  No other unreleased record has the text of a record that is released. -/
def KeepsMatch : QuarantineAction → Prop
  | .quarantine identity _ entityTable entityKey _ fencingEpoch hex _ =>
    m.recoveryCoordinator.validateFencingToken identity.migrationId fencingEpoch = true →
      (m.Held entityTable entityKey ∨ ColonFreeEntity entityTable entityKey) ∧
      ∀ old, m.quarantines.get? ("quar-" ++ hex) = some old → old.isActive →
        old.IsOf entityTable entityKey ∨
          m.HeldElsewhere ("quar-" ++ hex) old.entityTable old.entityKey
  | .release identity quarantineId _ fencingEpoch _ =>
    ∀ record, m.releases identity quarantineId fencingEpoch = some record →
      ∀ id other, id ≠ quarantineId → m.quarantines.get? id = some other → other.isActive →
        other.lockKey ≠ record.lockKey
  | _ => True

variable {m} {m' : CDCConflictQuarantineManager}

theorem matches_iff_mem : m.Matches ↔
    ∀ table entityKey, lockKey table entityKey ∈ m.quarantinedKeys ↔ m.Held table entityKey := by
  simp [Matches, isEntityQuarantined]

theorem lockKey_of_isOf {r : CDCQuarantineRecord} {table entityKey : String}
    (h : r.IsOf table entityKey) : r.lockKey = lockKey table entityKey := by
  rw [CDCQuarantineRecord.lockKey, h.1, h.2]

/-- **A quarantine** keeps the agreement exactly when it meets its condition. -/
theorem matches_quarantined_iff (hmatches : m.Matches) {id table entityKey : String}
    {record : CDCQuarantineRecord} (hactive : record.isActive) (hof : record.IsOf table entityKey)
    (h : Becomes m m' id record (insert (lockKey table entityKey) m.quarantinedKeys)) :
    m'.Matches ↔ (m.Held table entityKey ∨ ColonFreeEntity table entityKey) ∧
      ∀ old, m.quarantines.get? id = some old → old.isActive →
        old.IsOf table entityKey ∨ m.HeldElsewhere id old.entityTable old.entityKey := by
  rw [matches_iff_mem] at hmatches ⊢
  simp only [h.keys, Finset.mem_insert, m.held_set_iff h.quarantines, hactive, true_and]
  constructor
  · intro hall
    constructor
    · by_contra hnot
      rw [not_or] at hnot
      obtain ⟨table', entityKey', htext, hne⟩ := exists_other_of_colon hnot.2
      rcases (hall table' entityKey').mp (.inl htext) with hof' | helse
      · exact hne ⟨hof'.1.symm.trans hof.1, hof'.2.symm.trans hof.2⟩
      · have hheld := (m.held_iff id table' entityKey').mpr (.inl helse)
        have hmem := (hmatches table' entityKey').mpr hheld
        rw [htext] at hmem
        exact hnot.1 ((hmatches table entityKey).mp hmem)
    · intro old hget hold
      have hheld := (m.held_iff id old.entityTable old.entityKey).mpr
        (.inr ⟨old, hget, hold, rfl, rfl⟩)
      rcases (hall _ _).mp (.inr ((hmatches _ _).mpr hheld)) with hof' | helse
      · exact .inl ⟨hof'.1.symm.trans hof.1, hof'.2.symm.trans hof.2⟩
      · exact .inr helse
  · rintro ⟨hkey, hold⟩ table' entityKey'
    have hheld : m.Held table' entityKey' →
        record.IsOf table' entityKey' ∨ m.HeldElsewhere id table' entityKey' := by
      intro hheld
      rcases (m.held_iff id table' entityKey').mp hheld with helse | ⟨old, hget, hact, hof'⟩
      · exact .inr helse
      · rcases hold old hget hact with hsame | helse
        · exact .inl ⟨hof.1.trans (hsame.1.symm.trans hof'.1),
            hof.2.trans (hsame.2.symm.trans hof'.2)⟩
        · rw [hof'.1, hof'.2] at helse
          exact .inr helse
    constructor
    · rintro (htext | hmem)
      · rcases hkey with hkey | hfree
        · have hmem := (hmatches table entityKey).mpr hkey
          rw [← htext] at hmem
          exact hheld ((hmatches table' entityKey').mp hmem)
        · obtain ⟨htable, hentity⟩ := (lockKey_eq_iff_of_colonFree hfree).mp htext
          exact .inl ⟨hof.1.trans htable.symm, hof.2.trans hentity.symm⟩
      · exact hheld ((hmatches table' entityKey').mp hmem)
    · rintro (hof' | helse)
      · left
        rw [← hof.1, ← hof.2, hof'.1, hof'.2]
      · exact .inr ((hmatches table' entityKey').mpr ((m.held_iff id _ _).mpr (.inl helse)))

/-- **A release** keeps the agreement exactly when it meets its condition. -/
theorem matches_released_iff (hmatches : m.Matches) {id : String}
    {record released : CDCQuarantineRecord} (hget : m.quarantines.get? id = some record)
    (hreleased : released.isActive = false)
    (h : Becomes m m' id released (m.quarantinedKeys.erase record.lockKey)) :
    m'.Matches ↔ ∀ id' other, id' ≠ id → m.quarantines.get? id' = some other → other.isActive →
      other.lockKey ≠ record.lockKey := by
  rw [matches_iff_mem] at hmatches ⊢
  simp only [h.keys, Finset.mem_erase, m.held_set_iff h.quarantines, hreleased, Bool.false_eq_true,
    false_and, false_or]
  constructor
  · intro hall id' other hne hother hactive
    exact ((hall other.entityTable other.entityKey).mpr
      ⟨id', other, hne, hother, hactive, rfl, rfl⟩).1
  · intro hothers table entityKey
    constructor
    · rintro ⟨hne, hmem⟩
      rcases (m.held_iff id table entityKey).mp ((hmatches table entityKey).mp hmem) with
        helse | ⟨r, hr, -, hof⟩
      · exact helse
      · rw [hget, Option.some.injEq] at hr
        rw [← hr] at hof
        exact absurd (lockKey_of_isOf hof).symm hne
    · rintro ⟨id', other, hne, hother, hactive, hof⟩
      have hheld := (m.held_iff id table entityKey).mpr
        (.inl ⟨id', other, hne, hother, hactive, hof⟩)
      refine ⟨?_, (hmatches table entityKey).mpr hheld⟩
      rw [← lockKey_of_isOf hof]
      exact hothers id' other hne hother hactive

/-- **A reload** keeps the agreement. -/
theorem matches_reloaded (hmatches : m.Matches) (hquarantines : m'.quarantines = m.quarantines)
    (hkeys : ∀ text, text ∈ m'.quarantinedKeys ↔
      ∃ item ∈ m.quarantines.items, item.2.isActive ∧ item.2.lockKey = text) : m'.Matches := by
  rw [matches_iff_mem] at hmatches ⊢
  intro table entityKey
  have hheld : m'.Held table entityKey ↔ m.Held table entityKey := by
    rw [Held, Held, getActiveQuarantines, getActiveQuarantines, hquarantines]
  rw [hkeys, hheld]
  constructor
  · rintro ⟨⟨id, r⟩, hmem, hactive, htext⟩
    have hr : m.Held r.entityTable r.entityKey := (m.held_iff id _ _).mpr
      (.inr ⟨r, m.quarantines.mem_items_iff.mp hmem, hactive, rfl, rfl⟩)
    have hlocked := (hmatches _ _).mpr hr
    rw [show lockKey r.entityTable r.entityKey = lockKey table entityKey from htext] at hlocked
    exact (hmatches table entityKey).mp hlocked
  · rintro ⟨r, hmem, hof⟩
    obtain ⟨id, hget, hactive⟩ := m.mem_getActiveQuarantines_iff.mp hmem
    exact ⟨(id, r), m.quarantines.mem_items_iff.mpr hget, hactive, lockKey_of_isOf hof⟩

/-- A reload finds what is persisted. -/
theorem reload_spec (h : m.Persisted) {now : String}
    {recoveryCoordinator : Recovery.RecoveryCoordinator} {newProcess : Bool}
    (hstep : quarantineStep jsonDefault m (.reload now recoveryCoordinator newProcess) = some m') :
    m'.quarantines = m.quarantines ∧ (∀ text, text ∈ m'.quarantinedKeys ↔
        ∃ item ∈ m.quarantines.items, item.2.isActive ∧ item.2.lockKey = text) ∧
      m'.Persisted := by
  have hstate : m.stateStore.state.lookup category m.stateKey = none →
      (m.storeAt newProcess).state.lookup category m.stateKey = none := by
    intro hnone
    cases newProcess with
    | false => exact hnone
    | true => exact StateCache.lookup_new ..
  obtain ⟨restored, hnew, -, hquarantines, hkeys, hpersisted⟩ :=
    @reload_eq m h now recoveryCoordinator (m.storeAt newProcess) rfl hstate
  rw [quarantineStep, hnew] at hstep
  rw [← Option.some.inj hstep]
  exact ⟨hquarantines, hkeys, hpersisted⟩

theorem Persisted.step (h : m.Persisted) {a : QuarantineAction}
    (hstep : quarantineStep jsonDefault m a = some m') : m'.Persisted := by
  cases a with
  | fence recoveryCoordinator =>
    rw [quarantineStep, Option.some.injEq] at hstep
    rw [← hstep]
    exact h
  | quarantine identity conflictId entityTable entityKey reason fencingEpoch hex now =>
    rw [quarantineStep, Option.some.injEq] at hstep
    rcases m.quarantineEntity_spec jsonDefault identity conflictId entityTable entityKey reason
      fencingEpoch hex now with ⟨-, hsame⟩ | ⟨-, record, -, -, hbecomes⟩
    · rw [← hstep, hsame]
      exact h
    · rw [← hstep]
      exact hbecomes.persisted
  | release identity quarantineId resolutionId fencingEpoch now =>
    rw [quarantineStep, Option.some.injEq] at hstep
    rcases m.releaseQuarantine_spec jsonDefault identity quarantineId resolutionId fencingEpoch
      now with ⟨-, hsame⟩ | ⟨record, released, -, -, -, hbecomes⟩
    · rw [← hstep, hsame]
      exact h
    · rw [← hstep]
      exact hbecomes.persisted
  | reload now recoveryCoordinator newProcess => exact (reload_spec jsonDefault h hstep).2.2

/-- **One call** keeps the agreement exactly when it meets the condition. -/
theorem matches_step_iff (h : m.Persisted) (hmatches : m.Matches) {a : QuarantineAction}
    (hstep : quarantineStep jsonDefault m a = some m') : m'.Matches ↔ m.KeepsMatch a := by
  cases a with
  | fence recoveryCoordinator =>
    rw [quarantineStep, Option.some.injEq] at hstep
    rw [← hstep]
    exact ⟨fun _ => trivial, fun _ => hmatches⟩
  | quarantine identity conflictId entityTable entityKey reason fencingEpoch hex now =>
    rw [quarantineStep, Option.some.injEq] at hstep
    rcases m.quarantineEntity_spec jsonDefault identity conflictId entityTable entityKey reason
      fencingEpoch hex now with ⟨hstale, hsame⟩ | ⟨hvalid, record, hactive, hof, hbecomes⟩
    · rw [← hstep, hsame]
      refine ⟨fun _ hvalid => ?_, fun _ => hmatches⟩
      rw [hstale] at hvalid
      cases hvalid
    · rw [← hstep, matches_quarantined_iff hmatches hactive hof hbecomes]
      exact ⟨fun hkeeps _ => hkeeps, fun hkeeps => hkeeps hvalid⟩
  | release identity quarantineId resolutionId fencingEpoch now =>
    rw [quarantineStep, Option.some.injEq] at hstep
    rcases m.releaseQuarantine_spec jsonDefault identity quarantineId resolutionId fencingEpoch
      now with ⟨hnone, hsame⟩ | ⟨record, released, hrelease, hget, hreleased, hbecomes⟩
    · rw [← hstep, hsame]
      refine ⟨fun _ record hrecord => ?_, fun _ => hmatches⟩
      rw [hnone] at hrecord
      cases hrecord
    · rw [← hstep, matches_released_iff hmatches hget hreleased hbecomes]
      constructor
      · intro hothers record' hrecord'
        rw [hrelease, Option.some.injEq] at hrecord'
        exact hrecord' ▸ hothers
      · intro hkeeps
        exact hkeeps record hrelease
  | reload now recoveryCoordinator newProcess =>
    obtain ⟨hquarantines, hkeys, -⟩ := reload_spec jsonDefault h hstep
    exact ⟨fun _ => trivial, fun _ => matches_reloaded hmatches hquarantines hkeys⟩

theorem persisted_start (topologyId : String) (recoveryCoordinator : Recovery.RecoveryCoordinator) :
    (start topologyId recoveryCoordinator).Persisted :=
  .inl ⟨rfl, StateCache.lookup_new .., rfl, rfl⟩

theorem matches_start (topologyId : String) (recoveryCoordinator : Recovery.RecoveryCoordinator) :
    (start topologyId recoveryCoordinator).Matches := by
  rw [matches_iff_mem]
  intro table entityKey
  simp [start, Held, getActiveQuarantines, PyDict.empty]

/-- **Agreement.**  In a run from an empty store `is_entity_quarantined` agrees in every state with
the unreleased records exactly when every call meets the condition. -/
theorem matches_iff (topologyId : String) (recoveryCoordinator : Recovery.RecoveryCoordinator)
    (as : List QuarantineAction) :
    HoldsAlong (quarantineStep jsonDefault) Matches (start topologyId recoveryCoordinator) as ↔
      MeetsAlong (quarantineStep jsonDefault) KeepsMatch (start topologyId recoveryCoordinator) as :=
  holdsAlong_iff_meetsAlong (fun _ _ _ hs hstep => hs.step jsonDefault hstep)
    (fun _ _ _ hs hmatches hstep => matches_step_iff jsonDefault hs hmatches hstep)
    (persisted_start topologyId recoveryCoordinator) (matches_start topologyId recoveryCoordinator)
    as

/-- Two conflicts on one entity, of which the first is resolved. -/
def twoConflicts : List QuarantineAction :=
  [.quarantine sampleIdentity "c1" "orders" "42" "update/update" 0 "00000001" "t1",
    .quarantine sampleIdentity "c2" "orders" "42" "update/delete" 0 "00000002" "t2",
    .release sampleIdentity "quar-00000001" "res1" 0 "t3"]

/-- After the release the entity is not locked, although the second conflict is unreleased. -/
theorem not_matches_of_two_conflicts :
    ¬ ∀ as, HoldsAlong (quarantineStep fun _ _ => none) Matches (start "topo1" .new) as := by
  intro h
  have hrun : (run (quarantineStep fun _ _ => none) (start "topo1" .new) twoConflicts).map
      (fun m => (m.isEntityQuarantined "orders" "42", m.getActiveQuarantines.any
        fun r => r.entityTable = "orders" ∧ r.entityKey = "42")) = some (false, true) := by
    decide +kernel
  obtain ⟨m, hm, hresult⟩ := Option.map_eq_some_iff.mp hrun
  obtain ⟨hquarantined, hactive⟩ := Prod.mk.inj hresult
  obtain ⟨r, hmem, hentity⟩ := List.any_eq_true.mp hactive
  have hof : r.entityTable = "orders" ∧ r.entityKey = "42" := of_decide_eq_true hentity
  have hmatches : m.Matches := (h twoConflicts).finish hm
  have hlocked := (hmatches "orders" "42").mpr ⟨r, hmem, hof⟩
  rw [hquarantined] at hlocked
  cases hlocked

end CDCConflictQuarantineManager

end CDC

/-
# The table of state records

`put_state`, `get_state`, `delete_state` and `compare_and_swap` of
`akaalEngine/durability/store/sqlite.py`: a record of a key in a namespace is stored as JSON under a
version that starts at 1 and grows with every write.

* `putState_writes`, `compareAndSwap_writes` : what the table is once a payload is written;
* `deleteState_self`, `deleteState_of_ne` : what it is once a record is deleted.

Whether the quota allows a write is an input.
-/
import Akaal.CheckpointRegistry

open CDC JsonText

namespace Durability

/-! ## Records and rows -/

/-- The payload of a record. -/
structure StatePayload where
  items : List (PyKey × PyInput)
  isInput : IsInput (.dict items)

/-- `StateRecord`, as far as `put_state` reads it. -/
structure StateRecord where
  key : String
  space : String
  payload : StatePayload
  stateSchemaVersion : ℤ

/-- A row of `state_records`. -/
structure StateRow where
  payloadJson : String
  version : ℤ
  stateSchemaVersion : ℤ
  createdAt : String
  updatedAt : String
  checksum : String
  deriving DecidableEq

/-- The table `state_records`, by namespace and key. -/
abbrev StateTable := String → String → Option StateRow

/-- The empty table. -/
def StateTable.empty : StateTable := fun _ _ => none

/-- `CURRENT_ENGINE_SCHEMA_VERSION`. -/
def currentEngineSchemaVersion : ℤ := 1

/-- Why a state is not written or not read. -/
inductive StateError where
  | schemaVersion (version : ℤ)
  | downgrade
  | prohibitedSecrets
  | notSerializable (exception : DumpsError)
  | quotaExceeded
  | missingKey (key : String) (expectedVersion : ℤ)
  | casConflict (key : String) (version expectedVersion : ℤ)
  | persistedVersion (version : ℤ)
  | corrupt (error : ReadError)

/-! ## Operations -/

section Operations

variable (rt : DigestRuntime) (t : StateTable)

/-- The text of a payload that may be stored: it has no secrets, and the quota allows it. -/
def payloadText (payload : StatePayload) (fits : Bool) : Except StateError String :=
  if containsProhibitedSecrets (.dict payload.items) then .error .prohibitedSecrets
  else
    match dumpsSorted (.dict payload.items) with
    | .error exception => .error (.notSerializable exception)
    | .ok payloadJson => if fits then .ok payloadJson else .error .quotaExceeded

/-- The table after the row of a key is written. -/
def StateTable.write (space key : String) (row : StateRow) : StateTable :=
  StateStore.updateAt t space key (some row)

/-- `put_state`: the new version, and the table. -/
def putState (record : StateRecord) (now : String) (fits : Bool) :
    Except StateError (ℤ × StateTable) :=
  if currentEngineSchemaVersion < record.stateSchemaVersion then
    .error (.schemaVersion record.stateSchemaVersion)
  else
    match payloadText record.payload fits with
    | .error e => .error e
    | .ok payloadJson =>
      let checksum := rt.sha256Hex payloadJson
      match t record.space record.key with
      | some row =>
        if record.stateSchemaVersion < row.stateSchemaVersion then .error .downgrade
        else .ok (row.version + 1, t.write record.space record.key ⟨payloadJson,
          row.version + 1, record.stateSchemaVersion, row.createdAt, now, checksum⟩)
      | none => .ok (1, t.write record.space record.key
          ⟨payloadJson, 1, record.stateSchemaVersion, now, now, checksum⟩)

/-- A record that is read. -/
structure ReadState where
  payload : PyValue
  version : ℤ
  stateSchemaVersion : ℤ
  createdAt : String
  updatedAt : String
  checksum : String

/-- `get_state`. -/
def getState (key space : String) : Except StateError (Option ReadState) :=
  match t space key with
  | none => .ok none
  | some row =>
    if currentEngineSchemaVersion < row.stateSchemaVersion then
      .error (.persistedVersion row.stateSchemaVersion)
    else
      match loads row.payloadJson with
      | none => .error (.corrupt .corruptJson)
      | some payload =>
        match verifyDictChecksum rt payload row.checksum with
        | .error e => .error (.corrupt e)
        | .ok () => .ok (some ⟨payload, row.version, row.stateSchemaVersion, row.createdAt,
            row.updatedAt, row.checksum⟩)

/-- `delete_state`: whether there was a row, and the table. -/
def deleteState (key space : String) : Bool × StateTable :=
  ((t space key).isSome, StateStore.updateAt t space key none)

/-- `compare_and_swap`: the new version, and the table. -/
def compareAndSwap (key space : String) (expectedVersion : ℤ) (newPayload : StatePayload)
    (now : String) (fits : Bool) : Except StateError (ℤ × StateTable) :=
  match payloadText newPayload fits with
  | .error e => .error e
  | .ok payloadJson =>
    let checksum := rt.sha256Hex payloadJson
    match t space key with
    | none =>
      if expectedVersion ≠ 0 then .error (.missingKey key expectedVersion)
      else .ok (1, t.write space key ⟨payloadJson, 1, 1, now, now, checksum⟩)
    | some row =>
      if row.version ≠ expectedVersion then
        .error (.casConflict key row.version expectedVersion)
      else .ok (row.version + 1, t.write space key ⟨payloadJson, row.version + 1,
        row.stateSchemaVersion, row.createdAt, now, checksum⟩)

end Operations

/-! ## What the operations do -/

variable {rt : DigestRuntime} {t t' : StateTable}

/-- The version of a key, 0 when it has no row. -/
def StateTable.version (t : StateTable) (space key : String) : ℤ := (t space key).elim 0 StateRow.version

theorem version_write (t : StateTable) (space key : String) (row : StateRow) :
    (t.write space key row).version space key = row.version := by
  rw [StateTable.version, StateTable.write, StateStore.updateAt_self, Option.elim_some]

theorem write_of_ne {space key space' key' : String} (row : StateRow)
    (h : ¬ (space' = space ∧ key' = key)) : t.write space key row space' key' = t space' key' :=
  StateStore.updateAt_of_ne h

/-- What a write makes of the table: one row, whose version is one more and whose text is under its
digest. -/
structure Writes (rt : DigestRuntime) (t t' : StateTable) (space key : String)
    (payload : StatePayload) : Prop where
  row : ∃ text schemaVersion createdAt updatedAt, dumpsSorted (.dict payload.items) = .ok text ∧
    t' = t.write space key ⟨text, t.version space key + 1, schemaVersion, createdAt, updatedAt,
      rt.sha256Hex text⟩ ∧
    schemaVersion ≤ max currentEngineSchemaVersion
      ((t space key).elim currentEngineSchemaVersion StateRow.stateSchemaVersion)

theorem payloadText_eq_ok {payload : StatePayload} {fits : Bool} {text : String}
    (h : payloadText payload fits = .ok text) : dumpsSorted (.dict payload.items) = .ok text := by
  unfold payloadText at h
  by_cases hsecret : containsProhibitedSecrets (.dict payload.items) = true
  · rw [if_pos hsecret] at h
    cases h
  · rw [if_neg hsecret] at h
    split at h
    · cases h
    · next payloadJson hdumps =>
        split_ifs at h
        cases h
        exact hdumps

/-- **What `put_state` writes.** -/
theorem putState_writes {record : StateRecord} {now : String} {fits : Bool} {n : ℤ}
    (h : putState rt t record now fits = .ok (n, t')) :
    n = t.version record.space record.key + 1 ∧
      Writes rt t t' record.space record.key record.payload := by
  unfold putState at h
  split_ifs at h with hschema
  split at h
  · cases h
  · next payloadJson htext =>
      have hdumps := payloadText_eq_ok htext
      have hle := (not_lt.mp hschema).trans (le_max_left _
        ((t record.space record.key).elim currentEngineSchemaVersion StateRow.stateSchemaVersion))
      dsimp only at h
      split at h
      · next row hrow =>
          split_ifs at h
          cases h
          have hversion : t.version record.space record.key = row.version := by
            rw [StateTable.version, hrow, Option.elim_some]
          exact ⟨by rw [hversion], ⟨payloadJson, _, _, _, hdumps, by rw [hversion], hle⟩⟩
      · next hrow =>
          cases h
          have hversion : t.version record.space record.key = 0 := by
            rw [StateTable.version, hrow, Option.elim_none]
          exact ⟨by rw [hversion]; rfl, ⟨payloadJson, _, _, _, hdumps, by rw [hversion]; rfl, hle⟩⟩

/-- **What `compare_and_swap` writes**, and the version it finds. -/
theorem compareAndSwap_writes {key space : String} {expectedVersion n : ℤ} {payload : StatePayload}
    {now : String} {fits : Bool}
    (h : compareAndSwap rt t key space expectedVersion payload now fits = .ok (n, t')) :
    t.version space key = expectedVersion ∧ n = expectedVersion + 1 ∧
      Writes rt t t' space key payload := by
  unfold compareAndSwap at h
  split at h
  · cases h
  · next payloadJson htext =>
      have hdumps := payloadText_eq_ok htext
      dsimp only at h
      split at h
      · next hrow =>
          split_ifs at h with hexpected
          cases h
          have hversion : t.version space key = 0 := by
            rw [StateTable.version, hrow, Option.elim_none]
          obtain rfl := not_not.mp hexpected
          refine ⟨hversion, rfl, ⟨payloadJson, _, _, _, hdumps, by rw [hversion]; rfl, ?_⟩⟩
          exact le_max_left _ _
      · next row hrow =>
          split_ifs at h with hexpected
          cases h
          have hversion : t.version space key = row.version := by
            rw [StateTable.version, hrow, Option.elim_some]
          obtain rfl := not_not.mp hexpected
          refine ⟨hversion, rfl, ⟨payloadJson, _, _, _, hdumps, by rw [hversion], ?_⟩⟩
          rw [hrow, Option.elim_some]
          exact le_max_right _ _

theorem Writes.version_eq {space key : String} {payload : StatePayload}
    (h : Writes rt t t' space key payload) : t'.version space key = t.version space key + 1 := by
  obtain ⟨text, schemaVersion, createdAt, updatedAt, -, rfl, -⟩ := h.row
  exact version_write t space key _

/-- A write leaves the other keys alone. -/
theorem Writes.of_ne {space key space' key' : String} {payload : StatePayload}
    (h : Writes rt t t' space key payload) (hne : ¬ (space' = space ∧ key' = key)) :
    t' space' key' = t space' key' := by
  obtain ⟨text, schemaVersion, createdAt, updatedAt, -, rfl, -⟩ := h.row
  exact write_of_ne _ hne

/-- A key that `delete_state` removes has no row. -/
theorem deleteState_self (key space : String) : (deleteState t key space).2 space key = none :=
  StateStore.updateAt_self _ _ _ _

/-- `delete_state` leaves the other keys alone. -/
theorem deleteState_of_ne {key space key' space' : String} (h : ¬ (space' = space ∧ key' = key)) :
    (deleteState t key space).2 space' key' = t space' key' := StateStore.updateAt_of_ne h

end Durability

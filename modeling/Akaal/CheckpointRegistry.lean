/-
# The checkpoint registry

`MigrationCheckpointRegistry` of `akaalEngine/durability/checkpoint/registry.py` and `RowPositionTracker`
of `akaalEngine/durability/checkpoint/position.py`: one checkpoint for each migration, as a JSON text
under its checksum.

* `saveCheckpoint_spec`, `saveRowPosition_spec` : what holds of a write that is accepted;
* `getLatestCheckpoint` : what is read back.

The result of an `endpoint_identity` that is an empty text is taken from the metadata, as by `or`.
-/
import Akaal.FencingTokens
import Akaal.OperationJournal

open CDC JsonText

namespace Durability

/-! ## Checkpoints -/

/-- `RowPositionType`. -/
inductive RowPositionType where
  | primaryKey
  | compositePrimaryKey
  | uniqueKey
  | providerRowIdentity
  | orderedKeyset
  | sourceSnapshotPosition
  | byteOffset
  | recordOffset
  | objectContinuation
  | providerToken
  | unsafeUnavailable
  deriving DecidableEq

namespace RowPositionType

/-- The value of a position type. -/
def value : RowPositionType → String
  | .primaryKey => "PRIMARY_KEY"
  | .compositePrimaryKey => "COMPOSITE_PRIMARY_KEY"
  | .uniqueKey => "UNIQUE_KEY"
  | .providerRowIdentity => "PROVIDER_ROW_IDENTITY"
  | .orderedKeyset => "ORDERED_KEYSET"
  | .sourceSnapshotPosition => "SOURCE_SNAPSHOT_POSITION"
  | .byteOffset => "BYTE_OFFSET"
  | .recordOffset => "RECORD_OFFSET"
  | .objectContinuation => "OBJECT_CONTINUATION"
  | .providerToken => "PROVIDER_TOKEN"
  | .unsafeUnavailable => "UNSAFE_UNAVAILABLE"

/-- All position types. -/
def all : List RowPositionType :=
  [.primaryKey, .compositePrimaryKey, .uniqueKey, .providerRowIdentity, .orderedKeyset,
    .sourceSnapshotPosition, .byteOffset, .recordOffset, .objectContinuation, .providerToken,
    .unsafeUnavailable]

/-- `RowPositionType(value)`. -/
def ofValue (text : String) : Option RowPositionType := all.find? fun t => t.value = text

theorem ofValue_value (t : RowPositionType) : ofValue t.value = some t := by
  cases t <;> decide

end RowPositionType

/-- `RowPosition`; its values are values, and one that is unavailable does not claim to be stable. -/
structure RowPosition where
  positionType : RowPositionType
  value : List (PyKey × PyInput)
  isStableResumeSupported : Bool
  columnNames : List String
  token : Option String
  isInput : IsInput (.dict value)
  declared : positionType = .unsafeUnavailable → isStableResumeSupported = false

/-- `TableCheckpoint`. -/
structure TableCheckpoint where
  tableName : String
  schemaName : String
  status : String
  rowsProcessed : ℤ
  bytesProcessed : ℤ
  lastPosition : Option RowPosition
  partitionId : Option String
  updatedAt : Option String

/-- `MigrationCheckpoint`; the fields that are computed when it is read are left out. -/
structure MigrationCheckpoint where
  migrationId : String
  jobId : String
  fencingEpoch : ℤ
  status : String
  endpointIdentity : Option String
  tableCheckpoints : PyDict TableCheckpoint
  metadata : List (PyKey × PyInput)
  isInput : IsInput (.dict metadata)

theorem isInput_noMetadata : IsInput (.dict []) := ⟨List.nodup_nil, trivial⟩

/-- A row of `checkpoints`. -/
structure CheckpointRow where
  jobId : String
  status : String
  fencingEpoch : ℤ
  checkpointJson : String
  checksum : String
  updatedAt : String
  deriving DecidableEq

/-- The table `checkpoints`, by migration. -/
abbrev CheckpointTable := PyDict CheckpointRow

/-- Why a checkpoint or a position is not saved. -/
inductive SaveError where
  | prohibitedSecrets
  | notSerializable (exception : DumpsError)
  | quotaExceeded
  | resourceMismatch (resourceId migrationId : String)
  | fencing (error : FencingError)
  | staleEpoch (epoch current : ℤ)
  | noCheckpoint (migrationId : String)
  | notSaved

/-! ## The dictionary of a checkpoint -/

/-- A dictionary under texts. -/
def textDict (items : List (String × PyInput)) : PyInput :=
  .dict (items.map fun item => (.str item.1, item.2))

/-- A text that may be missing. -/
def optionText : Option String → PyInput
  | none => .none
  | some s => .str s

/-- `RowPositionTracker.to_dict`. -/
def RowPosition.toDict (pos : RowPosition) : PyInput :=
  textDict [("position_type", .str pos.positionType.value), ("value", .dict pos.value),
    ("is_stable_resume_supported", .bool pos.isStableResumeSupported),
    ("column_names", .list (pos.columnNames.map .str)), ("token", optionText pos.token)]

/-- `tbl.updated_at or now`. -/
def updatedAtOr (updatedAt : Option String) (now : String) : String :=
  if updatedAt.getD "" = "" then now else updatedAt.getD ""

/-- The dictionary of the checkpoint of a table. -/
def TableCheckpoint.toDict (tbl : TableCheckpoint) (now : String) : PyInput :=
  textDict [("table_name", .str tbl.tableName), ("schema_name", .str tbl.schemaName),
    ("status", .str tbl.status), ("rows_processed", .int tbl.rowsProcessed),
    ("bytes_processed", .int tbl.bytesProcessed),
    ("last_position", tbl.lastPosition.elim .none RowPosition.toDict),
    ("partition_id", optionText tbl.partitionId), ("updated_at", .str (updatedAtOr tbl.updatedAt now))]

/-- `checkpoint.endpoint_identity or checkpoint.metadata.get("endpoint_identity")`. -/
def MigrationCheckpoint.endpoint (checkpoint : MigrationCheckpoint) : PyInput :=
  if checkpoint.endpointIdentity.getD "" = "" then
    (checkpoint.metadata.lookup (.str "endpoint_identity")).getD .none
  else .str (checkpoint.endpointIdentity.getD "")

/-- The dictionary `chk_dict` of `save_checkpoint`. -/
def MigrationCheckpoint.toDict (checkpoint : MigrationCheckpoint) (now : String) : PyInput :=
  textDict [("migration_id", .str checkpoint.migrationId), ("job_id", .str checkpoint.jobId),
    ("fencing_epoch", .int checkpoint.fencingEpoch), ("status", .str checkpoint.status),
    ("endpoint_identity", checkpoint.endpoint),
    ("table_checkpoints",
      textDict (checkpoint.tableCheckpoints.items.map fun item => (item.1, item.2.toDict now))),
    ("metadata", .dict checkpoint.metadata), ("updated_at", .str now)]

/-- Whether the metadata or a position contains authentication material. -/
def MigrationCheckpoint.prohibited (checkpoint : MigrationCheckpoint) : Bool :=
  containsProhibitedSecrets (.dict checkpoint.metadata) ||
    checkpoint.tableCheckpoints.items.any fun item =>
      item.2.lastPosition.elim false fun pos => containsProhibitedSecrets (.dict pos.value)

/-- The token is for the migration or for a part of it. -/
def covers (resourceId migrationId : String) : Bool :=
  resourceId = migrationId || (migrationId ++ "/").toList.isPrefixOf resourceId.toList

/-! ## Saving -/

section Saving

variable (rt : DigestRuntime) (signingKey : List UInt8) (epochs : EpochTable)
  (checkpoints : CheckpointTable)

/-- The row of a checkpoint. -/
def checkpointRow (checkpoint : MigrationCheckpoint) (checkpointJson now : String) : CheckpointRow where
  jobId := checkpoint.jobId
  status := checkpoint.status
  fencingEpoch := checkpoint.fencingEpoch
  checkpointJson := checkpointJson
  checksum := rt.sha256Hex checkpointJson
  updatedAt := now

/-- `save_checkpoint`. -/
def saveCheckpoint (checkpoint : MigrationCheckpoint) (token : FencingToken) (now : String)
    (fits : Bool) : Except SaveError CheckpointTable :=
  if checkpoint.prohibited then .error .prohibitedSecrets
  else
    match dumpsSorted (checkpoint.toDict now) with
    | .error exception => .error (.notSerializable exception)
    | .ok checkpointJson =>
      if fits = false then .error .quotaExceeded
      else if covers token.resourceId checkpoint.migrationId = false then
        .error (.resourceMismatch token.resourceId checkpoint.migrationId)
      else
        match validateTokenInTx rt signingKey epochs token with
        | .error e => .error (.fencing e)
        | .ok () =>
          let written := checkpoints.set checkpoint.migrationId
            (checkpointRow rt checkpoint checkpointJson now)
          match checkpoints.get? checkpoint.migrationId with
          | none => .ok written
          | some row =>
            if checkpoint.fencingEpoch < row.fencingEpoch then
              .error (.staleEpoch checkpoint.fencingEpoch row.fencingEpoch)
            else .ok written

/-- **A checkpoint that is saved** is for the resource of a token that is accepted, is not older than
the one before, and is stored as a text under the digest of that text. -/
theorem saveCheckpoint_spec {rt : DigestRuntime} {signingKey : List UInt8} {epochs : EpochTable}
    {checkpoints table' : CheckpointTable} {checkpoint : MigrationCheckpoint} {token : FencingToken}
    {now : String} {fits : Bool}
    (h : saveCheckpoint rt signingKey epochs checkpoints checkpoint token now fits = .ok table') :
    covers token.resourceId checkpoint.migrationId = true ∧
      validateTokenInTx rt signingKey epochs token = .ok () ∧
      (∀ row, checkpoints.get? checkpoint.migrationId = some row →
        row.fencingEpoch ≤ checkpoint.fencingEpoch) ∧
      ∃ text, dumpsSorted (checkpoint.toDict now) = .ok text ∧
        table' = checkpoints.set checkpoint.migrationId (checkpointRow rt checkpoint text now) := by
  unfold saveCheckpoint at h
  by_cases hsecret : checkpoint.prohibited = true
  · rw [if_pos hsecret] at h
    cases h
  · rw [if_neg hsecret] at h
    cases htext : dumpsSorted (checkpoint.toDict now) with
    | error e =>
      rw [htext] at h
      cases h
    | ok text =>
      rw [htext] at h
      dsimp only at h
      by_cases hfits : fits = false
      · rw [if_pos hfits] at h
        cases h
      · rw [if_neg hfits] at h
        by_cases hcovers : covers token.resourceId checkpoint.migrationId = false
        · rw [if_pos hcovers] at h
          cases h
        · rw [if_neg hcovers] at h
          refine ⟨by simpa using hcovers, ?_⟩
          cases hvalid : validateTokenInTx rt signingKey epochs token with
          | error e =>
            rw [hvalid] at h
            cases h
          | ok _ =>
            rw [hvalid] at h
            refine ⟨rfl, ?_⟩
            cases hrow : checkpoints.get? checkpoint.migrationId with
            | none =>
              rw [hrow] at h
              cases h
              exact ⟨nofun, text, rfl, rfl⟩
            | some row =>
              rw [hrow] at h
              dsimp only at h
              split_ifs at h with hepoch
              cases h
              refine ⟨?_, text, rfl, rfl⟩
              rintro _ ⟨⟩
              exact not_lt.mp hepoch

end Saving

/-! ## Positions -/

mutual

/-- A value that was read from JSON, to be written again. -/
def ofValue : PyValue → PyInput
  | .none => .none
  | .str s => .str s
  | .bool b => .bool b
  | .int z => .int z
  | .float x => .float x
  | .list elements => .list (ofElements elements)
  | .dict items => .dict (ofItems items)
  | _ => .other ""

/-- The elements of a list that was read. -/
def ofElements : List PyValue → List PyInput
  | [] => []
  | v :: vs => ofValue v :: ofElements vs

/-- The items of a dictionary that was read. -/
def ofItems : List (String × PyValue) → List (PyKey × PyInput)
  | [] => []
  | (key, v) :: items => (.str key, ofValue v) :: ofItems items

end

/-- The items of a dictionary that was read, with values to be written again. -/
def readItems (items : List (String × PyValue)) : List (String × PyInput) :=
  items.map fun item => (item.1, ofValue item.2)

/-- The checkpoint of a table after a position, from what was read of it.  Only integers are ever
written as its number of rows. -/
def advanceTable (tbl : List (String × PyValue)) (position : RowPosition) (now : String) :
    Option (List (String × PyInput)) :=
  match (tbl.lookup "rows_processed").getD (.int 0) with
  | .int rows =>
    some (PyDict.setItem "updated_at" (.str now)
      (PyDict.setItem "last_position" position.toDict
        (PyDict.setItem "rows_processed" (.int (rows + 1))
          (PyDict.setItem "status" (.str "IN_PROGRESS") (readItems tbl)))))
  | _ => none

/-- The checkpoint of a table with its first position. -/
def firstTable (tableName : String) (position : RowPosition) (now : String) :
    List (String × PyInput) :=
  [("table_name", .str tableName), ("schema_name", .str "public"), ("status", .str "IN_PROGRESS"),
    ("rows_processed", .int 1), ("bytes_processed", .int 0), ("last_position", position.toDict),
    ("partition_id", .none), ("updated_at", .str now)]

/-- The dictionary of a checkpoint after a position, from what was read of it; `none` when it has not
the form of one. -/
def advance (v : PyValue) (tableName : String) (position : RowPosition) (now : String) :
    Option PyInput :=
  match v with
  | .dict items =>
    match (items.lookup "table_checkpoints").getD (.dict []) with
    | .dict tables =>
      let finish (tbl : List (String × PyInput)) : PyInput :=
        textDict (PyDict.setItem "updated_at" (.str now)
          (PyDict.setItem "table_checkpoints"
            (textDict (PyDict.setItem tableName (textDict tbl) (readItems tables)))
            (readItems items)))
      match (tables.lookup tableName).getD .none with
      | .dict (item :: tbl) => (advanceTable (item :: tbl) position now).map finish
      | v =>
        if StateStore.truthy v then none
        else some (finish (firstTable tableName position now))
    | _ => none
  | _ => none

section Positions

variable (rt : DigestRuntime) (signingKey : List UInt8) (epochs : EpochTable)
  (checkpoints : CheckpointTable)

/-- `save_row_position`; an exception that is not of the registry becomes a
`CheckpointConflictError`. -/
def saveRowPosition (migrationId tableName : String) (position : RowPosition) (token : FencingToken)
    (now : String) (fits : Bool) : Except SaveError CheckpointTable :=
  match validateTokenInTx rt signingKey epochs token with
  | .error e => .error (.fencing e)
  | .ok () =>
    match checkpoints.get? migrationId with
    | none => .error (.noCheckpoint migrationId)
    | some row =>
      match (loads row.checkpointJson).bind (advance · tableName position now) with
      | none => .error .notSaved
      | some advanced =>
        match dumpsSorted advanced with
        | .error _ => .error .notSaved
        | .ok checkpointJson =>
          if fits = false then .error .quotaExceeded
          else .ok (checkpoints.set migrationId
            { row with
              checkpointJson := checkpointJson
              checksum := rt.sha256Hex checkpointJson
              updatedAt := now })

/-- **A position that is saved** is for a token that is accepted, and is stored in the checkpoint that
is there, as a text under the digest of that text. -/
theorem saveRowPosition_spec {rt : DigestRuntime} {signingKey : List UInt8} {epochs : EpochTable}
    {checkpoints table' : CheckpointTable} {migrationId tableName : String} {position : RowPosition}
    {token : FencingToken} {now : String} {fits : Bool}
    (h : saveRowPosition rt signingKey epochs checkpoints migrationId tableName position token now
      fits = .ok table') :
    validateTokenInTx rt signingKey epochs token = .ok () ∧
      ∃ row v advanced text, checkpoints.get? migrationId = some row ∧
        loads row.checkpointJson = some v ∧ advance v tableName position now = some advanced ∧
        dumpsSorted advanced = .ok text ∧
        table' = checkpoints.set migrationId
          { row with checkpointJson := text, checksum := rt.sha256Hex text, updatedAt := now } := by
  unfold saveRowPosition at h
  cases hvalid : validateTokenInTx rt signingKey epochs token with
  | error e =>
    rw [hvalid] at h
    cases h
  | ok _ =>
    rw [hvalid] at h
    refine ⟨rfl, ?_⟩
    cases hrow : checkpoints.get? migrationId with
    | none =>
      rw [hrow] at h
      cases h
    | some row =>
      rw [hrow] at h
      dsimp only at h
      cases hadvanced : (loads row.checkpointJson).bind (advance · tableName position now) with
      | none =>
        rw [hadvanced] at h
        cases h
      | some advanced =>
        rw [hadvanced] at h
        dsimp only at h
        obtain ⟨v, hv, hadvance⟩ := Option.bind_eq_some_iff.mp hadvanced
        cases htext : dumpsSorted advanced with
        | error e =>
          rw [htext] at h
          cases h
        | ok text =>
          rw [htext] at h
          dsimp only at h
          split_ifs at h
          cases h
          exact ⟨row, v, advanced, text, rfl, hv, hadvance, htext, rfl⟩

end Positions

/-! ## Reading -/

/-- Why a checkpoint is not read. -/
inductive ReadError where
  | corruptJson
  | checksumMismatch (expected computed : String)
  | notSerializable
  | invalidPosition
  | malformed
  deriving DecidableEq

/-- A `StateCorruptError`. -/
def ReadError.isStateCorrupt : ReadError → Bool
  | .corruptJson | .checksumMismatch _ _ => true
  | _ => false

/-- A position that is read; its values are of any class. -/
structure ReadPosition where
  positionType : RowPositionType
  value : PyValue
  isStableResumeSupported : PyValue
  columnNames : List PyValue
  token : PyValue

/-- `tuple(v)`. -/
def tupleOf : PyValue → Option (List PyValue)
  | .list elements => some elements
  | .str s => some (s.toList.map fun c => .str (String.singleton c))
  | .dict items => some (items.map fun item => .str item.1)
  | _ => none

/-- `RowPositionTracker.from_dict`. -/
def RowPosition.fromDict : PyValue → Except ReadError ReadPosition
  | .dict data =>
    match data.lookup "position_type" with
    | some (.str text) =>
      match RowPositionType.ofValue text with
      | none => .error .invalidPosition
      | some positionType =>
        let isStable := (data.lookup "is_stable_resume_supported").getD (.bool true)
        if positionType = .unsafeUnavailable ∧ StateStore.truthy isStable then
          .error .invalidPosition
        else
          match tupleOf ((data.lookup "column_names").getD (.list [])) with
          | none => .error .invalidPosition
          | some columnNames =>
            .ok ⟨positionType, (data.lookup "value").getD (.dict []),
              if positionType = .unsafeUnavailable then .bool false else isStable,
              columnNames, (data.lookup "token").getD .none⟩
    | _ => .error .invalidPosition
  | _ => .error .invalidPosition

/-- The checkpoint of a table that is read; its values are of any class. -/
structure ReadTable where
  tableName : PyValue
  schemaName : PyValue
  status : PyValue
  rowsProcessed : PyValue
  bytesProcessed : PyValue
  lastPosition : Option ReadPosition
  partitionId : PyValue
  updatedAt : PyValue

/-- The position of a table, when there is one. -/
def readLastPosition (tbl : List (String × PyValue)) : Except ReadError (Option ReadPosition) :=
  let pos := (tbl.lookup "last_position").getD .none
  if StateStore.truthy pos then (RowPosition.fromDict pos).map some else .ok none

/-- The checkpoint of a table. -/
def readTable : PyValue → Except ReadError ReadTable
  | .dict tbl =>
    match readLastPosition tbl with
    | .error e => .error e
    | .ok lastPosition =>
      match tbl.lookup "table_name", tbl.lookup "schema_name", tbl.lookup "status" with
      | some tableName, some schemaName, some status =>
        .ok ⟨tableName, schemaName, status, (tbl.lookup "rows_processed").getD (.int 0),
          (tbl.lookup "bytes_processed").getD (.int 0), lastPosition,
          (tbl.lookup "partition_id").getD .none, (tbl.lookup "updated_at").getD .none⟩
      | _, _, _ => .error .malformed
  | _ => .error .malformed

/-- A checkpoint that is read. -/
structure ReadCheckpoint where
  migrationId : String
  jobId : String
  fencingEpoch : ℤ
  status : String
  tableCheckpoints : List (String × ReadTable)
  metadata : PyValue
  updatedAt : String
  checksum : String

/-- The tables of a checkpoint. -/
def readTables : List (String × PyValue) → Except ReadError (List (String × ReadTable))
  | [] => .ok []
  | (name, tbl) :: tables =>
    match readTable tbl with
    | .error e => .error e
    | .ok read =>
      match readTables tables with
      | .error e => .error e
      | .ok rest => .ok ((name, read) :: rest)

/-- `verify_dict_checksum`. -/
def verifyDictChecksum (rt : DigestRuntime) (v : PyValue) (expected : String) :
    Except ReadError Unit :=
  match checksumOf rt v with
  | .error _ => .error .notSerializable
  | .ok computed =>
    if computed ≠ expected then .error (.checksumMismatch expected computed) else .ok ()

/-- The checkpoint of a row. -/
def readRow (rt : DigestRuntime) (migrationId : String) (row : CheckpointRow) :
    Except ReadError ReadCheckpoint :=
  match loads row.checkpointJson with
  | none => .error .corruptJson
  | some v =>
    match verifyDictChecksum rt v row.checksum with
    | .error e => .error e
    | .ok () =>
      match v with
      | .dict items =>
        match (items.lookup "table_checkpoints").getD (.dict []) with
        | .dict tables =>
          match readTables tables with
          | .error e => .error e
          | .ok tableCheckpoints =>
            .ok ⟨migrationId, row.jobId, row.fencingEpoch, row.status, tableCheckpoints,
              (items.lookup "metadata").getD (.dict []), row.updatedAt, row.checksum⟩
        | _ => .error .malformed
      | _ => .error .malformed

/-- `get_latest_checkpoint`. -/
def getLatestCheckpoint (rt : DigestRuntime) (checkpoints : CheckpointTable) (migrationId : String) :
    Except ReadError (Option ReadCheckpoint) :=
  match checkpoints.get? migrationId with
  | none => .ok none
  | some row => (readRow rt migrationId row).map some

end Durability

/-
# The watermark authority

`save_watermark` of `akaalEngine/durability/checkpoint/registry.py`: how far the incremental execution of
a migration has advanced in each table, as a JSON value under a token.

* `saveWatermark` : the checks and the row that is written;
* `saveWatermark_spec` : what holds of a watermark that is saved.

How `float` and `fromisoformat` read a value and how their results compare is left open.
-/
import Akaal.CheckpointRegistry

open CDC JsonText

namespace Durability

/-! ## Watermarks -/

/-- `WatermarkType`. -/
inductive WatermarkType where
  | numeric
  | timestamp
  | compound
  deriving DecidableEq

/-- The value of a watermark type. -/
def WatermarkType.value : WatermarkType → String
  | .numeric => "NUMERIC"
  | .timestamp => "TIMESTAMP"
  | .compound => "COMPOUND"

/-- `Watermark`; its value is a value. -/
structure Watermark where
  migrationId : String
  tableName : String
  watermarkType : WatermarkType
  value : PyInput
  planFingerprint : String
  executionId : String
  fencingEpoch : ℤ
  isInput : IsInput value

/-- A row of `watermarks`. -/
structure WatermarkRow where
  watermarkType : WatermarkType
  valueJson : String
  planFingerprint : String
  executionId : String
  fencingEpoch : ℤ
  checksum : String
  updatedAt : String
  deriving DecidableEq

/-- The table `watermarks`, by migration and table. -/
abbrev WatermarkTable := PyDict (PyDict WatermarkRow)

/-- The row of a table of a migration. -/
def getWatermarkRow (watermarks : WatermarkTable) (migrationId tableName : String) :
    Option WatermarkRow :=
  (watermarks.get? migrationId).bind (·.get? tableName)

/-- The table with the row of a table of a migration. -/
def setWatermarkRow (watermarks : WatermarkTable) (migrationId tableName : String)
    (row : WatermarkRow) : WatermarkTable :=
  watermarks.set migrationId
    (((watermarks.get? migrationId).getD PyDict.empty).set tableName row)

/-- The row that is set is found. -/
theorem getWatermarkRow_set (watermarks : WatermarkTable) (migrationId tableName : String)
    (row : WatermarkRow) :
    getWatermarkRow (setWatermarkRow watermarks migrationId tableName row) migrationId tableName =
      some row := by
  unfold getWatermarkRow setWatermarkRow
  rw [PyDict.get?_set, Option.bind_some, PyDict.get?_set]

/-- Why a watermark is not saved. -/
inductive WatermarkError where
  | resourceMismatch (resourceId migrationId : String)
  | fencing (error : FencingError)
  | identityMismatch (migrationId tableName existing candidate : String)
  | staleEpoch (migrationId tableName : String) (epoch current : ℤ)
  | regression (migrationId tableName : String)
  | invalidPosition (text : String)
  | invalidTimestamp (text : String)
  | corruptValue
  | notComparable
  | notSerializable (exception : DumpsError)

/-! ## Sort keys -/

/-- A component of the key of a compound watermark. -/
inductive KeyComponent (δ : Type) where
  | instant (d : δ)
  | text (s : String)
  | other (v : PyInput)

/-- The key by which watermarks are compared. -/
inductive SortKey (δ : Type) where
  | number (x : PyFloat)
  | instant (d : δ)
  | tuple (components : List (KeyComponent δ))

/-- What the standard library makes of the value of a watermark. -/
structure WatermarkRuntime (δ : Type) extends DigestRuntime where
  /-- `float(v)`; `none` when it raises. -/
  float : PyInput → Option PyFloat
  /-- `str(v)` -/
  text : PyInput → String
  /-- `datetime.fromisoformat(s)`; `none` when it raises. -/
  fromIsoFormat : String → Option δ
  /-- `k < k'`; `none` when it raises. -/
  less : SortKey δ → SortKey δ → Option Bool

/-- `bool(v)` -/
def inputTruthy : PyInput → Bool
  | .none => false
  | .bool b => b
  | .int z => z ≠ 0
  | .float x => StateStore.truthy (.float x)
  | .str s => s ≠ ""
  | .list elements => !elements.isEmpty
  | .dict items => !items.isEmpty
  | .other _ => true

section Keys

variable {δ : Type} (rt : WatermarkRuntime δ)

/-- `datetime.fromisoformat(text.replace("Z", "+00:00"))`. -/
def isoInstant (text : String) : Option δ := rt.fromIsoFormat (text.replace "Z" "+00:00")

/-- A component of a compound watermark. -/
def keyComponent : PyInput → KeyComponent δ
  | .str s =>
    match isoInstant rt s with
    | some d => .instant d
    | none => .text s
  | v => .other v

/-- `_watermark_sort_key`. -/
def watermarkSortKey : WatermarkType → PyInput → Except WatermarkError (SortKey δ)
  | .numeric, .none => .error (.invalidPosition "NUMERIC watermark value must not be null.")
  | .numeric, v =>
    match rt.float v with
    | none => .error .notComparable
    | some x => .ok (.number x)
  | .timestamp, v =>
    if inputTruthy v = false then
      .error (.invalidPosition "TIMESTAMP watermark value must not be null/empty.")
    else
      match isoInstant rt (rt.text v) with
      | none => .error (.invalidTimestamp (rt.text v))
      | some d => .ok (.instant d)
  | .compound, .none => .error (.invalidPosition "COMPOUND watermark value must not be null.")
  | .compound, .list elements => .ok (.tuple (elements.map (keyComponent rt)))
  | .compound, v => .ok (.tuple [keyComponent rt v])

end Keys

/-! ## Saving -/

section Saving

variable {δ : Type} (rt : WatermarkRuntime δ) (signingKey : List UInt8) (epochs : EpochTable)
  (watermarks : WatermarkTable)

/-- The checks against the row that is there. -/
def checkExisting (watermark : Watermark) (row : WatermarkRow) : Except WatermarkError Unit :=
  if row.planFingerprint ≠ "" ∧ watermark.planFingerprint ≠ "" ∧
      row.planFingerprint ≠ watermark.planFingerprint then
    .error (.identityMismatch watermark.migrationId watermark.tableName row.planFingerprint
      watermark.planFingerprint)
  else if watermark.fencingEpoch < row.fencingEpoch then
    .error (.staleEpoch watermark.migrationId watermark.tableName watermark.fencingEpoch
      row.fencingEpoch)
  else
    match loads row.valueJson with
    | none => .error .corruptValue
    | some existing => do
        let existingKey ← watermarkSortKey rt row.watermarkType (ofValue existing)
        let candidateKey ← watermarkSortKey rt watermark.watermarkType watermark.value
        match rt.less candidateKey existingKey with
        | none => .error .notComparable
        | some true => .error (.regression watermark.migrationId watermark.tableName)
        | some false => .ok ()

/-- The checks of a watermark: against the row that is there, or of its value when there is none. -/
def checkWatermark (watermark : Watermark) : Except WatermarkError Unit :=
  match getWatermarkRow watermarks watermark.migrationId watermark.tableName with
  | some row => checkExisting rt watermark row
  | none => (watermarkSortKey rt watermark.watermarkType watermark.value).map fun _ => ()

/-- The data of a watermark that its checksum is computed from. -/
def Watermark.data (watermark : Watermark) : PyInput :=
  textDict [("migration_id", .str watermark.migrationId), ("table_name", .str watermark.tableName),
    ("watermark_type", .str watermark.watermarkType.value), ("value", watermark.value),
    ("plan_fingerprint", .str watermark.planFingerprint), ("execution_id", .str watermark.executionId),
    ("fencing_epoch", .int watermark.fencingEpoch)]

/-- The row of a watermark. -/
def watermarkRow (watermark : Watermark) (valueJson data now : String) : WatermarkRow where
  watermarkType := watermark.watermarkType
  valueJson := valueJson
  planFingerprint := watermark.planFingerprint
  executionId := watermark.executionId
  fencingEpoch := watermark.fencingEpoch
  checksum := rt.sha256Hex data
  updatedAt := now

/-- `save_watermark`. -/
def saveWatermark (watermark : Watermark) (token : FencingToken) (now : String) :
    Except WatermarkError WatermarkTable :=
  if covers token.resourceId watermark.migrationId = false then
    .error (.resourceMismatch token.resourceId watermark.migrationId)
  else
    match validateTokenInTx rt.toDigestRuntime signingKey epochs token with
    | .error e => .error (.fencing e)
    | .ok () =>
      match checkWatermark rt watermarks watermark with
      | .error e => .error e
      | .ok () =>
        match dumpsSorted watermark.value, dumpsSorted watermark.data with
        | .error exception, _ => .error (.notSerializable exception)
        | .ok _, .error exception => .error (.notSerializable exception)
        | .ok valueJson, .ok data =>
          .ok (setWatermarkRow watermarks watermark.migrationId watermark.tableName
            (watermarkRow rt watermark valueJson data now))

variable {rt signingKey epochs watermarks}

/-- A watermark that passes the checks is not older than the row that is there. -/
theorem le_of_checkWatermark {watermark : Watermark}
    (h : checkWatermark rt watermarks watermark = .ok ()) {row : WatermarkRow}
    (hrow : getWatermarkRow watermarks watermark.migrationId watermark.tableName = some row) :
    row.fencingEpoch ≤ watermark.fencingEpoch := by
  unfold checkWatermark checkExisting at h
  rw [hrow] at h
  dsimp only at h
  by_cases hplan : row.planFingerprint ≠ "" ∧ watermark.planFingerprint ≠ "" ∧
      row.planFingerprint ≠ watermark.planFingerprint
  · rw [if_pos hplan] at h
    cases h
  · rw [if_neg hplan] at h
    by_cases hepoch : watermark.fencingEpoch < row.fencingEpoch
    · rw [if_pos hepoch] at h
      cases h
    · exact not_lt.mp hepoch

/-- What is written when a watermark is saved. -/
theorem saveWatermark_writes {table' : WatermarkTable} {watermark : Watermark} {token : FencingToken}
    {now : String} (h : saveWatermark rt signingKey epochs watermarks watermark token now = .ok table') :
    covers token.resourceId watermark.migrationId = true ∧
      validateTokenInTx rt.toDigestRuntime signingKey epochs token = .ok () ∧
      checkWatermark rt watermarks watermark = .ok () ∧
      ∃ valueJson data, dumpsSorted watermark.value = .ok valueJson ∧
        table' = setWatermarkRow watermarks watermark.migrationId watermark.tableName
          (watermarkRow rt watermark valueJson data now) := by
  unfold saveWatermark at h
  by_cases hcovers : covers token.resourceId watermark.migrationId = false
  · rw [if_pos hcovers] at h
    cases h
  · rw [if_neg hcovers] at h
    refine ⟨by simpa using hcovers, ?_⟩
    cases hvalid : validateTokenInTx rt.toDigestRuntime signingKey epochs token with
    | error e =>
      rw [hvalid] at h
      cases h
    | ok _ =>
      rw [hvalid] at h
      dsimp only at h
      refine ⟨rfl, ?_⟩
      cases hcheck : checkWatermark rt watermarks watermark with
      | error e =>
        rw [hcheck] at h
        cases h
      | ok _ =>
        rw [hcheck] at h
        dsimp only at h
        refine ⟨rfl, ?_⟩
        cases hvalue : dumpsSorted watermark.value with
        | error e =>
          rw [hvalue] at h
          cases h
        | ok valueJson =>
          rw [hvalue] at h
          cases hdata : dumpsSorted watermark.data with
          | error e =>
            rw [hdata] at h
            cases h
          | ok data =>
            rw [hdata] at h
            cases h
            exact ⟨valueJson, data, rfl, rfl⟩

/-- **A watermark that is saved** is for the resource of a token that is accepted, passes the checks, and
is stored under its own epoch. -/
theorem saveWatermark_spec {table' : WatermarkTable} {watermark : Watermark} {token : FencingToken}
    {now : String} (h : saveWatermark rt signingKey epochs watermarks watermark token now = .ok table') :
    covers token.resourceId watermark.migrationId = true ∧
      validateTokenInTx rt.toDigestRuntime signingKey epochs token = .ok () ∧
      checkWatermark rt watermarks watermark = .ok () ∧
      ∃ row, row.fencingEpoch = watermark.fencingEpoch ∧
        table' = setWatermarkRow watermarks watermark.migrationId watermark.tableName row := by
  obtain ⟨hcovers, hvalid, hcheck, valueJson, data, -, rfl⟩ := saveWatermark_writes h
  exact ⟨hcovers, hvalid, hcheck, _, rfl, rfl⟩

end Saving

end Durability

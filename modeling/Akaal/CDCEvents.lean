/-
# Events and transactions of change data capture

`CDCEventIdentity`, `CDCEvent` and `CDCTransaction` of `cdc/domain/events.py`, the dictionaries
`to_dict` writes for them, and `parse_cdc_event` and `parse_cdc_transaction`, which read these.
The writer replaces the values under the keys that look like secrets, at any depth of a row
image; the reader does not ask for the version of the schema.

* `sanitize_eq_self_iff` : the values that the writer leaves as they are;
* `parse_event` : what is read back from the dictionary of an event;
* `parse_transaction` : and from that of a transaction.
-/
import Akaal.CDCPositions
import Akaal.Traversal

open PythonText

namespace CDC

/-! ## Identities -/

/-- What the clock and the generator of identifiers answer. -/
structure Ambient where
  /-- `datetime.datetime.now(datetime.timezone.utc).isoformat()` -/
  now : String
  /-- `uuid.uuid4().hex[:12]` -/
  uuidHex : String
  now_ne : now ≠ ""

/-- `CDCEventIdentity`. -/
@[ext]
structure CDCEventIdentity where
  migrationId : String
  jobId : String
  runId : String
  cdcSessionId : String
  eventId : String
  sequenceNumber : ℤ
  migration_ne : migrationId ≠ ""
  job_ne : jobId ≠ ""
  run_ne : runId ≠ ""
  session_ne : cdcSessionId ≠ ""
  event_ne : eventId ≠ ""

instance : DecidableEq CDCEventIdentity := fun _ _ =>
  decidable_of_iff _ CDCEventIdentity.ext_iff.symm

/-- `CDCEventIdentity(migration_id, job_id, run_id, cdc_session_id, event_id,
sequence_number)`. -/
def CDCEventIdentity.new (ambient : Ambient) (migrationId jobId runId cdcSessionId : String)
    (eventId : Option String) (sequenceNumber : ℤ) : Except PyRaised CDCEventIdentity :=
  if h : migrationId = "" ∨ jobId = "" ∨ runId = "" ∨ cdcSessionId = "" then
    .error (.valueError ("All identity bindings (migration_id, job_id, run_id, cdc_session_id) " ++
      "must be non-empty."))
  else .ok {
    migrationId := migrationId
    jobId := jobId
    runId := runId
    cdcSessionId := cdcSessionId
    eventId := orDefault eventId ("ev-cdc-" ++ ambient.uuidHex)
    sequenceNumber := sequenceNumber
    migration_ne := fun h' => h (.inl h')
    job_ne := fun h' => h (.inr (.inl h'))
    run_ne := fun h' => h (.inr (.inr (.inl h')))
    session_ne := fun h' => h (.inr (.inr (.inr h')))
    event_ne := orDefault_ne_empty (by simp [← String.toList_inj]) }

/-- `CDCEventIdentity.to_dict`. -/
def CDCEventIdentity.toDict (identity : CDCEventIdentity) : PyItems :=
  [("migration_id", .str identity.migrationId), ("job_id", .str identity.jobId),
    ("run_id", .str identity.runId), ("cdc_session_id", .str identity.cdcSessionId),
    ("event_id", .str identity.eventId), ("sequence_number", .int identity.sequenceNumber)]

/-- The identity both parsers build from `data["identity"]`. -/
def parseIdentity (ambient : Ambient) (data : PyItems) : Except PyRaised CDCEventIdentity := do
  CDCEventIdentity.new ambient (← getStr data "migration_id") (← getStr data "job_id")
    (← getStr data "run_id") (← getStr data "cdc_session_id") (← getOptStr data "event_id")
    (← getIntD data "sequence_number" 1)

@[simp] theorem parseIdentity_toDict (ambient : Ambient) (identity : CDCEventIdentity) :
    parseIdentity ambient identity.toDict = .ok identity := by
  have hnew : CDCEventIdentity.new ambient identity.migrationId identity.jobId identity.runId
      identity.cdcSessionId (some identity.eventId) identity.sequenceNumber = .ok identity := by
    rw [CDCEventIdentity.new, dif_neg]
    · simp [identity.event_ne]
    · rintro (h | h | h | h)
      · exact identity.migration_ne h
      · exact identity.job_ne h
      · exact identity.run_ne h
      · exact identity.session_ne h
  simp [parseIdentity, CDCEventIdentity.toDict, getStr, getItem, getOptStr, getValue, getIntD,
    asStr, asInt, asOptStr, List.lookup, hnew]

/-! ## Operations and boundaries -/

/-- `CDCOperationType`. -/
inductive CDCOperationType where
  | insert
  | update
  | delete
  | ddl
  deriving DecidableEq

/-- `CDCOperationType.value`. -/
def CDCOperationType.value : CDCOperationType → String
  | insert => "INSERT"
  | update => "UPDATE"
  | delete => "DELETE"
  | ddl => "DDL"

/-- `CDCOperationType(value)`. -/
def CDCOperationType.parse (value : String) : Except PyRaised CDCOperationType :=
  if value = "INSERT" then .ok insert
  else if value = "UPDATE" then .ok update
  else if value = "DELETE" then .ok delete
  else if value = "DDL" then .ok ddl
  else .error (.valueError s!"'{value}' is not a valid CDCOperationType")

@[simp] theorem CDCOperationType.parse_value (op : CDCOperationType) :
    CDCOperationType.parse op.value = .ok op := by
  cases op <;> rfl

/-- `CDCTransactionBoundary`. -/
inductive CDCTransactionBoundary where
  | begin
  | event
  | commit
  | abort
  | singleEvent
  deriving DecidableEq

/-- `CDCTransactionBoundary.value`. -/
def CDCTransactionBoundary.value : CDCTransactionBoundary → String
  | begin => "BEGIN"
  | event => "EVENT"
  | commit => "COMMIT"
  | abort => "ABORT"
  | singleEvent => "SINGLE_EVENT"

/-- `CDCTransactionBoundary(value)`. -/
def CDCTransactionBoundary.parse (value : String) : Except PyRaised CDCTransactionBoundary :=
  if value = "BEGIN" then .ok begin
  else if value = "EVENT" then .ok event
  else if value = "COMMIT" then .ok commit
  else if value = "ABORT" then .ok abort
  else if value = "SINGLE_EVENT" then .ok singleEvent
  else .error (.valueError s!"'{value}' is not a valid CDCTransactionBoundary")

@[simp] theorem CDCTransactionBoundary.parse_value (boundary : CDCTransactionBoundary) :
    CDCTransactionBoundary.parse boundary.value = .ok boundary := by
  cases boundary <;> rfl

/-! ## Redaction -/

/-- `CDCEvent.SECRET_KEYWORDS`. -/
def secretKeywords : List String :=
  ["password", "passwd", "secret", "token", "api_key", "authorization", "private_key",
    "connection_string", "auth_token"]

/-- Whether a key is taken for that of a secret: `any(sec in k.lower() for sec in
cls.SECRET_KEYWORDS)`. -/
def isSecretKey (key : String) : Bool :=
  secretKeywords.any fun keyword => decide (keyword.toList <:+: (lower key).toList)

/-- What stands in the place of a secret. -/
def redacted : PyValue := .str "[REDACTED_SECRET]"

mutual

/-- `_sanitize_dict_recursive`. -/
def sanitize : PyValue → PyValue
  | .dict items => .dict (sanitizeItems items)
  | .list elements => .list (sanitizeElements elements)
  | .none => .none
  | .str s => .str s
  | .bool b => .bool b
  | .int z => .int z
  | .float x => .float x
  | .decimal d => .decimal d
  | .datetime d => .datetime d
  | .date d => .date d
  | .time t => .time t
  | .bytes b => .bytes b
  | .other typeName text => .other typeName text

/-- The elements of a list, each sanitized. -/
def sanitizeElements : List PyValue → List PyValue
  | [] => []
  | v :: vs => sanitize v :: sanitizeElements vs

/-- The items of a dictionary, with the secrets replaced and the other values sanitized. -/
def sanitizeItems : PyItems → PyItems
  | [] => []
  | (key, v) :: items =>
    (key, if isSecretKey key then redacted else sanitize v) :: sanitizeItems items

end

mutual

/-- The items of all dictionaries inside a value, at any depth. -/
def allItems : PyValue → PyItems
  | .dict items => itemsInside items
  | .list elements => elementsInside elements
  | _ => []

/-- The items of all dictionaries inside the elements of a list. -/
def elementsInside : List PyValue → PyItems
  | [] => []
  | v :: vs => allItems v ++ elementsInside vs

/-- Items, and those of all dictionaries inside their values. -/
def itemsInside : PyItems → PyItems
  | [] => []
  | (key, v) :: items => (key, v) :: (allItems v ++ itemsInside items)

end

/-- Under the key of a secret stands at most the text that replaces it. -/
def Redacted (item : String × PyValue) : Prop := isSecretKey item.1 = true → item.2 = redacted

/-- No dictionary inside the value, at any depth, has a secret. -/
def NoSecret (v : PyValue) : Prop := ∀ item ∈ allItems v, Redacted item

mutual

/-- **A value is left as it is exactly when no dictionary inside it has a secret.** -/
theorem sanitize_eq_self_iff : (v : PyValue) → (sanitize v = v ↔ NoSecret v)
  | .dict items => by
    rw [sanitize, PyValue.dict.injEq, NoSecret, allItems]
    exact sanitizeItems_eq_self_iff items
  | .list elements => by
    rw [sanitize, PyValue.list.injEq, NoSecret, allItems]
    exact sanitizeElements_eq_self_iff elements
  | .none | .str _ | .bool _ | .int _ | .float _ | .decimal _ | .datetime _ | .date _ | .time _
  | .bytes _ | .other _ _ => by simp [sanitize, NoSecret, allItems]

theorem sanitizeElements_eq_self_iff : (elements : List PyValue) →
    (sanitizeElements elements = elements ↔ ∀ item ∈ elementsInside elements, Redacted item)
  | [] => by simp [sanitizeElements, elementsInside]
  | v :: vs => by
    rw [sanitizeElements, List.cons.injEq, sanitize_eq_self_iff v,
      sanitizeElements_eq_self_iff vs, elementsInside, NoSecret]
    simp only [List.mem_append, or_imp, forall_and]

theorem sanitizeItems_eq_self_iff : (items : PyItems) →
    (sanitizeItems items = items ↔ ∀ item ∈ itemsInside items, Redacted item)
  | [] => by simp [sanitizeItems, itemsInside]
  | (key, v) :: items => by
    rw [sanitizeItems, List.cons.injEq, sanitizeItems_eq_self_iff items, itemsInside]
    simp only [Prod.mk.injEq, true_and, List.mem_cons, List.mem_append, or_imp, forall_and,
      forall_eq]
    by_cases hkey : isSecretKey key = true
    · -- A text has no items: below a secret nothing is left to ask.
      rw [if_pos hkey]
      constructor
      · rintro ⟨hv, hitems⟩
        refine ⟨fun _ => hv.symm, ?_, hitems⟩
        intro item hitem
        rw [← hv] at hitem
        simp [redacted, allItems] at hitem
      · rintro ⟨hv, -, hitems⟩
        exact ⟨(hv hkey).symm, hitems⟩
    · rw [if_neg hkey, sanitize_eq_self_iff v]
      have hredacted : Redacted (key, v) := fun h => absurd h hkey
      simp [NoSecret, hredacted]

end

/-! ## Events -/

/-- Whether a value is taken for false: `not v`. -/
def isFalsy : PyValue → Bool
  | .none => true
  | .str s => s == ""
  | .bool b => !b
  | .int z => z == 0
  | .float (.finite q) => q == 0
  | .float .negativeZero => true
  | .decimal (.finite _ coefficient _) => coefficient == 0
  | .bytes b => b.isEmpty
  | .list elements => elements.isEmpty
  | .dict items => items.isEmpty
  | _ => false

/-- `v or {}`. -/
def orEmptyDict (v : PyValue) : PyValue := if isFalsy v then .dict [] else v

@[simp] theorem orEmptyDict_orEmptyDict (v : PyValue) :
    orEmptyDict (orEmptyDict v) = orEmptyDict v := by
  by_cases h : isFalsy v = true
  · have hdict : orEmptyDict v = .dict [] := if_pos h
    rw [hdict]
    rfl
  · have hself : orEmptyDict v = v := if_neg h
    rw [hself, hself]

/-- `CDCEvent`. -/
structure CDCEvent where
  identity : CDCEventIdentity
  sourceEngine : String
  sourceDatabase : String
  sourceSchema : String
  sourceTable : String
  operation : CDCOperationType
  position : CDCSourcePosition
  beforeImage : PyValue
  afterImage : PyValue
  boundary : CDCTransactionBoundary
  txId : Option String
  commitTimestamp : String
  capturedTimestamp : String
  schemaVersionId : Option String
  details : PyValue
  engine_upper : upper sourceEngine = sourceEngine
  commit_ne : commitTimestamp ≠ ""
  captured_ne : capturedTimestamp ≠ ""
  details_eq : orEmptyDict details = details

/-- `CDCEvent.to_dict`. -/
def CDCEvent.toDict (e : CDCEvent) : PyItems :=
  [("identity", .dict e.identity.toDict), ("source_engine", .str e.sourceEngine),
    ("source_database", .str e.sourceDatabase), ("source_schema", .str e.sourceSchema),
    ("source_table", .str e.sourceTable), ("operation", .str e.operation.value),
    ("position", .dict e.position.toDict), ("before_image", sanitize e.beforeImage),
    ("after_image", sanitize e.afterImage), ("boundary", .str e.boundary.value),
    ("tx_id", optStr e.txId), ("commit_timestamp", .str e.commitTimestamp),
    ("captured_timestamp", .str e.capturedTimestamp),
    ("schema_version_id", optStr e.schemaVersionId), ("details", sanitize e.details)]

/-- `parse_cdc_event`; the version of the schema is left at its default. -/
def parseCdcEvent (ambient : Ambient) (data : PyItems) : Except PyRaised CDCEvent := do
  let identity ← parseIdentity ambient (← asDict "identity" (← getItem data "identity"))
  let pos ← parseSourcePosition (← getItem data "position")
  let op ← CDCOperationType.parse (← getStr data "operation")
  let boundary ← CDCTransactionBoundary.parse (← getStrD data "boundary" "SINGLE_EVENT")
  return {
    identity := identity
    sourceEngine := upper (← getStr data "source_engine")
    sourceDatabase := ← getStr data "source_database"
    sourceSchema := ← getStr data "source_schema"
    sourceTable := ← getStr data "source_table"
    operation := op
    position := pos
    beforeImage := getValue data "before_image"
    afterImage := getValue data "after_image"
    boundary := boundary
    txId := ← getOptStr data "tx_id"
    commitTimestamp := orDefault (← getOptStr data "commit_timestamp") ambient.now
    capturedTimestamp := orDefault (← getOptStr data "captured_timestamp") ambient.now
    schemaVersionId := none
    details := orEmptyDict (getValue data "details")
    engine_upper := upper_upper _
    commit_ne := orDefault_ne_empty ambient.now_ne
    captured_ne := orDefault_ne_empty ambient.now_ne
    details_eq := orEmptyDict_orEmptyDict _ }

/-- The event that is read back, with the position that is read back. -/
def CDCEvent.readBack (e : CDCEvent) (pos : CDCSourcePosition) : CDCEvent :=
  { e with
    position := pos
    beforeImage := sanitize e.beforeImage
    afterImage := sanitize e.afterImage
    schemaVersionId := none
    details := orEmptyDict (sanitize e.details)
    details_eq := orEmptyDict_orEmptyDict _ }

/-- **What is read back from the dictionary of an event.** -/
theorem parse_event (ambient : Ambient) (e : CDCEvent) : parseCdcEvent ambient e.toDict =
      e.readBack <$> parseSourcePosition (.dict e.position.toDict) := by
  simp only [parseCdcEvent, CDCEvent.toDict, getItem, getStr, getStrD, getOptStr, getValue,
    List.lookup]
  cases h : parseSourcePosition (.dict e.position.toDict) with
  | error err =>
    simp [h]
  | ok pos =>
    simp [h, e.engine_upper, e.commit_ne, e.captured_ne, CDCEvent.readBack]

/-! ## Transactions -/

/-- `CDCTransaction`. -/
structure CDCTransaction where
  txId : String
  identity : CDCEventIdentity
  commitPosition : CDCSourcePosition
  events : List CDCEvent
  commitTimestamp : String
  isCommitted : Bool
  isAborted : Bool
  commit_ne : commitTimestamp ≠ ""

/-- `CDCTransaction.to_dict`. -/
def CDCTransaction.toDict (tx : CDCTransaction) : PyItems :=
  [("tx_id", .str tx.txId), ("identity", .dict tx.identity.toDict),
    ("commit_position", .dict tx.commitPosition.toDict), ("event_count", .int tx.events.length),
    ("is_committed", .bool tx.isCommitted), ("is_aborted", .bool tx.isAborted),
    ("commit_timestamp", .str tx.commitTimestamp),
    ("events", .list (tx.events.map fun e => .dict e.toDict))]

/-- `parse_cdc_transaction`. -/
def parseCdcTransaction (ambient : Ambient) (data : PyItems) : Except PyRaised CDCTransaction := do
  let identity ← parseIdentity ambient (← asDict "identity" (← getItem data "identity"))
  let pos ← parseSourcePosition (← getItem data "commit_position")
  let events ← (← asList "events" ((List.lookup "events" data).getD (.list []))).mapM fun e => do
    parseCdcEvent ambient (← asDict "events" e)
  return {
    txId := ← getStr data "tx_id"
    identity := identity
    commitPosition := pos
    events := events
    commitTimestamp := orDefault (← getOptStr data "commit_timestamp") ambient.now
    isCommitted := !isFalsy ((List.lookup "is_committed" data).getD (.bool true))
    isAborted := !isFalsy ((List.lookup "is_aborted" data).getD (.bool false))
    commit_ne := orDefault_ne_empty ambient.now_ne }

/-- **What is read back from the dictionary of a transaction.** -/
theorem parse_transaction (ambient : Ambient) (tx : CDCTransaction) :
    parseCdcTransaction ambient tx.toDict = do
      let pos ← parseSourcePosition (.dict tx.commitPosition.toDict)
      let events ← tx.events.mapM fun e =>
        e.readBack <$> parseSourcePosition (.dict e.position.toDict)
      return { tx with commitPosition := pos, events := events } := by
  have hevents : (tx.events.map fun e => PyValue.dict e.toDict).mapM (fun e => do
      parseCdcEvent ambient (← asDict "events" e)) =
      tx.events.mapM fun e => e.readBack <$> parseSourcePosition (.dict e.position.toDict) := by
    induction tx.events with
    | nil => rfl
    | cons e es ih =>
      rw [List.map_cons, List.mapM_cons, List.mapM_cons, ih, asDict_dict, ok_bind, parse_event]
  simp only [parseCdcTransaction, CDCTransaction.toDict, getItem, getStr, getOptStr, getValue,
    List.lookup]
  cases hpos : parseSourcePosition (.dict tx.commitPosition.toDict) with
  | error err => simp [hpos]
  | ok pos =>
    simp [hpos, hevents, tx.commit_ne, isFalsy]
    generalize (tx.events.mapM fun e : CDCEvent =>
      e.readBack <$> parseSourcePosition (.dict e.position.toDict)) = events
    cases events <;> rfl

/-! ## A sample -/

/-- The identity of a session. -/
def sampleIdentity : CDCEventIdentity where
  migrationId := "m"
  jobId := "j"
  runId := "r"
  cdcSessionId := "s"
  eventId := "e"
  sequenceNumber := 1
  migration_ne := by decide
  job_ne := by decide
  run_ne := by decide
  session_ne := by decide
  event_ne := by decide

/-- A position of an Oracle log. -/
def samplePosition (scn : ℕ) : CDCSourcePosition := .oracle {
  scn := scn
  sequenceNumber := 0
  redoThread := 1
  scn_nonneg := Int.natCast_nonneg scn }

theorem sampleTime_ne : "2026-01-01T00:00:00" ≠ "" := by decide

theorem sampleEngine_upper : upper "ORACLE" = "ORACLE" := by decide

theorem sampleDetails_eq : orEmptyDict (.dict []) = .dict [] := rfl

/-- A clock. -/
def sampleAmbient : Ambient := ⟨"2026-01-01T00:00:00", "0123456789ab", sampleTime_ne⟩

/-- A transaction of the session, at a position of an Oracle log. -/
def sampleTransaction (txId : String) (scn : ℕ) (events : List CDCEvent) : CDCTransaction where
  txId := txId
  identity := sampleIdentity
  commitPosition := samplePosition scn
  events := events
  commitTimestamp := "2026-01-01T00:00:00"
  isCommitted := true
  isAborted := false
  commit_ne := sampleTime_ne

end CDC

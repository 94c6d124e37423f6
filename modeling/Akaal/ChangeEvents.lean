/-
# Change events of the engine and their stored texts

`akaalEngine/cdc/models/event.py`, and `json_default_serializer` of
`akaalEngine/cdc/buffering/backlog.py`, through which an event is written into the durable store.

* `serialized_eq_self_iff` : the values the serializer leaves as they are;
* `ChangeEvent.readPayload_of_readBack` : what is read back from the text of an event;
* `ChangeEvent.readBack_eq_self_iff` : the events that are read back as they were written.

Two values are the same when they are of the same type; a `Decimal` and an equal float are not.
-/
import Akaal.CDCErrors
import Akaal.JsonRoundTrip

open CDC JsonText

namespace EngineCDC

/-! ## Events -/

/-- `ChangeOperation`. -/
inductive ChangeOperation where
  | insert
  | update
  | delete
  | truncate
  | ddl
  | heartbeat
  deriving DecidableEq

/-- The text of an operation. -/
def ChangeOperation.value : ChangeOperation → String
  | .insert => "INSERT"
  | .update => "UPDATE"
  | .delete => "DELETE"
  | .truncate => "TRUNCATE"
  | .ddl => "DDL"
  | .heartbeat => "HEARTBEAT"

/-- `ChangeOperation(value)`. -/
def ChangeOperation.parse (value : String) : Except PyRaised ChangeOperation :=
  match value with
  | "INSERT" => .ok .insert
  | "UPDATE" => .ok .update
  | "DELETE" => .ok .delete
  | "TRUNCATE" => .ok .truncate
  | "DDL" => .ok .ddl
  | "HEARTBEAT" => .ok .heartbeat
  | _ => .error (.valueError s!"'{value}' is not a valid ChangeOperation")

/-- `DeletionType`. -/
inductive DeletionType where
  | explicitDelete
  | tombstone
  | ttlExpiry
  | deleteUnavailable
  deriving DecidableEq

/-- The text of a deletion type. -/
def DeletionType.value : DeletionType → String
  | .explicitDelete => "EXPLICIT_DELETE"
  | .tombstone => "TOMBSTONE"
  | .ttlExpiry => "TTL_EXPIRY"
  | .deleteUnavailable => "DELETE_UNAVAILABLE"

/-- `DeletionType(value)`. -/
def DeletionType.parse (value : String) : Except PyRaised DeletionType :=
  match value with
  | "EXPLICIT_DELETE" => .ok .explicitDelete
  | "TOMBSTONE" => .ok .tombstone
  | "TTL_EXPIRY" => .ok .ttlExpiry
  | "DELETE_UNAVAILABLE" => .ok .deleteUnavailable
  | _ => .error (.valueError s!"'{value}' is not a valid DeletionType")

@[simp] theorem ChangeOperation.parse_value (operation : ChangeOperation) :
    parse operation.value = .ok operation := by
  cases operation <;> rfl

@[simp] theorem DeletionType.parse_value (deletionType : DeletionType) :
    parse deletionType.value = .ok deletionType := by
  cases deletionType <;> rfl

/-- `TransactionContext`. -/
structure TransactionContext where
  txId : String
  commitTimestampIso : String
  sequenceNumber : ℤ
  totalEventsInTx : Option ℤ
  deriving DecidableEq

/-- `ChangeEvent`. -/
structure ChangeEvent where
  eventId : String
  sourceSystem : String
  sourceIdentity : String
  logicalObject : String
  operation : ChangeOperation
  sourcePosition : String
  commitPosition : String
  commitTimestamp : PyFloat
  captureTimestamp : PyFloat
  schemaVersion : String
  keyColumns : List String
  keyValues : PyItems
  beforeImage : Option PyItems
  afterImage : Option PyItems
  changedColumns : Option (List String)
  txContext : Option TransactionContext
  deletionType : DeletionType
  metadata : PyItems

/-! ## Dictionaries of events -/

/-- An optional dictionary as a value. -/
def optDict : Option PyItems → PyValue
  | none => .none
  | some items => .dict items

/-- Texts as a list. -/
def strList (texts : List String) : PyValue := .list (texts.map .str)

/-- Optional texts as a list or `None`. -/
def optStrList : Option (List String) → PyValue
  | none => .none
  | some texts => strList texts

/-- `tx_dict`. -/
def TransactionContext.toDict (tx : TransactionContext) : PyItems :=
  [("tx_id", .str tx.txId), ("commit_timestamp_iso", .str tx.commitTimestampIso),
    ("sequence_number", .int tx.sequenceNumber), ("total_events_in_tx", optInt tx.totalEventsInTx)]

/-- `ChangeEvent.to_dict`. -/
def ChangeEvent.toDict (e : ChangeEvent) : PyItems :=
  [("event_id", .str e.eventId), ("source_system", .str e.sourceSystem),
    ("source_identity", .str e.sourceIdentity), ("logical_object", .str e.logicalObject),
    ("operation", .str e.operation.value), ("source_position", .str e.sourcePosition),
    ("commit_position", .str e.commitPosition), ("commit_timestamp", .float e.commitTimestamp),
    ("capture_timestamp", .float e.captureTimestamp), ("schema_version", .str e.schemaVersion),
    ("key_columns", strList e.keyColumns), ("key_values", .dict e.keyValues),
    ("before_image", optDict e.beforeImage), ("after_image", optDict e.afterImage),
    ("changed_columns", optStrList e.changedColumns),
    ("tx_context", optDict (e.txContext.map TransactionContext.toDict)),
    ("deletion_type", .str e.deletionType.value), ("metadata", .dict e.metadata)]

/-- A float. -/
def asFloat (key : String) : PyValue → Except PyRaised PyFloat
  | .float x => .ok x
  | _ => .error (wrongType key)

/-- The items of a dictionary, or `None`. -/
def asOptDict (key : String) : PyValue → Except PyRaised (Option PyItems)
  | .none => .ok none
  | .dict items => .ok (some items)
  | _ => .error (wrongType key)

/-- The texts of a list. -/
def asStrList (key : String) : PyValue → Except PyRaised (List String)
  | .list elements => elements.mapM (asStr key)
  | _ => .error (wrongType key)

/-- The texts of a list, or `None`. -/
def asOptStrList (key : String) : PyValue → Except PyRaised (Option (List String))
  | .none => .ok none
  | v => some <$> asStrList key v

/-- `tx_ctx`: an absent or empty context is none. -/
def readTxContext (d : PyItems) : Except PyRaised (Option TransactionContext) := do
  match ← asOptDict "tx_context" (getValue d "tx_context") with
  | none | some [] => return none
  | some tc =>
    return some {
      txId := ← getStr tc "tx_id"
      commitTimestampIso := ← getStr tc "commit_timestamp_iso"
      sequenceNumber := ← getInt tc "sequence_number"
      totalEventsInTx := ← getOptInt tc "total_events_in_tx"
    }

/-- `ChangeEvent.from_dict`. -/
def ChangeEvent.fromDict (d : PyItems) : Except PyRaised ChangeEvent := do
  let txContext ← readTxContext d
  let deletionType ← DeletionType.parse
    (← getStrD d "deletion_type" DeletionType.explicitDelete.value)
  let operation ← ChangeOperation.parse (← getStr d "operation")
  return {
    eventId := ← getStr d "event_id"
    sourceSystem := ← getStr d "source_system"
    sourceIdentity := ← getStr d "source_identity"
    logicalObject := ← getStr d "logical_object"
    operation := operation
    sourcePosition := ← getStr d "source_position"
    commitPosition := ← getStr d "commit_position"
    commitTimestamp := ← getItem d "commit_timestamp" >>= asFloat "commit_timestamp"
    captureTimestamp := ← getItem d "capture_timestamp" >>= asFloat "capture_timestamp"
    schemaVersion := ← getStr d "schema_version"
    keyColumns := ← asStrList "key_columns" ((List.lookup "key_columns" d).getD (.list []))
    keyValues := ← asDict "key_values" ((List.lookup "key_values" d).getD (.dict []))
    beforeImage := ← asOptDict "before_image" (getValue d "before_image")
    afterImage := ← asOptDict "after_image" (getValue d "after_image")
    changedColumns := ← asOptStrList "changed_columns" (getValue d "changed_columns")
    txContext := txContext
    deletionType := deletionType
    metadata := ← asDict "metadata" ((List.lookup "metadata" d).getD (.dict []))
  }

@[simp] theorem asFloat_float (key : String) (x : PyFloat) : asFloat key (.float x) = .ok x := rfl

@[simp] theorem asOptDict_optDict (key : String) (items : Option PyItems) :
    asOptDict key (optDict items) = .ok items := by
  cases items <;> rfl

@[simp] theorem asStrList_strList (key : String) (texts : List String) :
    asStrList key (strList texts) = .ok texts := by
  show (texts.map PyValue.str).mapM (asStr key) = .ok texts
  rw [List.mapM_map]
  induction texts with
  | nil => rfl
  | cons text texts ih => rw [List.mapM_cons, ih]; rfl

@[simp] theorem asOptStrList_optStrList (key : String) (texts : Option (List String)) :
    asOptStrList key (optStrList texts) = .ok texts := by
  cases texts with
  | none => rfl
  | some texts => rw [optStrList, asOptStrList, asStrList_strList]; · rfl
                  · rintro ⟨⟩

/-- **The dictionary of an event** is read as that event. -/
theorem fromDict_toDict (e : ChangeEvent) : ChangeEvent.fromDict e.toDict = .ok e := by
  have htx : readTxContext e.toDict = .ok e.txContext := by
    have hvalue : getValue e.toDict "tx_context" =
        optDict (e.txContext.map TransactionContext.toDict) := rfl
    rw [readTxContext, hvalue, asOptDict_optDict]
    cases e.txContext with
    | none => rfl
    | some tx => simp [TransactionContext.toDict, getStr, getInt, getOptInt, getItem, getValue, List.lookup]
  rw [ChangeEvent.fromDict, htx]
  simp [ChangeEvent.toDict, getItem, getStr, getStrD, getValue, List.lookup]

/-! ## The default serializer -/

/-- The offset of a clock as `isoformat` prints it. -/
def offsetText (offset : ℤ) : List Char :=
  let minutes := offset.natAbs / 60000000
  let rest := offset.natAbs % 60000000
  (if offset < 0 then '-' else '+') :: zfill 2 (minutes / 60) ++ ':' :: zfill 2 (minutes % 60) ++
    (if rest = 0 then [] else ':' :: zfill 2 (rest / 1000000)) ++
    if rest % 1000000 = 0 then [] else '.' :: zfill 6 (rest % 1000000)

/-- A moment of a day as `isoformat` prints it: without a fraction when there is none. -/
def clockText (moment : ℕ) : List Char :=
  if moment % 1000000 = 0 then (timeText moment).take 8 else timeText moment

/-- `datetime.isoformat`. -/
def isoformat (d : PyDatetime) : String :=
  String.ofList (dateText (d.moment / dayMicroseconds) ++ 'T' :: clockText (d.moment % dayMicroseconds) ++
    (d.utcoffset.map offsetText).getD [])

/-- `float` of a `Decimal` of the given value. -/
def floatOfDecimal (q : ℚ) : PyFloat :=
  match binary64.round q with
  | some x => .finite x
  | none => .infinite (q < 0)

/-- An integer as an `int`, another number as a float. -/
def numberOfDecimal (q : ℚ) : PyValue :=
  if q.den = 1 then .int q.num else .float (floatOfDecimal q)

/-- `float(obj) if obj % 1 != 0 else int(obj)`; the remainder is refused when the integer part has
more than the 28 digits of the context. -/
def serializedDecimal : PyDecimal → Except PyException PyValue
  | .finite negative coefficient exponent =>
    let magnitude := (coefficient : ℚ) * (10 : ℚ) ^ exponent
    if 10 ^ 28 ≤ magnitude then .error .decimalInvalidOperation
    else .ok (numberOfDecimal (if negative then -magnitude else magnitude))
  | .infinite _ => .error .decimalInvalidOperation
  | .nan false => .ok (.float .nan)
  | .nan true => .error .decimalInvalidOperation

/-- `json_default_serializer`. -/
def jsonDefaultSerializer : PyValue → Except PyException PyValue
  | .decimal d => serializedDecimal d
  | .datetime d => .ok (.str (isoformat d))
  | .date d => .ok (.str (String.ofList (dateText d.day)))
  | .time t => .ok (.str (String.ofList (clockText t.moment)))
  | .bytes b => .ok (.str (hexText b))
  | .other _ text => .ok (.str text)
  -- `json.dumps` does not ask for the others
  | v => .ok v

mutual

/-- The value that `json.dumps(v, default=json_default_serializer)` writes. -/
def serialized : PyValue → Except PyException PyValue
  | .list elements => do
      let written ← serializedElements elements
      return .list written
  | .dict items => do
      let written ← serializedItems items
      return .dict written
  | v => jsonDefaultSerializer v

/-- The values that are written for the elements of a list. -/
def serializedElements : List PyValue → Except PyException (List PyValue)
  | [] => .ok []
  | v :: vs => do
      let written ← serialized v
      let rest ← serializedElements vs
      return written :: rest

/-- The items that are written for the items of a dictionary. -/
def serializedItems : PyItems → Except PyException PyItems
  | [] => .ok []
  | (key, v) :: items => do
      let written ← serialized v
      let rest ← serializedItems items
      return (key, written) :: rest

end

mutual

/-- A value without a `Decimal`, a date or a time, bytes or an object of another class. -/
def IsPlain : PyValue → Prop
  | .decimal _ | .datetime _ | .date _ | .time _ | .bytes _ | .other _ _ => False
  | .list elements => ArePlain elements
  | .dict items => ArePlainItems items
  | _ => True

/-- The elements of a list are plain. -/
def ArePlain : List PyValue → Prop
  | [] => True
  | v :: vs => IsPlain v ∧ ArePlain vs

/-- The values of a dictionary are plain. -/
def ArePlainItems : PyItems → Prop
  | [] => True
  | (_, v) :: items => IsPlain v ∧ ArePlainItems items

end

theorem isFloat_floatOfDecimal (q : ℚ) : IsFloat (floatOfDecimal q) := by
  have hsome : ∀ x, binary64.round q = some x → IsFloat (.finite x) :=
    fun x hx => .inr (binary64.round_of_round hx)
  unfold floatOfDecimal
  generalize binary64.round q = r at hsome ⊢
  cases r with
  | none => exact trivial
  | some x => exact hsome x rfl

theorem numberOfDecimal_spec (q : ℚ) : IsPlain (numberOfDecimal q) ∧ IsValue (numberOfDecimal q) := by
  have hfloat : ∀ x : PyFloat, IsFloat x → IsPlain (.float x) ∧ IsValue (.float x) :=
    fun x hx => ⟨trivial, hx⟩
  rw [numberOfDecimal]
  split_ifs
  · exact ⟨trivial, trivial⟩
  · exact hfloat _ (isFloat_floatOfDecimal q)

theorem serializedDecimal_spec {d : PyDecimal} {w : PyValue} (h : serializedDecimal d = .ok w) :
    IsPlain w ∧ IsValue w := by
  cases d with
  | finite negative coefficient exponent =>
    rw [serializedDecimal] at h
    by_cases hlarge : (10 : ℚ) ^ 28 ≤ (coefficient : ℚ) * (10 : ℚ) ^ exponent
    · rw [if_pos hlarge] at h
      cases h
    · rw [if_neg hlarge] at h
      obtain rfl := Except.ok.inj h
      exact numberOfDecimal_spec _
  | infinite negative => cases h
  | nan signaling =>
    cases signaling with
    | false =>
      cases h
      exact ⟨trivial, trivial⟩
    | true => cases h

mutual

theorem isPlain_serialized : ∀ {v w : PyValue}, serialized v = .ok w → IsPlain w
  | .list elements, _, h => by
    rw [serialized] at h
    simp only [Traversal.bind_eq_ok_iff] at h
    obtain ⟨written, hwritten, h⟩ := h
    cases h
    exact arePlain_serialized hwritten
  | .dict items, _, h => by
    rw [serialized] at h
    simp only [Traversal.bind_eq_ok_iff] at h
    obtain ⟨written, hwritten, h⟩ := h
    cases h
    exact arePlainItems_serialized hwritten
  | .decimal d, _, h => (serializedDecimal_spec h).1
  | .none, _, h | .str _, _, h | .bool _, _, h | .int _, _, h | .float _, _, h
  | .datetime _, _, h | .date _, _, h | .time _, _, h | .bytes _, _, h | .other _ _, _, h => by
    cases h
    trivial

theorem arePlain_serialized : ∀ {vs ws : List PyValue}, serializedElements vs = .ok ws → ArePlain ws
  | [], _, h => by
    cases h
    trivial
  | v :: vs, _, h => by
    rw [serializedElements] at h
    simp only [Traversal.bind_eq_ok_iff] at h
    obtain ⟨w, hw, ws, hws, h⟩ := h
    cases h
    exact ⟨isPlain_serialized hw, arePlain_serialized hws⟩

theorem arePlainItems_serialized : ∀ {items written : PyItems},
    serializedItems items = .ok written → ArePlainItems written
  | [], _, h => by
    cases h
    trivial
  | (key, v) :: items, _, h => by
    rw [serializedItems] at h
    simp only [Traversal.bind_eq_ok_iff] at h
    obtain ⟨w, hw, ws, hws, h⟩ := h
    cases h
    exact ⟨isPlain_serialized hw, arePlainItems_serialized hws⟩

end

mutual

theorem isValue_serialized : ∀ {v w : PyValue}, IsValue v → serialized v = .ok w → IsValue w
  | .list elements, _, hv, h => by
    rw [serialized] at h
    simp only [Traversal.bind_eq_ok_iff] at h
    obtain ⟨written, hwritten, h⟩ := h
    cases h
    exact areValues_serialized hv hwritten
  | .dict items, _, hv, h => by
    rw [serialized] at h
    simp only [Traversal.bind_eq_ok_iff] at h
    obtain ⟨written, hwritten, h⟩ := h
    cases h
    obtain ⟨hkeys, hitems⟩ := areItems_serialized hv.2 hwritten
    exact ⟨hkeys ▸ hv.1, hitems⟩
  | .decimal d, _, _, h => (serializedDecimal_spec h).2
  | .float x, _, hv, h => by
    cases h
    exact hv
  | .none, _, _, h | .str _, _, _, h | .bool _, _, _, h | .int _, _, _, h
  | .datetime _, _, _, h | .date _, _, _, h | .time _, _, _, h | .bytes _, _, _, h
  | .other _ _, _, _, h => by
    cases h
    trivial

theorem areValues_serialized : ∀ {vs ws : List PyValue}, AreValues vs →
    serializedElements vs = .ok ws → AreValues ws
  | [], _, _, h => by
    cases h
    trivial
  | v :: vs, _, hvs, h => by
    rw [serializedElements] at h
    simp only [Traversal.bind_eq_ok_iff] at h
    obtain ⟨w, hw, ws, hws, h⟩ := h
    cases h
    exact ⟨isValue_serialized hvs.1 hw, areValues_serialized hvs.2 hws⟩

theorem areItems_serialized : ∀ {items written : PyItems}, AreItems items →
    serializedItems items = .ok written →
    written.map Prod.fst = items.map Prod.fst ∧ AreItems written
  | [], _, _, h => by
    cases h
    exact ⟨rfl, trivial⟩
  | (key, v) :: items, _, hitems, h => by
    rw [serializedItems] at h
    simp only [Traversal.bind_eq_ok_iff] at h
    obtain ⟨w, hw, ws, hws, h⟩ := h
    cases h
    obtain ⟨hkeys, hws⟩ := areItems_serialized hitems.2 hws
    exact ⟨by rw [List.map_cons, List.map_cons, hkeys], isValue_serialized hitems.1 hw, hws⟩

end

mutual

theorem serialized_of_isPlain : ∀ {v : PyValue}, IsPlain v → serialized v = .ok v
  | .list elements, hv => by
    rw [serialized, serializedElements_of_arePlain hv]
    rfl
  | .dict items, hv => by
    rw [serialized, serializedItems_of_arePlain hv]
    rfl
  | .none, _ | .str _, _ | .bool _, _ | .int _, _ | .float _, _ => rfl

theorem serializedElements_of_arePlain : ∀ {vs : List PyValue}, ArePlain vs →
    serializedElements vs = .ok vs
  | [], _ => rfl
  | v :: vs, hvs => by
    rw [serializedElements, serialized_of_isPlain hvs.1, serializedElements_of_arePlain hvs.2]
    rfl

theorem serializedItems_of_arePlain : ∀ {items : PyItems}, ArePlainItems items →
    serializedItems items = .ok items
  | [], _ => rfl
  | (key, v) :: items, hitems => by
    rw [serializedItems, serialized_of_isPlain hitems.1, serializedItems_of_arePlain hitems.2]
    rfl

end

/-- **The values the serializer leaves as they are** are the plain ones. -/
theorem serialized_eq_self_iff (v : PyValue) : serialized v = .ok v ↔ IsPlain v :=
  ⟨isPlain_serialized, serialized_of_isPlain⟩

mutual

theorem exists_dumps_of_isPlain : ∀ {v : PyValue}, IsPlain v → ∃ text, dumps false v = .ok text
  | .list elements, hv => by
    obtain ⟨texts, htexts⟩ := exists_dumps_of_arePlain hv
    rw [dumps, htexts]
    exact ⟨_, rfl⟩
  | .dict items, hv => by
    obtain ⟨members, hmembers⟩ := exists_dumps_of_arePlainItems hv
    rw [dumps, hmembers]
    exact ⟨_, rfl⟩
  | .none, _ | .str _, _ | .bool _, _ | .int _, _ | .float _, _ => ⟨_, rfl⟩

theorem exists_dumps_of_arePlain : ∀ {vs : List PyValue}, ArePlain vs →
    ∃ texts, dumpsElements false vs = .ok texts
  | [], _ => ⟨_, rfl⟩
  | v :: vs, hvs => by
    obtain ⟨text, htext⟩ := exists_dumps_of_isPlain hvs.1
    obtain ⟨texts, htexts⟩ := exists_dumps_of_arePlain hvs.2
    rw [dumpsElements, htext, htexts]
    exact ⟨_, rfl⟩

theorem exists_dumps_of_arePlainItems : ∀ {items : PyItems}, ArePlainItems items →
    ∃ members, dumpsMembers false items = .ok members
  | [], _ => ⟨_, rfl⟩
  | (key, v) :: items, hitems => by
    obtain ⟨text, htext⟩ := exists_dumps_of_isPlain hitems.1
    obtain ⟨members, hmembers⟩ := exists_dumps_of_arePlainItems hitems.2
    rw [dumpsMembers, htext, hmembers]
    exact ⟨_, rfl⟩

end

/-! ## Stored events -/

/-- The items that are written for an image. -/
def serializedImage : Option PyItems → Except PyException (Option PyItems)
  | none => .ok none
  | some items => do
      let written ← serializedItems items
      return some written

/-- An image of plain values, or none. -/
def IsPlainImage (image : Option PyItems) : Prop := ∀ items ∈ image, ArePlainItems items

/-- An image that there can be, or none. -/
def IsImage (image : Option PyItems) : Prop := ∀ items ∈ image, IsValue (.dict items)

theorem serializedImage_eq_self_iff (image : Option PyItems) :
    serializedImage image = .ok image ↔ IsPlainImage image := by
  cases image with
  | none => simp [serializedImage, IsPlainImage]
  | some items =>
    have hdict := serialized_eq_self_iff (.dict items)
    rw [serialized] at hdict
    have himage : IsPlainImage (some items) ↔ IsPlain (.dict items) := by
      simp [IsPlainImage, IsPlain]
    rw [himage, ← hdict, serializedImage]
    cases serializedItems items with
    | error e => exact ⟨nofun, nofun⟩
    | ok written =>
      rw [ok_bind, ok_bind]
      constructor <;> rintro ⟨⟩ <;> rfl

namespace ChangeEvent

variable (e : ChangeEvent)

/-- An event that there can be: its timestamps are floats, its dictionaries dictionaries. -/
structure IsEvent : Prop where
  commitTimestamp : IsFloat e.commitTimestamp
  captureTimestamp : IsFloat e.captureTimestamp
  keyValues : IsValue (.dict e.keyValues)
  beforeImage : IsImage e.beforeImage
  afterImage : IsImage e.afterImage
  metadata : IsValue (.dict e.metadata)

/-- An event of plain values. -/
structure IsPlainEvent : Prop where
  keyValues : ArePlainItems e.keyValues
  beforeImage : IsPlainImage e.beforeImage
  afterImage : IsPlainImage e.afterImage
  metadata : ArePlainItems e.metadata

/-- The event that is written in place of an event. -/
def readBack : Except PyException ChangeEvent := do
  let keyValues ← serializedItems e.keyValues
  let beforeImage ← serializedImage e.beforeImage
  let afterImage ← serializedImage e.afterImage
  let metadata ← serializedItems e.metadata
  return { e with
    keyValues := keyValues
    beforeImage := beforeImage
    afterImage := afterImage
    metadata := metadata }

/-- `json.dumps(event.to_dict(), default=json_default_serializer)`. -/
def payload : Except PyException String := serialized (.dict e.toDict) >>= dumps false

/-- The parts of the event that is written. -/
theorem readBack_eq_ok_iff {e e' : ChangeEvent} :
    e.readBack = .ok e' ↔ ∃ keyValues beforeImage afterImage metadata,
      serializedItems e.keyValues = .ok keyValues ∧
      serializedImage e.beforeImage = .ok beforeImage ∧
      serializedImage e.afterImage = .ok afterImage ∧
      serializedItems e.metadata = .ok metadata ∧
      { e with
        keyValues := keyValues
        beforeImage := beforeImage
        afterImage := afterImage
        metadata := metadata } = e' := by
  simp only [readBack, Traversal.bind_eq_ok_iff]
  constructor
  · rintro ⟨k, hk, b, hb, a, ha, m, hm, h⟩
    exact ⟨k, b, a, m, hk, hb, ha, hm, Except.ok.inj h⟩
  · rintro ⟨k, b, a, m, hk, hb, ha, hm, rfl⟩
    exact ⟨k, hk, b, hb, a, ha, m, hm, rfl⟩

theorem eventId_readBack {e e' : ChangeEvent} (h : e.readBack = .ok e') : e'.eventId = e.eventId := by
  obtain ⟨k, b, a, m, -, -, -, -, rfl⟩ := readBack_eq_ok_iff.mp h
  rfl

/-- **The events that are read back as they were written** are the plain ones. -/
theorem readBack_eq_self_iff : e.readBack = .ok e ↔ e.IsPlainEvent := by
  have hitems : ∀ items, serializedItems items = .ok items ↔ ArePlainItems items := by
    intro items
    exact ⟨fun h => arePlainItems_serialized h, serializedItems_of_arePlain⟩
  rw [readBack_eq_ok_iff]
  constructor
  · rintro ⟨k, b, a, m, hk, hb, ha, hm, h⟩
    obtain ⟨rfl, rfl, rfl, rfl⟩ : k = e.keyValues ∧ b = e.beforeImage ∧ a = e.afterImage ∧
        m = e.metadata := by
      rw [← h]
      exact ⟨rfl, rfl, rfl, rfl⟩
    exact ⟨(hitems _).mp hk, (serializedImage_eq_self_iff _).mp hb,
      (serializedImage_eq_self_iff _).mp ha, (hitems _).mp hm⟩
  · rintro ⟨hk, hb, ha, hm⟩
    exact ⟨e.keyValues, e.beforeImage, e.afterImage, e.metadata, (hitems _).mpr hk,
      (serializedImage_eq_self_iff _).mpr hb, (serializedImage_eq_self_iff _).mpr ha,
      (hitems _).mpr hm, rfl⟩

theorem serialized_optDict (image : Option PyItems) :
    serialized (optDict image) = optDict <$> serializedImage image := by
  cases image with
  | none => rfl
  | some items =>
    rw [optDict, serialized, serializedImage]
    cases serializedItems items <;> rfl

theorem serializedItems_toDict : serializedItems e.toDict = toDict <$> e.readBack := by
  have hstr : ∀ texts, serialized (strList texts) = .ok (strList texts) := by
    intro texts
    refine serialized_of_isPlain ?_
    show ArePlain (texts.map .str)
    induction texts with
    | nil => trivial
    | cons text texts ih => exact ⟨trivial, ih⟩
  have hoptStr : serialized (optStrList e.changedColumns) = .ok (optStrList e.changedColumns) := by
    cases e.changedColumns with
    | none => rfl
    | some texts => exact hstr texts
  have htx : serialized (optDict (e.txContext.map TransactionContext.toDict)) =
      .ok (optDict (e.txContext.map TransactionContext.toDict)) := by
    refine serialized_of_isPlain ?_
    rcases e.txContext with _ | ⟨txId, iso, number, total⟩
    · trivial
    · cases total <;> exact ⟨trivial, trivial, trivial, trivial, trivial⟩
  have htext : ∀ text, serialized (.str text) = .ok (.str text) := fun _ => rfl
  have hnumber : ∀ x, serialized (.float x) = .ok (.float x) := fun _ => rfl
  have hdict : ∀ items, serialized (.dict items) = PyValue.dict <$> serializedItems items := by
    intro items
    rw [serialized]
    cases serializedItems items <;> rfl
  rw [readBack, toDict]
  simp only [serializedItems, htext, hnumber, hstr, hoptStr, htx, hdict, serialized_optDict]
  cases serializedItems e.keyValues with
  | error => rfl
  | ok keyValues =>
    cases serializedImage e.beforeImage with
    | error => rfl
    | ok beforeImage =>
      cases serializedImage e.afterImage with
      | error => rfl
      | ok afterImage => cases serializedItems e.metadata <;> rfl

end ChangeEvent

/-- The exceptions of reading a stored event. -/
inductive RecoverError where
  | jsonDecodeError
  | attributeError
  | raised (exception : PyRaised)

/-- `ChangeEvent.from_dict(json.loads(payload))`. -/
def readPayload (payload : String) : Except RecoverError ChangeEvent :=
  match loads payload with
  | none => .error .jsonDecodeError
  | some (.dict d) =>
    match ChangeEvent.fromDict d with
    | .ok e => .ok e
    | .error exception => .error (.raised exception)
  | some _ => .error .attributeError

namespace ChangeEvent

variable {e e' : ChangeEvent}

theorem isEvent_readBack (he : e.IsEvent) (h : e.readBack = .ok e') : e'.IsEvent := by
  have hitems : ∀ {items written : PyItems}, IsValue (.dict items) →
      serializedItems items = .ok written → IsValue (.dict written) := by
    intro items written hitems hwritten
    obtain ⟨hkeys, hvalues⟩ := areItems_serialized hitems.2 hwritten
    exact ⟨hkeys ▸ hitems.1, hvalues⟩
  have himage : ∀ {image written : Option PyItems}, IsImage image →
      serializedImage image = .ok written → IsImage written := by
    intro image written himage hwritten
    cases image with
    | none =>
      obtain rfl := Except.ok.inj hwritten
      exact himage
    | some items =>
      simp only [serializedImage, Traversal.bind_eq_ok_iff] at hwritten
      obtain ⟨w, hw, hwritten⟩ := hwritten
      obtain rfl := Except.ok.inj hwritten
      rintro _ ⟨⟩
      exact hitems (himage items rfl) hw
  obtain ⟨k, b, a, m, hk, hb, ha, hm, rfl⟩ := readBack_eq_ok_iff.mp h
  exact ⟨he.commitTimestamp, he.captureTimestamp, hitems he.keyValues hk, himage he.beforeImage hb,
    himage he.afterImage ha, hitems he.metadata hm⟩

theorem isValue_toDict (he : e.IsEvent) : IsValue (.dict e.toDict) := by
  have himage : ∀ {image : Option PyItems}, IsImage image → IsValue (optDict image) := by
    intro image himage
    cases image with
    | none => trivial
    | some items => exact himage items rfl
  have hstr : ∀ texts, IsValue (strList texts) := by
    intro texts
    show AreValues (texts.map .str)
    induction texts with
    | nil => trivial
    | cons text texts ih => exact ⟨trivial, ih⟩
  have hoptStr : IsValue (optStrList e.changedColumns) := by
    cases e.changedColumns with
    | none => trivial
    | some texts => exact hstr texts
  have htx : IsValue (optDict (e.txContext.map TransactionContext.toDict)) := by
    rcases e.txContext with _ | ⟨txId, iso, number, total⟩
    · trivial
    · have hkeys : ["tx_id", "commit_timestamp_iso", "sequence_number",
          "total_events_in_tx"].Nodup := by decide
      refine ⟨hkeys, trivial, trivial, trivial, ?_, trivial⟩
      cases total <;> trivial
  refine ⟨?_, ?_⟩
  · show List.Nodup ["event_id", "source_system", "source_identity", "logical_object", "operation",
      "source_position", "commit_position", "commit_timestamp", "capture_timestamp",
      "schema_version", "key_columns", "key_values", "before_image", "after_image",
      "changed_columns", "tx_context", "deletion_type", "metadata"]
    decide
  · exact ⟨trivial, trivial, trivial, trivial, trivial, trivial, trivial, he.commitTimestamp,
      he.captureTimestamp, trivial, hstr _, he.keyValues, himage he.beforeImage,
      himage he.afterImage, hoptStr, htx, trivial, he.metadata, trivial⟩

theorem payload_of_readBack_error {exception : PyException}
    (h : e.readBack = .error exception) : e.payload = .error exception := by
  rw [payload, serialized, serializedItems_toDict, h]
  rfl

/-- **What is read back from the text of an event** is the event that was written. -/
theorem readPayload_of_readBack (he : e.IsEvent) (h : e.readBack = .ok e') :
    ∃ text, e.payload = .ok text ∧ readPayload text = .ok e' := by
  have hwritten : serialized (.dict e.toDict) = .ok (.dict e'.toDict) := by
    rw [serialized, serializedItems_toDict, h]
    rfl
  obtain ⟨text, htext⟩ := exists_dumps_of_isPlain (isPlain_serialized hwritten)
  refine ⟨text, by rw [payload, hwritten, ok_bind, htext], ?_⟩
  rw [readPayload, loads_dumps (isValue_toDict (isEvent_readBack he h)) htext]
  show (match fromDict e'.toDict with | .ok e => _ | .error exception => _) = _
  rw [fromDict_toDict]

theorem payload_readBack (h : e.readBack = .ok e') : e'.payload = e.payload := by
  have hwritten : serialized (.dict e.toDict) = .ok (.dict e'.toDict) := by
    rw [serialized, serializedItems_toDict, h]
    rfl
  rw [payload, payload, hwritten, serialized_of_isPlain (isPlain_serialized hwritten)]

end ChangeEvent

/-! ## A sample -/

/-- An event of a transaction on the row with the number 1. -/
def sampleEvent (eventId commitPosition : String) (operation : ChangeOperation)
    (afterImage : Option PyItems) : ChangeEvent where
  eventId := eventId
  sourceSystem := "POSTGRES"
  sourceIdentity := "public"
  logicalObject := "orders"
  operation := operation
  sourcePosition := commitPosition
  commitPosition := commitPosition
  commitTimestamp := .finite 1
  captureTimestamp := .finite 1
  schemaVersion := "v1"
  keyColumns := ["id"]
  keyValues := [("id", .int 1)]
  beforeImage := none
  afterImage := afterImage
  changedColumns := none
  txContext := none
  deletionType := .explicitDelete
  metadata := []

theorem isEvent_sampleEvent (eventId commitPosition : String) (operation : ChangeOperation)
    {afterImage : Option PyItems} (h : IsImage afterImage) :
    (sampleEvent eventId commitPosition operation afterImage).IsEvent := by
  have hone : IsFloat (.finite 1) := .inr (by decide +kernel)
  refine ⟨hone, hone, ⟨List.nodup_singleton _, trivial, trivial⟩, ?_, h, ⟨List.nodup_nil, trivial⟩⟩
  intro items hitems
  cases hitems

end EngineCDC

/-
# The durable transaction buffer

`DurableCDCBuffer` of `cdc/buffering/durable_buffer.py`: `append_transaction` writes the
dictionary of a transaction to the write-ahead log and to the queue in memory,
`pop_next_transaction` looks at the oldest entry, `remove_acknowledged_transaction` takes one
out of the queue, and `recover_from_wal` builds the queue from the log.

The log is the list of the entries written to it; its frames on disk are another matter.
Digests, and the text `str` gives for a value, are parameters.
-/
import Akaal.CDCEvents
import Akaal.JsonText

namespace CDC

/-! ## Entries and buffers -/

/-- The digests of `hashlib` and `hmac`, and `str`. -/
structure DigestRuntime where
  /-- `hashlib.sha256(s.encode("utf-8")).hexdigest()` -/
  sha256Hex : String → String
  /-- `hmac.new(key, s.encode("utf-8"), hashlib.sha256).hexdigest()` -/
  hmacHex : List UInt8 → String → String
  /-- `str(v)` -/
  str : PyValue → String

/-- An entry of the buffer. -/
structure BufferEntry where
  migrationId : String
  jobId : String
  runId : String
  cdcSessionId : String
  fencingEpoch : ℤ
  txId : String
  transactionData : PyItems
  recordHmac : String
  bufferTimestamp : PyFloat

/-- The entry as a dictionary. -/
def BufferEntry.toValue (entry : BufferEntry) : PyValue :=
  .dict [("migration_id", .str entry.migrationId), ("job_id", .str entry.jobId),
    ("run_id", .str entry.runId), ("cdc_session_id", .str entry.cdcSessionId),
    ("fencing_epoch", .int entry.fencingEpoch), ("tx_id", .str entry.txId),
    ("transaction_data", .dict entry.transactionData), ("record_hmac", .str entry.recordHmac),
    ("buffer_timestamp", .float entry.bufferTimestamp)]

/-- `DurableCDCBuffer`. -/
structure DurableCDCBuffer where
  identity : CDCEventIdentity
  maxBufferedEvents : ℤ
  maxBufferBytes : ℤ
  hmacKey : List UInt8
  wal : List BufferEntry
  inMemoryQueue : List BufferEntry
  bufferedBytes : ℤ
  bufferedEvents : ℤ

namespace DurableCDCBuffer

/-- `self.hard_event_limit`. -/
def hardEventLimit (buffer : DurableCDCBuffer) : ℤ := buffer.maxBufferedEvents * 2

/-- A failure the buffer reports. -/
def failure (buffer : DurableCDCBuffer) (failureType : CDCFailureType)
    (category : CDCFailureCategory) (message : String) : PyRaised :=
  .executionError {
    failureType := failureType
    category := category
    message := message
    migrationId := buffer.identity.migrationId
    jobId := buffer.identity.jobId
    runId := buffer.identity.runId
    cdcSessionId := buffer.identity.cdcSessionId }

/-- The events of the dictionary of a transaction: `tx_dict.get("events", [])`. -/
def eventsOf (txDict : PyItems) : PyValue := (List.lookup "events" txDict).getD (.list [])

/-- `len(tx_dict.get("events", []))`. -/
def eventCount (txDict : PyItems) : ℤ :=
  match eventsOf txDict with
  | .list elements => elements.length
  | _ => 0

/-- `json.dumps`, with its exception. -/
def jsonDumps (sortKeys : Bool) (v : PyValue) : Except PyRaised String :=
  match JsonText.dumps sortKeys v with
  | .ok text => .ok text
  | .error e => .error (.notSerializable e)

/-- `len(json.dumps(entry))`. -/
def entryBytes (entry : BufferEntry) : Except PyRaised ℤ :=
  (fun text : String => (text.length : ℤ)) <$> jsonDumps false entry.toValue

variable (rt : DigestRuntime)

/-- The text of the commit position in the record that is signed: the first of four keys that
has a value, else the whole dictionary. -/
def positionText (posDict : PyItems) : String :=
  let candidates := ["lsn", "gtid", "scn", "position_str"].map (getValue posDict)
  rt.str ((candidates.find? fun v => !isFalsy v).getD (.dict posDict))

/-- `compute_record_hmac`. -/
def computeRecordHmac (buffer : DurableCDCBuffer) (txDict : PyItems) (fencingEpoch : ℤ) :
    Except PyRaised String := do
  let txId ← getItem txDict "tx_id"
  let posDict ← asDict "commit_position"
    ((List.lookup "commit_position" txDict).getD (.dict []))
  let eventsJson ← jsonDumps true (eventsOf txDict)
  let payloadHash := String.ofList ((rt.sha256Hex eventsJson).toList.take 16)
  let raw := buffer.identity.migrationId ++ ":" ++ buffer.identity.runId ++ ":" ++
    buffer.identity.cdcSessionId ++ ":" ++ rt.str txId ++ ":" ++ intText fencingEpoch ++ ":" ++
    positionText rt posDict ++ ":" ++ payloadHash
  return rt.hmacHex buffer.hmacKey raw

/-! ## Operations -/

/-- The entry `append_transaction` builds for a transaction. -/
def entryOf (buffer : DurableCDCBuffer) (tx : CDCTransaction) (fencingEpoch : ℤ) (now : PyFloat)
    (recordHmac : String) : BufferEntry where
  migrationId := buffer.identity.migrationId
  jobId := buffer.identity.jobId
  runId := buffer.identity.runId
  cdcSessionId := buffer.identity.cdcSessionId
  fencingEpoch := fencingEpoch
  txId := tx.txId
  transactionData := tx.toDict
  recordHmac := recordHmac
  bufferTimestamp := now

/-- `append_transaction`. -/
def appendTransaction (buffer : DurableCDCBuffer) (tx : CDCTransaction) (fencingEpoch : ℤ)
    (now : PyFloat) : Except PyRaised DurableCDCBuffer :=
  if tx.identity.migrationId ≠ buffer.identity.migrationId ∨
      tx.identity.runId ≠ buffer.identity.runId ∨
      tx.identity.cdcSessionId ≠ buffer.identity.cdcSessionId then
    .error (buffer.failure .transactionCorruption .dataIntegrityRisk
      ("[BUFFER CONTAMINATION] Cross-run/session transaction '" ++ tx.txId ++ "' rejected."))
  else if buffer.hardEventLimit < buffer.bufferedEvents + tx.events.length then
    .error (buffer.failure .durableBufferFailure .pausable
      ("[BUFFER EXHAUSTION] Hard event capacity limit reached (" ++
        intText (buffer.bufferedEvents + tx.events.length) ++ "/" ++
        intText buffer.hardEventLimit ++ ")."))
  else do
    let recordHmac ← buffer.computeRecordHmac rt tx.toDict fencingEpoch
    let entry := buffer.entryOf tx fencingEpoch now recordHmac
    let bytes ← entryBytes entry
    if buffer.maxBufferBytes < buffer.bufferedBytes + bytes then
      .error (buffer.failure .durableBufferFailure .pausable
        ("[STORAGE EXHAUSTION] Hard buffer byte capacity limit reached (" ++
          intText (buffer.bufferedBytes + bytes) ++ "/" ++ intText buffer.maxBufferBytes ++
          " bytes)."))
    else return { buffer with
      wal := buffer.wal ++ [entry]
      bufferedBytes := buffer.bufferedBytes + bytes
      bufferedEvents := buffer.bufferedEvents + tx.events.length
      inMemoryQueue := buffer.inMemoryQueue ++ [entry] }

/-- The first eight characters of a digest. -/
def shortDigest (digest : String) : String := String.ofList (digest.toList.take 8)

/-- `pop_next_transaction`; the entry stays in the queue. -/
def popNextTransaction (buffer : DurableCDCBuffer) : Except PyRaised (Option BufferEntry) :=
  match buffer.inMemoryQueue with
  | [] => .ok none
  | entry :: _ => do
      let expected ← buffer.computeRecordHmac rt entry.transactionData entry.fencingEpoch
      if entry.recordHmac ≠ expected then
        .error (buffer.failure .bufferCorruption .dataIntegrityRisk
          ("[BUFFER CORRUPTION] HMAC integrity verification failed for transaction '" ++
            entry.txId ++ "'. Expected " ++ shortDigest expected ++ ", got " ++
            shortDigest entry.recordHmac ++ "."))
      else return some entry

/-- `remove_acknowledged_transaction`: the first entry of the transaction is removed, unless its
commit position is after the one acknowledged. -/
def removeAcknowledgedTransaction (buffer : DurableCDCBuffer) (txId : String)
    (workerLastAckPos : Option CDCSourcePosition) : Except PyRaised (DurableCDCBuffer × Bool) :=
  match buffer.inMemoryQueue.find? fun entry => entry.txId == txId with
  | none => .ok (buffer, false)
  | some entry => do
      match workerLastAckPos with
      | none => pure ()
      | some ack =>
        let commitPos ← parseSourcePosition (← getItem entry.transactionData "commit_position")
        if ← commitPos.isAfter ack then
          .error (buffer.failure .bufferCorruption .dataIntegrityRisk
            ("[UNSAFE RECLAMATION] Transaction '" ++ txId ++ "' position " ++ commitPos.str ++
              " exceeds acknowledged position " ++ ack.str ++ "."))
        else pure ()
      let bytes ← entryBytes entry
      return ({ buffer with
        inMemoryQueue := buffer.inMemoryQueue.eraseP fun entry => entry.txId == txId
        bufferedEvents := max 0 (buffer.bufferedEvents - eventCount entry.transactionData)
        bufferedBytes := max 0 (buffer.bufferedBytes - bytes) }, true)

/-- One record of the log in `recover_from_wal`; an entry whose digest does not match is
skipped. -/
def recoverRecord (buffer : DurableCDCBuffer) (entry : BufferEntry) :
    Except PyRaised DurableCDCBuffer := do
  let expected ← buffer.computeRecordHmac rt entry.transactionData entry.fencingEpoch
  if entry.recordHmac ≠ expected then return buffer
  else
    let bytes ← entryBytes entry
    return { buffer with
      inMemoryQueue := buffer.inMemoryQueue ++ [entry]
      bufferedEvents := buffer.bufferedEvents + eventCount entry.transactionData
      bufferedBytes := buffer.bufferedBytes + bytes }

/-- `recover_from_wal`. -/
def recoverFromWal (buffer : DurableCDCBuffer) : Except PyRaised DurableCDCBuffer :=
  buffer.wal.foldlM (fun b entry => b.recoverRecord rt entry)
    { buffer with inMemoryQueue := [], bufferedEvents := 0, bufferedBytes := 0 }

end DurableCDCBuffer

end CDC

/-
# Concurrent partition transport over one stream buffer

`TransportAuthority.execute_partition_transport` of `transport/api.py`: each call
reads a batch from its reader, pushes it into the authority's stream buffer, pops a
batch from that buffer, writes what it popped to its own target table, and saves a
checkpoint.  All calls on one authority share the one buffer made in `__init__`.

A system is a buffer and a family of calls indexed by `ι`.  The steps of a call are
those of the loop body: the barrier checks and the read, the push, the pop, the write
(`_write_batch_with_retry`, whose own behaviour is the subject of `WriteRetry`), and
the checkpoint.  A schedule interleaves the steps of the calls in any way; what the
environment decides is part of the action.

The history of a call is kept next to its state, and the buffer remembers who pushed each batch.
-/
import Akaal.TransitionRun
import Akaal.StreamBuffer
import Akaal.GenericSqlReader

namespace Transport

open TransitionRun

/-! ## Calls -/

/-- What the loop uses of a `SourceReader`: `read_batch` and `resume_position`. -/
structure SourceReader (R ρ κ : Type*) where
  readBatch : R → R × Option (TransportBatch ρ)
  resumePosition : R → Option κ

/-- The generic SQL reader as the loop uses it; `strLen` is the length of a row's text. -/
def sqlReaderApi (κ β : Type*) (strLen : SqlRow κ → ℕ) (batchSize : ℕ) :
    SourceReader (GenericSqlReader κ β) (SqlRow κ) κ where
  readBatch := readBatch strLen batchSize
  resumePosition := resumePosition

/-- The arguments of one call of `execute_partition_transport`.  `processing` is
`transform_batch` of the data-processing authority under the plan of the call, when
both are given; `checkpointing` says that there are a durability authority and a
fencing token to checkpoint with. -/
structure TransportCall (β ρ : Type*) where
  partition : TransportPartition β
  migrationId : String
  runId : String
  processing : Option (List ρ → List ρ)
  checkpointing : Bool
  fencingEpoch : ℕ
  endpointIdentity : Option String

variable {ι R ρ κ β : Type*}

/-- The batch that is handed to the writer: the popped batch with its rows processed. -/
def TransportCall.writeBatch (call : TransportCall β ρ) (popped : TransportBatch ρ) :
    TransportBatch ρ :=
  { popped with
    rows := match call.processing with
      | some transformBatch => transformBatch popped.rows
      | none => popped.rows }

/-- `batch_id_current`. -/
def TransportCall.batchIdCurrent (call : TransportCall β ρ) (popped : TransportBatch ρ) : String :=
  if popped.metadata.batchId ≠ "" then popped.metadata.batchId
  else s!"{call.runId}-b{popped.metadata.sequenceNumber}"

/-- The checkpoint saved once `popped` is written. -/
def TransportCall.checkpoint (call : TransportCall β ρ) (popped : TransportBatch ρ)
    (readPosition : Option κ) : MigrationCheckpoint κ where
  migrationId := call.migrationId
  jobId := call.batchIdCurrent popped
  fencingEpoch := call.fencingEpoch
  status := "COMMITTED"
  endpointIdentity := call.endpointIdentity
  tableName := call.partition.tableName
  schemaName := call.partition.schemaName
  lastSequence := popped.metadata.sequenceNumber
  partitionId := call.partition.partitionId
  readPosition := readPosition

/-- Where a call stands in the loop body, with the batch it has in hand. -/
inductive CallPhase (ρ : Type*) where
  | reading
  | pushing (batch : TransportBatch ρ)
  | popping (batch : TransportBatch ρ)
  | writing (popped : TransportBatch ρ)
  | checkpointing (popped : TransportBatch ρ)
  | returned
  | raised (e : TransportError)

/-- The state of a call, and its history: the batches its reader produced, the batches
it wrote with their table, and the checkpoints it saved with the batch each is for. -/
structure CallState (R ρ κ : Type*) where
  phase : CallPhase ρ
  reader : R
  totalWritten : ℕ
  produced : List (TransportBatch ρ)
  written : List (String × TransportBatch ρ)
  checkpoints : List (TransportBatch ρ × MigrationCheckpoint κ)

/-- A call that has just opened its partition. -/
def CallState.init (reader : R) : CallState R ρ κ where
  phase := .reading
  reader := reader
  totalWritten := 0
  produced := []
  written := []
  checkpoints := []

/-! ## The authority -/

/-- The shared state of the authority: its stream buffer with the pushers of the queued
batches, and its calls. -/
structure TransportState (ι R ρ κ : Type*) where
  buffer : BoundedStreamBuffer ρ
  pushers : List ι
  calls : ι → CallState R ρ κ

/-- The start: an empty buffer and calls that have opened their partitions. -/
def TransportState.init (policy : TransportTuningPolicy) (readers : ι → R) :
    TransportState ι R ρ κ where
  buffer := .init policy
  pushers := []
  calls := fun i => .init (readers i)

/-- The outcome of `_write_batch_with_retry` as the loop sees it: it returns the number of
rows written, or it raises.  When it raises, the batch may still have been committed. -/
inductive WriteOutcome where
  | returned (written : ℕ)
  | raised (e : TransportError) (landed : Bool)
  deriving DecidableEq

/-- One atomic step of one call.  The token of a call may be cancelled at any time, so
each step says whether it is. -/
inductive TransportAction (ι : Type*) where
  /-- The barrier checks at the top of the loop, the read, and the bandwidth wait. -/
  | read (i : ι) (barrier throttle : Option TransportError)
  | push (i : ι) (isCancelled : Bool)
  | pop (i : ι) (isCancelled : Bool)
  | write (i : ι) (outcome : WriteOutcome)
  /-- Saving the checkpoint, or the error the durability authority raises. -/
  | checkpoint (i : ι) (rejected : Option TransportError)
  deriving DecidableEq

variable [DecidableEq ι]

/-- Replace the state of one call. -/
def TransportState.setCall (s : TransportState ι R ρ κ) (i : ι) (c : CallState R ρ κ) :
    TransportState ι R ρ κ :=
  { s with calls := Function.update s.calls i c }

/-- The barrier checks and the read: an empty or missing batch ends the call. -/
def readStep (api : SourceReader R ρ κ) (c : CallState R ρ κ)
    (barrier throttle : Option TransportError) : CallState R ρ κ :=
  match barrier with
  | some e => { c with phase := .raised e }
  | none =>
    match api.readBatch c.reader with
    | (reader, none) => { c with reader := reader, phase := .returned }
    | (reader, some batch) =>
      if batch.rows = [] then { c with reader := reader, phase := .returned }
      else
        { c with
          reader := reader
          produced := c.produced ++ [batch]
          phase := match throttle with
            | some e => .raised e
            | none => .pushing batch }

/-- The write of a popped batch to the call's own table. -/
def writeStep (call : TransportCall β ρ) (c : CallState R ρ κ) (popped : TransportBatch ρ)
    (outcome : WriteOutcome) : CallState R ρ κ :=
  let entry := (call.partition.tableName, call.writeBatch popped)
  match outcome with
  | .returned n =>
    { c with
      totalWritten := c.totalWritten + n
      written := c.written ++ [entry]
      phase := if call.checkpointing then .checkpointing popped else .reading }
  | .raised e landed =>
    { c with
      written := if landed then c.written ++ [entry] else c.written
      phase := .raised e }

/-- The checkpoint of a written batch. -/
def checkpointStep (api : SourceReader R ρ κ) (call : TransportCall β ρ) (c : CallState R ρ κ)
    (popped : TransportBatch ρ) (rejected : Option TransportError) : CallState R ρ κ :=
  match rejected with
  | some e =>
    { c with
      phase := .raised (.write
        s!"Checkpoint persistence failed for migration '{call.migrationId}': {e.text}") }
  | none =>
    { c with
      checkpoints :=
        c.checkpoints ++ [(popped, call.checkpoint popped (api.resumePosition c.reader))]
      phase := .reading }

/-- The step function.  An action is refused when its call is not at that point of the
loop, and while `push` or `pop` waits. -/
def transportStep (api : SourceReader R ρ κ) (calls : ι → TransportCall β ρ)
    (s : TransportState ι R ρ κ) : TransportAction ι → Option (TransportState ι R ρ κ)
  | .read i barrier throttle =>
    match (s.calls i).phase with
    | .reading => some (s.setCall i (readStep api (s.calls i) barrier throttle))
    | _ => none
  | .push i isCancelled =>
    match (s.calls i).phase with
    | .pushing batch =>
      match s.buffer.push batch isCancelled with
      | (buffer, .returned ()) =>
        some { s with
          buffer := buffer
          pushers := s.pushers ++ [i]
          calls := Function.update s.calls i { s.calls i with phase := .popping batch } }
      | (buffer, .raised e) =>
        some { s with
          buffer := buffer
          calls := Function.update s.calls i { s.calls i with phase := .raised e } }
      | (_, .waiting) => none
    | _ => none
  | .pop i isCancelled =>
    match (s.calls i).phase with
    | .popping _ =>
      match s.buffer.pop isCancelled with
      | (buffer, .returned (some popped)) =>
        some { s with
          buffer := buffer
          pushers := s.pushers.tail
          calls := Function.update s.calls i { s.calls i with phase := .writing popped } }
      | (_, .returned none) => some (s.setCall i { s.calls i with phase := .returned })
      | (_, .raised e) => some (s.setCall i { s.calls i with phase := .raised e })
      | (_, .waiting) => none
    | _ => none
  | .write i outcome =>
    match (s.calls i).phase with
    | .writing popped => some (s.setCall i (writeStep (calls i) (s.calls i) popped outcome))
    | _ => none
  | .checkpoint i rejected =>
    match (s.calls i).phase with
    | .checkpointing popped =>
      some (s.setCall i (checkpointStep api (calls i) (s.calls i) popped rejected))
    | _ => none

end Transport

/-
# The data model of the transport authority

The records that pass between the partitioner, the source reader, the stream
buffer, the target writer and the durable checkpoint
(`transport/models/spec.py`, `batch.py`, `capabilities.py`, `errors.py`).

Rows are a parameter `ρ`, the bounds of a partition a parameter `β`, and the
key values a checkpoint records a parameter `κ`: the transport loop never looks
inside them.
-/
import Mathlib

namespace Transport

/-! ## Partitions and tuning -/

/-- `PartitionStrategy`: how a table is cut into partitions. -/
inductive PartitionStrategy where
  | pkNumericRange
  | temporalRange
  | decimalRange
  | oracleRowidRange
  | nullPartition
  | singlePartition
  deriving DecidableEq

/-- `TransportPartition`: one chunk of a table, with bounds of type `β`. -/
structure TransportPartition (β : Type*) where
  partitionId : String
  tableName : String
  schemaName : String
  targetSchema : String
  strategy : PartitionStrategy
  pkColumns : List String := []
  lowerBound : Option β := none
  upperBound : Option β := none
  isNullPartition : Bool := false
  deriving DecidableEq

/-- `TransportTuningPolicy`: the limits the partitioner, the loop and the stream
buffer read, with the defaults of the source. -/
structure TransportTuningPolicy where
  parallelism : ℤ := 4
  maxRowsPerBatch : ℕ := 50000
  maxQueueBatches : ℕ := 10
  maxQueueRows : ℕ := 50000
  maxQueueBytes : ℕ := 64 * 1024 * 1024
  deriving DecidableEq

/-! ## Batches -/

/-- `TransportBatchMetadata`: the header of a batch. -/
structure TransportBatchMetadata where
  batchId : String
  partitionId : String
  tableName : String
  schemaName : String
  sequenceNumber : ℕ
  rowCount : ℕ
  sizeBytes : ℕ
  deriving DecidableEq

/-- `TransportBatch`: the rows a reader hands to the writer. -/
structure TransportBatch (ρ : Type*) where
  metadata : TransportBatchMetadata
  rows : List ρ
  columnNames : List String
  deriving DecidableEq

/-! ## Capabilities -/

/-- `IdempotencyMode`: what a writer promises about repeated writes. -/
inductive IdempotencyMode where
  | stateIdempotent
  | operationIdempotent
  | conditionallyIdempotent
  | nonIdempotent
  | unknown
  deriving DecidableEq

/-- `CommitOutcomeState`: the answer to "did this batch commit?". -/
inductive CommitOutcomeState where
  | notCommitted
  | committed
  | unknownCommitOutcome
  deriving DecidableEq

/-! ## Errors -/

/-- The exception hierarchy of `transport/models/errors.py`, together with the
`StaleFencingEpochError` of the drivers and the exceptions a database driver or
a caller's own callable may raise (`external`). -/
inductive TransportError where
  | transport (message : String)
  | read (message : String)
  | write (message : String)
  | retryExhausted (attempts : ℕ) (lastError : String)
  | cancelled (reason : String)
  | fencing (message : String)
  | ambiguousCommit (message : String)
  | staleFencingEpoch (message : String)
  | external (message : String)
  deriving DecidableEq

/-- The text `str(exc)` gives for an error of the hierarchy: the error code in
brackets and the message. -/
def TransportError.text : TransportError → String
  | .transport m => s!"[TRANSPORT_ERROR] {m}"
  | .read m => s!"[TRANSPORT_READ_ERROR] {m}"
  | .write m => s!"[TRANSPORT_WRITE_ERROR] {m}"
  | .retryExhausted n e =>
    s!"[RETRY_EXHAUSTED] Retry exhausted after {n} attempts. Last error: {e}"
  | .cancelled r => s!"[TRANSPORT_CANCELLED] Transport operation cancelled: {r}"
  | .fencing m => s!"[TRANSPORT_FENCING_ERROR] {m}"
  | .ambiguousCommit m => s!"[AMBIGUOUS_COMMIT_OUTCOME] {m}"
  | .staleFencingEpoch m => m
  | .external m => m

/-- `isinstance(exc, TransportFencingError)`. -/
def TransportError.isFencing : TransportError → Bool
  | .fencing _ => true
  | _ => false

/-- `isinstance(exc, TransportCancelledError)`. -/
def TransportError.isCancelled : TransportError → Bool
  | .cancelled _ => true
  | _ => false

/-! ## The durable checkpoint -/

/-- `MigrationCheckpoint` as the transport loop fills it in, with the metadata
entries it writes. -/
structure MigrationCheckpoint (κ : Type*) where
  migrationId : String
  jobId : String
  fencingEpoch : ℕ
  status : String
  endpointIdentity : Option String
  tableName : String
  schemaName : String
  lastSequence : ℕ
  partitionId : String
  readPosition : Option κ
  deriving DecidableEq

end Transport

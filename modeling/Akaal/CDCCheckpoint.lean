/-
# Durable checkpoints

`CDCCheckpoint` of `cdc/domain/durability.py`: the checks of its constructor, the digest
`compute_hmac` takes of its identity and positions, `to_dict` and `from_dict`.

* `checkPositions_self` : a checkpoint whose three positions are one passes the checks.
-/
import Akaal.DurableBuffer

namespace CDC

/-- `CDCCheckpoint`. -/
structure CDCCheckpoint where
  checkpointId : String
  migrationId : String
  jobId : String
  runId : String
  cdcSessionId : String
  fencingEpoch : ℤ
  sourcePosition : CDCSourcePosition
  appliedPosition : CDCSourcePosition
  acknowledgedPosition : CDCSourcePosition
  createdAt : String
  checkpointHash : String
  secretKey : List UInt8
  deriving DecidableEq

namespace CDCCheckpoint

variable (rt : DigestRuntime)

/-- `key or default`. -/
def keyOr (key : Option (List UInt8)) (default : List UInt8) : List UInt8 :=
  match key with
  | some k => if k = [] then default else k
  | none => default

/-- The text that is signed: the identity, the epoch and the three positions, joined by
colons. -/
def signedText (checkpointId migrationId jobId runId cdcSessionId : String) (fencingEpoch : ℤ)
    (source applied acknowledged : CDCSourcePosition) : String :=
  checkpointId ++ ":" ++ migrationId ++ ":" ++ jobId ++ ":" ++ runId ++ ":" ++ cdcSessionId ++
    ":" ++ intText fencingEpoch ++ ":" ++ source.toText ++ ":" ++ applied.toText ++ ":" ++
    acknowledged.toText

/-- `compute_hmac`. -/
def computeHmac (c : CDCCheckpoint) (key : Option (List UInt8)) : String :=
  rt.hmacHex (keyOr key c.secretKey)
    (signedText c.checkpointId c.migrationId c.jobId c.runId c.cdcSessionId c.fencingEpoch
      c.sourcePosition c.appliedPosition c.acknowledgedPosition)

/-- `verify_integrity`. -/
def verifyIntegrity (c : CDCCheckpoint) (key : Option (List UInt8)) : Bool :=
  decide (c.checkpointHash = c.computeHmac rt key)

/-- The checks of the constructor on the order of the positions. -/
def checkPositions (source applied acknowledged : CDCSourcePosition) : Except PyRaised Unit := do
  if ← applied.isAfter source then
    .error (.valueError ("[CHECKPOINT CONTRADICTION] Applied position " ++ applied.str ++
      " cannot exceed source captured position " ++ source.str ++ "."))
  if ← acknowledged.isAfter applied then
    .error (.valueError ("[CHECKPOINT CONTRADICTION] Acknowledged position " ++
      acknowledged.str ++ " cannot exceed applied position " ++ applied.str ++ "."))

/-- `CDCCheckpoint(...)`; the provider's key is taken for a missing one, and the digest is
computed when none is given. -/
def new (providerKey : List UInt8) (now : String)
    (checkpointId migrationId jobId runId cdcSessionId : String) (fencingEpoch : ℤ)
    (sourcePosition : CDCSourcePosition)
    (appliedPosition acknowledgedPosition : Option CDCSourcePosition)
    (createdAt checkpointHash : Option String) (secretKey : Option (List UInt8)) :
    Except PyRaised CDCCheckpoint :=
  if checkpointId = "" ∨ migrationId = "" ∨ jobId = "" ∨ runId = "" ∨ cdcSessionId = "" then
    .error (.valueError ("All checkpoint identity fields (checkpoint_id, migration_id, job_id, " ++
      "run_id, cdc_session_id) must be non-empty."))
  else if fencingEpoch < 0 then
    .error (.valueError "fencing_epoch must be a non-negative integer.")
  else do
    let applied := appliedPosition.getD sourcePosition
    let acknowledged := acknowledgedPosition.getD sourcePosition
    checkPositions sourcePosition applied acknowledged
    let key := keyOr secretKey providerKey
    let digest := rt.hmacHex key (signedText checkpointId migrationId jobId runId cdcSessionId
      fencingEpoch sourcePosition applied acknowledged)
    return {
      checkpointId := checkpointId
      migrationId := migrationId
      jobId := jobId
      runId := runId
      cdcSessionId := cdcSessionId
      fencingEpoch := fencingEpoch
      sourcePosition := sourcePosition
      appliedPosition := applied
      acknowledgedPosition := acknowledged
      createdAt := orDefault createdAt now
      checkpointHash := orDefault checkpointHash digest
      secretKey := key }

/-- `to_dict`. -/
def toDict (c : CDCCheckpoint) : PyItems :=
  [("checkpoint_id", .str c.checkpointId), ("migration_id", .str c.migrationId),
    ("job_id", .str c.jobId), ("run_id", .str c.runId), ("cdc_session_id", .str c.cdcSessionId),
    ("fencing_epoch", .int c.fencingEpoch), ("source_position", .dict c.sourcePosition.toDict),
    ("applied_position", .dict c.appliedPosition.toDict),
    ("acknowledged_position", .dict c.acknowledgedPosition.toDict),
    ("created_at", .str c.createdAt), ("checkpoint_hash", .str c.checkpointHash)]

/-- A position that `from_dict` reads when there is one. -/
def readPosition (data : PyItems) (key : String) : Except PyRaised (Option CDCSourcePosition) :=
  if isFalsy (getValue data key) then .ok none
  else some <$> parseSourcePosition (getValue data key)

/-- `from_dict`. -/
def fromDict (providerKey : List UInt8) (now : String) (data : PyItems)
    (key : Option (List UInt8)) : Except PyRaised CDCCheckpoint := do
  let chk ← new rt providerKey now (← getStr data "checkpoint_id") (← getStr data "migration_id")
    (← getStr data "job_id") (← getStr data "run_id") (← getStr data "cdc_session_id")
    (← getInt data "fencing_epoch") (← parseSourcePosition (← getItem data "source_position"))
    (← readPosition data "applied_position") (← readPosition data "acknowledged_position")
    (← getOptStr data "created_at") (← getOptStr data "checkpoint_hash") key
  if chk.verifyIntegrity rt key then return chk
  else .error (.valueError ("[CORRUPT CHECKPOINT] Checkpoint '" ++ chk.checkpointId ++
    "' failed SHA-256 HMAC integrity verification!"))

end CDCCheckpoint

@[simp] theorem CDCSourcePosition.isAfter_self (p : CDCSourcePosition) :
    p.isAfter p = .ok false := by
  cases p <;> simp [CDCSourcePosition.isAfter]

/-- A checkpoint whose three positions are one is accepted. -/
theorem CDCCheckpoint.checkPositions_self (p : CDCSourcePosition) :
    CDCCheckpoint.checkPositions p p p = .ok () := by
  simp [CDCCheckpoint.checkPositions]
  rfl

end CDC

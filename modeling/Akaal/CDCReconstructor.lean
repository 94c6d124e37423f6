/-
# Transactions from native records

`TransactionReconstructor` of `cdc/sources/reconstruction.py`, with the `add_event`, `mark_commit` and
`mark_abort` of `CDCTransaction` in `cdc/domain/events.py`.  The limit is checked before the boundary of a
record, and the records that would empty the buffer are rejected with the others once it is reached.

* `Tracks.process` : what is open and counted after every record;
* `reconstructs` : what is returned, for all interleavings of records;
* `heldEvents_le` : the limit of what is held, and what follows once it is reached;
* `drains_along_iff` : the runs in which an open transaction can always be ended.

The state of the backpressure controller, which is only logged, is left out.
-/
import Akaal.CDCApplyWorker
import Akaal.TransactionReconstruction

open PythonText TransitionRun

namespace PyDict

theorem set_set {α : Type*} (d : PyDict α) (key : String) (old value : α) :
    (d.set key old).set key value = d.set key value := by
  have hitems : setItem key value (setItem key old d.items) = setItem key value d.items := by
    induction d.items with
    | nil => simp [setItem]
    | cons item items ih =>
      rw [setItem, setItem]
      split_ifs with hkey
      · rw [setItem, if_pos rfl]
      · rw [setItem, if_neg hkey, ih]
  exact PyDict.ext hitems

end PyDict

namespace CDC

/-! ## Transactions -/

namespace CDCTransaction

variable (tx : CDCTransaction)

/-- `add_event`. -/
def addEvent (event : CDCEvent) : Except PyRaised CDCTransaction :=
  if tx.isCommitted ∨ tx.isAborted then
    .error (.valueError ("Cannot add event to finalized transaction '" ++ tx.txId ++ "'."))
  else if event.identity.migrationId ≠ tx.identity.migrationId ∨
      event.identity.runId ≠ tx.identity.runId then
    .error (.valueError
      ("Cross-migration/run event substitution rejected for transaction '" ++ tx.txId ++ "'."))
  else .ok { tx with events := tx.events ++ [event] }

/-- `mark_commit`. -/
def markCommit : Except PyRaised CDCTransaction :=
  if tx.isAborted then .error (.valueError ("Cannot commit aborted transaction '" ++ tx.txId ++ "'."))
  else .ok { tx with isCommitted := true }

/-- `mark_abort`. -/
def markAbort : Except PyRaised CDCTransaction :=
  if tx.isCommitted then .error (.valueError ("Cannot abort committed transaction '" ++ tx.txId ++ "'."))
  else .ok { tx with isAborted := true }

end CDCTransaction

/-! ## The reconstructor -/

/-- The arguments of `process_native_record`, with what the clock answers during the call. -/
structure NativeRecord where
  txId : String
  sourceEngine : String
  sourceDatabase : String
  sourceSchema : String
  sourceTable : String
  operation : CDCOperationType
  position : CDCSourcePosition
  boundary : CDCTransactionBoundary
  beforeImage : PyValue := .none
  afterImage : PyValue := .none
  commitTimestamp : Option String := none
  recordIdentity : Option CDCEventIdentity := none
  ambient : Ambient

/-- `TransactionReconstructor`. -/
structure TransactionReconstructor where
  identity : CDCEventIdentity
  maxBufferedEvents : ℤ
  activeTransactions : PyDict CDCTransaction
  committedTransactions : List CDCTransaction
  totalEventsBuffered : ℤ

namespace TransactionReconstructor

/-- `TransactionReconstructor(identity, max_buffered_events)`. -/
def new (identity : CDCEventIdentity) (maxBufferedEvents : ℤ) : TransactionReconstructor :=
  ⟨identity, maxBufferedEvents, .empty, [], 0⟩

variable (r : TransactionReconstructor) (record : NativeRecord)

/-- `hard_event_limit`. -/
def hardEventLimit : ℤ := r.maxBufferedEvents * 2

/-- The event of a record. -/
def eventOf (identity : CDCEventIdentity) (record : NativeRecord) : CDCEvent where
  identity := identity
  sourceEngine := upper record.sourceEngine
  sourceDatabase := record.sourceDatabase
  sourceSchema := record.sourceSchema
  sourceTable := record.sourceTable
  operation := record.operation
  position := record.position
  beforeImage := record.beforeImage
  afterImage := record.afterImage
  boundary := record.boundary
  txId := some record.txId
  commitTimestamp := orDefault record.commitTimestamp record.ambient.now
  capturedTimestamp := record.ambient.now
  schemaVersionId := none
  details := .dict []
  engine_upper := upper_upper _
  commit_ne := orDefault_ne_empty record.ambient.now_ne
  captured_ne := record.ambient.now_ne
  details_eq := rfl

/-- The transaction a record opens. -/
def opening : CDCTransaction where
  txId := record.txId
  identity := r.identity
  commitPosition := record.position
  events := []
  commitTimestamp := orDefault record.commitTimestamp record.ambient.now
  isCommitted := false
  isAborted := false
  commit_ne := orDefault_ne_empty record.ambient.now_ne

/-- The transaction of a record: the open one, or a new one. -/
def transaction : CDCTransaction := (r.activeTransactions.get? record.txId).getD (r.opening record)

/-- Whether the record has the migration, the run and the session of the reconstructor. -/
def Own : Prop :=
  (record.recordIdentity.getD r.identity).migrationId = r.identity.migrationId ∧
    (record.recordIdentity.getD r.identity).runId = r.identity.runId ∧
    (record.recordIdentity.getD r.identity).cdcSessionId = r.identity.cdcSessionId

instance : Decidable (r.Own record) := inferInstanceAs (Decidable (_ ∧ _ ∧ _))

/-- Whether a record completes its transaction. -/
def completes (record : NativeRecord) : Bool :=
  record.boundary = .commit || record.boundary = .singleEvent

/-- The event of a record enters its transaction, which is open. -/
def enter (opened : TransactionReconstructor) (tx : CDCTransaction) :
    Except PyRaised (Option CDCTransaction) × TransactionReconstructor :=
  match tx.addEvent (eventOf opened.identity record) with
  | .error e => (.error e, opened)
  | .ok tx =>
    let total := opened.totalEventsBuffered + 1
    if completes record then
      let tx := { tx with commitPosition := record.position }
      match tx.markCommit with
      | .error e => (.error e, { opened with
          activeTransactions := opened.activeTransactions.set record.txId tx
          totalEventsBuffered := total })
      | .ok tx => (.ok (some tx), { opened with
          activeTransactions := opened.activeTransactions.erase record.txId
          totalEventsBuffered := total - tx.events.length
          committedTransactions := opened.committedTransactions ++ [tx] })
    else (.ok none, { opened with
      activeTransactions := opened.activeTransactions.set record.txId tx
      totalEventsBuffered := total })

/-- `process_native_record`, with the state it leaves. -/
def processNativeRecord : Except PyRaised (Option CDCTransaction) × TransactionReconstructor :=
  if ¬ r.Own record then
    (.error (applyFailure r.identity .transactionCorruption .dataIntegrityRisk
      ("[IDENTITY CONTAMINATION] Cross-run event rejected in transaction '" ++ record.txId ++
        "'. Expected run '" ++ r.identity.runId ++ "', got '" ++
        (record.recordIdentity.getD r.identity).runId ++ "'.")), r)
  else if r.hardEventLimit ≤ r.totalEventsBuffered then
    (.error (applyFailure r.identity .durableBufferFailure .pausable
      ("[RESOURCE EXHAUSTION] Hard event buffer limit reached (" ++ intText r.totalEventsBuffered ++ "/" ++
        intText r.hardEventLimit ++ "). Downstream consumer stalled.")), r)
  else if record.boundary = .abort then
    match r.activeTransactions.get? record.txId with
    | none => (.ok none, r)
    | some tx =>
      (tx.markAbort.map fun _ => none, { r with
        activeTransactions := r.activeTransactions.erase record.txId
        totalEventsBuffered := r.totalEventsBuffered - tx.events.length })
  else
    let tx := r.transaction record
    let opened := { r with activeTransactions := r.activeTransactions.set record.txId tx }
    if record.boundary = .begin then (.ok none, opened) else enter record opened tx

/-! ## What is held -/

/-- Whether a record ends its transaction. -/
def ends (record : NativeRecord) : Bool := completes record || record.boundary = .abort

/-- The records of a transaction since its last start, that is after the last one that ended it, without
those that only begin it. -/
def held (txId : String) (accepted : List NativeRecord) : List NativeRecord :=
  ((accepted.filter fun record => record.txId = txId).rtakeWhile fun record => !ends record).filter
    fun record => record.boundary ≠ .begin

/-- The number of events in open transactions. -/
def heldEvents (d : PyDict CDCTransaction) : ℕ := (d.items.map fun item => item.2.events.length).sum

/-- The events of an open transaction; none when it is not open. -/
def openEvents (d : PyDict CDCTransaction) (txId : String) : List CDCEvent :=
  ((d.get? txId).map CDCTransaction.events).getD []

theorem heldEvents_erase (d : PyDict CDCTransaction) (txId : String) :
    heldEvents d = heldEvents (d.erase txId) + (openEvents d txId).length := by
  rw [openEvents]
  cases htx : d.get? txId with
  | none => rw [heldEvents, heldEvents, d.items_erase_of_none htx, Option.map_none, Option.getD_none,
      List.length_nil, Nat.add_zero]
  | some tx =>
    rw [heldEvents, heldEvents, ((d.perm_erase htx).map _).sum_eq, List.map_cons, List.sum_cons, add_comm]
    rfl

theorem heldEvents_set (d : PyDict CDCTransaction) (txId : String) (tx : CDCTransaction) :
    heldEvents (d.set txId tx) = heldEvents (d.erase txId) + tx.events.length := by
  rw [heldEvents_erase, openEvents, PyDict.get?_set, heldEvents, PyDict.items_erase_set]
  rfl

theorem held_concat (txId : String) (accepted : List NativeRecord) (record : NativeRecord) :
    held txId (accepted ++ [record]) =
      if record.txId ≠ txId then held txId accepted
      else if ends record then []
      else if record.boundary = .begin then held txId accepted
      else held txId accepted ++ [record] := by
  rw [held, List.filter_append]
  split_ifs with hother hends hbegin
  · rw [List.filter_singleton, decide_eq_false hother]
    simp [held]
  · rw [List.filter_singleton, decide_eq_true (not_not.mp hother)]
    simp [hends]
  · rw [List.filter_singleton, decide_eq_true (not_not.mp hother)]
    simp [hends, hbegin, held]
  · rw [List.filter_singleton, decide_eq_true (not_not.mp hother)]
    simp [hends, hbegin, held]

/-! ## Runs -/

/-- A reconstructor with the records it has accepted and the transactions it has returned. -/
structure Run where
  reconstructor : TransactionReconstructor
  accepted : List NativeRecord
  returned : List CDCTransaction

/-- A run before its first record. -/
def Run.start (identity : CDCEventIdentity) (maxBufferedEvents : ℤ) : Run :=
  ⟨new identity maxBufferedEvents, [], []⟩

/-- The run after one more record. -/
def Run.process (s : Run) (record : NativeRecord) : Run :=
  match s.reconstructor.processNativeRecord record with
  | (.error _, r) => { s with reconstructor := r }
  | (.ok answer, r) => ⟨r, s.accepted ++ [record], s.returned ++ answer.toList⟩

/-- What is returned for a record: nothing unless it completes its transaction, and then the events held for
it and that of the record, at the position of the record. -/
def Returned (identity : CDCEventIdentity) (accepted : List NativeRecord) (record : NativeRecord) :
    Option CDCTransaction → Prop
  | none => completes record = false
  | some tx => completes record = true ∧ tx.txId = record.txId ∧ tx.identity = identity ∧
      tx.commitPosition = record.position ∧ tx.isCommitted = true ∧ tx.isAborted = false ∧
      tx.events = (held record.txId accepted ++ [record]).map (eventOf identity)

/-- The open transactions hold the events of the accepted records, and all are counted. -/
structure Tracks (identity : CDCEventIdentity) (maxBufferedEvents : ℤ) (s : Run) : Prop where
  identity_eq : s.reconstructor.identity = identity
  limit_eq : s.reconstructor.maxBufferedEvents = maxBufferedEvents
  events : ∀ txId, openEvents s.reconstructor.activeTransactions txId =
    (held txId s.accepted).map (eventOf identity)
  unfinished : ∀ txId tx, s.reconstructor.activeTransactions.get? txId = some tx →
    tx.txId = txId ∧ tx.identity = identity ∧ tx.isCommitted = false ∧ tx.isAborted = false
  total : s.reconstructor.totalEventsBuffered = heldEvents s.reconstructor.activeTransactions
  committed : s.reconstructor.committedTransactions = s.returned

variable {identity : CDCEventIdentity} {maxBufferedEvents : ℤ} {s : Run} {record : NativeRecord}

theorem Tracks.start : Tracks identity maxBufferedEvents (.start identity maxBufferedEvents) :=
  ⟨rfl, rfl, fun _ => rfl, fun _ _ htx => absurd htx (Option.some_ne_none _).symm, rfl, rfl⟩

/-- The transaction of a record is unfinished and has the events held for it. -/
theorem Tracks.transaction (h : Tracks identity maxBufferedEvents s) (record : NativeRecord) :
    (s.reconstructor.transaction record).txId = record.txId ∧
      (s.reconstructor.transaction record).identity = identity ∧
      (s.reconstructor.transaction record).isCommitted = false ∧
      (s.reconstructor.transaction record).isAborted = false ∧
      (s.reconstructor.transaction record).events =
        openEvents s.reconstructor.activeTransactions record.txId := by
  rw [TransactionReconstructor.transaction, openEvents]
  cases htx : s.reconstructor.activeTransactions.get? record.txId with
  | none => exact ⟨rfl, h.identity_eq, rfl, rfl, rfl⟩
  | some tx =>
    obtain ⟨hid, hidentity, hcommitted, haborted⟩ := h.unfinished _ _ htx
    exact ⟨hid, hidentity, hcommitted, haborted, rfl⟩

theorem openEvents_set (d : PyDict CDCTransaction) (key txId : String) (tx : CDCTransaction) :
    openEvents (d.set key tx) txId = if txId = key then tx.events else openEvents d txId := by
  rw [openEvents, openEvents]
  split_ifs with htx
  · rw [htx, PyDict.get?_set]
    rfl
  · rw [PyDict.get?_set_of_ne _ _ htx]

theorem openEvents_erase (d : PyDict CDCTransaction) (key txId : String) :
    openEvents (d.erase key) txId = if txId = key then [] else openEvents d txId := by
  rw [openEvents, openEvents, PyDict.get?_erase]
  split_ifs <;> rfl

/-- A record leaves its transaction open. -/
theorem Tracks.put (h : Tracks identity maxBufferedEvents s) (tx : CDCTransaction) {total : ℤ}
    (htx : tx.txId = record.txId ∧ tx.identity = identity ∧ tx.isCommitted = false ∧ tx.isAborted = false)
    (hevents : tx.events = (held record.txId (s.accepted ++ [record])).map (eventOf identity))
    (htotal : total + (openEvents s.reconstructor.activeTransactions record.txId).length =
      s.reconstructor.totalEventsBuffered + tx.events.length) :
    Tracks identity maxBufferedEvents ⟨{ s.reconstructor with
      activeTransactions := s.reconstructor.activeTransactions.set record.txId tx
      totalEventsBuffered := total }, s.accepted ++ [record], s.returned⟩ where
  identity_eq := h.identity_eq
  limit_eq := h.limit_eq
  events txId := by
    rw [openEvents_set]
    split_ifs with hid
    · rw [hid, hevents]
    · rw [h.events, held_concat, if_pos (Ne.symm hid)]
  unfinished txId other hother := by
    by_cases hid : txId = record.txId
    · rw [hid, PyDict.get?_set, Option.some.injEq] at hother
      rw [hid, ← hother]
      exact htx
    · rw [PyDict.get?_set_of_ne _ _ hid] at hother
      exact h.unfinished txId other hother
  total := by
    have hold := heldEvents_erase s.reconstructor.activeTransactions record.txId
    have hcount := h.total
    rw [heldEvents_set]
    push_cast
    omega
  committed := h.committed

/-- A record ends its transaction. -/
theorem Tracks.drop (h : Tracks identity maxBufferedEvents s) (answer : Option CDCTransaction) (total : ℤ)
    (hends : ends record = true)
    (htotal : total + (openEvents s.reconstructor.activeTransactions record.txId).length =
      s.reconstructor.totalEventsBuffered) :
    Tracks identity maxBufferedEvents ⟨{ s.reconstructor with
      activeTransactions := s.reconstructor.activeTransactions.erase record.txId
      totalEventsBuffered := total
      committedTransactions := s.reconstructor.committedTransactions ++ answer.toList },
      s.accepted ++ [record], s.returned ++ answer.toList⟩ where
  identity_eq := h.identity_eq
  limit_eq := h.limit_eq
  events txId := by
    rw [openEvents_erase, held_concat]
    by_cases hid : txId = record.txId
    · rw [if_pos hid, if_neg (not_not.mpr hid.symm), if_pos hends, List.map_nil]
    · rw [if_neg hid, h.events, if_pos (Ne.symm hid)]
  unfinished txId other hother := by
    rw [PyDict.get?_erase] at hother
    split_ifs at hother with hid
    exact h.unfinished txId other hother
  total := by
    have hold := heldEvents_erase s.reconstructor.activeTransactions record.txId
    have hcount := h.total
    push_cast at *
    omega
  committed := by rw [h.committed]

/-- Whether a record is accepted. -/
def Accepts (r : TransactionReconstructor) (record : NativeRecord) : Prop :=
  r.Own record ∧ r.totalEventsBuffered < r.hardEventLimit

theorem processNativeRecord_of_not_accepts {r : TransactionReconstructor} (h : ¬ r.Accepts record) :
    ∃ e, r.processNativeRecord record = (.error e, r) := by
  rw [processNativeRecord]
  by_cases hown : r.Own record
  · rw [if_neg (not_not.mpr hown), if_pos (not_lt.mp fun hroom => h ⟨hown, hroom⟩)]
    exact ⟨_, rfl⟩
  · rw [if_pos hown]
    exact ⟨_, rfl⟩

/-- Only an event that does not complete its transaction raises the count, and leaves a transaction open. -/
def Counts (record : NativeRecord) (r r' : TransactionReconstructor) : Prop :=
  if record.boundary = .event then
    r'.totalEventsBuffered = r.totalEventsBuffered + 1 ∧ (r'.activeTransactions.get? record.txId).isSome
  else r'.totalEventsBuffered ≤ r.totalEventsBuffered

/-- **An accepted record.**  What is returned for it, and what is open and counted after it. -/
theorem Tracks.process (h : Tracks identity maxBufferedEvents s)
    (haccepts : s.reconstructor.Accepts record) :
    ∃ answer r, s.reconstructor.processNativeRecord record = (.ok answer, r) ∧
      Returned identity s.accepted record answer ∧ Counts record s.reconstructor r ∧
      Tracks identity maxBufferedEvents ⟨r, s.accepted ++ [record], s.returned ++ answer.toList⟩ := by
  obtain ⟨hid, hidentity, hcommitted, haborted, hevents⟩ := h.transaction record
  have hsame := h.identity_eq
  have htotal := h.total
  have hheld := held_concat record.txId s.accepted record
  rw [if_neg (not_not.mpr rfl)] at hheld
  rw [processNativeRecord, if_neg (not_not.mpr haccepts.1), if_neg (not_le.mpr haccepts.2)]
  by_cases habort : record.boundary = .abort
  · have hends : ends record = true := by simp [ends, habort]
    have hcompletes : completes record = false := by simp [completes, habort]
    rw [if_pos habort]
    cases htx : s.reconstructor.activeTransactions.get? record.txId with
    | none =>
      have hnone : openEvents s.reconstructor.activeTransactions record.txId = [] := by
        rw [openEvents, htx]
        rfl
      have hsame : s.reconstructor.activeTransactions.erase record.txId = s.reconstructor.activeTransactions :=
        PyDict.ext (PyDict.items_erase_of_none _ htx)
      have hdrop := h.drop none s.reconstructor.totalEventsBuffered hends (by simp [hnone])
      rw [hsame, Option.toList_none, List.append_nil] at hdrop
      exact ⟨none, _, rfl, hcompletes, by simp [Counts, habort], hdrop⟩
    | some tx =>
      have hopen : openEvents s.reconstructor.activeTransactions record.txId = tx.events := by
        rw [openEvents, htx]
        rfl
      have hdrop := h.drop none (s.reconstructor.totalEventsBuffered - tx.events.length) hends
        (by rw [hopen]; omega)
      rw [Option.toList_none, List.append_nil] at hdrop
      refine ⟨none, _, ?_, hcompletes, by simp [Counts, habort], hdrop⟩
      simp [CDCTransaction.markAbort, (h.unfinished _ _ htx).2.2.1, Except.map]
  · rw [if_neg habort]
    by_cases hbegin : record.boundary = .begin
    · have hends : ends record = false := by simp [ends, completes, hbegin]
      rw [hends, if_neg Bool.false_ne_true, if_pos hbegin] at hheld
      refine ⟨none, _, if_pos hbegin, by simp [Returned, completes, hbegin], by simp [Counts, hbegin], ?_⟩
      rw [Option.toList_none, List.append_nil]
      refine h.put _ ⟨hid, hidentity, hcommitted, haborted⟩ ?_ ?_
      · rw [hevents, hheld, h.events]
      · rw [hevents]
    · have hends : ends record = completes record := by simp [ends, habort]
      have hentered : (s.reconstructor.transaction record).events ++ [eventOf identity record] =
          (held record.txId s.accepted ++ [record]).map (eventOf identity) := by
        rw [hevents, h.events, List.map_append, List.map_singleton]
      have hadd : (s.reconstructor.transaction record).addEvent (eventOf s.reconstructor.identity record) =
          .ok { s.reconstructor.transaction record with
            events := (s.reconstructor.transaction record).events ++ [eventOf identity record] } := by
        simp [CDCTransaction.addEvent, hcommitted, haborted, hidentity, hsame, eventOf]
      simp only [if_neg hbegin, enter, hadd]
      set entered : CDCTransaction := { s.reconstructor.transaction record with
        events := (s.reconstructor.transaction record).events ++ [eventOf identity record] } with hdef
      have hlength : entered.events.length =
          (openEvents s.reconstructor.activeTransactions record.txId).length + 1 := by
        rw [hdef, ← hevents, List.length_append, List.length_singleton]
      by_cases hcompletes : completes record = true
      · have hdrop := h.drop
          (some { entered with commitPosition := record.position, isCommitted := true })
          (s.reconstructor.totalEventsBuffered + 1 - entered.events.length) (hends.trans hcompletes)
          (by omega)
        have hevent : record.boundary ≠ .event := fun hevent => by simp [completes, hevent] at hcompletes
        refine ⟨_, _, ?_, ?_, ?_, hdrop⟩
        · simp only [hcompletes, if_true, CDCTransaction.markCommit, hdef, haborted]
          simp [PyDict.ext_iff, PyDict.items_erase_set]
        · exact ⟨hcompletes, hid, hidentity, rfl, rfl, haborted, hentered⟩
        · rw [Counts, if_neg hevent]
          show _ + 1 - (entered.events.length : ℤ) ≤ _
          omega
      · rw [hends, if_neg hcompletes, if_neg hbegin] at hheld
        rw [if_neg hcompletes]
        have hevent : record.boundary = .event := by
          cases hboundary : record.boundary <;> simp_all [completes]
        refine ⟨none, _, rfl, by simpa [Returned] using hcompletes, by simp [Counts, hevent], ?_⟩
        rw [Option.toList_none, List.append_nil, PyDict.set_set]
        exact h.put entered ⟨hid, hidentity, hcommitted, haborted⟩ (hheld ▸ hentered) (by omega)

/-- **All runs** keep what is open and counted. -/
theorem Tracks.run (h : Tracks identity maxBufferedEvents s) (log : List NativeRecord) :
    Tracks identity maxBufferedEvents (log.foldl Run.process s) := by
  induction log generalizing s with
  | nil => exact h
  | cons record log ih =>
    refine ih ?_
    by_cases haccepts : s.reconstructor.Accepts record
    · obtain ⟨answer, r, hprocess, -, -, htracks⟩ := h.process haccepts
      rwa [Run.process, hprocess]
    · obtain ⟨e, hprocess⟩ := processNativeRecord_of_not_accepts haccepts
      rwa [Run.process, hprocess]

theorem process_of_not_accepts (h : ¬ s.reconstructor.Accepts record) : s.process record = s := by
  obtain ⟨e, hprocess⟩ := processNativeRecord_of_not_accepts h
  rw [Run.process, hprocess]

theorem Tracks.total_process_le (h : Tracks identity maxBufferedEvents s)
    (hle : s.reconstructor.totalEventsBuffered ≤ max 0 (maxBufferedEvents * 2)) :
    (s.process record).reconstructor.totalEventsBuffered ≤ max 0 (maxBufferedEvents * 2) := by
  by_cases haccepts : s.reconstructor.Accepts record
  · obtain ⟨answer, r, hprocess, -, hcounts, -⟩ := h.process haccepts
    have hroom := haccepts.2
    rw [hardEventLimit, h.limit_eq] at hroom
    rw [Counts] at hcounts
    rw [Run.process, hprocess]
    dsimp only
    split_ifs at hcounts
    · omega
    · omega
  · rwa [process_of_not_accepts haccepts]

/-- **The buffer.**  It never holds more than the limit, and once it holds as much nothing changes any
more. -/
theorem heldEvents_le (identity : CDCEventIdentity) (maxBufferedEvents : ℤ) (log : List NativeRecord) :
    let s := log.foldl Run.process (.start identity maxBufferedEvents)
    heldEvents s.reconstructor.activeTransactions ≤ max 0 (maxBufferedEvents * 2) ∧
      (heldEvents s.reconstructor.activeTransactions = max 0 (maxBufferedEvents * 2) →
        ∀ records : List NativeRecord, records.foldl Run.process s = s) := by
  have hbound : ∀ (log : List NativeRecord) (s : Run), Tracks identity maxBufferedEvents s →
      s.reconstructor.totalEventsBuffered ≤ max 0 (maxBufferedEvents * 2) →
      (log.foldl Run.process s).reconstructor.totalEventsBuffered ≤ max 0 (maxBufferedEvents * 2) := by
    intro log
    induction log with
    | nil => exact fun _ _ hle => hle
    | cons record log ih => exact fun s h hle => ih _ (h.run [record]) (h.total_process_le hle)
  intro s
  have h : Tracks identity maxBufferedEvents s := Tracks.start.run log
  refine ⟨h.total ▸ hbound log _ Tracks.start (le_max_left _ _), fun hfull records => ?_⟩
  induction records with
  | nil => rfl
  | cons record records ih =>
    have hrejects : ¬ s.reconstructor.Accepts record := by
      rintro ⟨-, hroom⟩
      rw [hardEventLimit, h.limit_eq, h.total] at hroom
      omega
    rw [List.foldl_cons, process_of_not_accepts hrejects, ih]

/-! ## Ending a transaction -/

/-- Every record that commits or aborts an open transaction, of the own identity, is accepted. -/
def Drains (r : TransactionReconstructor) : Prop :=
  ∀ record, (r.activeTransactions.get? record.txId).isSome →
    record.boundary = .commit ∨ record.boundary = .abort → r.Own record →
    ∃ answer, (r.processNativeRecord record).1 = .ok answer

/-- The reconstructor as a transition system; no call is refused. -/
def recordStep (r : TransactionReconstructor) (record : NativeRecord) : Option TransactionReconstructor :=
  some (r.processNativeRecord record).2

/-- An event that is not yet the last of its transaction does not fill the buffer. -/
def RoomFor (r : TransactionReconstructor) (record : NativeRecord) : Prop :=
  record.boundary = .event → r.Own record → r.totalEventsBuffered + 1 ≠ r.hardEventLimit

instance (r : TransactionReconstructor) (record : NativeRecord) : Decidable (r.RoomFor record) :=
  inferInstanceAs (Decidable (_ → _ → _))

/-- A record that aborts a transaction. -/
def abortOf (txId : String) : NativeRecord where
  txId := txId
  sourceEngine := "ORACLE"
  sourceDatabase := "db"
  sourceSchema := "s"
  sourceTable := "t"
  operation := .insert
  position := samplePosition 1
  boundary := .abort
  ambient := sampleAmbient

/-- Open transactions can be ended while the buffer is not full. -/
theorem Tracks.drains_iff (h : Tracks identity maxBufferedEvents s) :
    s.reconstructor.Drains ↔ (∃ txId, (s.reconstructor.activeTransactions.get? txId).isSome) →
      s.reconstructor.totalEventsBuffered < s.reconstructor.hardEventLimit := by
  constructor
  · rintro hdrains ⟨txId, hopen⟩
    obtain ⟨answer, hanswer⟩ := hdrains (abortOf txId) hopen (.inr rfl) ⟨rfl, rfl, rfl⟩
    by_contra hfull
    have hrejects : ¬ s.reconstructor.Accepts (abortOf txId) := fun haccepts => hfull haccepts.2
    obtain ⟨e, hprocess⟩ := processNativeRecord_of_not_accepts hrejects
    rw [hprocess] at hanswer
    cases hanswer
  · intro hroom record hopen _ hown
    have haccepts : s.reconstructor.Accepts record := ⟨hown, hroom ⟨_, hopen⟩⟩
    obtain ⟨answer, r, hprocess, -⟩ := h.process haccepts
    exact ⟨answer, by rw [hprocess]⟩

/-- **A record** leaves transactions that cannot be ended precisely when it is an event that fills the
buffer. -/
theorem Tracks.drains_process_iff (h : Tracks identity maxBufferedEvents s)
    (hdrains : s.reconstructor.Drains) (record : NativeRecord) :
    (s.reconstructor.processNativeRecord record).2.Drains ↔ s.reconstructor.RoomFor record := by
  by_cases haccepts : s.reconstructor.Accepts record
  · obtain ⟨answer, r, hprocess, -, hcounts, htracks⟩ := h.process haccepts
    have hroom := haccepts.2
    have hlimit : r.hardEventLimit = s.reconstructor.hardEventLimit := by
      rw [hardEventLimit, hardEventLimit, htracks.limit_eq, h.limit_eq]
    rw [hprocess, htracks.drains_iff, hlimit, RoomFor]
    rw [Counts] at hcounts
    split_ifs at hcounts with hevent
    · rw [hcounts.1]
      constructor
      · intro hleft _ _
        exact (hleft ⟨_, hcounts.2⟩).ne
      · intro hne _
        exact lt_of_le_of_ne hroom (hne hevent haccepts.1)
    · exact iff_of_true (fun _ => hcounts.trans_lt hroom) fun h => absurd h hevent
  · obtain ⟨e, hprocess⟩ := processNativeRecord_of_not_accepts haccepts
    rw [hprocess]
    refine iff_of_true hdrains fun _ hown hfills => haccepts ⟨hown, ?_⟩
    omega

/-- **Every open transaction can be ended** along a run precisely when no event fills the buffer. -/
theorem drains_along_iff (identity : CDCEventIdentity) (maxBufferedEvents : ℤ) (log : List NativeRecord) :
    HoldsAlong recordStep Drains (new identity maxBufferedEvents) log ↔
      MeetsAlong recordStep RoomFor (new identity maxBufferedEvents) log := by
  refine holdsAlong_iff_meetsAlong
    (I := fun r => ∃ accepted returned, Tracks identity maxBufferedEvents ⟨r, accepted, returned⟩) ?_ ?_
    ⟨[], [], Tracks.start⟩ (Tracks.start.drains_iff.mpr ?_) log
  · rintro r record r' ⟨accepted, returned, h⟩ hstep
    cases hstep
    by_cases haccepts : r.Accepts record
    · obtain ⟨answer, r', hprocess, -, -, htracks⟩ := h.process haccepts
      exact ⟨_, _, by rwa [hprocess]⟩
    · obtain ⟨e, hprocess⟩ := processNativeRecord_of_not_accepts haccepts
      exact ⟨_, _, by rwa [hprocess]⟩
  · rintro r record r' ⟨accepted, returned, h⟩ hdrains hstep
    cases hstep
    exact h.drains_process_iff hdrains record
  · rintro ⟨txId, hopen⟩
    cases hopen

/-- Two events of a transaction fill a buffer for one event: its commit is rejected. -/
theorem not_drains_of_full : ¬ HoldsAlong recordStep Drains (new sampleIdentity 1)
      [{ abortOf "tx" with boundary := .event }, { abortOf "tx" with boundary := .event }] := by
  intro h
  obtain ⟨answer, hanswer⟩ := h.finish rfl { abortOf "tx" with boundary := .commit } rfl (.inl rfl)
    ⟨rfl, rfl, rfl⟩
  cases hanswer

end TransactionReconstructor

end CDC

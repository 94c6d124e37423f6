/-
# The totals of the durable buffer

The counters `_buffered_events` and `_buffered_bytes` of `cdc/buffering/durable_buffer.py`, adjusted by
`append_transaction`, `remove_acknowledged_transaction` and `recover_from_wal`.  A call that raises leaves
the state it has reached; a recovery reads whatever entries the log on disk gives at that time.

* `Totals.perform` : every call keeps the counters the totals of the queue;
* `countsQueue_along` : so do all runs, no clamp changes a value, and no append goes beyond a limit.
-/
import Akaal.DurableBuffer
import Akaal.TransitionRun

open TransitionRun

namespace CDC

namespace DurableCDCBuffer

variable (rt : DigestRuntime)

/-! ## Calls that may raise -/

/-- The check of `remove_acknowledged_transaction` on the position of an entry. -/
def checkAcknowledged (s : DurableCDCBuffer) (txId : String) (entry : BufferEntry) :
    Option CDCSourcePosition → Except PyRaised Unit
  | none => .ok ()
  | some ack => do
      let commitPos ← parseSourcePosition (← getItem entry.transactionData "commit_position")
      if ← commitPos.isAfter ack then
        .error (s.failure .bufferCorruption .dataIntegrityRisk
          ("[UNSAFE RECLAMATION] Transaction '" ++ txId ++ "' position " ++ commitPos.str ++
            " exceeds acknowledged position " ++ ack.str ++ "."))
      else .ok ()

/-- `remove_acknowledged_transaction`, with the state it leaves: the entry is out of the queue before
its size is taken again. -/
def performRemove (s : DurableCDCBuffer) (txId : String) (workerLastAckPos : Option CDCSourcePosition) :
    DurableCDCBuffer × Except PyRaised Bool :=
  match s.inMemoryQueue.find? fun entry => entry.txId == txId with
  | none => (s, .ok false)
  | some entry =>
    match s.checkAcknowledged txId entry workerLastAckPos with
    | .error e => (s, .error e)
    | .ok () =>
      let popped := { s with
        inMemoryQueue := s.inMemoryQueue.eraseP fun entry => entry.txId == txId }
      match entryBytes entry with
      | .error e => (popped, .error e)
      | .ok bytes => ({ popped with
          bufferedEvents := max 0 (s.bufferedEvents - eventCount entry.transactionData)
          bufferedBytes := max 0 (s.bufferedBytes - bytes) }, .ok true)

/-- The loop of `recover_from_wal` over the entries of the log, with the state it leaves. -/
def recoverLoop : DurableCDCBuffer → List BufferEntry → DurableCDCBuffer × Except PyRaised Unit
  | s, [] => (s, .ok ())
  | s, entry :: entries =>
    match s.recoverRecord rt entry with
    | .error e => (s, .error e)
    | .ok s' => recoverLoop s' entries

/-- `recover_from_wal`, from what the log gives. -/
def recoverAll (s : DurableCDCBuffer) : Except PyRaised (List BufferEntry) →
    DurableCDCBuffer × Except PyRaised Unit
  | .error e => (s, .error e)
  | .ok entries =>
    { s with inMemoryQueue := [], bufferedEvents := 0, bufferedBytes := 0 }.recoverLoop rt entries

/-! ## Runs -/

/-- A call of the buffer, with what it finds outside it: the time and whether the log takes the record,
or what the log gives. -/
inductive BufferCall where
  | append (tx : CDCTransaction) (fencingEpoch : ℤ) (now : PyFloat) (written : Except PyRaised Unit)
  | remove (txId : String) (workerLastAckPos : Option CDCSourcePosition)
  | recover (replayed : Except PyRaised (List BufferEntry))

/-- What the call does to the buffer, and the exception it raises, if any. -/
def perform (s : DurableCDCBuffer) : BufferCall → DurableCDCBuffer × Except PyRaised Unit
  | .append tx fencingEpoch now written =>
    match s.appendTransaction rt tx fencingEpoch now with
    | .error e => (s, .error e)
    | .ok appended => if let .error e := written then (s, .error e) else (appended, .ok ())
  | .remove txId workerLastAckPos =>
    ((s.performRemove txId workerLastAckPos).1,
      (s.performRemove txId workerLastAckPos).2.map fun _ => ())
  | .recover replayed => s.recoverAll rt replayed

/-- The buffer as a transition system; no call is refused. -/
def callStep (s : DurableCDCBuffer) (call : BufferCall) : Option DurableCDCBuffer :=
  some (s.perform rt call).1

/-- A buffer before its first recovery. -/
def unrecovered (identity : CDCEventIdentity) (maxBufferedEvents maxBufferBytes : ℤ)
    (hmacKey : List UInt8) : DurableCDCBuffer :=
  ⟨identity, maxBufferedEvents, maxBufferBytes, hmacKey, [], [], 0, 0⟩

/-! ## Totals -/

/-- `len(json.dumps(entry))`, for an entry that has a size. -/
def entrySize (entry : BufferEntry) : ℤ :=
  match entryBytes entry with
  | .ok bytes => bytes
  | .error _ => 0

/-- The number of events of a queue. -/
def totalEvents (queue : List BufferEntry) : ℤ :=
  (queue.map fun entry => eventCount entry.transactionData).sum

/-- The serialized size of a queue. -/
def totalBytes (queue : List BufferEntry) : ℤ := (queue.map entrySize).sum

/-- The counters are the totals of the queue, every entry of which can be serialized. -/
structure Totals (s : DurableCDCBuffer) : Prop where
  serialized : ∀ entry ∈ s.inMemoryQueue, ∃ bytes, entryBytes entry = .ok bytes
  events : s.bufferedEvents = totalEvents s.inMemoryQueue
  bytes : s.bufferedBytes = totalBytes s.inMemoryQueue

/-- The clamps of a removal change nothing. -/
def Unclamped (s : DurableCDCBuffer) : BufferCall → Prop
  | .remove txId _ =>
    ∀ entry, s.inMemoryQueue.find? (fun entry => entry.txId == txId) = some entry →
      max 0 (s.bufferedEvents - eventCount entry.transactionData) =
          s.bufferedEvents - eventCount entry.transactionData ∧
        ∀ bytes, entryBytes entry = .ok bytes →
          max 0 (s.bufferedBytes - bytes) = s.bufferedBytes - bytes
  | _ => True

/-- An append that returns leaves the totals within the limits. -/
def Bounded (rt : DigestRuntime) (s : DurableCDCBuffer) : BufferCall → Prop
  | .append tx fencingEpoch now written =>
    (s.perform rt (.append tx fencingEpoch now written)).2 = .ok () →
      totalEvents (s.perform rt (.append tx fencingEpoch now written)).1.inMemoryQueue ≤
          s.hardEventLimit ∧
        totalBytes (s.perform rt (.append tx fencingEpoch now written)).1.inMemoryQueue ≤
          s.maxBufferBytes
  | _ => True

/-- What a call does to the counters. -/
structure CountsQueue (rt : DigestRuntime) (s : DurableCDCBuffer) (call : BufferCall) : Prop where
  totals : (s.perform rt call).1.Totals
  unclamped : s.Unclamped call
  bounded : s.Bounded rt call

variable {rt} {s s' : DurableCDCBuffer} {entry : BufferEntry}

theorem eventCount_nonneg (txDict : PyItems) : 0 ≤ eventCount txDict := by
  rw [eventCount]
  split
  · exact Int.natCast_nonneg _
  · exact le_refl 0

theorem eventCount_toDict (tx : CDCTransaction) : eventCount tx.toDict = tx.events.length := by
  simp [eventCount, eventsOf, CDCTransaction.toDict, List.lookup]

theorem entrySize_nonneg (entry : BufferEntry) : 0 ≤ entrySize entry := by
  rw [entrySize]
  split
  · next bytes h =>
      rw [entryBytes] at h
      cases hdumps : jsonDumps false entry.toValue with
      | error e =>
        rw [hdumps] at h
        cases h
      | ok text =>
        rw [hdumps] at h
        cases h
        exact Int.natCast_nonneg _
  · exact le_refl 0

theorem entrySize_eq {bytes : ℤ} (h : entryBytes entry = .ok bytes) : entrySize entry = bytes := by
  rw [entrySize, h]

theorem sum_of_find? {α : Type} {p : α → Bool} {f : α → ℤ} {l : List α} {a : α}
    (h : l.find? p = some a) : (l.map f).sum = f a + ((l.eraseP p).map f).sum := by
  induction l with
  | nil => cases h
  | cons b l ih =>
    by_cases hb : p b = true
    · rw [List.find?_cons_of_pos hb, Option.some.injEq] at h
      rw [List.eraseP_cons_of_pos hb, ← h, List.map_cons, List.sum_cons]
    · rw [List.find?_cons_of_neg hb] at h
      rw [List.eraseP_cons_of_neg hb, List.map_cons, List.map_cons, List.sum_cons, List.sum_cons,
        ih h]
      ring

theorem sum_map_nonneg {α : Type} {f : α → ℤ} (hf : ∀ a, 0 ≤ f a) (l : List α) :
    0 ≤ (l.map f).sum := by
  apply List.sum_nonneg
  intro x hx
  obtain ⟨a, -, rfl⟩ := List.mem_map.mp hx
  exact hf a

/-! ## Every call keeps the totals -/

/-- An entry at the end of the queue. -/
theorem Totals.concat (hs : s.Totals) {bytes : ℤ} (hbytes : entryBytes entry = .ok bytes)
    (hqueue : s'.inMemoryQueue = s.inMemoryQueue ++ [entry])
    (hevents : s'.bufferedEvents = s.bufferedEvents + eventCount entry.transactionData)
    (htotal : s'.bufferedBytes = s.bufferedBytes + bytes) : s'.Totals := by
  refine ⟨?_, ?_, ?_⟩
  · rw [hqueue]
    intro other hother
    rcases List.mem_append.mp hother with hother | hother
    · exact hs.serialized other hother
    · rw [List.mem_singleton] at hother
      exact ⟨bytes, hother ▸ hbytes⟩
  · rw [hevents, hqueue, hs.events, totalEvents, totalEvents]
    simp
  · rw [htotal, hqueue, hs.bytes, totalBytes, totalBytes]
    simp [entrySize_eq hbytes]

/-- What an append that succeeds does to the counters, and the limits it has checked. -/
theorem appendTransaction_counts {tx : CDCTransaction} {fencingEpoch : ℤ} {now : PyFloat}
    (h : s.appendTransaction rt tx fencingEpoch now = .ok s') :
    ∃ entry bytes, entryBytes entry = .ok bytes ∧ s'.inMemoryQueue = s.inMemoryQueue ++ [entry] ∧
      s'.bufferedEvents = s.bufferedEvents + eventCount entry.transactionData ∧
      s'.bufferedBytes = s.bufferedBytes + bytes ∧
      s'.bufferedEvents ≤ s.hardEventLimit ∧ s'.bufferedBytes ≤ s.maxBufferBytes := by
  unfold appendTransaction at h
  split_ifs at h with _ hevents
  obtain ⟨recordHmac, -, h⟩ := Traversal.bind_eq_ok_iff.mp h
  obtain ⟨bytes, hbytes, h⟩ := Traversal.bind_eq_ok_iff.mp h
  split_ifs at h with hfits
  cases h
  refine ⟨s.entryOf tx fencingEpoch now recordHmac, bytes, hbytes, rfl, ?_, rfl, ?_, ?_⟩
  · rw [entryOf, eventCount_toDict]
  · exact not_lt.mp hevents
  · exact not_lt.mp hfits

theorem recoverRecord_counts (h : s.recoverRecord rt entry = .ok s') (hs : s.Totals) : s'.Totals := by
  rw [recoverRecord] at h
  obtain ⟨expected, -, h⟩ := Traversal.bind_eq_ok_iff.mp h
  split_ifs at h with hexpected
  · cases h
    exact hs
  · obtain ⟨bytes, hbytes, h⟩ := Traversal.bind_eq_ok_iff.mp h
    cases h
    exact hs.concat hbytes rfl rfl rfl

theorem Totals.recoverLoop (hs : s.Totals) (entries : List BufferEntry) :
    (s.recoverLoop rt entries).1.Totals := by
  induction entries generalizing s with
  | nil => exact hs
  | cons entry entries ih =>
    rw [DurableCDCBuffer.recoverLoop]
    cases hrecord : s.recoverRecord rt entry with
    | error e => exact hs
    | ok recovered => exact ih (recoverRecord_counts hrecord hs)

theorem Totals.of_empty (hqueue : s.inMemoryQueue = []) (hevents : s.bufferedEvents = 0)
    (hbytes : s.bufferedBytes = 0) : s.Totals := by
  refine ⟨?_, ?_, ?_⟩
  · rw [hqueue]
    exact fun entry hentry => absurd hentry List.not_mem_nil
  · rw [hevents, hqueue]
    rfl
  · rw [hbytes, hqueue]
    rfl

/-- An entry that is found counts in both totals. -/
theorem Totals.of_find? (hs : s.Totals) {txId : String}
    (hfound : s.inMemoryQueue.find? (fun entry => entry.txId == txId) = some entry) :
    s.bufferedEvents - eventCount entry.transactionData =
        totalEvents (s.inMemoryQueue.eraseP fun entry => entry.txId == txId) ∧
      s.bufferedBytes - entrySize entry =
        totalBytes (s.inMemoryQueue.eraseP fun entry => entry.txId == txId) := by
  constructor
  · rw [hs.events, totalEvents, sum_of_find? hfound, add_sub_cancel_left, totalEvents]
  · rw [hs.bytes, totalBytes, sum_of_find? hfound, add_sub_cancel_left, totalBytes]

/-- **The clamps change no value**: what is taken off is part of the total. -/
theorem Totals.unclamped (hs : s.Totals) (call : BufferCall) : s.Unclamped call := by
  cases call with
  | append tx fencingEpoch now written => trivial
  | recover replayed => trivial
  | remove txId workerLastAckPos =>
    intro entry hfound
    obtain ⟨hevents, hbytes⟩ := hs.of_find? hfound
    constructor
    · rw [hevents]
      exact max_eq_right (sum_map_nonneg (fun _ => eventCount_nonneg _) _)
    · intro bytes hsize
      rw [← entrySize_eq hsize, hbytes]
      exact max_eq_right (sum_map_nonneg entrySize_nonneg _)

theorem Totals.performRemove (hs : s.Totals) (txId : String)
    (workerLastAckPos : Option CDCSourcePosition) :
    (s.performRemove txId workerLastAckPos).1.Totals := by
  rw [DurableCDCBuffer.performRemove]
  cases hfound : s.inMemoryQueue.find? fun entry => entry.txId == txId with
  | none => exact hs
  | some entry =>
    dsimp only
    cases s.checkAcknowledged txId entry workerLastAckPos with
    | error e => exact hs
    | ok _ =>
      obtain ⟨bytes, hbytes⟩ := hs.serialized entry (List.mem_of_find?_eq_some hfound)
      obtain ⟨hclamped, hsize⟩ := hs.unclamped (.remove txId workerLastAckPos) entry hfound
      obtain ⟨htotal, htotalBytes⟩ := hs.of_find? hfound
      rw [hbytes]
      refine ⟨?_, ?_, ?_⟩
      · intro other hother
        exact hs.serialized other (List.mem_of_mem_eraseP hother)
      · exact hclamped.trans htotal
      · rw [entrySize_eq hbytes] at htotalBytes
        exact (hsize bytes hbytes).trans htotalBytes

/-- **Every call keeps the counters the totals of the queue.** -/
theorem Totals.perform (hs : s.Totals) (call : BufferCall) : (s.perform rt call).1.Totals := by
  cases call with
  | append tx fencingEpoch now written =>
    rw [DurableCDCBuffer.perform]
    cases happend : s.appendTransaction rt tx fencingEpoch now with
    | error e => exact hs
    | ok appended =>
      cases written with
      | error e => exact hs
      | ok _ =>
        obtain ⟨entry, bytes, hbytes, hqueue, hevents, htotal, -⟩ :=
          appendTransaction_counts happend
        exact hs.concat hbytes hqueue hevents htotal
  | remove txId workerLastAckPos => exact hs.performRemove txId workerLastAckPos
  | recover replayed =>
    cases replayed with
    | error e => exact hs
    | ok entries => exact Totals.recoverLoop (Totals.of_empty rfl rfl rfl) entries

theorem Totals.bounded (hs : s.Totals) (call : BufferCall) : s.Bounded rt call := by
  cases call with
  | remove txId workerLastAckPos => trivial
  | recover replayed => trivial
  | append tx fencingEpoch now written =>
    intro hok
    have htotals : (s.perform rt (.append tx fencingEpoch now written)).1.Totals := hs.perform _
    rw [← htotals.events, ← htotals.bytes]
    rw [DurableCDCBuffer.perform] at hok ⊢
    cases happend : s.appendTransaction rt tx fencingEpoch now with
    | error e =>
      rw [happend] at hok
      cases hok
    | ok appended =>
      rw [happend] at hok
      cases written with
      | error e => cases hok
      | ok _ =>
        obtain ⟨entry, bytes, -, -, -, -, hevents, hbytes⟩ := appendTransaction_counts happend
        exact ⟨hevents, hbytes⟩

theorem Totals.countsQueue (hs : s.Totals) (call : BufferCall) : CountsQueue rt s call :=
  ⟨hs.perform call, hs.unclamped call, hs.bounded call⟩

/-- **All runs.**  After every sequence of appends, removals and recoveries, whether they return or raise,
the counters are the totals of the queue; no clamp has changed a value and no append that returned has
gone beyond a limit. -/
theorem countsQueue_along (identity : CDCEventIdentity) (maxBufferedEvents maxBufferBytes : ℤ)
    (hmacKey : List UInt8) (calls : List BufferCall) :
    HoldsAlong (callStep rt) Totals
        (unrecovered identity maxBufferedEvents maxBufferBytes hmacKey) calls ∧
      MeetsAlong (callStep rt) (CountsQueue rt)
        (unrecovered identity maxBufferedEvents maxBufferBytes hmacKey) calls := by
  have hstart : (unrecovered identity maxBufferedEvents maxBufferBytes hmacKey).Totals :=
    Totals.of_empty rfl rfl rfl
  have hstep : ∀ s call s', Totals s → callStep rt s call = some s' → Totals s' := by
    intro s call s' hs hcall
    rw [callStep, Option.some.injEq] at hcall
    exact hcall ▸ hs.perform call
  constructor
  · exact HoldsAlong.of_step hstep hstart calls
  · apply meetsAlong_of_meetsAlong (I := Totals) (C := fun _ _ => True) ?_ hstart
      (meetsAlong_of_forall (A := fun _ => True) _ fun _ _ => trivial)
    intro s call s' hs _ hcall
    exact ⟨hs.countsQueue call, hstep s call s' hs hcall⟩

end DurableCDCBuffer

end CDC

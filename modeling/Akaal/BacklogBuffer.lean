/-
# The backlog buffer of change data capture

`akaalEngine/cdc/buffering/backlog.py`, with the queue table of
`akaalEngine/durability/spill/queue_store.py` that it stores its events in.

* `push_of_fits`, `push_of_not_fits` : what `push` does to the queue in memory;
* `pop_cons` : what `pop` does to it;
* `restoreAll_queue` : what a recovery puts into it;
* `restoreAll_eq_ok_iff` : what a recovery returns.

Whether `store_message`, `save_spill_frame` and the deletion of a row succeed is decided outside.
The message ids are numbered in the order in which `uuid4` draws them.
-/
import Akaal.ChangeEvents

open CDC JsonText

namespace EngineCDC

/-! ## The queue table -/

/-- A row of `queue_records`. -/
structure QueueRecord where
  messageId : ℕ
  queueName : String
  sequenceNumber : ℕ
  payload : String

/-- `DurableQueueStore`: the rows of its table, and the number of message ids drawn so far. -/
structure DurableQueueStore where
  records : List QueueRecord
  drawn : ℕ
  message_lt : ∀ r ∈ records, r.messageId < drawn
  message_nodup : (records.map QueueRecord.messageId).Nodup

namespace DurableQueueStore

variable (store : DurableQueueStore)

/-- A table without rows. -/
def empty : DurableQueueStore := ⟨[], 0, by simp, by simp⟩

/-- The rows of a queue. -/
def rowsOf (queueName : String) : List QueueRecord :=
  store.records.filter fun r => r.queueName = queueName

/-- `MAX(sequence_number)` of a queue, 0 when it has no rows. -/
def maxSequence (queueName : String) : ℕ :=
  ((store.rowsOf queueName).map QueueRecord.sequenceNumber).foldr max 0

/-- The row that `store_message` inserts. -/
def newRecord (queueName payload : String) : QueueRecord where
  messageId := store.drawn
  queueName := queueName
  sequenceNumber := store.maxSequence queueName + 1
  payload := payload

/-- `store_message`; the message id it returns is the number of those drawn before. -/
def storeMessage (queueName payload : String) : DurableQueueStore where
  records := store.records ++ [store.newRecord queueName payload]
  drawn := store.drawn + 1
  message_lt := by
    intro r hr
    rcases List.mem_append.mp hr with hr | hr
    · exact (store.message_lt r hr).trans (Nat.lt_succ_self _)
    · rw [List.mem_singleton.mp hr]
      exact Nat.lt_succ_self _
  message_nodup := by
    rw [List.map_append, List.nodup_append]
    refine ⟨store.message_nodup, List.nodup_singleton _, ?_⟩
    rintro _ hm m hm' rfl
    obtain ⟨r, hr, hrm⟩ := List.mem_map.mp hm
    have hlt := store.message_lt r hr
    rw [hrm, List.mem_singleton.mp hm'] at hlt
    exact lt_irrefl _ hlt

/-- `DELETE FROM queue_records` where a row meets a condition. -/
def deleteWhere (p : QueueRecord → Bool) : DurableQueueStore where
  records := store.records.filter fun r => !p r
  drawn := store.drawn
  message_lt := fun r hr => store.message_lt r (List.mem_of_mem_filter hr)
  message_nodup := store.message_nodup.sublist (List.filter_sublist.map _)

/-- The rows of a queue, ordered by their sequence numbers. -/
def select (queueName : String) : List QueueRecord :=
  (store.rowsOf queueName).insertionSort fun r r' => r.sequenceNumber ≤ r'.sequenceNumber

theorem rowsOf_storeMessage (queueName payload : String) :
    (store.storeMessage queueName payload).rowsOf queueName =
      store.rowsOf queueName ++ [store.newRecord queueName payload] := by
  show (store.records ++ [store.newRecord queueName payload]).filter _ = _
  rw [List.filter_append]
  congr 1
  exact List.filter_cons_of_pos (decide_eq_true rfl)

theorem rowsOf_deleteWhere (p : QueueRecord → Bool) (queueName : String) :
    (store.deleteWhere p).rowsOf queueName = (store.rowsOf queueName).filter fun r => !p r := by
  show (store.records.filter _).filter _ = (store.records.filter _).filter _
  rw [List.filter_comm]

theorem sequence_le_maxSequence {queueName : String} {r : QueueRecord}
    (h : r ∈ store.rowsOf queueName) : r.sequenceNumber ≤ store.maxSequence queueName := by
  have hle : ∀ {numbers : List ℕ} {n : ℕ}, n ∈ numbers → n ≤ numbers.foldr max 0 := by
    intro numbers n hn
    induction numbers with
    | nil => cases hn
    | cons m numbers ih =>
      rw [List.foldr_cons]
      rcases List.mem_cons.mp hn with rfl | hn
      · exact le_max_left _ _
      · exact (ih hn).trans (le_max_right _ _)
  exact hle (List.mem_map_of_mem h)

theorem select_of_sorted {queueName : String}
    (h : (store.rowsOf queueName).Pairwise fun r r' => r.sequenceNumber < r'.sequenceNumber) :
    store.select queueName = store.rowsOf queueName :=
  (h.imp fun hlt => hlt.le).insertionSort_eq

end DurableQueueStore

/-- `text LIKE pattern`: `%` stands for any text and `_` for any character; the letters of ASCII are
compared without their case. -/
def like : List Char → List Char → Bool
  | [], text => text.isEmpty
  | c :: pattern, text =>
    if c = '%' then text.tails.any (like pattern)
    else
      match text with
      | [] => false
      | a :: text => (c = '_' || a = c || a.toLower = c.toLower) && like pattern text

/-- `%"event_id": "…"%`; SQLite reads a pattern up to its first null character. -/
def ackPattern (eventId : String) : List Char :=
  ("%\"event_id\": \"" ++ eventId ++ "\"%").toList.takeWhile (· ≠ '\x00')

/-! ## The buffer -/

/-- `CDCBacklogBuffer`; of its durability authority the queue store with its backend and the spill
frames, each as far as the authority has it. -/
structure CDCBacklogBuffer where
  maxMemoryBytes : ℤ
  sessionId : String
  queueStore : Option DurableQueueStore
  spillFrames : Option (List (String × String × String))
  queue : List ChangeEvent
  eventMsgMap : String → Option ℕ
  currentBytes : ℤ
  spilledCount : ℕ

/-- The exceptions of `push`. -/
inductive PushError where
  | notSerializable (exception : PyException)
  | spillFailed
  deriving DecidableEq

/-- The name of the queue of a session. -/
def queueName (sessionId : String) : String := "cdc_backlog_" ++ sessionId

section Bytes

-- `str` of an image
variable (str : PyItems → String)

/-- `len(str(image or ""))`. -/
def imageLength : Option PyItems → ℤ
  | some (item :: items) => (str (item :: items)).length
  | _ => 0

/-- `evt_bytes`. -/
def evtBytes (e : ChangeEvent) : ℤ :=
  imageLength str e.afterImage + imageLength str e.beforeImage + 256

/-- The sum of the sizes of events. -/
def totalBytes (events : List ChangeEvent) : ℤ := (events.map (evtBytes str)).sum

theorem evtBytes_pos (e : ChangeEvent) : 0 < evtBytes str e := by
  have himage : ∀ image, 0 ≤ imageLength str image := by
    intro image
    rcases image with _ | _ | _
    · exact le_rfl
    · exact le_rfl
    · exact Int.natCast_nonneg _
  have hafter := himage e.afterImage
  have hbefore := himage e.beforeImage
  unfold evtBytes
  omega

@[simp] theorem totalBytes_nil : totalBytes str [] = 0 := rfl

@[simp] theorem totalBytes_cons (e : ChangeEvent) (events : List ChangeEvent) :
    totalBytes str (e :: events) = evtBytes str e + totalBytes str events := by
  simp [totalBytes]

@[simp] theorem totalBytes_append (events events' : List ChangeEvent) :
    totalBytes str (events ++ events') = totalBytes str events + totalBytes str events' := by
  simp [totalBytes]

theorem totalBytes_nonneg (events : List ChangeEvent) : 0 ≤ totalBytes str events := by
  induction events with
  | nil => exact le_rfl
  | cons e events ih =>
    have hpos := evtBytes_pos str e
    rw [totalBytes_cons]
    omega

theorem totalBytes_eq_zero_iff (events : List ChangeEvent) :
    totalBytes str events = 0 ↔ events = [] := by
  cases events with
  | nil => simp
  | cons e events =>
    have hpos := evtBytes_pos str e
    have hnonneg := totalBytes_nonneg str events
    rw [totalBytes_cons]
    simp only [reduceCtorEq, iff_false]
    omega

end Bytes

namespace CDCBacklogBuffer

/-- A new buffer. -/
def new (maxMemoryBytes : ℤ) (sessionId : String) (queueStore : Option DurableQueueStore)
    (spillFrames : Option (List (String × String × String))) : CDCBacklogBuffer where
  maxMemoryBytes := maxMemoryBytes
  sessionId := sessionId
  queueStore := queueStore
  spillFrames := spillFrames
  queue := []
  eventMsgMap := fun _ => none
  currentBytes := 0
  spilledCount := 0

variable (str : PyItems → String) (b : CDCBacklogBuffer)

/-- The first part of `push`: the event is stored, unless it cannot be written or `store_message`
raises, which is only logged. -/
def persist (e : ChangeEvent) (stores : Bool) : CDCBacklogBuffer :=
  match b.queueStore, e.payload with
  | some store, .ok payload =>
    if stores then
      { b with
        queueStore := some (store.storeMessage (queueName b.sessionId) payload)
        eventMsgMap := Function.update b.eventMsgMap e.eventId (some store.drawn) }
    else b
  | _, _ => b

/-- Put an event into the queue in memory. -/
def enqueue (e : ChangeEvent) : CDCBacklogBuffer :=
  { b with queue := b.queue ++ [e], currentBytes := b.currentBytes + evtBytes str e }

/-- The spill branch of `push`. -/
def spill (e : ChangeEvent) (frames : List (String × String × String)) (saves : Bool) :
    Except PushError Unit × CDCBacklogBuffer :=
  match e.payload with
  | .error exception => (.error (.notSerializable exception), b)
  | .ok payload =>
    if saves then
      (.ok (), { b with
        spillFrames := some (frames ++ [("cdc_backlog", e.eventId, payload)])
        spilledCount := b.spilledCount + 1 })
    else (.error .spillFailed, b)

/-- `push`. -/
def push (e : ChangeEvent) (stores saves : Bool) : Except PushError Unit × CDCBacklogBuffer :=
  let b := b.persist e stores
  if b.maxMemoryBytes < b.currentBytes + evtBytes str e then
    match b.spillFrames with
    | some frames => b.spill e frames saves
    | none => (.ok (), b.enqueue str e)
  else (.ok (), b.enqueue str e)

/-- `pop`. -/
def pop : Option ChangeEvent × CDCBacklogBuffer :=
  match b.queue with
  | [] => (none, b)
  | e :: queue =>
    (some e, { b with queue := queue, currentBytes := max 0 (b.currentBytes - evtBytes str e) })

-- whether this build of SQLite compares a payload, which is a blob, with a pattern at all
variable (likeMatchesBlobs : Bool)

/-- Whether a row is one of the queue whose payload contains the event id. -/
def ackMatches (sessionId eventId : String) (r : QueueRecord) : Bool :=
  r.queueName = queueName sessionId && likeMatchesBlobs &&
    like (ackPattern eventId) r.payload.toList

/-- The rows that `ack_event` deletes: by the message id, or by the pattern when there is none. -/
def ackDelete (store : DurableQueueStore) (eventId : String) : DurableQueueStore :=
  match b.eventMsgMap eventId with
  | some messageId => store.deleteWhere fun r => r.messageId = messageId
  | none => store.deleteWhere (ackMatches likeMatchesBlobs b.sessionId eventId)

/-- `ack_event`. -/
def ackEvent (eventId : String) (deletes : Bool) : Bool × CDCBacklogBuffer :=
  let forgotten := { b with eventMsgMap := Function.update b.eventMsgMap eventId none }
  match b.queueStore with
  | none => (true, forgotten)
  | some store =>
    if deletes then
      (true, { forgotten with queueStore := some (b.ackDelete likeMatchesBlobs store eventId) })
    else (false, forgotten)

/-- Take over one stored event. -/
def restore (r : QueueRecord) (e : ChangeEvent) : CDCBacklogBuffer :=
  { b.enqueue str e with eventMsgMap := Function.update b.eventMsgMap e.eventId (some r.messageId) }

/-- The loop of `recover_pending_events`. -/
def restoreAll : List QueueRecord → CDCBacklogBuffer →
    Except RecoverError (List ChangeEvent) × CDCBacklogBuffer
  | [], b => (.ok [], b)
  | r :: rows, b =>
    match readPayload r.payload with
    | .error exception => (.error exception, b)
    | .ok e =>
      let (recovered, b) := restoreAll rows (b.restore str r e)
      ((e :: ·) <$> recovered, b)

/-- Forget everything in memory. -/
def cleared : CDCBacklogBuffer :=
  { b with queue := [], eventMsgMap := fun _ => none, currentBytes := 0 }

/-- `recover_pending_events`. -/
def recoverPendingEvents (sessionId : Option String) :
    Except RecoverError (List ChangeEvent) × CDCBacklogBuffer :=
  match b.queueStore with
  | none => (.ok [], b)
  | some store =>
    restoreAll str (store.select (queueName (orDefault sessionId b.sessionId))) b.cleared

/-! ## What the operations do to the queue -/

/-- An event is taken into memory: it fits, or there is nowhere to spill it. -/
def Fits (e : ChangeEvent) : Prop :=
  b.currentBytes + evtBytes str e ≤ b.maxMemoryBytes ∨ b.spillFrames = none

/-- An event that is not taken into memory can be written and is saved as a spill frame. -/
def Saves (e : ChangeEvent) (saves : Bool) : Prop := (∃ text, e.payload = .ok text) ∧ saves = true

/-- Storing an event leaves all but the table and the message ids alone. -/
theorem persist_frame (e : ChangeEvent) (stores : Bool) :
    (b.persist e stores).maxMemoryBytes = b.maxMemoryBytes ∧
      (b.persist e stores).sessionId = b.sessionId ∧
      (b.persist e stores).spillFrames = b.spillFrames ∧
      (b.persist e stores).queue = b.queue ∧
      (b.persist e stores).currentBytes = b.currentBytes ∧
      (b.persist e stores).spilledCount = b.spilledCount := by
  unfold persist
  split
  · split_ifs
    · exact ⟨rfl, rfl, rfl, rfl, rfl, rfl⟩
    · exact ⟨rfl, rfl, rfl, rfl, rfl, rfl⟩
  · exact ⟨rfl, rfl, rfl, rfl, rfl, rfl⟩

variable {e : ChangeEvent}

/-- **An event that is taken into memory** goes to the end of the queue. -/
theorem push_of_fits (h : b.Fits str e) (stores saves : Bool) :
    b.push str e stores saves = (.ok (), (b.persist e stores).enqueue str e) := by
  obtain ⟨hmax, -, hframes, -, hbytes, -⟩ := b.persist_frame e stores
  simp only [push, hmax, hframes, hbytes]
  rcases h with hfits | hnone
  · rw [if_neg (not_lt.mpr hfits)]
  · rw [hnone]
    split_ifs <;> rfl

/-- A spilled event leaves the queue alone. -/
theorem spill_frame (e : ChangeEvent) (frames : List (String × String × String)) (saves : Bool) :
    (b.spill e frames saves).2.queue = b.queue ∧
      (b.spill e frames saves).2.currentBytes = b.currentBytes ∧
      ((b.spill e frames saves).1 = .ok () ↔ Saves e saves) := by
  unfold spill Saves
  generalize e.payload = payload
  cases payload with
  | error exception =>
    refine ⟨rfl, rfl, iff_of_false nofun ?_⟩
    rintro ⟨⟨text, htext⟩, -⟩
    cases htext
  | ok text =>
    cases saves with
    | false => exact ⟨rfl, rfl, iff_of_false nofun (by simp)⟩
    | true => exact ⟨rfl, rfl, iff_of_true rfl ⟨⟨text, rfl⟩, rfl⟩⟩

/-- The settings of the buffer stay when an event is spilled. -/
theorem spill_settings (e : ChangeEvent) (frames : List (String × String × String)) (saves : Bool) :
    (b.spill e frames saves).2.maxMemoryBytes = b.maxMemoryBytes ∧
      (b.spill e frames saves).2.sessionId = b.sessionId ∧
      (b.spillFrames = some frames → (b.spill e frames saves).2.spillFrames ≠ none) := by
  unfold spill
  have hkept : b.spillFrames = some frames → b.spillFrames ≠ none := by
    intro h
    rw [h]
    nofun
  generalize e.payload = payload
  cases payload with
  | error exception => exact ⟨rfl, rfl, hkept⟩
  | ok text =>
    cases saves with
    | false => exact ⟨rfl, rfl, hkept⟩
    | true => exact ⟨rfl, rfl, fun _ => nofun⟩

theorem push_eq_spill (h : ¬ b.Fits str e) (stores saves : Bool) :
    ∃ frames, b.spillFrames = some frames ∧
      b.push str e stores saves = (b.persist e stores).spill e frames saves := by
  obtain ⟨hmax, -, hframes, -, hbytes, -⟩ := b.persist_frame e stores
  rw [Fits, not_or, not_le] at h
  obtain ⟨frames, hsome⟩ := Option.ne_none_iff_exists'.mp h.2
  refine ⟨frames, hsome, ?_⟩
  simp only [push, hmax, hframes, hbytes, hsome, if_pos h.1]

/-- **An event that is not taken into memory** leaves the queue alone; `push` returns when the event
is saved. -/
theorem push_of_not_fits (h : ¬ b.Fits str e) (stores saves : Bool) :
    (b.push str e stores saves).2.queue = b.queue ∧
      (b.push str e stores saves).2.currentBytes = b.currentBytes ∧
      ((b.push str e stores saves).1 = .ok () ↔ Saves e saves) := by
  obtain ⟨-, -, -, hqueue, hbytes, -⟩ := b.persist_frame e stores
  obtain ⟨frames, -, hpush⟩ := b.push_eq_spill str h stores saves
  obtain ⟨hq, hb, hret⟩ := (b.persist e stores).spill_frame e frames saves
  rw [hpush]
  exact ⟨hq.trans hqueue, hb.trans hbytes, hret⟩

/-- The settings of the buffer stay when an event is pushed. -/
theorem push_settings (e : ChangeEvent) (stores saves : Bool) :
    (b.push str e stores saves).2.maxMemoryBytes = b.maxMemoryBytes ∧
      (b.push str e stores saves).2.sessionId = b.sessionId ∧
      ((b.push str e stores saves).2.spillFrames = none ↔ b.spillFrames = none) := by
  obtain ⟨hmax, hsession, hframes, -, -, -⟩ := b.persist_frame e stores
  by_cases hfits : b.Fits str e
  · rw [b.push_of_fits str hfits]
    exact ⟨hmax, hsession, iff_of_eq (congrArg (· = none) hframes)⟩
  · obtain ⟨frames, hsome, hpush⟩ := b.push_eq_spill str hfits stores saves
    obtain ⟨hm, hs, hf⟩ := (b.persist e stores).spill_settings e frames saves
    rw [hpush]
    refine ⟨hm.trans hmax, hs.trans hsession, iff_of_false (hf (hframes.trans hsome)) ?_⟩
    rw [hsome]
    nofun

theorem pop_nil (h : b.queue = []) : b.pop str = (none, b) := by
  rw [pop, h]

/-- **The first event leaves** the queue and its bytes. -/
theorem pop_cons {queue : List ChangeEvent} (h : b.queue = e :: queue) :
    b.pop str = (some e, { b with
      queue := queue
      currentBytes := max 0 (b.currentBytes - evtBytes str e) }) := by
  rw [pop, h]

theorem ackEvent_frame (eventId : String) (deletes : Bool) :
    (b.ackEvent likeMatchesBlobs eventId deletes).2.queue = b.queue ∧
      (b.ackEvent likeMatchesBlobs eventId deletes).2.currentBytes = b.currentBytes := by
  unfold ackEvent
  cases b.queueStore with
  | none => exact ⟨rfl, rfl⟩
  | some store => cases deletes <;> exact ⟨rfl, rfl⟩

/-- The events at the beginning of stored rows, up to the first that cannot be read. -/
def readableEvents : List QueueRecord → List ChangeEvent
  | [] => []
  | r :: rows =>
    match readPayload r.payload with
    | .error _ => []
    | .ok e => e :: readableEvents rows

/-- What the loop of a recovery puts into the queue. -/
theorem restoreAll_queue (rows : List QueueRecord) :
    ∀ b : CDCBacklogBuffer, (restoreAll str rows b).2.queue = b.queue ++ readableEvents rows ∧
      (restoreAll str rows b).2.currentBytes =
        b.currentBytes + totalBytes str (readableEvents rows) := by
  induction rows with
  | nil =>
    intro b
    simp [restoreAll, readableEvents]
  | cons r rows ih =>
    intro b
    rw [restoreAll, readableEvents]
    cases readPayload r.payload with
    | error exception => simp
    | ok e =>
      obtain ⟨hqueue, hbytes⟩ := ih (b.restore str r e)
      refine ⟨?_, ?_⟩
      · rw [hqueue]
        simp [restore, enqueue]
      · rw [hbytes, totalBytes_cons]
        simp [restore, enqueue]
        ring

/-- What the loop of a recovery returns, when all rows can be read. -/
theorem restoreAll_eq_ok_iff (rows : List QueueRecord) (events : List ChangeEvent) :
    ∀ b : CDCBacklogBuffer, (restoreAll str rows b).1 = .ok events ↔
      rows.map (fun r => readPayload r.payload) = events.map .ok := by
  induction rows generalizing events with
  | nil =>
    intro b
    rw [restoreAll, List.map_nil, Except.ok.injEq]
    constructor
    · rintro rfl
      rfl
    · intro h
      exact (List.map_eq_nil_iff.mp h.symm).symm
  | cons r rows ih =>
    intro b
    rw [restoreAll, List.map_cons]
    cases hread : readPayload r.payload with
    | error exception =>
      constructor
      · intro h
        cases h
      · intro h
        cases events with
        | nil => cases h
        | cons e events => cases (List.cons.inj h).1
    | ok e =>
      show ((e :: ·) <$> (restoreAll str rows (b.restore str r e)).1) = _ ↔ _
      cases events with
      | nil =>
        cases (restoreAll str rows (b.restore str r e)).1 <;> simp
      | cons e' events =>
        rw [List.map_cons, List.cons.injEq, Except.ok.injEq, ← ih events (b.restore str r e)]
        cases (restoreAll str rows (b.restore str r e)).1 <;> simp

end CDCBacklogBuffer

end EngineCDC

/-
# The bounded stream buffer

`BoundedStreamBuffer` of `transport/flow/backpressure.py`: a queue of batches with
limits on batches, rows and bytes, and a small state machine that closes it.

A call of `push` or `pop` is one atomic step.  Where the source waits on a
condition variable, the step's outcome is `waiting`: the caller is still inside
the call and nothing has changed.

`counted_run` : in every state reached from an empty buffer the queue is what was pushed and not
popped, the counters are its own, and the limits are kept.
-/
import Akaal.TransportSpec

namespace Transport

variable {ρ : Type*}

/-! ## State -/

/-- `BufferState`. -/
inductive BufferState where
  | open
  | draining
  | cancelled
  | failed
  | closed
  deriving DecidableEq

/-- The value of a `BufferState`, as the error messages print it. -/
def BufferState.value : BufferState → String
  | .open => "OPEN"
  | .draining => "DRAINING"
  | .cancelled => "CANCELLED"
  | .failed => "FAILED"
  | .closed => "CLOSED"

/-- `BoundedStreamBuffer`. -/
structure BoundedStreamBuffer (ρ : Type*) where
  maxBatches : ℕ
  maxRows : ℕ
  maxBytes : ℕ
  queue : List (TransportBatch ρ)
  currentRows : ℕ
  currentBytes : ℕ
  state : BufferState

/-- `BoundedStreamBuffer.__init__`. -/
def BoundedStreamBuffer.init (policy : TransportTuningPolicy) : BoundedStreamBuffer ρ where
  maxBatches := policy.maxQueueBatches
  maxRows := policy.maxQueueRows
  maxBytes := policy.maxQueueBytes
  queue := []
  currentRows := 0
  currentBytes := 0
  state := .open

/-- How a call on the buffer ends: it returns, it raises, or it is still waiting. -/
inductive BufferOutcome (α : Type*) where
  | returned (a : α)
  | raised (e : TransportError)
  | waiting

namespace BoundedStreamBuffer

/-! ## Operations -/

/-- The loop condition of `push`: no room for the batch. -/
def isFull (buf : BoundedStreamBuffer ρ) (batch : TransportBatch ρ) : Bool :=
  buf.maxBatches ≤ buf.queue.length || buf.maxRows < buf.currentRows + batch.metadata.rowCount ||
    buf.maxBytes < buf.currentBytes + batch.metadata.sizeBytes

/-- The error of `push` on a buffer that is not open. -/
def closedError (buf : BoundedStreamBuffer ρ) : TransportError :=
  .transport s!"Cannot push batch: buffer state is '{buf.state.value}'"

/-- The queue and counters after `batch` is admitted. -/
def enqueue (buf : BoundedStreamBuffer ρ) (batch : TransportBatch ρ) : BoundedStreamBuffer ρ :=
  { buf with
    queue := buf.queue ++ [batch]
    currentRows := buf.currentRows + batch.metadata.rowCount
    currentBytes := buf.currentBytes + batch.metadata.sizeBytes }

/-- `push`: waits while the buffer is full, and fails on a buffer that is not open.
A caller cancelled while it waits also cancels the whole buffer. -/
def push (buf : BoundedStreamBuffer ρ) (batch : TransportBatch ρ) (isCancelled : Bool) :
    BoundedStreamBuffer ρ × BufferOutcome Unit :=
  if buf.isFull batch then
    if buf.state ≠ .open then (buf, .raised buf.closedError)
    else if isCancelled then
      ({ buf with state := .cancelled },
        .raised (.cancelled "Push cancelled while waiting for buffer capacity"))
    else (buf, .waiting)
  else if buf.state ≠ .open then (buf, .raised buf.closedError)
  else (buf.enqueue batch, .returned ())

/-- The queue and counters after `batch` is taken off the queue, which leaves `rest`. -/
def dequeue (buf : BoundedStreamBuffer ρ) (batch : TransportBatch ρ)
    (rest : List (TransportBatch ρ)) : BoundedStreamBuffer ρ :=
  { buf with
    queue := rest
    currentRows := buf.currentRows - batch.metadata.rowCount
    currentBytes := buf.currentBytes - batch.metadata.sizeBytes }

/-- `pop`: takes the oldest batch, waits on an empty buffer, and returns `None`
once an empty buffer is draining or closed. -/
def pop (buf : BoundedStreamBuffer ρ) (isCancelled : Bool) :
    BoundedStreamBuffer ρ × BufferOutcome (Option (TransportBatch ρ)) :=
  match buf.queue with
  | batch :: rest => (buf.dequeue batch rest, .returned (some batch))
  | [] =>
    match buf.state with
    | .closed | .draining => (buf, .returned none)
    | .cancelled => (buf, .raised (.cancelled "Buffer cancelled"))
    | .failed => (buf, .raised (.transport "Buffer in failed state"))
    | .open =>
      if isCancelled then
        (buf, .raised (.cancelled "Pop cancelled while waiting for batch"))
      else (buf, .waiting)

/-! ## What the operations do to the queue -/

variable {batch : TransportBatch ρ} {buf : BoundedStreamBuffer ρ}

theorem push_returned {buf' : BoundedStreamBuffer ρ} {c : Bool}
    (h : buf.push batch c = (buf', .returned ())) : buf' = buf.enqueue batch := by
  unfold push at h
  split_ifs at h
  all_goals simp only [Prod.mk.injEq, reduceCtorEq, and_false] at h
  exact h.1.symm

theorem push_raised {buf' : BoundedStreamBuffer ρ} {c : Bool}
    {e : TransportError} (h : buf.push batch c = (buf', .raised e)) :
    buf'.queue = buf.queue := by
  unfold push at h
  split_ifs at h with hfull hstate hcancel hstate
  · exact congrArg (·.queue) (Prod.mk.inj h).1.symm
  · exact congrArg (·.queue) (Prod.mk.inj h).1.symm
  · simp at h
  · exact congrArg (·.queue) (Prod.mk.inj h).1.symm
  · simp at h

theorem pop_of_queue_eq_cons
    {rest : List (TransportBatch ρ)} (h : buf.queue = batch :: rest) (c : Bool) :
    buf.pop c = (buf.dequeue batch rest, .returned (some batch)) := by
  simp only [pop, h]

/-! ## Runs -/

/-- The calls of any threads on a buffer; one that waits is made again. -/
inductive Call (ρ : Type*) where
  | push (batch : TransportBatch ρ) (isCancelled : Bool)
  | pop (isCancelled : Bool)
  | setDraining
  | setCancelled
  | setFailed
  | close

/-- A buffer, with the batches whose `push` has returned and those that `pop` has returned. -/
structure Run (ρ : Type*) where
  buffer : BoundedStreamBuffer ρ
  pushed : List (TransportBatch ρ) := []
  popped : List (TransportBatch ρ) := []

/-- The batch that a `pop` returns. -/
def taken : BufferOutcome (Option (TransportBatch ρ)) → List (TransportBatch ρ)
  | .returned (some batch) => [batch]
  | _ => []

/-- One call. -/
def Run.step (s : Run ρ) : Call ρ → Run ρ
  | .push batch c =>
    match s.buffer.push batch c with
    | (buf, .returned ()) => { s with buffer := buf, pushed := s.pushed ++ [batch] }
    | (buf, _) => { s with buffer := buf }
  | .pop c =>
    { s with buffer := (s.buffer.pop c).1, popped := s.popped ++ taken (s.buffer.pop c).2 }
  | .setDraining => if s.buffer.state = .open then { s with buffer.state := .draining } else s
  | .setCancelled => { s with buffer.state := .cancelled }
  | .setFailed => { s with buffer.state := .failed }
  | .close => { s with buffer.state := .closed }

/-- Batches leave in the order in which they came, the counters are those of the queue, and the limits
of the policy are kept. -/
structure Counted (policy : TransportTuningPolicy) (s : Run ρ) : Prop where
  limits : (s.buffer.maxBatches, s.buffer.maxRows, s.buffer.maxBytes) =
    (policy.maxQueueBatches, policy.maxQueueRows, policy.maxQueueBytes)
  fifo : s.popped ++ s.buffer.queue = s.pushed
  rows : s.buffer.currentRows = (s.buffer.queue.map (·.metadata.rowCount)).sum
  bytes : s.buffer.currentBytes = (s.buffer.queue.map (·.metadata.sizeBytes)).sum
  batches_le : s.buffer.queue.length ≤ policy.maxQueueBatches
  rows_le : s.buffer.currentRows ≤ policy.maxQueueRows
  bytes_le : s.buffer.currentBytes ≤ policy.maxQueueBytes

variable {policy : TransportTuningPolicy} {s : Run ρ}

theorem Counted.setState (h : Counted policy s) (state : BufferState) :
    Counted policy { s with buffer.state := state } :=
  ⟨h.limits, h.fifo, h.rows, h.bytes, h.batches_le, h.rows_le, h.bytes_le⟩

theorem Counted.step (h : Counted policy s) (call : Call ρ) : Counted policy (s.step call) := by
  obtain ⟨hlimits, hfifo, hrows, hbytes, hbatches, hrowsLe, hbytesLe⟩ := id h
  simp only [Prod.mk.injEq] at hlimits
  cases call with
  | push batch c =>
    unfold Run.step push
    dsimp only
    split_ifs with hfull
    · exact h
    · exact h.setState _
    · exact h
    · exact h
    · simp only [isFull, Bool.or_eq_true, decide_eq_true_eq, not_or, not_le, not_lt] at hfull
      refine ⟨h.limits, by rw [← hfifo, enqueue, List.append_assoc], ?_, ?_, ?_, ?_, ?_⟩
      all_goals
        simp [enqueue]
        omega
  | pop c =>
    cases hqueue : s.buffer.queue with
    | nil =>
      have hpop : (s.buffer.pop c).1 = s.buffer ∧ taken (s.buffer.pop c).2 = [] := by
        rw [pop, hqueue]
        cases s.buffer.state <;> cases c <;> exact ⟨rfl, rfl⟩
      rw [Run.step, hpop.1, hpop.2, List.append_nil]
      exact h
    | cons batch rest =>
      rw [hqueue, List.map_cons, List.sum_cons] at hrows hbytes
      rw [hqueue, List.length_cons] at hbatches
      rw [Run.step, pop_of_queue_eq_cons hqueue]
      refine ⟨h.limits, by simp [← hfifo, hqueue, dequeue, taken], ?_, ?_, ?_, ?_, ?_⟩
      all_goals
        dsimp only [dequeue]
        omega
  | setDraining =>
    unfold Run.step
    split_ifs
    · exact h.setState _
    · exact h
  | setCancelled => exact h.setState _
  | setFailed => exact h.setState _
  | close => exact h.setState _

/-- **The buffer.**  Whatever the calls are, batches leave it in the order in which they came, its
counters are those of its queue, and its limits are kept. -/
theorem counted_run (policy : TransportTuningPolicy) (calls : List (Call ρ)) :
    Counted policy (calls.foldl Run.step { buffer := .init policy }) := by
  have hinit : Counted policy ({ buffer := .init policy } : Run ρ) :=
    ⟨rfl, rfl, rfl, rfl, Nat.zero_le _, Nat.zero_le _, Nat.zero_le _⟩
  exact List.foldlRecOn calls Run.step hinit fun _ h call _ => h.step call

end BoundedStreamBuffer

end Transport

/-
# Draining the source into the target

`fetch_events`, `enforce_capture_budget`, `set_capture_budget`, `drain_and_sync`,
`abort_pre_cutover` and `recover_from_durability` of `akaalEngine/cdc/api.py`: the adapter's events go
through the backlog buffer, from which a cycle takes events, cuts them to the capture budget and
applies them.

* `enforceCaptureBudget_eq_self_iff` : the events that the budget does not cut;
* `fetchEvents_spec` : what a fetch takes from the queue and what it returns;
* `returnsRemoved_iff` : the fetches that return what they remove;
* `conserves_iff` : the runs of cycles in which no event is lost.

What the adapter delivers and how far `apply_events` gets are decided outside.
-/
import Akaal.BacklogBuffer
import Akaal.EventOrdering
import Akaal.TransitionRun

open CDC TransitionRun

namespace EngineCDC

/-! ## The authority -/

/-- `CutoverState`. -/
inductive CutoverState where
  | snapshotPreparing
  | captureStarting
  | snapshotRunning
  | cdcApplying
  | catchingUp
  | preCutover
  | sourceQuiescing
  | sourceQuiesced
  | finalApply
  | syncBarrierWait
  | syncBarrierReached
  | technicalCutoverReady
  | cutoverComplete
  | cutoverFailed
  deriving DecidableEq

/-- `CDCAuthority`, as far as events pass through it; `hasAdapter` when there is an active adapter
with `fetch_events` or `poll_events`. -/
structure CDCAuthority where
  maxEventsPerFetch : ℤ
  maxFetchBytesSec : ℤ
  isCdcPaused : Bool
  hasAdapter : Bool
  backlogBuffer : CDCBacklogBuffer
  cutoverState : CutoverState
  eventsCapturedTotal : ℕ
  eventsAppliedTotal : ℕ

/-- An event of an adapter, and whether `store_message` and `save_spill_frame` succeed for it. -/
structure Delivered where
  event : ChangeEvent
  stores : Bool
  saves : Bool

/-- The exceptions of a fetch. -/
inductive FetchError where
  | adapterFailed
  | push (exception : PushError)
  | capabilityError

/-! ## The capture budget -/

section Budget

variable (str : PyItems → String)

/-- `events[:n]`. -/
def sliceTo (n : ℤ) (events : List ChangeEvent) : List ChangeEvent :=
  if 0 ≤ n then events.take n.toNat else events.take (events.length - n.natAbs)

/-- The loop of `enforce_capture_budget`: the first event is always taken. -/
def boundBytes (maxBytes : ℤ) : List ChangeEvent → ℤ → Bool → List ChangeEvent
  | [], _, _ => []
  | e :: events, accumulated, started =>
    if maxBytes < accumulated + evtBytes str e ∧ started = true then []
    else e :: boundBytes maxBytes events (accumulated + evtBytes str e) true

/-- `enforce_capture_budget`. -/
def enforceCaptureBudget (auth : CDCAuthority) (events : List ChangeEvent) : List ChangeEvent :=
  if events = [] then []
  else boundBytes str auth.maxFetchBytesSec (sliceTo auth.maxEventsPerFetch events) 0 false

/-- Events within the capture budget: not too many, and a single one or not too large together. -/
def FitsBudget (auth : CDCAuthority) (events : List ChangeEvent) : Prop :=
  events = [] ∨ (events.length : ℤ) ≤ auth.maxEventsPerFetch ∧
    (events.length = 1 ∨ totalBytes str events ≤ auth.maxFetchBytesSec)

theorem sliceTo_eq_self_iff {n : ℤ} {events : List ChangeEvent} (hne : events ≠ []) :
    sliceTo n events = events ↔ (events.length : ℤ) ≤ n := by
  have hlength : 0 < events.length := List.length_pos_of_ne_nil hne
  unfold sliceTo
  split_ifs with hn
  · rw [List.take_eq_self_iff]
    omega
  · rw [List.take_eq_self_iff]
    omega

theorem isPrefix_sliceTo (n : ℤ) (events : List ChangeEvent) : sliceTo n events <+: events := by
  unfold sliceTo
  split_ifs
  · exact List.take_prefix _ _
  · exact List.take_prefix _ _

theorem isPrefix_boundBytes (maxBytes : ℤ) (events : List ChangeEvent) :
    ∀ accumulated started, boundBytes str maxBytes events accumulated started <+: events := by
  induction events with
  | nil =>
    intro accumulated started
    exact List.prefix_refl _
  | cons e events ih =>
    intro accumulated started
    rw [boundBytes]
    split_ifs
    · exact List.nil_prefix
    · exact (List.prefix_cons_inj e).mpr (ih _ _)

theorem boundBytes_started_eq_self_iff (maxBytes : ℤ) (events : List ChangeEvent) :
    ∀ accumulated, boundBytes str maxBytes events accumulated true = events ↔
      events = [] ∨ accumulated + totalBytes str events ≤ maxBytes := by
  induction events with
  | nil =>
    intro accumulated
    simp [boundBytes]
  | cons e events ih =>
    intro accumulated
    have hpos := evtBytes_pos str e
    have hrest := totalBytes_nonneg str events
    rw [boundBytes, totalBytes_cons]
    by_cases hlarge : maxBytes < accumulated + evtBytes str e
    · rw [if_pos ⟨hlarge, rfl⟩]
      simp only [reduceCtorEq, false_or, false_iff]
      omega
    · rw [if_neg (fun h => hlarge h.1), List.cons.injEq, ih]
      simp only [true_and, reduceCtorEq, false_or]
      constructor
      · rintro (rfl | h)
        · simp only [totalBytes_nil]
          omega
        · omega
      · intro h
        exact .inr (by omega)

/-- **The events that the budget does not cut.** -/
theorem enforceCaptureBudget_eq_self_iff (auth : CDCAuthority) (events : List ChangeEvent) :
    enforceCaptureBudget str auth events = events ↔ FitsBudget str auth events := by
  unfold enforceCaptureBudget FitsBudget
  by_cases hnil : events = []
  · simp [hnil]
  · rw [if_neg hnil, or_iff_right hnil, ← sliceTo_eq_self_iff hnil]
    obtain ⟨e, rest, rfl⟩ := List.exists_cons_of_ne_nil hnil
    have hwhole : boundBytes str auth.maxFetchBytesSec (e :: rest) 0 false = e :: rest ↔
        (e :: rest).length = 1 ∨ totalBytes str (e :: rest) ≤ auth.maxFetchBytesSec := by
      rw [boundBytes, if_neg (fun h => Bool.false_ne_true h.2), List.cons.injEq,
        boundBytes_started_eq_self_iff, totalBytes_cons]
      simp
    constructor
    · intro h
      have hslice : sliceTo auth.maxEventsPerFetch (e :: rest) = e :: rest := by
        have hbeginning := isPrefix_boundBytes str auth.maxFetchBytesSec
          (sliceTo auth.maxEventsPerFetch (e :: rest)) 0 false
        rw [h] at hbeginning
        exact (isPrefix_sliceTo _ _).eq_of_length_le hbeginning.length_le
      rw [hslice] at h
      exact ⟨hslice, hwhole.mp h⟩
    · rintro ⟨hslice, hbytes⟩
      rw [hslice]
      exact hwhole.mpr hbytes

theorem isPrefix_enforceCaptureBudget (auth : CDCAuthority) (events : List ChangeEvent) :
    enforceCaptureBudget str auth events <+: events := by
  unfold enforceCaptureBudget
  split_ifs
  · exact List.nil_prefix
  · exact (isPrefix_boundBytes str _ _ _ _).trans (isPrefix_sliceTo _ _)

end Budget

/-! ## Fetching -/

section Fetch

variable (str : PyItems → String)

/-- Push the events of an adapter, up to the first that raises. -/
def pushAll : List Delivered → CDCBacklogBuffer → Except PushError Unit × CDCBacklogBuffer
  | [], b => (.ok (), b)
  | d :: ds, b =>
    match b.push str d.event d.stores d.saves with
    | (.error exception, b) => (.error exception, b)
    | (.ok (), b) => pushAll ds b

/-- The second half of `fetch_events`: events are taken from the queue and cut to the budget. -/
def takeEvents (auth : CDCAuthority) (maxEvents : ℤ) : List ChangeEvent × CDCAuthority :=
  let fetched := auth.backlogBuffer.queue.take maxEvents.toNat
  (enforceCaptureBudget str auth fetched, { auth with
    backlogBuffer := { auth.backlogBuffer with
      queue := auth.backlogBuffer.queue.drop maxEvents.toNat }
    eventsCapturedTotal := auth.eventsCapturedTotal + fetched.length })

/-- `fetch_events`; the response of the adapter is `none` when it raises. -/
def fetchEvents (auth : CDCAuthority) (response : Option (List Delivered)) (maxEvents : ℤ) :
    Except FetchError (List ChangeEvent) × CDCAuthority :=
  if auth.isCdcPaused then (.ok [], auth)
  else if auth.hasAdapter then
    match response with
    | none => (.error .adapterFailed, auth)
    | some batch =>
      match pushAll str batch auth.backlogBuffer with
      | (.error exception, b) => (.error (.push exception), { auth with backlogBuffer := b })
      | (.ok (), b) =>
        let (events, auth) := takeEvents str { auth with backlogBuffer := b } maxEvents
        (.ok events, auth)
  else if auth.backlogBuffer.queue.isEmpty then (.error .capabilityError, auth)
  else
    let (events, auth) := takeEvents str auth maxEvents
    (.ok events, auth)

/-- What the adapter adds to the backlog in a fetch. -/
def arriving (auth : CDCAuthority) (response : Option (List Delivered)) : List Delivered :=
  if auth.isCdcPaused = false ∧ auth.hasAdapter = true then response.getD [] else []

/-- The events that are delivered. -/
def eventsOf (batch : List Delivered) : List ChangeEvent := batch.map Delivered.event

/-- All events of a batch are taken into memory: they fit, or there is nowhere to spill them. -/
def BatchFits (b : CDCBacklogBuffer) (batch : List Delivered) : Prop :=
  b.spillFrames = none ∨ batch = [] ∨
    b.currentBytes + totalBytes str (eventsOf batch) ≤ b.maxMemoryBytes

/-- **What pushing a batch does to the queue.**  It adds some of the events, in their order: all of
them when the batch fits, and fewer when it does not. -/
theorem pushAll_spec (batch : List Delivered) : ∀ b : CDCBacklogBuffer, ∃ kept,
    kept.Sublist (eventsOf batch) ∧ (pushAll str batch b).2.queue = b.queue ++ kept ∧
      (pushAll str batch b).2.currentBytes = b.currentBytes + totalBytes str kept ∧
      (kept.length = batch.length ↔ BatchFits str b batch) ∧
      (BatchFits str b batch → (pushAll str batch b).1 = .ok ()) := by
  induction batch with
  | nil =>
    intro b
    exact ⟨[], List.Sublist.refl _, by simp [pushAll], by simp [pushAll],
      by simp [BatchFits], fun _ => rfl⟩
  | cons d ds ih =>
    intro b
    obtain ⟨hmax, -, hframes⟩ := b.push_settings str d.event d.stores d.saves
    by_cases hfits : b.Fits str d.event
    · have hpush := b.push_of_fits str hfits d.stores d.saves
      obtain ⟨-, -, -, hqueue, hbytes, -⟩ := b.persist_frame d.event d.stores
      obtain ⟨kept, hsub, hq, hb, hlength, hok⟩ := ih ((b.persist d.event d.stores).enqueue str d.event)
      rw [hpush] at hmax hframes
      have hbatch : BatchFits str ((b.persist d.event d.stores).enqueue str d.event) ds ↔
          BatchFits str b (d :: ds) := by
        unfold BatchFits
        rw [hframes, hmax]
        show b.spillFrames = none ∨ ds = [] ∨ (b.persist d.event d.stores).currentBytes +
          evtBytes str d.event + totalBytes str (eventsOf ds) ≤ b.maxMemoryBytes ↔ _
        rw [hbytes, eventsOf, eventsOf, List.map_cons, totalBytes_cons]
        rcases hfits with hle | hnone
        · cases ds with
          | nil =>
            simp only [true_or, or_true, List.map_nil, totalBytes_nil, true_iff]
            exact .inr (.inr (by omega))
          | cons d' ds' =>
            simp only [reduceCtorEq, false_or]
            rw [add_assoc]
        · simp [hnone]
      refine ⟨d.event :: kept, hsub.cons_cons d.event, ?_, ?_, ?_, ?_⟩
      · rw [pushAll, hpush]
        show (pushAll str ds _).2.queue = _
        rw [hq]
        show (b.persist d.event d.stores).queue ++ [d.event] ++ kept = _
        rw [hqueue, List.append_assoc, List.singleton_append]
      · rw [pushAll, hpush]
        show (pushAll str ds _).2.currentBytes = _
        rw [hb, totalBytes_cons]
        show (b.persist d.event d.stores).currentBytes + evtBytes str d.event + _ = _
        rw [hbytes, add_assoc]
      · rw [List.length_cons, List.length_cons, Nat.succ_inj, hlength, hbatch]
      · intro h
        rw [pushAll, hpush]
        exact hok (hbatch.mpr h)
    · -- the event is spilled or lost, so that fewer events arrive than were delivered
      obtain ⟨hqueue, hbytes, -⟩ := b.push_of_not_fits str hfits d.stores d.saves
      have hnot : ¬ BatchFits str b (d :: ds) := by
        have hspill := hfits
        rw [CDCBacklogBuffer.Fits, not_or, not_le] at hspill
        have hnonneg := totalBytes_nonneg str (eventsOf ds)
        rintro (hnone | hnil | hle)
        · exact hspill.2 hnone
        · cases hnil
        · rw [eventsOf, List.map_cons, totalBytes_cons] at hle
          rw [eventsOf] at hnonneg
          omega
      rw [pushAll]
      cases hpush : b.push str d.event d.stores d.saves with
      | mk result b' =>
        rw [hpush] at hqueue hbytes
        cases result with
        | error exception =>
          refine ⟨[], List.nil_sublist _, ?_, ?_, ?_, fun h => absurd h hnot⟩
          · rw [List.append_nil]
            exact hqueue
          · rw [totalBytes_nil, add_zero]
            exact hbytes
          · exact iff_of_false (by simp) hnot
        | ok _ =>
          obtain ⟨kept, hsub, hq, hb, -, -⟩ := ih b'
          refine ⟨kept, hsub.cons d.event, ?_, ?_, ?_, fun h => absurd h hnot⟩
          · exact hq.trans (by rw [hqueue])
          · exact hb.trans (by rw [hbytes])
          · refine iff_of_false ?_ hnot
            have hle := hsub.length_le
            rw [eventsOf, List.length_map] at hle
            rw [List.length_cons]
            omega

/-- The buffer once the adapter's events have been pushed. -/
def filled (auth : CDCAuthority) (response : Option (List Delivered)) : CDCBacklogBuffer :=
  (pushAll str (arriving auth response) auth.backlogBuffer).2

/-- The events a fetch takes from the queue; none when it does not get as far as the queue. -/
def popped (auth : CDCAuthority) (response : Option (List Delivered)) (maxEvents : ℤ) :
    List ChangeEvent :=
  if auth.isCdcPaused = false ∧ (auth.hasAdapter = true → response.isSome = true) ∧
      (pushAll str (arriving auth response) auth.backlogBuffer).1 = .ok () then
    (filled str auth response).queue.take maxEvents.toNat
  else []

/-- **What a fetch does.**  The events it takes leave the queue, and it returns them as far as the
budget allows. -/
theorem fetchEvents_spec (auth : CDCAuthority) (response : Option (List Delivered)) (maxEvents : ℤ) :
    (filled str auth response).queue = popped str auth response maxEvents ++
        (fetchEvents str auth response maxEvents).2.backlogBuffer.queue ∧
      (fetchEvents str auth response maxEvents).2.backlogBuffer.currentBytes =
        (filled str auth response).currentBytes ∧
      ((∃ exception, (fetchEvents str auth response maxEvents).1 = .error exception ∧
          popped str auth response maxEvents = []) ∨
        (fetchEvents str auth response maxEvents).1 =
          .ok (enforceCaptureBudget str auth (popped str auth response maxEvents))) := by
  unfold fetchEvents popped filled arriving
  by_cases hpaused : auth.isCdcPaused = true
  · simp [hpaused, pushAll, enforceCaptureBudget]
  · rw [Bool.not_eq_true] at hpaused
    by_cases hadapter : auth.hasAdapter = true
    · cases response with
      | none => simp [hpaused, hadapter, pushAll]
      | some batch =>
        cases hpush : pushAll str batch auth.backlogBuffer with
        | mk result b =>
          cases result with
          | error exception => simp [hpaused, hadapter, hpush]
          | ok _ => simp [hpaused, hadapter, hpush, takeEvents, enforceCaptureBudget]
    · rw [Bool.not_eq_true] at hadapter
      by_cases hqueue : auth.backlogBuffer.queue = []
      · simp [hpaused, hadapter, hqueue, pushAll]
      · simp [hpaused, hadapter, hqueue, pushAll, takeEvents, enforceCaptureBudget]

/-- The budget is the one of the authority, and the stream is paused or not, as before. -/
theorem fetchEvents_frame (auth : CDCAuthority) (response : Option (List Delivered))
    (maxEvents : ℤ) :
    (fetchEvents str auth response maxEvents).2.maxEventsPerFetch = auth.maxEventsPerFetch ∧
      (fetchEvents str auth response maxEvents).2.maxFetchBytesSec = auth.maxFetchBytesSec ∧
      (fetchEvents str auth response maxEvents).2.isCdcPaused = auth.isCdcPaused ∧
      (fetchEvents str auth response maxEvents).2.hasAdapter = auth.hasAdapter := by
  unfold fetchEvents
  split_ifs
  · exact ⟨rfl, rfl, rfl, rfl⟩
  · cases response with
    | none => exact ⟨rfl, rfl, rfl, rfl⟩
    | some batch =>
      dsimp only
      rcases pushAll str batch auth.backlogBuffer with ⟨_ | _, b⟩
      · exact ⟨rfl, rfl, rfl, rfl⟩
      · exact ⟨rfl, rfl, rfl, rfl⟩
  · exact ⟨rfl, rfl, rfl, rfl⟩
  · exact ⟨rfl, rfl, rfl, rfl⟩

/-- What a fetch removes from the queue is what it returns, in order. -/
def ReturnsRemoved (auth : CDCAuthority) (response : Option (List Delivered)) (maxEvents : ℤ) : Prop :=
  ∀ returned auth', fetchEvents str auth response maxEvents = (.ok returned, auth') →
    (filled str auth response).queue = returned ++ auth'.backlogBuffer.queue

/-- **The fetches that return what they remove.** -/
theorem returnsRemoved_iff (auth : CDCAuthority) (response : Option (List Delivered))
    (maxEvents : ℤ) :
    ReturnsRemoved str auth response maxEvents ↔
      FitsBudget str auth (popped str auth response maxEvents) := by
  obtain ⟨hqueue, -, hresult⟩ := fetchEvents_spec str auth response maxEvents
  unfold ReturnsRemoved
  rcases hresult with ⟨exception, herror, hnil⟩ | hok
  · rw [hnil]
    refine iff_of_true ?_ (.inl rfl)
    intro returned auth' h
    rw [h] at herror
    cases herror
  · rw [← enforceCaptureBudget_eq_self_iff]
    constructor
    · intro h
      have hfetch := h _ _ (Prod.ext hok rfl)
      rw [hqueue] at hfetch
      exact (List.append_cancel_right hfetch).symm
    · intro hbudget returned auth' h
      rw [h] at hok hqueue
      obtain rfl := Except.ok.inj hok
      rw [hbudget]
      exact hqueue

end Fetch

/-! ## Applying -/

section Apply

variable (schemaDepth : String → Option ℤ) (likeMatchesBlobs : Bool)

/-- How far `apply_events` gets: `none` when it returns, otherwise the number of events that are
acknowledged before it raises; and which acknowledgements delete their rows. -/
structure ApplyOutcome where
  stopsAfter : Option ℕ
  deletes : ℕ → Bool

/-- Acknowledge events one after another. -/
def ackAll (deletes : ℕ → Bool) (events : List ChangeEvent) (b : CDCBacklogBuffer) :
    CDCBacklogBuffer :=
  events.zipIdx.foldl (fun b p => (b.ackEvent likeMatchesBlobs p.1.eventId (deletes p.2)).2) b

/-- `apply_events`: the number of applied events, `none` when it raises. -/
def applyEvents (auth : CDCAuthority) (events : List ChangeEvent) (outcome : ApplyOutcome) :
    Option ℕ × CDCAuthority :=
  if events = [] then (some 0, auth)
  else
    let ordered := orderedEvents schemaDepth events
    match outcome.stopsAfter with
    | some n => (none, { auth with
        backlogBuffer := ackAll likeMatchesBlobs outcome.deletes (ordered.take n) auth.backlogBuffer })
    | none => (some ordered.length, { auth with
        backlogBuffer := ackAll likeMatchesBlobs outcome.deletes ordered auth.backlogBuffer
        eventsAppliedTotal := auth.eventsAppliedTotal + ordered.length })

theorem ackAll_queue (deletes : ℕ → Bool) (events : List ChangeEvent) (b : CDCBacklogBuffer) :
    (ackAll likeMatchesBlobs deletes events b).queue = b.queue := by
  have hfold : ∀ (acked : List (ChangeEvent × ℕ)) (b : CDCBacklogBuffer),
      (acked.foldl (fun b p => (b.ackEvent likeMatchesBlobs p.1.eventId (deletes p.2)).2) b).queue =
        b.queue := by
    intro acked
    induction acked with
    | nil => exact fun _ => rfl
    | cons p acked ih =>
      intro b
      rw [List.foldl_cons, ih, (b.ackEvent_frame _ _ _).1]
  exact hfold _ b

/-- Applying leaves the queue, the budget and the stream alone. -/
theorem applyEvents_frame (auth : CDCAuthority) (events : List ChangeEvent) (outcome : ApplyOutcome) :
    (applyEvents schemaDepth likeMatchesBlobs auth events outcome).2.backlogBuffer.queue =
        auth.backlogBuffer.queue ∧
      (applyEvents schemaDepth likeMatchesBlobs auth events outcome).2.isCdcPaused =
        auth.isCdcPaused := by
  unfold applyEvents
  split_ifs
  · exact ⟨rfl, rfl⟩
  · cases outcome.stopsAfter with
    | none => exact ⟨ackAll_queue _ _ _ _, rfl⟩
    | some n => exact ⟨ackAll_queue _ _ _ _, rfl⟩

end Apply

/-! ## Cycles -/

/-- One turn of the loop of `drain_and_sync`: what the adapter answers, `none` when it raises, and
how far `apply_events` gets. -/
structure Cycle where
  response : Option (List Delivered)
  outcome : ApplyOutcome

/-- The authority, and a record of what the adapter delivered, what was passed to `apply_events` and
what `apply_events` applied without raising. -/
structure SyncRun where
  authority : CDCAuthority
  delivered : List ChangeEvent
  passed : List ChangeEvent
  applied : List ChangeEvent

/-- How a turn of the loop ends. -/
inductive CycleEnd where
  | raised
  | last (applied : ℕ)
  | more (applied : ℕ)
  deriving DecidableEq

/-- How a call of `drain_and_sync` ends; it is still running when the turns do not suffice. -/
inductive DrainEnd where
  | raised
  | returned (totalApplied : ℕ)
  | running (totalApplied : ℕ)
  deriving DecidableEq

namespace SyncRun

/-- An authority whose backlog may hold events already. -/
def start (auth : CDCAuthority) : SyncRun := ⟨auth, auth.backlogBuffer.queue, [], []⟩

variable (str : PyItems → String) (schemaDepth : String → Option ℤ) (likeMatchesBlobs : Bool)
variable (s : SyncRun)

/-- The first half of a turn: the fetch. -/
def fetch (response : Option (List Delivered)) (maxEvents : ℤ) :
    Except FetchError (List ChangeEvent) × SyncRun :=
  let (result, authority) := fetchEvents str s.authority response maxEvents
  (result, { s with
    authority := authority
    delivered := s.delivered ++ eventsOf (arriving s.authority response) })

/-- The second half: events are applied. -/
def apply (events : List ChangeEvent) (outcome : ApplyOutcome) : Option ℕ × SyncRun :=
  let (count, authority) := applyEvents schemaDepth likeMatchesBlobs s.authority events outcome
  (count, { s with
    authority := authority
    passed := s.passed ++ events
    applied := if count.isSome then s.applied ++ events else s.applied })

/-- A turn of the loop. -/
def cycle (maxEvents : ℤ) (c : Cycle) : CycleEnd × SyncRun :=
  match s.fetch str c.response maxEvents with
  | (.error _, s) => (.raised, s)
  | (.ok [], s) => (.last 0, s)
  | (.ok (e :: events), s) =>
    match s.apply schemaDepth likeMatchesBlobs (e :: events) c.outcome with
    | (none, s) => (.raised, s)
    | (some n, s) => (if ((e :: events).length : ℤ) < maxEvents then .last n else .more n, s)

/-- Add what the turns before applied. -/
def DrainEnd.add (n : ℕ) : DrainEnd → DrainEnd
  | .raised => .raised
  | .returned total => .returned (n + total)
  | .running total => .running (n + total)

/-- `drain_and_sync`. -/
def drainAndSync (maxEvents : ℤ) : List Cycle → SyncRun → DrainEnd × SyncRun
  | [], s => (.running 0, s)
  | c :: cs, s =>
    match s.cycle str schemaDepth likeMatchesBlobs maxEvents c with
    | (.raised, s) => (.raised, s)
    | (.last n, s) => (.returned n, s)
    | (.more n, s) =>
      let (drainEnd, s) := drainAndSync maxEvents cs s
      (DrainEnd.add n drainEnd, s)

/-- The queue of the backlog. -/
abbrev queue : List ChangeEvent := s.authority.backlogBuffer.queue

/-- Every delivered event is in the backlog or was passed to `apply_events`, except those in a
list. -/
def Misses (missing : List ChangeEvent) : Prop :=
  (s.passed ++ s.queue ++ missing).Perm s.delivered

/-- **Every delivered event** is in the backlog or was passed to `apply_events`. -/
def Conserved : Prop := (s.passed ++ s.queue).Perm s.delivered

/-- A turn in which the adapter's events are all taken into memory, and those that are taken from
the queue are within the capture budget. -/
def CycleFits (maxEvents : ℤ) (c : Cycle) : Prop :=
  BatchFits str s.authority.backlogBuffer (arriving s.authority c.response) ∧
    FitsBudget str s.authority (popped str s.authority c.response maxEvents)

/-- The turns that are taken fit. -/
def DrainFits (maxEvents : ℤ) : List Cycle → SyncRun → Prop
  | [], _ => True
  | c :: cs, s => s.CycleFits str maxEvents c ∧
      ∀ n s', s.cycle str schemaDepth likeMatchesBlobs maxEvents c = (.more n, s') →
        DrainFits maxEvents cs s'

/-- A fetch misses what does not fit. -/
theorem fetch_misses {missing : List ChangeEvent} (h : s.Misses missing)
    (response : Option (List Delivered)) (maxEvents : ℤ) :
    ∃ lost, ((s.passed ++ ((s.fetch str response maxEvents).1.toOption.getD []) ++
        (s.fetch str response maxEvents).2.queue ++ (missing ++ lost)).Perm
          (s.fetch str response maxEvents).2.delivered) ∧
      (lost = [] ↔ BatchFits str s.authority.backlogBuffer (arriving s.authority response) ∧
        FitsBudget str s.authority (popped str s.authority response maxEvents)) := by
  obtain ⟨kept, hsub, hfilled, -, hlength, -⟩ :=
    pushAll_spec str (arriving s.authority response) s.authority.backlogBuffer
  obtain ⟨hqueue, -, hresult⟩ := fetchEvents_spec str s.authority response maxEvents
  have hfetch : s.fetch str response maxEvents =
      ((fetchEvents str s.authority response maxEvents).1, { s with
        authority := (fetchEvents str s.authority response maxEvents).2
        delivered := s.delivered ++ eventsOf (arriving s.authority response) }) := rfl
  -- what the budget cuts off
  obtain ⟨cut, hcut, hcutnil⟩ : ∃ cut, popped str s.authority response maxEvents =
          (fetchEvents str s.authority response maxEvents).1.toOption.getD [] ++ cut ∧
        (cut = [] ↔ FitsBudget str s.authority (popped str s.authority response maxEvents)) := by
    rcases hresult with ⟨exception, herror, hnil⟩ | hok
    · refine ⟨[], ?_, ?_⟩
      · rw [herror, hnil]
        rfl
      · rw [hnil]
        exact iff_of_true rfl (.inl rfl)
    · obtain ⟨cut, hbeginning⟩ := isPrefix_enforceCaptureBudget str s.authority
        (popped str s.authority response maxEvents)
      refine ⟨cut, ?_, ?_⟩
      · rw [hok]
        exact hbeginning.symm
      · rw [← enforceCaptureBudget_eq_self_iff]
        constructor
        · rintro rfl
          rw [List.append_nil] at hbeginning
          exact hbeginning
        · intro hself
          rw [hself] at hbeginning
          exact List.append_right_eq_self.mp hbeginning
  -- what was not taken into memory
  obtain ⟨dropped, hdropped⟩ := hsub.exists_perm_append
  have hdroppednil : dropped = [] ↔
      BatchFits str s.authority.backlogBuffer (arriving s.authority response) := by
    have hlen := hdropped.length_eq
    rw [List.length_append, eventsOf, List.length_map] at hlen
    rw [← hlength, ← List.length_eq_zero_iff]
    omega
  refine ⟨cut ++ dropped, ?_, ?_⟩
  · rw [hfetch]
    show (s.passed ++ _ ++ (fetchEvents str s.authority response maxEvents).2.backlogBuffer.queue ++
      (missing ++ (cut ++ dropped))).Perm (s.delivered ++ eventsOf (arriving s.authority response))
    rw [filled, hfilled, hcut] at hqueue
    generalize (fetchEvents str s.authority response maxEvents).1.toOption.getD [] = returned at *
    generalize (fetchEvents str s.authority response maxEvents).2.backlogBuffer.queue = left at *
    have hq : (s.queue : Multiset ChangeEvent) + kept = returned + cut + left :=
      congrArg ((↑) : List ChangeEvent → Multiset ChangeEvent) hqueue
    have hd : (eventsOf (arriving s.authority response) : Multiset ChangeEvent) = kept + dropped :=
      Multiset.coe_eq_coe.mpr hdropped
    have hm : (s.passed : Multiset ChangeEvent) + s.queue + missing = s.delivered :=
      Multiset.coe_eq_coe.mpr h
    refine Multiset.coe_eq_coe.mp ?_
    show (s.passed : Multiset ChangeEvent) + returned + left + (missing + (cut + dropped)) =
      s.delivered + eventsOf (arriving s.authority response)
    calc (s.passed : Multiset ChangeEvent) + returned + left + (missing + (cut + dropped))
        = s.passed + (returned + cut + left) + missing + dropped := by abel
      _ = s.passed + (s.queue + kept) + missing + dropped := by rw [hq]
      _ = (s.passed + s.queue + missing) + (kept + dropped) := by abel
      _ = s.delivered + eventsOf (arriving s.authority response) := by rw [hm, hd]
  · rw [List.append_eq_nil_iff, hcutnil, hdroppednil, and_comm]

theorem cycle_misses {missing : List ChangeEvent} (h : s.Misses missing) (maxEvents : ℤ) (c : Cycle) :
    ∃ lost, (s.cycle str schemaDepth likeMatchesBlobs maxEvents c).2.Misses (missing ++ lost) ∧
      (lost = [] ↔ s.CycleFits str maxEvents c) := by
  obtain ⟨lost, hperm, hlost⟩ := s.fetch_misses str h c.response maxEvents
  refine ⟨lost, ?_, hlost⟩
  have hpassed : (s.fetch str c.response maxEvents).2.passed = s.passed := rfl
  unfold cycle
  cases hfetch : s.fetch str c.response maxEvents with
  | mk result s' =>
    rw [hfetch] at hperm hpassed
    rw [← hpassed] at hperm
    cases result with
    | error exception =>
      rw [show (Except.error exception : Except FetchError (List ChangeEvent)).toOption.getD [] =
        [] from rfl, List.append_nil] at hperm
      exact hperm
    | ok events =>
      cases events with
      | nil =>
        rw [show (Except.ok [] : Except FetchError (List ChangeEvent)).toOption.getD [] =
          [] from rfl, List.append_nil] at hperm
        exact hperm
      | cons e events =>
        have hqueue : (s'.apply schemaDepth likeMatchesBlobs (e :: events) c.outcome).2.queue =
            s'.queue :=
          (applyEvents_frame schemaDepth likeMatchesBlobs s'.authority (e :: events) c.outcome).1
        have happlied : (s'.apply schemaDepth likeMatchesBlobs (e :: events) c.outcome).2.Misses
            (missing ++ lost) := by
          unfold Misses
          rw [hqueue]
          exact hperm
        dsimp only
        cases happly : s'.apply schemaDepth likeMatchesBlobs (e :: events) c.outcome with
        | mk count s'' =>
          rw [happly] at happlied
          cases count with
          | none => exact happlied
          | some n => exact happlied

/-- A call of `drain_and_sync` misses what does not fit. -/
theorem drainAndSync_misses (maxEvents : ℤ) (cs : List Cycle) : ∀ {s : SyncRun}
    {missing : List ChangeEvent}, s.Misses missing →
      ∃ lost, (drainAndSync str schemaDepth likeMatchesBlobs maxEvents cs s).2.Misses
          (missing ++ lost) ∧
        (lost = [] ↔ DrainFits str schemaDepth likeMatchesBlobs maxEvents cs s) := by
  induction cs with
  | nil =>
    intro s missing h
    refine ⟨[], ?_, iff_of_true rfl trivial⟩
    rw [List.append_nil]
    exact h
  | cons c cs ih =>
    intro s missing h
    obtain ⟨lost, hmisses, hlost⟩ := s.cycle_misses str schemaDepth likeMatchesBlobs h maxEvents c
    rw [drainAndSync, DrainFits]
    cases hcycle : s.cycle str schemaDepth likeMatchesBlobs maxEvents c with
    | mk cycleEnd s' =>
      rw [hcycle] at hmisses
      cases cycleEnd with
      | raised => exact ⟨lost, hmisses, by simp [hlost]⟩
      | last n => exact ⟨lost, hmisses, by simp [hlost]⟩
      | more n =>
        obtain ⟨lost', hmisses', hlost'⟩ := ih hmisses
        refine ⟨lost ++ lost', ?_, ?_⟩
        · rw [← List.append_assoc]
          exact hmisses'
        · rw [List.append_eq_nil_iff, hlost, hlost']
          refine and_congr_right fun _ => ⟨?_, ?_⟩
          · rintro hfits m s'' hs''
            cases hs''
            exact hfits
          · intro hfits
            exact hfits n s' rfl

theorem conserved_iff {missing : List ChangeEvent} (h : s.Misses missing) :
    s.Conserved ↔ missing = [] := by
  constructor
  · intro hconserved
    have hlen := h.length_eq
    rw [List.length_append, hconserved.length_eq] at hlen
    exact List.length_eq_zero_iff.mp (by omega)
  · rintro rfl
    rw [Misses, List.append_nil] at h
    exact h

end SyncRun

/-! ## Runs -/

/-- `set_capture_budget`: nothing changes when it raises, though a count that is accepted is set
before the bytes are looked at. -/
def setCaptureBudget (auth : CDCAuthority) (maxEventsPerFetch maxFetchBytesSec : Option ℤ) :
    CDCAuthority :=
  match maxEventsPerFetch with
  | some n =>
    if n ≤ 0 then auth
    else
      match maxFetchBytesSec with
      | some bytes =>
        if bytes ≤ 0 then { auth with maxEventsPerFetch := n }
        else { auth with maxEventsPerFetch := n, maxFetchBytesSec := bytes }
      | none => { auth with maxEventsPerFetch := n }
  | none =>
    match maxFetchBytesSec with
    | some bytes => if bytes ≤ 0 then auth else { auth with maxFetchBytesSec := bytes }
    | none => auth

/-- A call of `drain_and_sync`, with the turns its loop takes, or of `set_capture_budget`. -/
inductive SyncAction where
  | drain (maxEvents : ℤ) (cycles : List Cycle)
  | setBudget (maxEventsPerFetch maxFetchBytesSec : Option ℤ)

namespace SyncRun

variable (str : PyItems → String) (schemaDepth : String → Option ℤ) (likeMatchesBlobs : Bool)

/-- The step of a call. -/
def syncStep (s : SyncRun) : SyncAction → Option SyncRun
  | .drain maxEvents cycles =>
    some (drainAndSync str schemaDepth likeMatchesBlobs maxEvents cycles s).2
  | .setBudget maxEventsPerFetch maxFetchBytesSec =>
    some { s with authority := setCaptureBudget s.authority maxEventsPerFetch maxFetchBytesSec }

/-- All turns of the call fit. -/
def SyncFits (s : SyncRun) : SyncAction → Prop
  | .drain maxEvents cycles => DrainFits str schemaDepth likeMatchesBlobs maxEvents cycles s
  | .setBudget _ _ => True

theorem setCaptureBudget_backlogBuffer (auth : CDCAuthority) (n bytes : Option ℤ) :
    (setCaptureBudget auth n bytes).backlogBuffer = auth.backlogBuffer := by
  unfold setCaptureBudget
  repeat' split
  all_goals rfl

/-- **No event is lost.**  A fetch returns the events it removes from the backlog precisely when they
are within the capture budget, and the runs of `drain_and_sync` in which every delivered event stays
in the backlog or is passed to `apply_events` are those whose turns all fit. -/
theorem conserves_iff : (∀ auth response maxEvents, ReturnsRemoved str auth response maxEvents ↔
      FitsBudget str auth (popped str auth response maxEvents)) ∧
    ∀ (auth : CDCAuthority) (as : List SyncAction),
      HoldsAlong (syncStep str schemaDepth likeMatchesBlobs) Conserved (start auth) as ↔
        MeetsAlong (syncStep str schemaDepth likeMatchesBlobs)
          (SyncFits str schemaDepth likeMatchesBlobs) (start auth) as := by
  refine ⟨returnsRemoved_iff str, fun auth as => ?_⟩
  have hstep : ∀ (s : SyncRun) (a : SyncAction) (s' : SyncRun) (missing : List ChangeEvent),
      s.Misses missing → syncStep str schemaDepth likeMatchesBlobs s a = some s' →
        ∃ lost, s'.Misses (missing ++ lost) ∧
          (lost = [] ↔ s.SyncFits str schemaDepth likeMatchesBlobs a) := by
    intro s a s' missing h hs'
    cases a with
    | drain maxEvents cycles =>
      cases hs'
      exact drainAndSync_misses str schemaDepth likeMatchesBlobs maxEvents cycles h
    | setBudget n bytes =>
      cases hs'
      refine ⟨[], ?_, iff_of_true rfl trivial⟩
      show (s.passed ++ (setCaptureBudget s.authority n bytes).backlogBuffer.queue ++ _).Perm _
      rw [setCaptureBudget_backlogBuffer, List.append_nil]
      exact h
  have hstart : (start auth).Misses [] := by
    unfold Misses start
    rw [List.nil_append, List.append_nil]
  refine holdsAlong_iff_meetsAlong (I := fun s : SyncRun => ∃ missing, s.Misses missing) ?_ ?_
    ⟨[], hstart⟩ (((start auth).conserved_iff hstart).mpr rfl) as
  · rintro s a s' ⟨missing, h⟩ hs'
    obtain ⟨lost, hlost, -⟩ := hstep s a s' missing h hs'
    exact ⟨_, hlost⟩
  · rintro s a s' - hconserved hs'
    have hnone : s.Misses [] := by
      unfold Misses
      rw [List.append_nil]
      exact hconserved
    obtain ⟨lost, hlost, hfits⟩ := hstep s a s' [] hnone hs'
    rw [s'.conserved_iff hlost, List.nil_append, hfits]

/-- An authority without durable storage that fetches one event at a time. -/
def frugalAuthority : CDCAuthority where
  maxEventsPerFetch := 1
  maxFetchBytesSec := 10485760
  isCdcPaused := false
  hasAdapter := true
  backlogBuffer := CDCBacklogBuffer.new 67108864 "default" none none
  cutoverState := .snapshotPreparing
  eventsCapturedTotal := 0
  eventsAppliedTotal := 0

/-- Two inserts of an adapter. -/
def twoInserts : List Delivered :=
  [⟨sampleEvent "e1" "0/1" .insert none, true, true⟩, ⟨sampleEvent "e2" "0/2" .insert none, true, true⟩]

/-- **A capture budget of one event** loses the second of two. -/
theorem not_conserves_of_small_budget :
    ¬ ReturnsRemoved (fun _ => "") frugalAuthority (some twoInserts) 5000 ∧
    ¬ HoldsAlong (syncStep (fun _ => "") (fun _ => none) false) Conserved (start frugalAuthority)
        [.drain 5000 [⟨some twoInserts, ⟨none, fun _ => true⟩⟩]] := by
  constructor
  · intro h
    have hlength := congrArg List.length (h _ _ rfl)
    revert hlength
    decide +kernel
  · intro h
    have hlength := (h.finish rfl).length_eq
    revert hlength
    decide +kernel

end SyncRun

end EngineCDC

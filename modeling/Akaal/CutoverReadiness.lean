/-
# Reaching the cutover

`process_ddl_event`, `initialize_stream`, `start_capture`, `evaluate_cutover_readiness` and
`execute_atomic_cutover` of `akaalEngine/cdc/api.py`, with the other operations on the backlog.

* `drainAndSync_covers` : a drain whose turns fit and apply what they take accounts for all events;
* `drainAndSync_empties` : it returns with an empty queue, unless the stream is paused;
* `settled_of_keepsSettled` : the runs in which the cutover is reached with nothing left to apply;
* `not_settled_of_rejected_ddl` : a paused stream.

The condition is on each call of a run; for the two cutover calls it includes that the stream is not
paused over a backlog.
-/
import Akaal.BacklogOrder

open CDC TransitionRun

namespace EngineCDC

/-! ## Pausing and resuming -/

/-- What `evaluate_schema_compatibility` answers. -/
inductive SchemaVerdict where
  | compatible
  | incompatible
  | raised
  deriving DecidableEq

/-- The exceptions of `process_ddl_event`. -/
inductive DdlError where
  | schemaChange (eventId : String)
  | verdictRaised
  deriving DecidableEq

/-- `process_ddl_event`; there is no verdict without a schema authority that can give one. -/
def processDdlEvent (auth : CDCAuthority) (e : ChangeEvent) (verdict : Option SchemaVerdict) :
    Except DdlError Bool × CDCAuthority :=
  if e.operation ≠ .ddl then (.ok false, auth)
  else
    match verdict with
    | none | some .compatible => (.ok true, { auth with isCdcPaused := false })
    -- the stream stays paused when the verdict is an exception
    | some .incompatible => (.error (.schemaChange e.eventId), { auth with isCdcPaused := true })
    | some .raised => (.error .verdictRaised, { auth with isCdcPaused := true })

/-- The stream is resumed, and the cutover state is set when the adapter does not raise. -/
def resumeStream (state : CutoverState) (auth : CDCAuthority) (adapterReturns : Bool) :
    CDCAuthority :=
  { auth with
    isCdcPaused := false
    cutoverState := if adapterReturns then state else auth.cutoverState }

/-- `initialize_stream`. -/
def initializeStream : CDCAuthority → Bool → CDCAuthority := resumeStream .captureStarting

/-- `start_capture`. -/
def startCapture : CDCAuthority → Bool → CDCAuthority := resumeStream .snapshotRunning

/-! ## What a drain leaves -/

namespace SyncRun

variable (str : PyItems → String) (schemaDepth : String → Option ℤ) (likeMatchesBlobs : Bool)
variable (s : SyncRun)

/-- Every delivered event is applied, in the backlog or held outside. -/
def Covers (held : List ChangeEvent) : Prop :=
  s.delivered.Subperm (s.applied ++ s.queue ++ held)

/-- A turn that fits and applies what it takes from the queue. -/
def CycleSettles (maxEvents : ℤ) (c : Cycle) : Prop :=
  s.CycleFits str maxEvents c ∧
    (popped str s.authority c.response maxEvents ≠ [] → c.outcome.stopsAfter = none)

/-- The turns that are taken fit and apply what they take. -/
def DrainSettles (maxEvents : ℤ) : List Cycle → SyncRun → Prop
  | [], _ => True
  | c :: cs, s => s.CycleSettles str maxEvents c ∧
      ∀ n s', s.cycle str schemaDepth likeMatchesBlobs maxEvents c = (.more n, s') →
        DrainSettles maxEvents cs s'

/-- A fetch that fits moves events: what arrives and what was queued is returned or queued. -/
theorem fetch_perm (response : Option (List Delivered)) (maxEvents : ℤ)
    (hfits : BatchFits str s.authority.backlogBuffer (arriving s.authority response))
    (hbudget : FitsBudget str s.authority (popped str s.authority response maxEvents)) :
    (((s.fetch str response maxEvents).1.toOption.getD []) ++
      (s.fetch str response maxEvents).2.queue).Perm
        (s.queue ++ eventsOf (arriving s.authority response)) := by
  -- the events already passed on play no part in a fetch
  have hstart : ({ s with passed := [], delivered := s.queue } : SyncRun).Misses [] := by
    unfold Misses
    rw [List.append_nil]
    exact List.Perm.refl _
  obtain ⟨lost, hperm, hlost⟩ := fetch_misses str _ hstart response maxEvents
  rw [hlost.mpr ⟨hfits, hbudget⟩, List.append_nil, List.append_nil] at hperm
  exact hperm

/-- What a fetch returns, when it fits, is what it takes from the queue. -/
theorem fetch_ok {response : Option (List Delivered)} {maxEvents : ℤ} {events : List ChangeEvent}
    {s' : SyncRun} (hbudget : FitsBudget str s.authority (popped str s.authority response maxEvents))
    (hfetch : s.fetch str response maxEvents = (.ok events, s')) :
    popped str s.authority response maxEvents = events := by
  have hresult := (fetchEvents_spec str s.authority response maxEvents).2.2
  have hok : (fetchEvents str s.authority response maxEvents).1 = .ok events :=
    congrArg Prod.fst hfetch
  rw [hok, (enforceCaptureBudget_eq_self_iff str _ _).mpr hbudget] at hresult
  rcases hresult with ⟨exception, herror, -⟩ | hevents
  · cases herror
  · exact (Except.ok.inj hevents).symm

theorem Covers.move {s s' : SyncRun} {held arrived events : List ChangeEvent} (h : s.Covers held)
    (hdelivered : s'.delivered = s.delivered ++ arrived) (happlied : s'.applied = s.applied ++ events)
    (hperm : (events ++ s'.queue).Perm (s.queue ++ arrived)) : s'.Covers held := by
  unfold Covers at *
  rw [hdelivered, happlied]
  rw [← Multiset.coe_le] at *
  have hq : (events : Multiset ChangeEvent) + s'.queue = s.queue + arrived :=
    Multiset.coe_eq_coe.mpr hperm
  calc (s.delivered : Multiset ChangeEvent) + arrived
      ≤ (s.applied + s.queue + held) + arrived := by gcongr; exact h
    _ = s.applied + (s.queue + arrived) + held := by abel
    _ = s.applied + (events + s'.queue) + held := by rw [hq]
    _ = s.applied + events + s'.queue + held := by abel

theorem cycle_covers {held : List ChangeEvent} (h : s.Covers held) {maxEvents : ℤ} {c : Cycle}
    (hsettles : s.CycleSettles str maxEvents c) :
    (s.cycle str schemaDepth likeMatchesBlobs maxEvents c).2.Covers held := by
  obtain ⟨⟨hfits, hbudget⟩, happlies⟩ := hsettles
  have hperm := s.fetch_perm str c.response maxEvents hfits hbudget
  have hdelivered : (s.fetch str c.response maxEvents).2.delivered =
      s.delivered ++ eventsOf (arriving s.authority c.response) := rfl
  have happlied : (s.fetch str c.response maxEvents).2.applied = s.applied := rfl
  unfold cycle
  cases hfetch : s.fetch str c.response maxEvents with
  | mk result s' =>
    rw [hfetch] at hperm hdelivered happlied
    cases result with
    | error exception =>
      exact h.move hdelivered (happlied.trans (List.append_nil _).symm) hperm
    | ok events =>
      have hpopped := s.fetch_ok str hbudget hfetch
      cases events with
      | nil => exact h.move hdelivered (happlied.trans (List.append_nil _).symm) hperm
      | cons e events =>
        have hreturns : c.outcome.stopsAfter = none :=
          happlies (by rw [hpopped]; exact List.cons_ne_nil e events)
        have hqueue := (applyEvents_frame schemaDepth likeMatchesBlobs s'.authority
          (e :: events) c.outcome).1
        have happly : (applyEvents schemaDepth likeMatchesBlobs s'.authority (e :: events)
            c.outcome).1 = some (orderedEvents schemaDepth (e :: events)).length := by
          rw [applyEvents, if_neg (List.cons_ne_nil e events), hreturns]
        dsimp only [apply]
        rw [happly]
        refine @Covers.move s _ held _ (e :: events) h hdelivered ?_ (List.Perm.trans ?_ hperm)
        · show s'.applied ++ (e :: events) = _
          rw [happlied]
        · show ((e :: events) ++ (applyEvents schemaDepth likeMatchesBlobs s'.authority
            (e :: events) c.outcome).2.backlogBuffer.queue).Perm _
          rw [hqueue]
          exact List.Perm.refl _

/-- **A drain whose turns settle** keeps all events accounted for. -/
theorem drainAndSync_covers {held : List ChangeEvent} (maxEvents : ℤ) (cs : List Cycle) :
    ∀ {s : SyncRun}, s.Covers held → DrainSettles str schemaDepth likeMatchesBlobs maxEvents cs s →
      (drainAndSync str schemaDepth likeMatchesBlobs maxEvents cs s).2.Covers held := by
  induction cs with
  | nil =>
    intro s h _
    exact h
  | cons c cs ih =>
    intro s h hsettles
    have hcycle := s.cycle_covers str schemaDepth likeMatchesBlobs h hsettles.1
    rw [drainAndSync]
    cases hturn : s.cycle str schemaDepth likeMatchesBlobs maxEvents c with
    | mk cycleEnd s' =>
      rw [hturn] at hcycle
      cases cycleEnd with
      | raised => exact hcycle
      | last n => exact hcycle
      | more n => exact ih hcycle (hsettles.2 n s' hturn)

theorem cycle_isCdcPaused (maxEvents : ℤ) (c : Cycle) :
    (s.cycle str schemaDepth likeMatchesBlobs maxEvents c).2.authority.isCdcPaused =
      s.authority.isCdcPaused := by
  have hpaused := (fetchEvents_frame str s.authority c.response maxEvents).2.2.1
  unfold cycle fetch
  cases hfetch : fetchEvents str s.authority c.response maxEvents with
  | mk result auth =>
    rw [hfetch] at hpaused
    cases result with
    | error exception => exact hpaused
    | ok events =>
      cases events with
      | nil => exact hpaused
      | cons e events =>
        dsimp only [apply]
        have happly := (applyEvents_frame schemaDepth likeMatchesBlobs auth (e :: events)
          c.outcome).2
        cases (applyEvents schemaDepth likeMatchesBlobs auth (e :: events) c.outcome).1 with
        | none => exact happly.trans hpaused
        | some n => exact happly.trans hpaused

/-- A fetch that returns has taken what it may from the queue. -/
theorem fetch_takes {response : Option (List Delivered)} {maxEvents : ℤ}
    {events : List ChangeEvent} {s' : SyncRun} (hpaused : s.authority.isCdcPaused = false)
    (hfetch : s.fetch str response maxEvents = (.ok events, s')) :
    popped str s.authority response maxEvents =
        (filled str s.authority response).queue.take maxEvents.toNat ∧
      s'.queue = (filled str s.authority response).queue.drop maxEvents.toNat := by
  have hqueue := (fetchEvents_spec str s.authority response maxEvents).1
  have hok : (fetchEvents str s.authority response maxEvents).1 = .ok events :=
    congrArg Prod.fst hfetch
  have hs' : (fetchEvents str s.authority response maxEvents).2.backlogBuffer.queue = s'.queue :=
    congrArg (fun r => r.2.queue) hfetch
  have htakes : popped str s.authority response maxEvents =
      (filled str s.authority response).queue.take maxEvents.toNat := by
    unfold popped
    refine if_pos ⟨hpaused, ?_, ?_⟩
    · intro hadapter
      cases response with
      | some batch => rfl
      | none =>
        rw [fetchEvents, if_neg (by simp [hpaused]), if_pos hadapter] at hok
        cases hok
    · unfold arriving
      by_cases hadapter : s.authority.hasAdapter = true
      · rw [if_pos ⟨hpaused, hadapter⟩]
        cases response with
        | none => rfl
        | some batch =>
          rw [fetchEvents, if_neg (by simp [hpaused]), if_pos hadapter] at hok
          show (pushAll str batch s.authority.backlogBuffer).1 = .ok ()
          dsimp only at hok
          cases hpush : pushAll str batch s.authority.backlogBuffer with
          | mk result b =>
            rw [hpush] at hok
            cases result with
            | error exception => cases hok
            | ok _ => rfl
      · rw [if_neg (fun h => hadapter h.2)]
        rfl
  refine ⟨htakes, ?_⟩
  rw [htakes, hs'] at hqueue
  have hwhole := List.take_append_drop maxEvents.toNat (filled str s.authority response).queue
  exact (List.append_cancel_left (hwhole.trans hqueue)).symm

/-- A turn after which the loop ends leaves nothing in the queue, unless the stream is paused. -/
theorem cycle_empties {maxEvents : ℤ} {c : Cycle} (hpos : 0 < maxEvents)
    (hpaused : s.authority.isCdcPaused = false)
    (hbudget : FitsBudget str s.authority (popped str s.authority c.response maxEvents))
    {n : ℕ} {s' : SyncRun}
    (hcycle : s.cycle str schemaDepth likeMatchesBlobs maxEvents c = (.last n, s')) :
    s'.queue = [] := by
  unfold cycle at hcycle
  cases hfetch : s.fetch str c.response maxEvents with
  | mk result s₁ =>
    rw [hfetch] at hcycle
    cases result with
    | error exception => cases hcycle
    | ok events =>
      obtain ⟨htakes, hleft⟩ := s.fetch_takes str hpaused hfetch
      rw [s.fetch_ok str hbudget hfetch] at htakes
      -- fewer events than the loop asks for are all there are
      have hempty : (events.length : ℤ) < maxEvents → s₁.queue = [] := by
        intro hfew
        rw [hleft, List.drop_eq_nil_iff]
        have hlength := congrArg List.length htakes
        rw [List.length_take] at hlength
        omega
      cases events with
      | nil =>
        obtain rfl := (Prod.mk.inj hcycle).2
        exact hempty hpos
      | cons e events =>
        have hqueue := (applyEvents_frame schemaDepth likeMatchesBlobs s₁.authority
          (e :: events) c.outcome).1
        dsimp only [apply] at hcycle
        cases hcount : (applyEvents schemaDepth likeMatchesBlobs s₁.authority (e :: events)
            c.outcome).1 with
        | none =>
          rw [hcount] at hcycle
          cases hcycle
        | some m =>
          rw [hcount] at hcycle
          obtain ⟨hend, rfl⟩ := Prod.mk.inj hcycle
          split_ifs at hend with hfew
          exact hqueue.trans (hempty hfew)

/-- A drain that returns leaves nothing in the queue, unless the stream is paused over a backlog. -/
theorem drainAndSync_empties {maxEvents : ℤ} (hpos : 0 < maxEvents) (cs : List Cycle) :
    ∀ {s s' : SyncRun} {n : ℕ}, s.authority.isCdcPaused = false ∨ s.queue = [] →
      DrainSettles str schemaDepth likeMatchesBlobs maxEvents cs s →
      drainAndSync str schemaDepth likeMatchesBlobs maxEvents cs s = (.returned n, s') →
      s'.queue = [] := by
  induction cs with
  | nil =>
    intro s s' n _ _ hdrain
    cases hdrain
  | cons c cs ih =>
    intro s s' n hready hsettles hdrain
    have hpaused := s.cycle_isCdcPaused str schemaDepth likeMatchesBlobs maxEvents c
    cases hstream : s.authority.isCdcPaused with
    | true =>
      -- a paused stream hands out nothing
      have hnone : fetchEvents str s.authority c.response maxEvents = (.ok [], s.authority) :=
        if_pos hstream
      have hcycle : s.cycle str schemaDepth likeMatchesBlobs maxEvents c = (.last 0, s) := by
        unfold cycle fetch
        rw [hnone, arriving, if_neg (by simp [hstream])]
        simp [eventsOf]
      rw [drainAndSync, hcycle] at hdrain
      obtain rfl := (Prod.mk.inj hdrain).2
      exact hready.resolve_left (by simp [hstream])
    | false =>
      rw [drainAndSync] at hdrain
      cases hturn : s.cycle str schemaDepth likeMatchesBlobs maxEvents c with
      | mk cycleEnd s₁ =>
        rw [hturn] at hdrain hpaused
        cases cycleEnd with
        | raised => cases hdrain
        | last m =>
          obtain rfl := (Prod.mk.inj hdrain).2
          exact s.cycle_empties str schemaDepth likeMatchesBlobs hpos hstream
            hsettles.1.1.2 hturn
        | more m =>
          dsimp only at hdrain
          cases hrest : drainAndSync str schemaDepth likeMatchesBlobs maxEvents cs s₁ with
          | mk drainEnd s₂ =>
            rw [hrest] at hdrain
            obtain ⟨hend, rfl⟩ := Prod.mk.inj hdrain
            cases drainEnd with
            | raised => cases hend
            | running total => cases hend
            | returned total =>
              exact ih (.inl (hpaused.trans hstream)) (hsettles.2 m s₁ hturn) hrest

/-! ## The cutover calls -/

/-- `evaluate_cutover_readiness`, and whether it gets to the end. -/
def evaluateCutoverReadiness (cycles : List Cycle) : Bool × SyncRun :=
  match drainAndSync str schemaDepth likeMatchesBlobs 5000 cycles s with
  | (.returned _, s) =>
    (true, { s with authority := { s.authority with cutoverState := .technicalCutoverReady } })
  | (_, s) => (false, s)

/-- `execute_atomic_cutover`, and whether it gets to the end: `execute_cutover` of the adapter may
raise. -/
def executeAtomicCutover (cycles : List Cycle) (adapterReturns : Bool) : Bool × SyncRun :=
  match drainAndSync str schemaDepth likeMatchesBlobs 5000 cycles s with
  | (.returned _, s) =>
    if adapterReturns then
      (true, { s with authority := { s.authority with cutoverState := .cutoverComplete } })
    else (false, s)
  | (_, s) => (false, s)

end SyncRun

/-- What there is when a cutover call gets to its end. -/
structure Arrival where
  queue : List ChangeEvent
  delivered : List ChangeEvent
  applied : List ChangeEvent

/-- The drains, the events that `fetch_events` returned to a caller, those that a caller passed to an
`apply_events` that returned, and a record of the cutover calls that got to their end. -/
structure CutoverRun where
  sync : SyncRun
  returned : List ChangeEvent
  handled : List ChangeEvent
  arrivals : List Arrival

/-- A call of one of the operations. -/
inductive CutoverAction where
  | drain (maxEvents : ℤ) (cycles : List Cycle)
  | setBudget (maxEventsPerFetch maxFetchBytesSec : Option ℤ)
  | fetch (response : Option (List Delivered)) (maxEvents : ℤ)
  | apply (events : List ChangeEvent) (outcome : ApplyOutcome)
  | processDdl (e : ChangeEvent) (verdict : Option SchemaVerdict)
  | initializeStream (adapterReturns : Bool)
  | startCapture (adapterReturns : Bool)
  | setAdapter (hasAdapter : Bool)
  | abort
  | recover (sessionId : Option String)
  | evaluate (cycles : List Cycle)
  | execute (cycles : List Cycle) (adapterReturns : Bool)

namespace CutoverRun

/-- An authority whose backlog may hold events already. -/
def start (auth : CDCAuthority) : CutoverRun := ⟨SyncRun.start auth, [], [], []⟩

variable (str : PyItems → String) (schemaDepth : String → Option ℤ) (likeMatchesBlobs : Bool)
variable (s : CutoverRun)

/-- Another authority, with the same record. -/
def withAuthority (auth : CDCAuthority) : CutoverRun :=
  { s with sync := { s.sync with authority := auth } }

/-- The record after a cutover call. -/
def arrive (call : Bool × SyncRun) : CutoverRun :=
  { s with
    sync := call.2
    arrivals := if call.1 then
        s.arrivals ++ [⟨call.2.queue, call.2.delivered, call.2.applied ++ s.handled⟩]
      else s.arrivals }

/-- The step of a call. -/
def cutoverStep (s : CutoverRun) : CutoverAction → Option CutoverRun
  | .drain maxEvents cycles => some { s with
      sync := (SyncRun.drainAndSync str schemaDepth likeMatchesBlobs maxEvents cycles s.sync).2 }
  | .setBudget n bytes => some (s.withAuthority (setCaptureBudget s.sync.authority n bytes))
  | .fetch response maxEvents =>
    let (result, sync) := s.sync.fetch str response maxEvents
    some { s with sync := sync, returned := s.returned ++ result.toOption.getD [] }
  | .apply events outcome =>
    let (count, auth) :=
      applyEvents schemaDepth likeMatchesBlobs s.sync.authority events outcome
    some { s.withAuthority auth with
      handled := if count.isSome then s.handled ++ events else s.handled }
  | .processDdl e verdict => some (s.withAuthority (processDdlEvent s.sync.authority e verdict).2)
  | .initializeStream adapterReturns =>
    some (s.withAuthority (EngineCDC.initializeStream s.sync.authority adapterReturns))
  | .startCapture adapterReturns =>
    some (s.withAuthority (EngineCDC.startCapture s.sync.authority adapterReturns))
  | .setAdapter hasAdapter =>
    some (s.withAuthority { s.sync.authority with hasAdapter := hasAdapter })
  | .abort => some (s.withAuthority (abortPreCutover s.sync.authority))
  | .recover sessionId =>
    some (s.withAuthority (recoverFromDurability str s.sync.authority sessionId).2)
  | .evaluate cycles =>
    some (s.arrive (s.sync.evaluateCutoverReadiness str schemaDepth likeMatchesBlobs cycles))
  | .execute cycles adapterReturns => some (s.arrive
      (s.sync.executeAtomicCutover str schemaDepth likeMatchesBlobs cycles adapterReturns))

/-- **The cutover is reached with nothing left**: whenever a cutover call got to its end, the queue
was empty and every event that the adapter had delivered was applied. -/
def Settled : Prop := ∀ a ∈ s.arrivals, a.queue = [] ∧ a.delivered.Subperm a.applied

/-- A cutover call that may get to its end: the turns of its drain settle; and, when the drain
returns, the stream was not paused over a backlog, and what callers of `fetch_events` took has been
applied. -/
def MayArrive (cycles : List Cycle) : Prop :=
  SyncRun.DrainSettles str schemaDepth likeMatchesBlobs 5000 cycles s.sync ∧
    ∀ n s', SyncRun.drainAndSync str schemaDepth likeMatchesBlobs 5000 cycles s.sync =
        (.returned n, s') →
      (s.sync.authority.isCdcPaused = false ∨ s.sync.queue = []) ∧ s.returned.Subperm s.handled

/-- A call that neither loses an event nor reaches the cutover too early. -/
def KeepsSettled (s : CutoverRun) : CutoverAction → Prop
  | .drain maxEvents cycles =>
    SyncRun.DrainSettles str schemaDepth likeMatchesBlobs maxEvents cycles s.sync
  | .fetch response maxEvents =>
    BatchFits str s.sync.authority.backlogBuffer (arriving s.sync.authority response) ∧
      FitsBudget str s.sync.authority (popped str s.sync.authority response maxEvents)
  | .abort => s.sync.queue = []
  | .recover sessionId => ∀ store ∈ s.sync.authority.backlogBuffer.queueStore,
      s.sync.queue.Subperm (CDCBacklogBuffer.readableEvents (store.select
        (queueName (orDefault sessionId s.sync.authority.backlogBuffer.sessionId))))
  | .evaluate cycles | .execute cycles _ => s.MayArrive str schemaDepth likeMatchesBlobs cycles
  | .setBudget _ _ | .apply _ _ | .processDdl _ _ | .initializeStream _ | .startCapture _
  | .setAdapter _ => True

/-- A call that is a drain as far as the events are concerned, and gets to its end only when the
drain returns. -/
structure Drains (call : Bool × SyncRun) (drained : DrainEnd × SyncRun) : Prop where
  queue : call.2.queue = drained.2.queue
  delivered : call.2.delivered = drained.2.delivered
  applied : call.2.applied = drained.2.applied
  returned : call.1 = true → ∃ n, drained.1 = .returned n

theorem drains_evaluate (sync : SyncRun) (cycles : List Cycle) :
    Drains (sync.evaluateCutoverReadiness str schemaDepth likeMatchesBlobs cycles)
      (SyncRun.drainAndSync str schemaDepth likeMatchesBlobs 5000 cycles sync) := by
  unfold SyncRun.evaluateCutoverReadiness
  cases SyncRun.drainAndSync str schemaDepth likeMatchesBlobs 5000 cycles sync with
  | mk drainEnd sync' =>
    cases drainEnd with
    | raised => exact ⟨rfl, rfl, rfl, fun h => by cases h⟩
    | returned n => exact ⟨rfl, rfl, rfl, fun _ => ⟨n, rfl⟩⟩
    | running n => exact ⟨rfl, rfl, rfl, fun h => by cases h⟩

theorem drains_execute (sync : SyncRun) (cycles : List Cycle) (adapterReturns : Bool) :
    Drains (sync.executeAtomicCutover str schemaDepth likeMatchesBlobs cycles adapterReturns)
      (SyncRun.drainAndSync str schemaDepth likeMatchesBlobs 5000 cycles sync) := by
  unfold SyncRun.executeAtomicCutover
  cases SyncRun.drainAndSync str schemaDepth likeMatchesBlobs 5000 cycles sync with
  | mk drainEnd sync' =>
    cases drainEnd with
    | raised => exact ⟨rfl, rfl, rfl, fun h => by cases h⟩
    | running n => exact ⟨rfl, rfl, rfl, fun h => by cases h⟩
    | returned n =>
      cases adapterReturns with
      | true => exact ⟨rfl, rfl, rfl, fun _ => ⟨n, rfl⟩⟩
      | false => exact ⟨rfl, rfl, rfl, fun h => by cases h⟩

/-- Nothing was reached too early, and every delivered event is accounted for. -/
def Accounted : Prop := s.Settled ∧ s.sync.Covers s.returned

theorem Accounted.withAuthority {s : CutoverRun} (h : s.Accounted) {auth : CDCAuthority}
    (hqueue : s.sync.queue.Subperm auth.backlogBuffer.queue) :
    (s.withAuthority auth).Accounted := by
  refine ⟨h.1, h.2.trans ?_⟩
  show (s.sync.applied ++ s.sync.queue ++ s.returned).Subperm
    (s.sync.applied ++ auth.backlogBuffer.queue ++ s.returned)
  rw [← Multiset.coe_le] at *
  show (s.sync.applied : Multiset ChangeEvent) + s.sync.queue + s.returned ≤
    s.sync.applied + auth.backlogBuffer.queue + s.returned
  gcongr

/-- A cutover call that may get to its end does so with nothing left. -/
theorem Accounted.arrive {s : CutoverRun} (h : s.Accounted) {cycles : List Cycle}
    (hmay : s.MayArrive str schemaDepth likeMatchesBlobs cycles) {call : Bool × SyncRun}
    (hcall : Drains call
      (SyncRun.drainAndSync str schemaDepth likeMatchesBlobs 5000 cycles s.sync)) :
    (s.arrive call).Accounted := by
  obtain ⟨hsettled, hcovers⟩ := h
  have hafter := SyncRun.drainAndSync_covers str schemaDepth likeMatchesBlobs 5000 cycles hcovers
    hmay.1
  have hcovers' : call.2.Covers s.returned := by
    unfold SyncRun.Covers
    rw [hcall.delivered, hcall.applied, hcall.queue]
    exact hafter
  refine ⟨?_, hcovers'⟩
  intro a ha
  unfold CutoverRun.arrive at ha
  cases hreached : call.1 with
  | false =>
    rw [hreached] at ha
    exact hsettled a ha
  | true =>
    rw [hreached] at ha
    rcases List.mem_append.mp ha with hbefore | hnow
    · exact hsettled a hbefore
    · obtain rfl := List.mem_singleton.mp hnow
      obtain ⟨n, hreturned⟩ := hcall.returned hreached
      have hdrain := Prod.ext (y := (DrainEnd.returned n, _)) hreturned rfl
      obtain ⟨hready, htaken⟩ := hmay.2 n _ hdrain
      have hempty : call.2.queue = [] := hcall.queue.trans
        (SyncRun.drainAndSync_empties str schemaDepth likeMatchesBlobs (by decide) cycles hready
          hmay.1 hdrain)
      refine ⟨hempty, ?_⟩
      unfold SyncRun.Covers at hcovers'
      rw [hempty, List.append_nil] at hcovers'
      exact hcovers'.trans ((List.subperm_append_left _).mpr htaken)

/-- **What a step keeps.** -/
theorem Accounted.step {s s' : CutoverRun} {a : CutoverAction} (h : s.Accounted)
    (hkeeps : s.KeepsSettled str schemaDepth likeMatchesBlobs a)
    (hstep : cutoverStep str schemaDepth likeMatchesBlobs s a = some s') : s'.Accounted := by
  have hsame : s.sync.queue.Subperm s.sync.queue := List.Subperm.refl _
  cases a with
  | drain maxEvents cycles =>
    cases hstep
    exact ⟨h.1, SyncRun.drainAndSync_covers str schemaDepth likeMatchesBlobs maxEvents cycles h.2
      hkeeps⟩
  | setBudget n bytes =>
    cases hstep
    refine h.withAuthority ?_
    rw [SyncRun.setCaptureBudget_backlogBuffer]
  | fetch response maxEvents =>
    cases hstep
    have hperm := s.sync.fetch_perm str response maxEvents hkeeps.1 hkeeps.2
    refine ⟨h.1, ?_⟩
    have hcovers := h.2
    show (s.sync.delivered ++ eventsOf (arriving s.sync.authority response)).Subperm
      (s.sync.applied ++ (s.sync.fetch str response maxEvents).2.queue ++
        (s.returned ++ (s.sync.fetch str response maxEvents).1.toOption.getD []))
    generalize (s.sync.fetch str response maxEvents).1.toOption.getD [] = taken at *
    generalize (s.sync.fetch str response maxEvents).2.queue = left at *
    unfold SyncRun.Covers at hcovers
    rw [← Multiset.coe_le] at *
    have hq : (taken : Multiset ChangeEvent) + left =
        s.sync.queue + eventsOf (arriving s.sync.authority response) :=
      Multiset.coe_eq_coe.mpr hperm
    calc (s.sync.delivered : Multiset ChangeEvent) + eventsOf (arriving s.sync.authority response)
        ≤ (s.sync.applied + s.sync.queue + s.returned) +
            eventsOf (arriving s.sync.authority response) := by gcongr; exact hcovers
      _ = s.sync.applied + (s.sync.queue + eventsOf (arriving s.sync.authority response)) +
            s.returned := by abel
      _ = s.sync.applied + (taken + left) + s.returned := by rw [hq]
      _ = s.sync.applied + left + (s.returned + taken) := by abel
  | apply events outcome =>
    cases hstep
    have hqueue := (applyEvents_frame schemaDepth likeMatchesBlobs s.sync.authority events
      outcome).1
    exact h.withAuthority (hqueue ▸ hsame)
  | processDdl e verdict =>
    cases hstep
    refine h.withAuthority ?_
    unfold processDdlEvent
    split_ifs
    · exact hsame
    · rcases verdict with _ | _ | _ | _
      all_goals exact hsame
  | initializeStream adapterReturns =>
    cases hstep
    exact h.withAuthority hsame
  | startCapture adapterReturns =>
    cases hstep
    exact h.withAuthority hsame
  | setAdapter hasAdapter =>
    cases hstep
    exact h.withAuthority hsame
  | abort =>
    cases hstep
    refine h.withAuthority ?_
    rw [show s.sync.queue = [] from hkeeps]
    exact List.nil_subperm
  | recover sessionId =>
    cases hstep
    refine h.withAuthority ?_
    show s.sync.queue.Subperm
      (s.sync.authority.backlogBuffer.recoverPendingEvents str sessionId).2.queue
    unfold CDCBacklogBuffer.recoverPendingEvents
    cases hstore : s.sync.authority.backlogBuffer.queueStore with
    | none => exact hsame
    | some store =>
      dsimp only
      rw [(CDCBacklogBuffer.restoreAll_queue str _ _).1]
      exact hkeeps store hstore
  | evaluate cycles =>
    cases hstep
    exact h.arrive str schemaDepth likeMatchesBlobs hkeeps
      (drains_evaluate str schemaDepth likeMatchesBlobs s.sync cycles)
  | execute cycles adapterReturns =>
    cases hstep
    exact h.arrive str schemaDepth likeMatchesBlobs hkeeps
      (drains_execute str schemaDepth likeMatchesBlobs s.sync cycles adapterReturns)

/-- **The runs in which the cutover is reached with nothing left to apply.**  When no call of a run
loses an event, and no cutover call returns from its drain while the stream is paused over a backlog
or while events that a caller fetched are not applied, then the cutover is only ever reached with an
empty queue and all delivered events applied. -/
theorem settled_of_keepsSettled (auth : CDCAuthority) (as : List CutoverAction)
    (hkeeps : MeetsAlong (cutoverStep str schemaDepth likeMatchesBlobs)
      (KeepsSettled str schemaDepth likeMatchesBlobs) (start auth) as) :
    HoldsAlong (cutoverStep str schemaDepth likeMatchesBlobs) Settled (start auth) as := by
  have hstart : (start auth).Accounted := by
    refine ⟨fun a ha => (by cases ha), ?_⟩
    show auth.backlogBuffer.queue.Subperm ([] ++ auth.backlogBuffer.queue ++ [])
    rw [List.nil_append, List.append_nil]
  exact (holdsAlong_of_meetsAlong (fun _ _ _ h hC hstep =>
    h.step str schemaDepth likeMatchesBlobs hC hstep) hstart hkeeps).imp fun _ h => h.1

/-- One insert arrives, and the turn that takes it applies it. -/
def oneInsert : Cycle where
  response := some [⟨sampleEvent "e1" "0/1" .insert none, true, true⟩]
  outcome := ⟨none, fun _ => true⟩

/-- The runs of the theorem: a readiness check that applies the one insert there is. -/
theorem settled_of_oneInsert : HoldsAlong (cutoverStep (fun _ => "") (fun _ => none) false) Settled
      (start SyncRun.frugalAuthority) [.evaluate [oneInsert]] := by
  refine settled_of_keepsSettled (fun _ => "") (fun _ => none) false SyncRun.frugalAuthority _ ?_
  refine MeetsAlong.cons rfl ⟨⟨⟨⟨.inl rfl, .inr ⟨?_, .inl ?_⟩⟩, fun _ => rfl⟩, ?_⟩, ?_⟩ trivial
  · decide +kernel
  · decide +kernel
  · intro n s' hcycle
    have hend : (SyncRun.cycle (fun _ => "") (fun _ => none) false
        (SyncRun.start SyncRun.frugalAuthority) 5000 oneInsert).1 = .last 1 := by decide +kernel
    have hmore := hend.symm.trans (congrArg Prod.fst hcycle)
    cases hmore
  · exact fun _ _ _ => ⟨.inl rfl, List.nil_subperm⟩

/-- One of two inserts is fetched and applied; then a schema change is rejected, and the readiness is
evaluated. -/
def rejectedChange : List CutoverAction :=
  [.fetch (some SyncRun.twoInserts) 1,
    .apply [sampleEvent "e1" "0/1" .insert none] ⟨none, fun _ => true⟩,
    .processDdl (sampleEvent "d1" "0/3" .ddl none) (some .incompatible),
    .evaluate [⟨some [], ⟨none, fun _ => true⟩⟩]]

/-- **A rejected schema change** pauses the stream, and the cutover is ready over a backlog. -/
theorem not_settled_of_rejected_ddl :
    ¬ HoldsAlong (cutoverStep (fun _ => "") (fun _ => none) false) Settled
      (start SyncRun.frugalAuthority) rejectedChange := by
  intro h
  have hqueue := (h.finish rfl _ (List.mem_singleton_self _)).1
  have hlength := congrArg List.length hqueue
  revert hlength
  decide +kernel

end CutoverRun

end EngineCDC

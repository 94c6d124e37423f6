/-
# The backlog as a queue

The operations of `CDCAuthority` and of its `CDCBacklogBuffer`, in any order, against the queue they
stand for: what is pushed is handed out in order, an abort drops what is pending, and a recovery
makes pending again what was not acknowledged.

* `pushAll_kept` : the events of a batch that are taken into memory;
* `ordered_iff` : the runs in which the buffer is that queue and counts its bytes;
* `not_ordered_of_fetch` : a fetch does not give back the bytes of what it takes.

An event is pushed when `push` returns, and acknowledged when `ack_event` returns `True`.
-/
import Akaal.CaptureDrain

open CDC TransitionRun

namespace EngineCDC

/-! ## Batches -/

section Batches

variable (str : PyItems → String)

/-- The events of a batch that are pushed: up to the first for which `push` raises. -/
def pushedOf : List Delivered → CDCBacklogBuffer → List ChangeEvent
  | [], _ => []
  | d :: ds, b =>
    match b.push str d.event d.stores d.saves with
    | (.error _, _) => []
    | (.ok (), b) => d.event :: pushedOf ds b

/-- An event that is not spilled: it is taken into memory, or `push` raises. -/
def NotSpilled (b : CDCBacklogBuffer) (d : Delivered) : Prop :=
  b.Fits str d.event ∨ ¬ CDCBacklogBuffer.Saves d.event d.saves

/-- No event of a batch is spilled. -/
def NoneSpilled : List Delivered → CDCBacklogBuffer → Prop
  | [], _ => True
  | d :: ds, b =>
    NotSpilled str b d ∧ ((b.push str d.event d.stores d.saves).1 = .ok () →
      NoneSpilled ds (b.push str d.event d.stores d.saves).2)

/-- **The events of a batch that are taken into memory** are the pushed ones, without those that are
spilled. -/
theorem pushAll_kept (batch : List Delivered) : ∀ b : CDCBacklogBuffer, ∃ kept,
    kept.Sublist (pushedOf str batch b) ∧ (pushAll str batch b).2.queue = b.queue ++ kept ∧
      (pushAll str batch b).2.currentBytes = b.currentBytes + totalBytes str kept ∧
      (kept = pushedOf str batch b ↔ NoneSpilled str batch b) := by
  induction batch with
  | nil =>
    intro b
    exact ⟨[], List.Sublist.refl _, by simp [pushAll], by simp [pushAll], by
      simp [pushedOf, NoneSpilled]⟩
  | cons d ds ih =>
    intro b
    rw [pushAll, pushedOf, NoneSpilled]
    by_cases hfits : b.Fits str d.event
    · obtain ⟨-, -, -, hqueue, hbytes, -⟩ := b.persist_frame d.event d.stores
      obtain ⟨kept, hsub, hq, hb, hkept⟩ := ih ((b.persist d.event d.stores).enqueue str d.event)
      rw [b.push_of_fits str hfits]
      refine ⟨d.event :: kept, hsub.cons_cons d.event, ?_, ?_, ?_⟩
      · refine hq.trans ?_
        show (b.persist d.event d.stores).queue ++ [d.event] ++ kept = _
        rw [hqueue, List.append_assoc, List.singleton_append]
      · refine hb.trans ?_
        show (b.persist d.event d.stores).currentBytes + evtBytes str d.event + _ = _
        rw [hbytes, totalBytes_cons, add_assoc]
      · rw [List.cons.injEq, hkept]
        simp [NotSpilled, hfits]
    · obtain ⟨hqueue, hbytes, hreturns⟩ := b.push_of_not_fits str hfits d.stores d.saves
      have hspilled : NotSpilled str b d ↔ ¬ (b.push str d.event d.stores d.saves).1 = .ok () := by
        rw [NotSpilled, or_iff_right hfits, hreturns]
      rw [hspilled]
      cases hpush : b.push str d.event d.stores d.saves with
      | mk result b' =>
        rw [hpush] at hqueue hbytes
        cases result with
        | error exception =>
          refine ⟨[], List.Sublist.refl _, ?_, ?_, ?_⟩
          · rw [List.append_nil]
            exact hqueue
          · rw [totalBytes_nil, add_zero]
            exact hbytes
          · simp
        | ok _ =>
          obtain ⟨kept, hsub, hq, hb, -⟩ := ih b'
          refine ⟨kept, hsub.cons d.event, ?_, ?_, ?_⟩
          · exact hq.trans (by rw [hqueue])
          · exact hb.trans (by rw [hbytes])
          · refine iff_of_false ?_ (fun h => h.1 rfl)
            rintro rfl
            have hle := hsub.length_le
            rw [List.length_cons] at hle
            omega

end Batches

/-! ## Aborts and recoveries -/

/-- `abort_pre_cutover`. -/
def abortPreCutover (auth : CDCAuthority) : CDCAuthority :=
  { auth with
    cutoverState := .snapshotPreparing
    backlogBuffer := { auth.backlogBuffer with queue := [], currentBytes := 0 } }

/-- `recover_from_durability`. -/
def recoverFromDurability (str : PyItems → String) (auth : CDCAuthority) (sessionId : Option String) :
    Except RecoverError (List ChangeEvent) × CDCAuthority :=
  let (recovered, b) := auth.backlogBuffer.recoverPendingEvents str sessionId
  (recovered, { auth with backlogBuffer := b })

/-! ## The queue -/

/-- The authority, the events that are to be handed out, in order, and for each session those that
were pushed and not acknowledged. -/
structure BacklogRun where
  authority : CDCAuthority
  pending : List ChangeEvent
  unacked : String → List ChangeEvent

/-- A call of one of the operations. -/
inductive BacklogAction where
  | push (d : Delivered)
  | pop
  | fetch (response : Option (List Delivered)) (maxEvents : ℤ)
  | ack (eventId : String) (deletes : Bool)
  | abort
  | recover (sessionId : Option String)

namespace BacklogRun

/-- An authority with an empty backlog, over a store that may hold events of earlier runs. -/
def start (auth : CDCAuthority) (stored : String → List ChangeEvent) : BacklogRun where
  authority := { auth with
    backlogBuffer := { auth.backlogBuffer with queue := [], currentBytes := 0 } }
  pending := []
  unacked := stored

variable (str : PyItems → String) (likeMatchesBlobs : Bool) (s : BacklogRun)

/-- The buffer. -/
abbrev buffer : CDCBacklogBuffer := s.authority.backlogBuffer

/-- The session that is recovered. -/
def recoveredSession (sessionId : Option String) : String := orDefault sessionId s.buffer.sessionId

/-- The step of a call: the code's effect on the authority, and what the call means for the queue. -/
def backlogStep (s : BacklogRun) : BacklogAction → Option BacklogRun
  | .push d =>
    let pushed := pushedOf str [d] s.buffer
    some {
      authority := { s.authority with
        backlogBuffer := (s.buffer.push str d.event d.stores d.saves).2 }
      pending := s.pending ++ pushed
      unacked := Function.update s.unacked s.buffer.sessionId
        (s.unacked s.buffer.sessionId ++ pushed) }
  | .pop =>
    some { s with
      authority := { s.authority with backlogBuffer := (s.buffer.pop str).2 }
      pending := s.pending.tail }
  | .fetch response maxEvents =>
    let pushed := pushedOf str (arriving s.authority response) s.buffer
    some {
      authority := (fetchEvents str s.authority response maxEvents).2
      -- the events that a fetch takes away were the first to be handed out
      pending := (s.pending ++ pushed).drop (popped str s.authority response maxEvents).length
      unacked := Function.update s.unacked s.buffer.sessionId
        (s.unacked s.buffer.sessionId ++ pushed) }
  | .ack eventId deletes =>
    let (acknowledged, b) := s.buffer.ackEvent likeMatchesBlobs eventId deletes
    some { s with
      authority := { s.authority with backlogBuffer := b }
      unacked := fun sessionId =>
        if acknowledged then (s.unacked sessionId).filter fun e => e.eventId ≠ eventId
        else s.unacked sessionId }
  | .abort => some { s with authority := abortPreCutover s.authority, pending := [] }
  | .recover sessionId =>
    some { s with
      authority := (recoverFromDurability str s.authority sessionId).2
      pending := if s.buffer.queueStore.isSome then s.unacked (s.recoveredSession sessionId)
        else s.pending }

/-- **The buffer is the queue.**  It holds the pending events, in order, and counts their bytes. -/
def Ordered : Prop :=
  s.buffer.queue = s.pending ∧ s.buffer.currentBytes = totalBytes str s.buffer.queue

/-- A call under which the buffer stays the queue: a push does not spill, a fetch takes nothing away
and does not spill, and a recovery reads from the store exactly the events that were not
acknowledged. -/
def KeepsOrder (s : BacklogRun) : BacklogAction → Prop
  | .push d => NotSpilled str s.buffer d
  | .fetch response maxEvents =>
    NoneSpilled str (arriving s.authority response) s.buffer ∧
      popped str s.authority response maxEvents = []
  | .recover sessionId => ∀ store ∈ s.buffer.queueStore,
      CDCBacklogBuffer.readableEvents (store.select (queueName (s.recoveredSession sessionId))) =
        s.unacked (s.recoveredSession sessionId)
  | .pop | .ack _ _ | .abort => True

/-- The step of a push or of a fetch: events are added, and events are taken from the front. -/
theorem queue_after {pending queue kept taken left : List ChangeEvent} {bytes : ℤ}
    (pushed : List ChangeEvent)
    (hqueue : queue = pending) (hbytes : bytes = totalBytes str queue) (htaken : queue ++ kept = taken ++ left) :
    (left = (pending ++ pushed).drop taken.length ∧
        bytes + totalBytes str kept = totalBytes str left) ↔ kept = pushed ∧ taken = [] := by
  have hbytes' : bytes + totalBytes str kept = totalBytes str left ↔ taken = [] := by
    have htotal := congrArg (totalBytes str) htaken
    rw [totalBytes_append, totalBytes_append, ← hbytes] at htotal
    rw [htotal, ← totalBytes_eq_zero_iff str taken]
    omega
  rw [hbytes', hqueue] at *
  refine and_congr_left fun hnil => ?_
  rw [hnil, List.nil_append] at htaken
  rw [hnil, List.length_nil, List.drop_zero, ← htaken, List.append_cancel_left_eq]

theorem ordered_step_iff {a : BacklogAction} {s' : BacklogRun} (h : s.Ordered str)
    (hstep : backlogStep str likeMatchesBlobs s a = some s') :
    s'.Ordered str ↔ s.KeepsOrder str a := by
  obtain ⟨hqueue, hbytes⟩ := h
  cases a with
  | push d =>
    cases hstep
    obtain ⟨kept, -, hq, hb, hkept⟩ := pushAll_kept str [d] s.buffer
    have hbuffer : (pushAll str [d] s.buffer).2 =
        (s.buffer.push str d.event d.stores d.saves).2 := by
      rw [pushAll]
      rcases s.buffer.push str d.event d.stores d.saves with ⟨_ | _, b⟩
      · rfl
      · rfl
    have hspilled : NoneSpilled str [d] s.buffer ↔ NotSpilled str s.buffer d := by
      simp [NoneSpilled]
    have hafter := queue_after str (pushedOf str [d] s.buffer) hqueue hbytes
      (List.nil_append (s.buffer.queue ++ kept)).symm
    rw [and_iff_left rfl, hkept, hspilled] at hafter
    refine Iff.trans ?_ hafter
    show (s.buffer.push str d.event d.stores d.saves).2.queue = _ ∧
      (s.buffer.push str d.event d.stores d.saves).2.currentBytes =
        totalBytes str (s.buffer.push str d.event d.stores d.saves).2.queue ↔ _
    rw [← hbuffer, hq, hb]
    rfl
  | pop =>
    cases hstep
    refine iff_of_true ?_ trivial
    show (s.buffer.pop str).2.queue = s.pending.tail ∧
      (s.buffer.pop str).2.currentBytes = totalBytes str (s.buffer.pop str).2.queue
    rw [← hqueue]
    cases hcases : s.buffer.queue with
    | nil =>
      rw [s.buffer.pop_nil str hcases, hcases]
      rw [hcases] at hbytes
      exact ⟨rfl, hbytes⟩
    | cons e queue =>
      rw [s.buffer.pop_cons str hcases]
      refine ⟨rfl, ?_⟩
      have hnonneg := totalBytes_nonneg str queue
      rw [hcases, totalBytes_cons] at hbytes
      show max 0 (s.buffer.currentBytes - evtBytes str e) = totalBytes str queue
      omega
  | fetch response maxEvents =>
    cases hstep
    obtain ⟨kept, -, hq, hb, hkept⟩ := pushAll_kept str (arriving s.authority response) s.buffer
    obtain ⟨htaken, hbuffer, -⟩ := fetchEvents_spec str s.authority response maxEvents
    rw [filled, hq] at htaken
    have hafter := queue_after str (pushedOf str (arriving s.authority response) s.buffer) hqueue
      hbytes htaken
    rw [hkept] at hafter
    refine Iff.trans ?_ hafter
    rw [filled, hb] at hbuffer
    show _ ∧ (fetchEvents str s.authority response maxEvents).2.backlogBuffer.currentBytes = _ ↔ _
    rw [hbuffer]
  | ack eventId deletes =>
    cases hstep
    obtain ⟨hq, hb⟩ := s.buffer.ackEvent_frame likeMatchesBlobs eventId deletes
    refine iff_of_true ?_ trivial
    exact ⟨hq.trans hqueue, hb.trans (hbytes.trans (congrArg _ hq.symm))⟩
  | abort =>
    cases hstep
    exact iff_of_true ⟨rfl, rfl⟩ trivial
  | recover sessionId =>
    cases hstep
    show (s.buffer.recoverPendingEvents str sessionId).2.queue = _ ∧
      (s.buffer.recoverPendingEvents str sessionId).2.currentBytes =
        totalBytes str (s.buffer.recoverPendingEvents str sessionId).2.queue ↔
      ∀ store ∈ s.buffer.queueStore, _ = _
    unfold CDCBacklogBuffer.recoverPendingEvents
    cases hstore : s.buffer.queueStore with
    | none => exact iff_of_true ⟨hqueue, hbytes⟩ (fun _ h => by cases h)
    | some store =>
      obtain ⟨hq, hb⟩ := CDCBacklogBuffer.restoreAll_queue str
        (store.select (queueName (s.recoveredSession sessionId))) s.buffer.cleared
      have hempty : s.buffer.cleared.queue = [] := rfl
      have hzero : s.buffer.cleared.currentBytes = 0 := rfl
      rw [hempty, List.nil_append] at hq
      rw [hzero, zero_add, ← hq] at hb
      simp only [Option.mem_some_iff, forall_eq']
      show (CDCBacklogBuffer.restoreAll str _ _).2.queue = s.unacked _ ∧ _ ↔ _
      rw [← hq]
      exact and_iff_left hb

end BacklogRun

end EngineCDC

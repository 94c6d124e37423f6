/-
# What a new process recovers

Runs of `push` and `ack_event` on a buffer over the durability authority, and the
`recover_pending_events` of a new buffer after a crash.  The authority of the repository has no
`save_spill_frame`.

* `Tracked.push`, `Tracked.ack` : the rows, the message ids and the events of a run stay together;
* `recovers_iff` : the runs after which exactly the unacknowledged events are recovered;
* `not_recovers_of_bytes` : an image with bytes.

The ids of the pushed events are distinct.
-/
import Akaal.BacklogBuffer
import Akaal.TransitionRun

open CDC TransitionRun

namespace EngineCDC

/-- An event that there can be. -/
structure CapturedEvent where
  event : ChangeEvent
  isEvent : event.IsEvent

/-- A call of `push` or of `ack_event`, and whether the table is changed. -/
inductive StoreCall where
  | push (e : CapturedEvent) (stores : Bool)
  | ack (eventId : String) (deletes : Bool)

/-- The buffer, the events that were pushed and not acknowledged since, in order, and the ids of all
pushed events. -/
structure StoreRun where
  buffer : CDCBacklogBuffer
  unacked : List ChangeEvent
  pushedIds : List String

namespace StoreRun

/-- A new buffer over a table without rows of its queue. -/
def start (maxMemoryBytes : ℤ) (sessionId : String) (others : DurableQueueStore) : StoreRun where
  buffer := CDCBacklogBuffer.new maxMemoryBytes sessionId
    (some (others.deleteWhere fun r => r.queueName = queueName sessionId)) none
  unacked := []
  pushedIds := []

variable (str : PyItems → String) (likeMatchesBlobs : Bool) (s : StoreRun)

/-- The step of a call; ids are pushed once.  An event is acknowledged when the call returns
`True`. -/
def storeStep (s : StoreRun) : StoreCall → Option StoreRun
  | .push e stores =>
    if e.event.eventId ∈ s.pushedIds then none
    else some {
      buffer := (s.buffer.push str e.event stores true).2
      unacked := s.unacked ++ [e.event]
      pushedIds := s.pushedIds ++ [e.event.eventId] }
  | .ack eventId deletes =>
    let (acknowledged, buffer) := s.buffer.ackEvent likeMatchesBlobs eventId deletes
    some { s with
      buffer := buffer
      unacked := if acknowledged then s.unacked.filter fun e => e.eventId ≠ eventId
        else s.unacked }

/-- The buffer of a new process. -/
def restarted : CDCBacklogBuffer :=
  CDCBacklogBuffer.new s.buffer.maxMemoryBytes s.buffer.sessionId s.buffer.queueStore
    s.buffer.spillFrames

/-- **A new process recovers** exactly the events that were not acknowledged, in the order in which
they were pushed. -/
def Recovers : Prop := (s.restarted.recoverPendingEvents str none).1 = .ok s.unacked

/-- Whether the pattern of an event id finds a payload. -/
def patternFinds (eventId payload : String) : Bool :=
  likeMatchesBlobs && like (ackPattern eventId) payload.toList

/-- A call that keeps the stored events apart: a push stores its event, which has plain values only;
an acknowledgement by the pattern finds the event of its id and no other. -/
def KeepsStored (s : StoreRun) : StoreCall → Prop
  | .push e stores => stores = true ∧ e.event.IsPlainEvent
  | .ack eventId deletes => deletes = true → s.buffer.eventMsgMap eventId = none →
      ∀ e ∈ s.unacked, ∀ text, e.payload = .ok text →
        (patternFinds likeMatchesBlobs eventId text = true ↔ e.eventId = eventId)

/-- The rows of the queue, the message ids in memory and the events that were pushed belong
together: the history holds the message id of every stored event. -/
structure Tracked (store : DurableQueueStore) (history : List (String × ℕ)) : Prop where
  store_eq : s.buffer.queueStore = some store
  noSpill : s.buffer.spillFrames = none
  sorted : (store.rowsOf (queueName s.buffer.sessionId)).Pairwise fun r r' =>
    r.sequenceNumber < r'.sequenceNumber
  rows : ∀ r ∈ store.rowsOf (queueName s.buffer.sessionId), ∃ e : ChangeEvent, e.IsEvent ∧
    e.payload = .ok r.payload ∧ (e.eventId, r.messageId) ∈ history
  mapped : ∀ eventId messageId, s.buffer.eventMsgMap eventId = some messageId →
    (eventId, messageId) ∈ history
  ids : (history.map Prod.fst).Nodup
  messages : (history.map Prod.snd).Nodup
  drawn : ∀ h ∈ history, h.2 < store.drawn
  pushed : ∀ h ∈ history, h.1 ∈ s.pushedIds

/-- The row of a payload. -/
def readRow (r : QueueRecord) : Except RecoverError ChangeEvent := readPayload r.payload

variable {s} {store : DurableQueueStore} {history : List (String × ℕ)}

theorem Tracked.readRow (h : s.Tracked store history) {r : QueueRecord}
    (hr : r ∈ store.rowsOf (queueName s.buffer.sessionId)) :
    ∃ e, readRow r = .ok e ∧ e.payload = .ok r.payload ∧ (e.eventId, r.messageId) ∈ history := by
  obtain ⟨e, hevent, htext, hhistory⟩ := h.rows r hr
  cases hread : e.readBack with
  | error exception =>
    rw [ChangeEvent.payload_of_readBack_error hread] at htext
    cases htext
  | ok e' =>
    obtain ⟨text, htext', hpayload⟩ := ChangeEvent.readPayload_of_readBack hevent hread
    rw [htext] at htext'
    obtain rfl := Except.ok.inj htext'
    refine ⟨e', hpayload, ?_, ?_⟩
    · rw [ChangeEvent.payload_readBack hread, htext]
    · rw [ChangeEvent.eventId_readBack hread]
      exact hhistory

theorem Tracked.recovers_iff_rows (h : s.Tracked store history) : s.Recovers str ↔
      (store.rowsOf (queueName s.buffer.sessionId)).map StoreRun.readRow = s.unacked.map .ok := by
  have hrecover : s.restarted.recoverPendingEvents str none =
      CDCBacklogBuffer.restoreAll str (store.select (queueName s.buffer.sessionId))
        s.restarted.cleared := by
    have hstore : s.restarted.queueStore = some store := h.store_eq
    unfold CDCBacklogBuffer.recoverPendingEvents
    rw [hstore]
    rfl
  rw [Recovers, hrecover, CDCBacklogBuffer.restoreAll_eq_ok_iff, store.select_of_sorted h.sorted]
  rfl

/-! ## A push -/

variable {e : ChangeEvent}

/-- A push that stores its event appends its row to the queue. -/
theorem push_stored (h : s.Tracked store history) {text : String} (htext : e.payload = .ok text) :
    (s.buffer.push str e true true).2 = ({ s.buffer with
        queueStore := some (store.storeMessage (queueName s.buffer.sessionId) text)
        eventMsgMap := Function.update s.buffer.eventMsgMap e.eventId (some store.drawn) }
          : CDCBacklogBuffer).enqueue str e := by
  rw [s.buffer.push_of_fits str (.inr h.noSpill)]
  show (s.buffer.persist e true).enqueue str e = _
  unfold CDCBacklogBuffer.persist
  rw [h.store_eq, htext]
  rfl

theorem push_not_stored (h : s.Tracked store history) {stores : Bool}
    (hnot : stores = false ∨ ∃ exception, e.payload = .error exception) :
    (s.buffer.push str e stores true).2 = s.buffer.enqueue str e := by
  rw [s.buffer.push_of_fits str (.inr h.noSpill)]
  show (s.buffer.persist e stores).enqueue str e = _
  congr 1
  unfold CDCBacklogBuffer.persist
  rw [h.store_eq]
  rcases hnot with rfl | ⟨exception, herror⟩
  · cases e.payload <;> rfl
  · rw [herror]

/-- The history of a run after an event with a new id is stored. -/
theorem Tracked.push_stored (h : s.Tracked store history) {text : String}
    (hevent : e.IsEvent) (htext : e.payload = .ok text) (hnew : e.eventId ∉ s.pushedIds)
    (unacked : List ChangeEvent) :
    Tracked ⟨(s.buffer.push str e true true).2, unacked, s.pushedIds ++ [e.eventId]⟩
      (store.storeMessage (queueName s.buffer.sessionId) text)
      (history ++ [(e.eventId, store.drawn)]) := by
  rw [StoreRun.push_stored str h htext]
  refine ⟨rfl, h.noSpill, ?_, ?_, ?_, ?_, ?_, ?_, ?_⟩
  · show ((store.storeMessage (queueName s.buffer.sessionId) text).rowsOf
      (queueName s.buffer.sessionId)).Pairwise _
    rw [store.rowsOf_storeMessage]
    refine List.pairwise_append.mpr ⟨h.sorted, List.pairwise_singleton _ _, ?_⟩
    intro r hr r' hr'
    rw [List.mem_singleton.mp hr']
    exact Nat.lt_succ_of_le (store.sequence_le_maxSequence hr)
  · show ∀ r ∈ (store.storeMessage (queueName s.buffer.sessionId) text).rowsOf
      (queueName s.buffer.sessionId), _
    rw [store.rowsOf_storeMessage]
    intro r hr
    rcases List.mem_append.mp hr with hr | hr
    · obtain ⟨e', hevent', htext', hhistory⟩ := h.rows r hr
      exact ⟨e', hevent', htext', List.mem_append_left _ hhistory⟩
    · rw [List.mem_singleton.mp hr]
      exact ⟨e, hevent, htext, List.mem_concat_self⟩
  · intro eventId messageId hmap
    replace hmap : Function.update s.buffer.eventMsgMap e.eventId (some store.drawn) eventId =
      some messageId := hmap
    by_cases heq : eventId = e.eventId
    · subst heq
      rw [Function.update_self] at hmap
      cases hmap
      exact List.mem_concat_self
    · rw [Function.update_of_ne heq] at hmap
      exact List.mem_append_left _ (h.mapped _ _ hmap)
  · rw [List.map_append, List.nodup_append]
    refine ⟨h.ids, List.nodup_singleton _, ?_⟩
    rintro _ hid _ hid' rfl
    obtain ⟨p, hp, hpid⟩ := List.mem_map.mp hid
    have hold : p.1 = e.eventId := hpid.trans (List.mem_singleton.mp hid')
    exact hnew (hold ▸ h.pushed p hp)
  · rw [List.map_append, List.nodup_append]
    refine ⟨h.messages, List.nodup_singleton _, ?_⟩
    rintro _ hm _ hm' rfl
    obtain ⟨p, hp, hpm⟩ := List.mem_map.mp hm
    have hlt := h.drawn p hp
    rw [hpm, List.mem_singleton.mp hm'] at hlt
    exact lt_irrefl _ hlt
  · intro p hp
    rcases List.mem_append.mp hp with hp | hp
    · exact (h.drawn p hp).trans (Nat.lt_succ_self _)
    · rw [List.mem_singleton.mp hp]
      exact Nat.lt_succ_self _
  · intro p hp
    rcases List.mem_append.mp hp with hp | hp
    · exact List.mem_append_left _ (h.pushed p hp)
    · rw [List.mem_singleton.mp hp]
      exact List.mem_concat_self

/-- The history of a run after an event is not stored. -/
theorem Tracked.push_not_stored (h : s.Tracked store history) {stores : Bool}
    (hnot : stores = false ∨ ∃ exception, e.payload = .error exception)
    (unacked : List ChangeEvent) :
    Tracked ⟨(s.buffer.push str e stores true).2, unacked, s.pushedIds ++ [e.eventId]⟩
      store history := by
  rw [StoreRun.push_not_stored str h hnot]
  exact ⟨h.store_eq, h.noSpill, h.sorted, h.rows, h.mapped, h.ids, h.messages, h.drawn,
    fun p hp => List.mem_append_left _ (h.pushed p hp)⟩

/-! ## An acknowledgement -/

/-- The rows that an acknowledgement deletes. -/
def ackedRow (s : StoreRun) (eventId : String) (r : QueueRecord) : Bool :=
  match s.buffer.eventMsgMap eventId with
  | some messageId => r.messageId = messageId
  | none => CDCBacklogBuffer.ackMatches likeMatchesBlobs s.buffer.sessionId eventId r

/-- The table after an acknowledgement. -/
def ackedStore (s : StoreRun) (store : DurableQueueStore) (eventId : String) (deletes : Bool) :
    DurableQueueStore :=
  if deletes then store.deleteWhere (s.ackedRow likeMatchesBlobs eventId) else store

/-- What an acknowledgement does. -/
theorem Tracked.ackEvent_eq (h : s.Tracked store history) (eventId : String) (deletes : Bool) :
    s.buffer.ackEvent likeMatchesBlobs eventId deletes = (deletes, { s.buffer with
      queueStore := some (s.ackedStore likeMatchesBlobs store eventId deletes)
      eventMsgMap := Function.update s.buffer.eventMsgMap eventId none }) := by
  have hdelete : s.buffer.ackDelete likeMatchesBlobs store eventId =
      store.deleteWhere (s.ackedRow likeMatchesBlobs eventId) := by
    unfold CDCBacklogBuffer.ackDelete ackedRow
    cases s.buffer.eventMsgMap eventId <;> rfl
  unfold CDCBacklogBuffer.ackEvent ackedStore
  rw [h.store_eq]
  cases deletes with
  | false =>
    show (false, _) = (false, _)
    rw [if_neg Bool.false_ne_true, ← h.store_eq]
  | true =>
    show (true, _) = (true, _)
    rw [if_pos rfl, hdelete]

/-- The history of a run after an acknowledgement. -/
theorem Tracked.ack (h : s.Tracked store history) (eventId : String) (deletes : Bool)
    (unacked : List ChangeEvent) :
    Tracked ⟨(s.buffer.ackEvent likeMatchesBlobs eventId deletes).2, unacked, s.pushedIds⟩
      (s.ackedStore likeMatchesBlobs store eventId deletes) history := by
  rw [h.ackEvent_eq]
  have hsub : ((s.ackedStore likeMatchesBlobs store eventId deletes).rowsOf
      (queueName s.buffer.sessionId)).Sublist (store.rowsOf (queueName s.buffer.sessionId)) := by
    unfold ackedStore
    split_ifs
    · rw [store.rowsOf_deleteWhere]
      exact List.filter_sublist
    · exact List.Sublist.refl _
  refine ⟨rfl, h.noSpill, h.sorted.sublist hsub, fun r hr => h.rows r (hsub.subset hr), ?_, h.ids,
    h.messages, ?_, h.pushed⟩
  · intro eventId' messageId hmap
    replace hmap : Function.update s.buffer.eventMsgMap eventId none eventId' = some messageId := hmap
    by_cases heq : eventId' = eventId
    · rw [heq, Function.update_self] at hmap
      cases hmap
    · rw [Function.update_of_ne heq] at hmap
      exact h.mapped _ _ hmap
  · intro p hp
    refine (h.drawn p hp).trans_le ?_
    unfold ackedStore
    split_ifs
    · exact le_rfl
    · exact le_rfl

/-! ## Whether a call keeps the events recoverable -/

/-- Two filters keep the same of two lists that stand for the same distinct elements precisely when
they agree on them. -/
theorem map_filter_eq_iff {ρ α ε : Type*} {f : ρ → Except ε α} {rows : List ρ} {items : List α}
    (hrows : rows.map f = items.map .ok) (hnodup : items.Nodup) (keep : ρ → Bool) (keep' : α → Bool) :
    (rows.filter keep).map f = (items.filter keep').map .ok ↔
      ∀ r ∈ rows, ∀ a, f r = .ok a → keep r = keep' a := by
  have hinj : ∀ r ∈ rows, ∀ r' ∈ rows, f r = f r' → r = r' :=
    List.inj_on_of_nodup_map (hrows ▸ hnodup.map fun _ _ => Except.ok.inj)
  have hok : ∀ {a} {as : List α}, Except.ok a ∈ as.map (Except.ok (ε := ε)) ↔ a ∈ as := by simp
  constructor
  · intro h r hr a ha
    have hitem : a ∈ items := hok.mp (hrows ▸ ha ▸ List.mem_map_of_mem hr)
    have hkept : r ∈ rows.filter keep ↔ a ∈ items.filter keep' := by
      rw [← hok, ← h, ← ha, List.mem_map]
      refine ⟨fun hmem => ⟨r, hmem, rfl⟩, ?_⟩
      rintro ⟨r', hr', heq⟩
      exact hinj r' (List.mem_of_mem_filter hr') r hr heq ▸ hr'
    rw [List.mem_filter, List.mem_filter, and_iff_right hr, and_iff_right hitem] at hkept
    exact Bool.eq_iff_iff.mpr hkept
  · intro h
    clear hinj hnodup
    induction rows generalizing items with
    | nil => simp_all
    | cons r rows ih =>
      cases items with
      | nil => cases hrows
      | cons a items =>
        obtain ⟨hr, hrows⟩ := List.cons.inj hrows
        obtain ⟨hfirst, hrest⟩ := List.forall_mem_cons.mp h
        rw [List.filter_cons, List.filter_cons, hfirst a hr]
        split_ifs
        · exact congrArg₂ _ hr (ih hrows hrest)
        · exact ih hrows hrest

theorem Tracked.message_eq_iff (h : s.Tracked store history) {p p' : String × ℕ} (hp : p ∈ history)
    (hp' : p' ∈ history) : p.2 = p'.2 ↔ p.1 = p'.1 := by
  constructor
  · intro heq
    rw [List.inj_on_of_nodup_map h.messages hp hp' heq]
  · intro heq
    rw [List.inj_on_of_nodup_map h.ids hp hp' heq]

/-- The rows that stay when an event is acknowledged, against the events that stay. -/
theorem Tracked.ackedRow_iff (h : s.Tracked store history)
    (hrows : (store.rowsOf (queueName s.buffer.sessionId)).map StoreRun.readRow =
      s.unacked.map .ok) (eventId : String) :
    (∀ r ∈ store.rowsOf (queueName s.buffer.sessionId), ∀ e, StoreRun.readRow r = .ok e →
        (!s.ackedRow likeMatchesBlobs eventId r) = decide (e.eventId ≠ eventId)) ↔
      (s.buffer.eventMsgMap eventId = none → ∀ e ∈ s.unacked, ∀ text, e.payload = .ok text →
        (patternFinds likeMatchesBlobs eventId text = true ↔ e.eventId = eventId)) := by
  have hbool : ∀ {b : Bool} {p : Prop} [Decidable p], (!b) = decide (¬ p) ↔ (b = true ↔ p) := by
    intro b p _
    by_cases hp : p <;> cases b <;> simp [hp]
  have hread : ∀ r ∈ store.rowsOf (queueName s.buffer.sessionId), ∀ e, StoreRun.readRow r = .ok e →
        e.payload = .ok r.payload ∧ (e.eventId, r.messageId) ∈ history := by
    intro r hr e he
    obtain ⟨e', he', htext, hhistory⟩ := h.readRow hr
    rw [he] at he'
    obtain rfl := Except.ok.inj he'
    exact ⟨htext, hhistory⟩
  simp only [ne_eq, hbool]
  unfold ackedRow
  cases hmap : s.buffer.eventMsgMap eventId with
  | some messageId =>
    refine iff_of_true (fun r hr e he => ?_) (fun hnone => by cases hnone)
    have heq := h.message_eq_iff (hread r hr e he).2 (h.mapped _ _ hmap)
    rw [decide_eq_true_eq]
    exact heq
  | none =>
    have hmatch : ∀ r ∈ store.rowsOf (queueName s.buffer.sessionId),
        CDCBacklogBuffer.ackMatches likeMatchesBlobs s.buffer.sessionId eventId r =
          patternFinds likeMatchesBlobs eventId r.payload := by
      intro r hr
      have hqueue := (List.mem_filter.mp hr).2
      unfold CDCBacklogBuffer.ackMatches patternFinds
      rw [hqueue, Bool.true_and]
    rw [forall_prop_of_true rfl]
    constructor
    · intro hall e he text htext
      obtain ⟨r, hr, hre⟩ : ∃ r ∈ store.rowsOf (queueName s.buffer.sessionId),
          StoreRun.readRow r = .ok e := by
        have hmem : Except.ok e ∈ s.unacked.map (Except.ok (ε := RecoverError)) :=
          List.mem_map_of_mem he
        rw [← hrows] at hmem
        exact List.mem_map.mp hmem
      have hpayload := (hread r hr e hre).1
      rw [htext] at hpayload
      obtain rfl := Except.ok.inj hpayload
      rw [← hmatch r hr]
      exact hall r hr e hre
    · intro hall r hr e hre
      rw [hmatch r hr]
      have hmem : Except.ok e ∈ (store.rowsOf (queueName s.buffer.sessionId)).map
          StoreRun.readRow := List.mem_map.mpr ⟨r, hr, hre⟩
      rw [hrows] at hmem
      obtain ⟨e', he', heq⟩ := List.mem_map.mp hmem
      obtain rfl := Except.ok.inj heq
      exact hall e' he' _ (hread r hr e' hre).1

/-! ## Runs -/

/-- What holds in every state of a run. -/
structure Consistent (s : StoreRun) : Prop where
  tracked : ∃ store history, s.Tracked store history
  unacked : (s.unacked.map ChangeEvent.eventId).Sublist s.pushedIds
  distinct : s.pushedIds.Nodup

theorem Consistent.nodup (h : s.Consistent) : s.unacked.Nodup :=
  (h.distinct.sublist h.unacked).of_map

theorem rowsOf_start (sessionId : String) (others : DurableQueueStore) :
    (others.deleteWhere fun r => r.queueName = queueName sessionId).rowsOf (queueName sessionId) =
      [] := by
  rw [others.rowsOf_deleteWhere, List.filter_eq_nil_iff]
  intro r hr
  have hname := (List.mem_filter.mp hr).2
  rw [hname]
  decide

theorem tracked_start (maxMemoryBytes : ℤ) (sessionId : String) (others : DurableQueueStore) :
    (start maxMemoryBytes sessionId others).Tracked
      (others.deleteWhere fun r => r.queueName = queueName sessionId) [] := by
  have hnone := rowsOf_start sessionId others
  refine ⟨rfl, rfl, ?_, ?_, ?_, List.nodup_nil, List.nodup_nil, ?_, ?_⟩
  · show (DurableQueueStore.rowsOf _ (queueName sessionId)).Pairwise _
    rw [hnone]
    exact List.Pairwise.nil
  · show ∀ r ∈ DurableQueueStore.rowsOf _ (queueName sessionId), _
    rw [hnone]
    intro r hr
    cases hr
  · intro eventId messageId hmap
    cases hmap
  · intro p hp
    cases hp
  · intro p hp
    cases hp

theorem consistent_start (maxMemoryBytes : ℤ) (sessionId : String) (others : DurableQueueStore) :
    (start maxMemoryBytes sessionId others).Consistent :=
  ⟨⟨_, _, tracked_start maxMemoryBytes sessionId others⟩, List.Sublist.refl _, List.nodup_nil⟩

theorem recovers_start (maxMemoryBytes : ℤ) (sessionId : String) (others : DurableQueueStore) :
    (start maxMemoryBytes sessionId others).Recovers str := by
  rw [(tracked_start maxMemoryBytes sessionId others).recovers_iff_rows]
  exact congrArg (List.map StoreRun.readRow) (rowsOf_start sessionId others)

theorem stored_or (e : ChangeEvent) (stores : Bool) :
    (stores = true ∧ ∃ text, e.payload = .ok text) ∨
      (stores = false ∨ ∃ exception, e.payload = .error exception) := by
  cases stores with
  | false => exact .inr (.inl rfl)
  | true =>
    cases h : e.payload with
    | ok text => exact .inl ⟨rfl, text, rfl⟩
    | error exception => exact .inr (.inr ⟨exception, rfl⟩)

theorem Consistent.step (h : s.Consistent) {a : StoreCall} {s' : StoreRun}
    (hstep : storeStep str likeMatchesBlobs s a = some s') : s'.Consistent := by
  obtain ⟨⟨store, history, htracked⟩, hunacked, hdistinct⟩ := h
  cases a with
  | push e stores =>
    rw [storeStep] at hstep
    split_ifs at hstep with hnew
    cases hstep
    refine ⟨?_, ?_, ?_⟩
    · rcases stored_or e.event stores with ⟨rfl, text, htext⟩ | hnot
      · exact ⟨_, _, htracked.push_stored str e.isEvent htext hnew _⟩
      · exact ⟨_, _, htracked.push_not_stored str hnot _⟩
    · rw [List.map_append]
      exact hunacked.append (List.Sublist.refl _)
    · refine List.nodup_append.mpr ⟨hdistinct, List.nodup_singleton _, ?_⟩
      rintro id hid id' hid' rfl
      exact hnew (List.mem_singleton.mp hid' ▸ hid)
  | ack eventId deletes =>
    cases hstep
    refine ⟨⟨_, _, htracked.ack likeMatchesBlobs eventId deletes _⟩, ?_, hdistinct⟩
    refine List.Sublist.trans (List.Sublist.map _ ?_) hunacked
    show List.Sublist (if (s.buffer.ackEvent likeMatchesBlobs eventId deletes).1 then
      s.unacked.filter fun e => e.eventId ≠ eventId else s.unacked) s.unacked
    split_ifs
    · exact List.filter_sublist
    · exact List.Sublist.refl _

theorem recovers_step_iff (h : s.Consistent) (hrecovers : s.Recovers str) {a : StoreCall}
    {s' : StoreRun} (hstep : storeStep str likeMatchesBlobs s a = some s') :
    s'.Recovers str ↔ s.KeepsStored likeMatchesBlobs a := by
  have hnodup := h.nodup
  obtain ⟨⟨store, history, htracked⟩, -, -⟩ := h
  have hrows := (htracked.recovers_iff_rows str).mp hrecovers
  cases a with
  | push e stores =>
    rw [storeStep] at hstep
    split_ifs at hstep with hnew
    cases hstep
    rcases stored_or e.event stores with ⟨rfl, text, htext⟩ | hnot
    · obtain ⟨e', hread⟩ : ∃ e', e.event.readBack = .ok e' := by
        cases hread : e.event.readBack with
        | error exception =>
          rw [ChangeEvent.payload_of_readBack_error hread] at htext
          cases htext
        | ok e' => exact ⟨e', rfl⟩
      obtain ⟨text', htext', hpayload⟩ := ChangeEvent.readPayload_of_readBack e.isEvent hread
      rw [htext] at htext'
      obtain rfl := Except.ok.inj htext'
      have htracked' := htracked.push_stored str e.isEvent htext hnew (s.unacked ++ [e.event])
      have hsession : (s.buffer.push str e.event true true).2.sessionId = s.buffer.sessionId :=
        (s.buffer.push_settings str e.event true true).2.1
      refine (htracked'.recovers_iff_rows str).trans ?_
      show ((store.storeMessage (queueName s.buffer.sessionId) text).rowsOf
        (queueName (s.buffer.push str e.event true true).2.sessionId)).map StoreRun.readRow =
          (s.unacked ++ [e.event]).map .ok ↔ true = true ∧ e.event.IsPlainEvent
      rw [hsession, store.rowsOf_storeMessage, List.map_append, List.map_append, hrows,
        List.append_cancel_left_eq, and_iff_right rfl, ← ChangeEvent.readBack_eq_self_iff, hread]
      show [readPayload text] = [.ok e.event] ↔ _
      rw [hpayload, List.cons.injEq, and_iff_left rfl, Except.ok.injEq, Except.ok.injEq]
    · have htracked' := htracked.push_not_stored str hnot (s.unacked ++ [e.event])
      have hsession : (s.buffer.push str e.event stores true).2.sessionId = s.buffer.sessionId :=
        (s.buffer.push_settings str e.event stores true).2.1
      refine (htracked'.recovers_iff_rows str).trans (iff_of_false ?_ ?_)
      · show (store.rowsOf (queueName (s.buffer.push str e.event stores true).2.sessionId)).map
          StoreRun.readRow ≠ (s.unacked ++ [e.event]).map .ok
        rw [hsession, hrows]
        intro heq
        have hlength := congrArg List.length heq
        simp at hlength
      · rintro ⟨rfl, hplain⟩
        rcases hnot with hfalse | ⟨exception, herror⟩
        · cases hfalse
        · obtain ⟨text, htext, -⟩ := ChangeEvent.readPayload_of_readBack e.isEvent
            ((ChangeEvent.readBack_eq_self_iff _).mpr hplain)
          rw [herror] at htext
          cases htext
  | ack eventId deletes =>
    cases hstep
    have heq := htracked.ackEvent_eq likeMatchesBlobs eventId deletes
    have htracked' := htracked.ack likeMatchesBlobs eventId deletes
      (if (s.buffer.ackEvent likeMatchesBlobs eventId deletes).1 then
        s.unacked.filter fun e => e.eventId ≠ eventId else s.unacked)
    refine (htracked'.recovers_iff_rows str).trans ?_
    have hsession : (s.buffer.ackEvent likeMatchesBlobs eventId deletes).2.sessionId =
        s.buffer.sessionId := by rw [heq]
    show ((s.ackedStore likeMatchesBlobs store eventId deletes).rowsOf (queueName
      (s.buffer.ackEvent likeMatchesBlobs eventId deletes).2.sessionId)).map StoreRun.readRow =
        (if (s.buffer.ackEvent likeMatchesBlobs eventId deletes).1 then _ else _ :
          List ChangeEvent).map .ok ↔ _
    rw [hsession, heq]
    cases deletes with
    | false => exact iff_of_true hrows nofun
    | true =>
      rw [if_pos rfl]
      unfold ackedStore
      rw [if_pos rfl, store.rowsOf_deleteWhere, map_filter_eq_iff hrows hnodup,
        htracked.ackedRow_iff likeMatchesBlobs hrows]
      exact ⟨fun hall _ => hall, fun hall => hall rfl⟩

/-- **What is recovered after a crash.**  After a run of pushes and acknowledgements a new process
recovers exactly the events that were not acknowledged, each once, in the order in which they were
pushed and as they were pushed, precisely when all calls keep the stored events apart. -/
theorem recovers_iff (maxMemoryBytes : ℤ) (sessionId : String) (others : DurableQueueStore)
    (as : List StoreCall) :
    HoldsAlong (storeStep str likeMatchesBlobs) (Recovers str)
        (start maxMemoryBytes sessionId others) as ↔
      MeetsAlong (storeStep str likeMatchesBlobs) (KeepsStored likeMatchesBlobs)
        (start maxMemoryBytes sessionId others) as :=
  holdsAlong_iff_meetsAlong (I := Consistent)
    (fun _ _ _ hI hstep => hI.step str likeMatchesBlobs hstep)
    (fun _ _ _ hI hP hstep => recovers_step_iff str likeMatchesBlobs hI hP hstep)
    (consistent_start maxMemoryBytes sessionId others)
    (recovers_start str maxMemoryBytes sessionId others) as

/-- An insert with bytes in its image. -/
def insertOfBytes : CapturedEvent where
  event := sampleEvent "e1" "0/1" .insert (some [("photo", .bytes [255])])
  isEvent := isEvent_sampleEvent _ _ _ (by
    rintro _ ⟨⟩
    exact ⟨by decide, trivial, trivial⟩)

/-- **An image with bytes** comes back with a text in their place. -/
theorem not_recovers_of_bytes : ¬ HoldsAlong (storeStep (fun _ => "") false) (Recovers fun _ => "")
      (start 67108864 "default" DurableQueueStore.empty) [.push insertOfBytes true] := by
  intro h
  obtain ⟨s', hstep⟩ : ∃ s', storeStep (fun _ => "") false
      (start 67108864 "default" DurableQueueStore.empty) (.push insertOfBytes true) = some s' := by
    rw [storeStep]
    exact ⟨_, if_neg List.not_mem_nil⟩
  have hplain := (recovers_step_iff (fun _ => "") false
    (consistent_start 67108864 "default" DurableQueueStore.empty) h.1 hstep).mp (h.2 _ hstep)
  exact (hplain.2.afterImage _ rfl).1

end StoreRun

end EngineCDC

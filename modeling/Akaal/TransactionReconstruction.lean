/-
# Putting transactions together

`TransactionReconstructionEngine` of `akaalEngine/cdc/decode/transaction.py` and the
`CDCTransaction` of `akaalEngine/cdc/models/transaction.py`.

* `fronted_process_iff` : which events keep the emitted transactions in front of the others;
* `Holding.process` : every event is in exactly one transaction of the engine;
* `reconstructs_iff` : the sequences that are emitted in commit order;
* `not_reconstructs_of_bypass` : an event without transaction overtakes an open one.
-/
import Akaal.ChangeEvents
import Akaal.OrderedRelease
import Akaal.TransitionRun

open OrderedRelease TransitionRun

namespace PyDict

variable {α : Type*}

/-- `del d[key]`. -/
def erase (d : PyDict α) (key : String) : PyDict α where
  items := d.items.filter fun item => item.1 ≠ key
  nodup := (List.filter_sublist.map Prod.fst).nodup d.nodup

theorem get?_erase (d : PyDict α) (key k : String) :
    (d.erase key).get? k = if k = key then none else d.get? k := by
  apply Option.ext
  intro value
  rw [← mem_items_iff]
  show (k, value) ∈ d.items.filter _ ↔ _
  rw [List.mem_filter, mem_items_iff]
  split_ifs with h
  · simp [h]
  · simp [h]

theorem perm_erase (d : PyDict α) {key : String} {value : α} (h : d.get? key = some value) :
    d.items.Perm ((key, value) :: (d.erase key).items) := by
  rw [← mem_items_iff] at h
  have hdistinct : d.items.Nodup := List.Nodup.of_map Prod.fst d.nodup
  rw [List.perm_ext_iff_of_nodup hdistinct]
  · rintro ⟨k, v⟩
    show _ ↔ (k, v) ∈ (key, value) :: d.items.filter _
    rw [List.mem_cons, List.mem_filter, decide_eq_true_iff]
    constructor
    · intro hmem
      by_cases hk : k = key
      · subst hk
        rw [mem_items_iff] at h hmem
        exact .inl (by rw [Option.some.inj (hmem.symm.trans h)])
      · exact .inr ⟨hmem, hk⟩
    · rintro (heq | ⟨hmem, -⟩)
      · rw [heq]
        exact h
      · exact hmem
  · rw [List.nodup_cons]
    refine ⟨?_, hdistinct.filter _⟩
    show (key, value) ∉ d.items.filter _
    simp

theorem items_erase_of_none (d : PyDict α) {key : String} (h : d.get? key = none) :
    (d.erase key).items = d.items := by
  refine List.filter_eq_self.mpr ?_
  rintro ⟨k, v⟩ hitem
  rw [mem_items_iff] at hitem
  rw [decide_eq_true_iff]
  rintro rfl
  rw [hitem] at h
  cases h

theorem items_erase_set (d : PyDict α) (key : String) (value : α) :
    ((d.set key value).erase key).items = (d.erase key).items := by
  show (setItem key value d.items).filter _ = d.items.filter _
  induction d.items with
  | nil => simp [setItem]
  | cons item items ih =>
    rw [setItem]
    split_ifs with h
    · simp [h]
    · rw [List.filter_cons, List.filter_cons, ih]

end PyDict

namespace EngineCDC

/-! ## Transactions -/

/-- `str` of a float. -/
def floatStr : PyFloat → String
  | .infinite negative => PyFloat.format12g (.infinite negative)
  | .nan => "nan"
  | x => x.jsonText

/-- `CDCTransaction`. -/
structure CDCTransaction where
  txContext : TransactionContext
  events : List ChangeEvent
  isCommitted : Bool
  isRolledBack : Bool

namespace CDCTransaction

/-- A transaction without events. -/
def new (ctx : TransactionContext) : CDCTransaction := ⟨ctx, [], false, false⟩

/-- `add_event`. -/
def addEvent (t : CDCTransaction) (e : ChangeEvent) : CDCTransaction :=
  { t with events := t.events ++ [e] }

/-- `mark_committed`. -/
def markCommitted (t : CDCTransaction) : CDCTransaction := { t with isCommitted := true }

/-- The commit position of the first event; the empty text without events. -/
def position (t : CDCTransaction) : String := t.events.head?.elim "" ChangeEvent.commitPosition

/-- The key of the commit queue. -/
def sortKey (t : CDCTransaction) : Lex (String × String) :=
  toLex (t.position, t.txContext.commitTimestampIso)

/-- The id that the events of a transaction share; none for an event on its own. -/
def owner (t : CDCTransaction) : Option String :=
  t.events.head?.bind fun e => e.txContext.map TransactionContext.txId

end CDCTransaction

/-! ## The engine -/

/-- `TransactionReconstructionEngine`. -/
structure TransactionReconstructionEngine where
  activeTxs : PyDict CDCTransaction
  committedQueue : List CDCTransaction

namespace TransactionReconstructionEngine

/-- A new engine. -/
def new : TransactionReconstructionEngine := ⟨PyDict.empty, []⟩

/-- The commit queue in order; the sort is stable. -/
def sortQueue (queue : List CDCTransaction) : List CDCTransaction :=
  queue.insertionSort fun t t' => t.sortKey ≤ t'.sortKey

/-- The least position of an open transaction that has events. -/
def minActivePos (eng : TransactionReconstructionEngine) : Option String :=
  ((eng.activeTxs.items.filter fun item => item.2.events ≠ []).map fun item => item.2.position).min?

/-- The transaction of an event on its own. -/
def single (e : ChangeEvent) : CDCTransaction where
  txContext := ⟨"tx-single-" ++ e.eventId, floatStr e.commitTimestamp, 1, none⟩
  events := [e]
  isCommitted := true
  isRolledBack := false

/-- Whether a transaction has all its events. -/
def isComplete (t : CDCTransaction) : Bool :=
  match t.txContext.totalEventsInTx with
  | none => false
  | some total => total ≠ 0 ∧ total ≤ (t.events.length : ℤ)

/-- Emit the head of the commit queue, unless an open transaction began before it. -/
def release (eng : TransactionReconstructionEngine) :
    Option CDCTransaction × TransactionReconstructionEngine :=
  match eng.committedQueue with
  | [] => (none, eng)
  | head :: queue =>
    match eng.minActivePos with
    | none => (some head, { eng with committedQueue := queue })
    | some least =>
      if head.position ≤ least then (some head, { eng with committedQueue := queue })
      else (none, eng)

/-- `process_event`. -/
def processEvent (eng : TransactionReconstructionEngine) (e : ChangeEvent) :
    Option CDCTransaction × TransactionReconstructionEngine :=
  match e.txContext with
  | none => (some (single e), eng)
  | some ctx =>
    let tx := ((eng.activeTxs.get? ctx.txId).getD (CDCTransaction.new ctx)).addEvent e
    if isComplete tx then
      -- the transaction leaves the dictionary before the open ones are looked at
      release {
        activeTxs := eng.activeTxs.erase ctx.txId
        committedQueue := sortQueue (eng.committedQueue ++ [tx.markCommitted]) }
    else (none, { eng with activeTxs := eng.activeTxs.set ctx.txId tx })

/-- `flush_committed_in_order`. -/
def flushCommittedInOrder (eng : TransactionReconstructionEngine) :
    List CDCTransaction × TransactionReconstructionEngine :=
  (sortQueue eng.committedQueue, { eng with committedQueue := [] })

/-! ## What waits -/

variable (eng : TransactionReconstructionEngine)

/-- The transactions that are not emitted yet. -/
def pending : List CDCTransaction := eng.committedQueue ++ eng.activeTxs.items.map Prod.snd

/-- Their commit positions. -/
def positions : List String := eng.pending.map CDCTransaction.position

/-- Every open transaction has an event. -/
def Started : Prop := ∀ id tx, eng.activeTxs.get? id = some tx → tx.events ≠ []

/-- The open transaction of an id, a new one when there is none, with one more event. -/
def extended (ctx : TransactionContext) (e : ChangeEvent) : CDCTransaction :=
  ((eng.activeTxs.get? ctx.txId).getD (CDCTransaction.new ctx)).addEvent e

/-- The engine with a transaction that got one more event, before anything is emitted. -/
def accept (ctx : TransactionContext) (e : ChangeEvent) : TransactionReconstructionEngine :=
  let tx := eng.extended ctx e
  if isComplete tx then {
    activeTxs := eng.activeTxs.erase ctx.txId
    committedQueue := sortQueue (eng.committedQueue ++ [tx.markCommitted]) }
  else { eng with activeTxs := eng.activeTxs.set ctx.txId tx }

/-- The positions with the one of an event that opens a transaction. -/
def positionsWith (ctx : TransactionContext) (e : ChangeEvent) : List String :=
  if eng.activeTxs.get? ctx.txId = none then e.commitPosition :: eng.positions else eng.positions

theorem sortQueue_perm (queue : List CDCTransaction) : (sortQueue queue).Perm queue :=
  List.perm_insertionSort _ _

theorem sortQueue_pairwise (queue : List CDCTransaction) :
    ((sortQueue queue).map CDCTransaction.position).Pairwise (· ≤ ·) := by
  have hsorted : (sortQueue queue).Pairwise fun t t' => t.sortKey ≤ t'.sortKey :=
    List.pairwise_insertionSort _ _
  rw [List.pairwise_map]
  refine hsorted.imp ?_
  intro t t' h
  rcases Prod.Lex.le_iff.mp h with hlt | ⟨heq, -⟩
  · exact hlt.le
  · exact heq.le

theorem position_addEvent {t : CDCTransaction} (h : t.events ≠ []) (e : ChangeEvent) :
    (t.addEvent e).position = t.position := by
  obtain ⟨d, ds, hevents⟩ := List.exists_cons_of_ne_nil h
  simp [CDCTransaction.position, CDCTransaction.addEvent, hevents]

/-- **Accepting an event** adds its position to those that wait, when it opens a transaction. -/
theorem positions_accept (hstarted : eng.Started) (ctx : TransactionContext) (e : ChangeEvent) :
    (eng.accept ctx e).positions.Perm (eng.positionsWith ctx e) := by
  -- a complete transaction is moved to the queue, an incomplete one put back in its place
  have hreplaced : (eng.accept ctx e).positions.Perm
      ((eng.extended ctx e).position :: (eng.committedQueue.map CDCTransaction.position ++
        (eng.activeTxs.erase ctx.txId).items.map fun item => item.2.position)) := by
    unfold accept
    dsimp only
    split_ifs
    · unfold positions pending
      rw [List.map_append, List.map_map]
      have hqueue := (sortQueue_perm
        (eng.committedQueue ++ [(eng.extended ctx e).markCommitted])).map CDCTransaction.position
      refine (hqueue.append_right _).trans ?_
      rw [List.map_append, List.append_assoc]
      exact List.perm_middle
    · unfold positions pending
      rw [List.map_append, List.map_map]
      have hset : (eng.activeTxs.set ctx.txId (eng.extended ctx e)).items.Perm
          ((ctx.txId, eng.extended ctx e) :: (eng.activeTxs.erase ctx.txId).items) := by
        have hitem := (eng.activeTxs.set ctx.txId (eng.extended ctx e)).perm_erase
          (PyDict.get?_set _ _ _)
        have herase : ((eng.activeTxs.set ctx.txId (eng.extended ctx e)).erase ctx.txId).items =
            (eng.activeTxs.erase ctx.txId).items := PyDict.items_erase_set _ _ _
        rw [herase] at hitem
        exact hitem
      refine ((hset.map _).append_left _).trans ?_
      rw [List.map_cons]
      exact List.perm_middle
  unfold positionsWith
  cases hget : eng.activeTxs.get? ctx.txId with
  | none =>
    rw [if_pos rfl]
    have hposition : (eng.extended ctx e).position = e.commitPosition := by
      rw [extended, hget]
      rfl
    have hleft : (eng.activeTxs.erase ctx.txId).items = eng.activeTxs.items :=
      PyDict.items_erase_of_none _ hget
    refine hreplaced.trans ?_
    rw [hposition, hleft, positions, pending, List.map_append, List.map_map]
    exact List.Perm.refl _
  | some t =>
    rw [if_neg (by simp)]
    have hposition : (eng.extended ctx e).position = t.position := by
      rw [extended, hget]
      exact position_addEvent (hstarted _ t hget) e
    refine hreplaced.trans ?_
    have hitem := (eng.activeTxs.perm_erase hget).map fun item => item.2.position
    rw [hposition, positions, pending, List.map_append, List.map_map]
    refine List.Perm.trans ?_ (hitem.symm.append_left _)
    rw [List.map_cons]
    exact List.perm_middle.symm

/-- **What a release does.**  Nothing, or the head of the queue leaves; then everything that waits
comes after it. -/
theorem release_cases (hstarted : eng.Started)
    (hsorted : (eng.committedQueue.map CDCTransaction.position).Pairwise (· ≤ ·)) :
    eng.release = (none, eng) ∨ ∃ head queue, eng.committedQueue = head :: queue ∧
      eng.release = (some head, { eng with committedQueue := queue }) ∧
      ∀ b ∈ ({ eng with committedQueue := queue } : TransactionReconstructionEngine).positions,
        head.position ≤ b := by
  unfold release
  cases hqueue : eng.committedQueue with
  | nil => exact .inl rfl
  | cons head queue =>
    have hfilter : (eng.activeTxs.items.filter fun item => item.2.events ≠ []) =
        eng.activeTxs.items := by
      refine List.filter_eq_self.mpr ?_
      rintro ⟨id, tx⟩ hitem
      exact decide_eq_true (hstarted id tx ((eng.activeTxs.mem_items_iff).mp hitem))
    rw [hqueue, List.map_cons, List.pairwise_cons] at hsorted
    -- the head is emitted when no open transaction began before it
    have hemit : (∀ b ∈ eng.activeTxs.items.map (fun item => item.2.position),
        head.position ≤ b) → ∀ b ∈ ({ eng with committedQueue := queue } :
          TransactionReconstructionEngine).positions, head.position ≤ b := by
      intro hopen b hb
      rw [positions, pending, List.map_append, List.map_map] at hb
      rcases List.mem_append.mp hb with hb | hb
      · exact hsorted.1 b hb
      · exact hopen b hb
    dsimp only
    cases hleast : eng.minActivePos with
    | none =>
      refine .inr ⟨head, queue, rfl, rfl, hemit ?_⟩
      rw [minActivePos, hfilter, List.min?_eq_none_iff] at hleast
      rw [hleast]
      exact List.forall_mem_nil _
    | some least =>
      rw [minActivePos, hfilter, List.min?_eq_some_iff] at hleast
      by_cases hle : head.position ≤ least
      · refine .inr ⟨head, queue, rfl, if_pos hle, hemit ?_⟩
        exact fun b hb => hle.trans (hleast.2 b hb)
      · exact .inl (if_neg hle)

theorem Started.accept {eng : TransactionReconstructionEngine} (h : eng.Started)
    (ctx : TransactionContext) (e : ChangeEvent) : (eng.accept ctx e).Started := by
  intro id tx hget
  unfold TransactionReconstructionEngine.accept at hget
  dsimp only at hget
  split_ifs at hget
  · rw [PyDict.get?_erase] at hget
    split_ifs at hget
    exact h id tx hget
  · by_cases hid : id = ctx.txId
    · subst hid
      rw [PyDict.get?_set] at hget
      cases hget
      simp [extended, CDCTransaction.addEvent]
    · rw [PyDict.get?_set_of_ne _ _ hid] at hget
      exact h id tx hget

/-- What `process_event` does with an event of a transaction. -/
theorem processEvent_some {e : ChangeEvent} {ctx : TransactionContext}
    (hctx : e.txContext = some ctx) :
    eng.processEvent e =
      if isComplete (eng.extended ctx e) then (eng.accept ctx e).release
      else (none, eng.accept ctx e) := by
  unfold processEvent accept extended
  rw [hctx]
  dsimp only
  split_ifs
  · rfl
  · rfl

/-- Accepting an event keeps the queue in order. -/
theorem pairwise_accept (h : (eng.committedQueue.map CDCTransaction.position).Pairwise (· ≤ ·))
    (ctx : TransactionContext) (e : ChangeEvent) :
    ((eng.accept ctx e).committedQueue.map CDCTransaction.position).Pairwise (· ≤ ·) := by
  unfold accept
  dsimp only
  split_ifs
  · exact sortQueue_pairwise _
  · exact h

/-- **What processing an event of a transaction does**: it is accepted, and then the head of the
queue may leave, when everything that waits comes after it. -/
theorem processEvent_cases (hstarted : eng.Started)
    (hsorted : (eng.committedQueue.map CDCTransaction.position).Pairwise (· ≤ ·))
    {e : ChangeEvent} {ctx : TransactionContext} (hctx : e.txContext = some ctx) :
    eng.processEvent e = (none, eng.accept ctx e) ∨
      ∃ head queue, (eng.accept ctx e).committedQueue = head :: queue ∧
        eng.processEvent e = (some head, { eng.accept ctx e with committedQueue := queue }) ∧
        ∀ b ∈ ({ eng.accept ctx e with committedQueue := queue } :
          TransactionReconstructionEngine).positions, head.position ≤ b := by
  rw [eng.processEvent_some hctx]
  split_ifs
  · exact (eng.accept ctx e).release_cases (hstarted.accept ctx e)
      (eng.pairwise_accept hsorted ctx e)
  · exact .inl rfl

end TransactionReconstructionEngine

/-! ## Runs -/

/-- The engine, and the transactions it has emitted. -/
structure ReconstructionRun where
  engine : TransactionReconstructionEngine
  emitted : List CDCTransaction

namespace ReconstructionRun

/-- A new engine. -/
def start : ReconstructionRun := ⟨TransactionReconstructionEngine.new, []⟩

/-- The engine processes an event. -/
def process (s : ReconstructionRun) (e : ChangeEvent) : ReconstructionRun :=
  let (emitted, engine) := s.engine.processEvent e
  ⟨engine, s.emitted ++ emitted.toList⟩

/-- The step of an event. -/
def processStep (s : ReconstructionRun) (e : ChangeEvent) : Option ReconstructionRun :=
  some (s.process e)

/-- The transactions that the events are emitted in, with those of the final flush. -/
def output (events : List ChangeEvent) : List CDCTransaction :=
  let s := events.foldl process start
  s.emitted ++ s.engine.flushCommittedInOrder.1

variable (s : ReconstructionRun)

/-- The emitted transactions are in commit order, in front of all others. -/
def InFront : Prop := Fronted (s.emitted.map CDCTransaction.position) s.engine.positions

/-- An event on its own comes between the emitted transactions and those that wait; an event that
opens a transaction comes after the emitted ones. -/
def KeepsFront (e : ChangeEvent) : Prop :=
  match e.txContext with
  | none => (∀ a ∈ s.emitted.map CDCTransaction.position, a ≤ e.commitPosition) ∧
      ∀ b ∈ s.engine.positions, e.commitPosition ≤ b
  | some ctx => s.engine.activeTxs.get? ctx.txId = none →
      ∀ a ∈ s.emitted.map CDCTransaction.position, a ≤ e.commitPosition

/-- The queue is in the order of the positions, and every open transaction has an event. -/
structure Ready : Prop where
  started : s.engine.Started
  sorted : (s.engine.committedQueue.map CDCTransaction.position).Pairwise (· ≤ ·)

theorem ready_start : start.Ready where
  started := fun _ _ h => by cases h
  sorted := List.Pairwise.nil

theorem process_none {e : ChangeEvent} (hctx : e.txContext = none) :
    s.process e = ⟨s.engine, s.emitted ++ [TransactionReconstructionEngine.single e]⟩ := by
  rw [ReconstructionRun.process, TransactionReconstructionEngine.processEvent, hctx]
  rfl

/-- Processing an event keeps the engine ready. -/
theorem Ready.process {s : ReconstructionRun} (h : s.Ready) (e : ChangeEvent) :
    (s.process e).Ready := by
  cases hctx : e.txContext with
  | none =>
    rw [s.process_none hctx]
    exact ⟨h.started, h.sorted⟩
  | some ctx =>
    unfold ReconstructionRun.process
    have hstarted := h.started.accept ctx e
    have hsorted := s.engine.pairwise_accept h.sorted ctx e
    rcases s.engine.processEvent_cases h.started h.sorted hctx with
      hkept | ⟨head, queue, hqueue, hemitted, -⟩
    · rw [hkept]
      exact ⟨hstarted, hsorted⟩
    · rw [hemitted]
      rw [hqueue, List.map_cons, List.pairwise_cons] at hsorted
      exact ⟨hstarted, hsorted.2⟩

/-- **Which events keep the emitted transactions in front.** -/
theorem fronted_process_iff {s : ReconstructionRun} (h : s.Ready) (e : ChangeEvent) :
    (s.process e).InFront ↔ s.InFront ∧ s.KeepsFront e := by
  unfold KeepsFront
  cases hctx : e.txContext with
  | none =>
    rw [s.process_none hctx, InFront, List.map_append]
    exact fronted_pass
  | some ctx =>
    have haccept : Fronted (s.emitted.map CDCTransaction.position)
        (s.engine.accept ctx e).positions ↔ s.InFront ∧ (s.engine.activeTxs.get? ctx.txId = none →
          ∀ a ∈ s.emitted.map CDCTransaction.position, a ≤ e.commitPosition) := by
      rw [fronted_congr (s.engine.positions_accept h.started ctx e),
        TransactionReconstructionEngine.positionsWith]
      split_ifs with hopens
      · rw [fronted_arrive, InFront, forall_prop_of_true hopens]
      · rw [InFront]
        exact (and_iff_left fun hnone => absurd hnone hopens).symm
    dsimp only
    rw [← haccept]
    rcases s.engine.processEvent_cases h.started h.sorted hctx with
      hkept | ⟨head, queue, hqueue, hemitted, hleast⟩
    · rw [ReconstructionRun.process, hkept, InFront]
      simp
    · have hpositions : (s.engine.accept ctx e).positions = head.position ::
          ({ s.engine.accept ctx e with committedQueue := queue } :
            TransactionReconstructionEngine).positions := by
        rw [TransactionReconstructionEngine.positions, TransactionReconstructionEngine.pending,
          hqueue]
        rfl
      rw [ReconstructionRun.process, hemitted, InFront, hpositions, ← fronted_release hleast]
      simp

end ReconstructionRun

/-! ## Sequences of events -/

/-- The id of the transaction of an event; none for an event on its own. -/
def ownerOf (e : ChangeEvent) : Option String := e.txContext.map TransactionContext.txId

/-- The events of an owner, in the order in which they arrive. -/
def eventsFor (owner : Option String) (events : List ChangeEvent) : List ChangeEvent :=
  events.filter fun e => ownerOf e = owner

/-- The transactions that a sequence of events consists of, for each owner. -/
def transactionsOf (events : List ChangeEvent) : Option String → List (List ChangeEvent)
  | none => (eventsFor none events).map fun e => [e]
  | some id => if eventsFor (some id) events = [] then [] else [eventsFor (some id) events]

/-- Every transaction declares the number of its events. -/
def Declared (events : List ChangeEvent) : Prop :=
  ∀ id e es, eventsFor (some id) events = e :: es →
    ∃ ctx, e.txContext = some ctx ∧ ctx.totalEventsInTx = some ((es.length : ℤ) + 1)

/-- The transactions begin in the order of their commit positions. -/
def BeginsInOrder (events : List ChangeEvent) : Prop :=
  ∀ seen e rest id, events = seen ++ e :: rest → ownerOf e = some id →
    eventsFor (some id) seen = [] → ∀ id' d ds, eventsFor (some id') seen = d :: ds →
      d.commitPosition ≤ e.commitPosition

/-- Transactions are in commit order. -/
def InCommitOrder (output : List CDCTransaction) : Prop :=
  (output.map CDCTransaction.position).Pairwise (· ≤ ·)

/-- Each transaction of a sequence is there once, with all its events in the order of arrival, and
nothing else. -/
def EachOnce (events : List ChangeEvent) (output : List CDCTransaction) : Prop :=
  ∀ owner, ((output.filter fun t => t.owner = owner).map CDCTransaction.events).Perm
    (transactionsOf events owner)

theorem eventsFor_concat (owner : Option String) (seen : List ChangeEvent) (e : ChangeEvent) :
    eventsFor owner (seen ++ [e]) =
      if ownerOf e = owner then eventsFor owner seen ++ [e] else eventsFor owner seen := by
  unfold eventsFor
  rw [List.filter_append]
  split_ifs with h
  · simp [h]
  · simp [h]

theorem eventsFor_append (owner : Option String) (seen rest : List ChangeEvent) :
    eventsFor owner (seen ++ rest) = eventsFor owner seen ++ eventsFor owner rest :=
  List.filter_append ..

theorem ownerOf_of_eventsFor {owner : Option String} {events es : List ChangeEvent}
    {e : ChangeEvent} (h : eventsFor owner events = e :: es) : ownerOf e = owner := by
  have hmem : e ∈ eventsFor owner events := h ▸ List.mem_cons_self
  exact of_decide_eq_true (List.mem_filter.mp hmem).2

namespace ReconstructionRun

variable (s : ReconstructionRun)

/-- The transactions that are complete when a part of the sequence has arrived. -/
def finished (events seen : List ChangeEvent) : Option String → List (List ChangeEvent)
  | none => transactionsOf seen none
  | some id =>
    if (eventsFor (some id) seen).length < (eventsFor (some id) events).length then []
    else transactionsOf events (some id)

/-- A transaction of which some events have arrived, but not all. -/
def Opened (events seen : List ChangeEvent) (id : String) (tx : CDCTransaction) : Prop :=
  ∃ e es ctx, eventsFor (some id) seen = e :: es ∧ e.txContext = some ctx ∧
    tx = ⟨ctx, e :: es, false, false⟩ ∧
    (eventsFor (some id) seen).length < (eventsFor (some id) events).length

/-- The engine holds what has arrived: the open transactions in its dictionary, and the complete ones
in the queue unless they are emitted. -/
structure Holding (events seen : List ChangeEvent) (s : ReconstructionRun) : Prop where
  open_iff : ∀ id tx, s.engine.activeTxs.get? id = some tx ↔ Opened events seen id tx
  finished : ∀ owner, (((s.emitted ++ s.engine.committedQueue).filter fun t => t.owner = owner).map
    CDCTransaction.events).Perm (finished events seen owner)

variable {ctx : TransactionContext} {e : ChangeEvent} {events seen : List ChangeEvent}

/-- An event of a transaction is accepted; what is emitted comes from the queue. -/
theorem process_some (h : s.Ready) (hctx : e.txContext = some ctx) :
    (s.process e).engine.activeTxs = (s.engine.accept ctx e).activeTxs ∧
      (s.process e).emitted ++ (s.process e).engine.committedQueue =
        s.emitted ++ (s.engine.accept ctx e).committedQueue := by
  rw [ReconstructionRun.process]
  rcases s.engine.processEvent_cases h.started h.sorted hctx with
    hkept | ⟨head, queue, hqueue, hemitted, -⟩
  · rw [hkept]
    simp
  · rw [hemitted, hqueue]
    simp

/-- The transaction that an event of the sequence belongs to, once it has arrived. -/
theorem Holding.extended {rest : List ChangeEvent} {s : ReconstructionRun}
    (h : Holding events seen s) (hdeclared : Declared events) (hevents : events = seen ++ e :: rest)
    (hctx : e.txContext = some ctx) :
    ∃ d ds first, eventsFor (some ctx.txId) (seen ++ [e]) = d :: ds ∧ d.txContext = some first ∧
      s.engine.extended ctx e = ⟨first, d :: ds, false, false⟩ ∧
      first.totalEventsInTx = some ((eventsFor (some ctx.txId) events).length : ℤ) := by
  have howner : ownerOf e = some ctx.txId := by
    rw [ownerOf, hctx]
    rfl
  have harrived := eventsFor_concat (some ctx.txId) seen e
  rw [if_pos howner] at harrived
  have hall : eventsFor (some ctx.txId) events =
      eventsFor (some ctx.txId) (seen ++ [e]) ++ eventsFor (some ctx.txId) rest := by
    rw [← eventsFor_append, hevents, List.append_assoc, List.singleton_append]
  rw [harrived] at hall ⊢
  cases hseen : eventsFor (some ctx.txId) seen with
  | nil =>
    rw [hseen] at hall
    -- the first event of its transaction
    have hnone : s.engine.activeTxs.get? ctx.txId = none := by
      refine Option.eq_none_iff_forall_not_mem.mpr ?_
      intro tx htx
      obtain ⟨d, ds, -, hcons, -⟩ := (h.open_iff _ _).mp htx
      rw [hseen] at hcons
      cases hcons
    obtain ⟨first, hfirst, htotal⟩ := hdeclared ctx.txId e _ hall
    obtain rfl := Option.some.inj (hctx.symm.trans hfirst)
    refine ⟨e, [], ctx, rfl, hctx, ?_, ?_⟩
    · rw [TransactionReconstructionEngine.extended, hnone]
      rfl
    · rw [htotal, hall]
      simp
  | cons d ds =>
    rw [hseen] at hall
    obtain ⟨first, hfirst, htotal⟩ := hdeclared ctx.txId d _ hall
    have hopened : Opened events seen ctx.txId ⟨first, d :: ds, false, false⟩ := by
      refine ⟨d, ds, first, hseen, hfirst, rfl, ?_⟩
      rw [hseen, hall]
      simp
    refine ⟨d, ds ++ [e], first, rfl, hfirst, ?_, ?_⟩
    · rw [TransactionReconstructionEngine.extended, (h.open_iff _ _).mpr hopened]
      rfl
    · rw [htotal, hall]
      simp

theorem isComplete_iff {tx : CDCTransaction} {n : ℕ} (hpos : 0 < n)
    (htotal : tx.txContext.totalEventsInTx = some (n : ℤ)) :
    TransactionReconstructionEngine.isComplete tx = true ↔ n ≤ tx.events.length := by
  rw [TransactionReconstructionEngine.isComplete, htotal]
  simp
  omega

/-- **The engine goes on holding what has arrived**: an event on its own. -/
theorem Holding.process_none {s : ReconstructionRun}
    (h : Holding events seen s) (hctx : e.txContext = none) :
    Holding events (seen ++ [e]) (s.process e) := by
  have howner : ownerOf e = none := by
    rw [ownerOf, hctx]
    rfl
  have hsame : ∀ id, eventsFor (some id) (seen ++ [e]) = eventsFor (some id) seen := by
    intro id
    rw [eventsFor_concat, if_neg (howner ▸ (Option.some_ne_none id).symm)]
  rw [s.process_none hctx]
  refine ⟨?_, ?_⟩
  · intro id tx
    unfold Opened
    rw [hsame]
    exact h.open_iff id tx
  · intro owner
    have hperm : ((s.emitted ++ [TransactionReconstructionEngine.single e]) ++
        s.engine.committedQueue).Perm ((s.emitted ++ s.engine.committedQueue) ++
          [TransactionReconstructionEngine.single e]) := by
      rw [List.append_assoc, List.append_assoc]
      exact List.perm_append_comm.append_left _
    refine ((hperm.filter _).map _).trans ?_
    rw [List.filter_append, List.map_append]
    have hsingle : (TransactionReconstructionEngine.single e).owner = none := howner
    cases owner with
    | none =>
      show List.Perm _ (transactionsOf (seen ++ [e]) none)
      rw [transactionsOf, eventsFor_concat, if_pos howner, List.map_append]
      refine (h.finished none).append ?_
      rw [List.filter_singleton, hsingle]
      exact List.Perm.refl _
    | some id =>
      have hfinished : ReconstructionRun.finished events (seen ++ [e]) (some id) =
          ReconstructionRun.finished events seen (some id) := by
        show (if (eventsFor (some id) (seen ++ [e])).length < _ then [] else _) =
          if _ then [] else _
        rw [hsame]
      rw [List.filter_singleton, hsingle, hfinished]
      simpa using h.finished (some id)

/-- **The engine goes on holding what has arrived**: an event of a transaction. -/
theorem Holding.process_some {rest : List ChangeEvent} {s : ReconstructionRun}
    (h : Holding events seen s) (hready : s.Ready) (hdeclared : Declared events)
    (hevents : events = seen ++ e :: rest)
    (hctx : e.txContext = some ctx) : Holding events (seen ++ [e]) (s.process e) := by
  obtain ⟨d, ds, first, harrived, hfirst, hextended, htotal⟩ :=
    h.extended hdeclared hevents hctx
  have howner : ownerOf e = some ctx.txId := by
    rw [ownerOf, hctx]
    rfl
  have hother : ∀ owner, owner ≠ some ctx.txId →
      eventsFor owner (seen ++ [e]) = eventsFor owner seen := by
    intro owner hne
    rw [eventsFor_concat, if_neg (by rw [howner]; exact hne.symm)]
  -- before the event, the transaction was not complete
  have hlengths := eventsFor_concat (some ctx.txId) seen e
  rw [if_pos howner] at hlengths
  have hall : eventsFor (some ctx.txId) events =
      eventsFor (some ctx.txId) (seen ++ [e]) ++ eventsFor (some ctx.txId) rest := by
    rw [← eventsFor_append, hevents, List.append_assoc, List.singleton_append]
  have hbefore : (eventsFor (some ctx.txId) seen).length <
      (eventsFor (some ctx.txId) events).length := by
    rw [hall, hlengths]
    simp
  have hcomplete := @isComplete_iff ⟨first, d :: ds, false, false⟩
    (eventsFor (some ctx.txId) events).length (by omega) htotal
  have htxowner : ownerOf d = some ctx.txId := ownerOf_of_eventsFor harrived
  obtain ⟨hactive, hheld⟩ := s.process_some hready hctx
  have hopened : ∀ id tx, id ≠ ctx.txId → (Opened events (seen ++ [e]) id tx ↔
      Opened events seen id tx) := by
    intro id tx hne
    unfold Opened
    rw [hother (some id) (fun heq => hne (Option.some.inj heq))]
  have hfinished : ∀ owner, owner ≠ some ctx.txId →
      ReconstructionRun.finished events (seen ++ [e]) owner =
        ReconstructionRun.finished events seen owner := by
    intro owner hne
    cases owner with
    | none =>
      show transactionsOf (seen ++ [e]) none = transactionsOf seen none
      rw [transactionsOf, transactionsOf, hother none hne]
    | some id =>
      show (if (eventsFor (some id) (seen ++ [e])).length < _ then [] else _) = if _ then [] else _
      rw [hother (some id) hne]
  by_cases hlast : TransactionReconstructionEngine.isComplete (s.engine.extended ctx e) = true
  · -- the transaction moves to the queue
    have haccept : s.engine.accept ctx e = {
        activeTxs := s.engine.activeTxs.erase ctx.txId
        committedQueue := TransactionReconstructionEngine.sortQueue
          (s.engine.committedQueue ++ [(s.engine.extended ctx e).markCommitted]) } := if_pos hlast
    rw [haccept] at hactive hheld
    rw [hextended] at hlast hheld
    have hlength := hcomplete.mp hlast
    have hwhole : eventsFor (some ctx.txId) events = d :: ds := by
      rw [hall, harrived] at hlength ⊢
      rw [List.length_append] at hlength
      have hnone : eventsFor (some ctx.txId) rest = [] :=
        List.length_eq_zero_iff.mp (by dsimp only at hlength; omega)
      rw [hnone, List.append_nil]
    refine ⟨?_, ?_⟩
    · intro id tx
      rw [hactive, PyDict.get?_erase]
      split_ifs with hid
      · subst hid
        refine iff_of_false (by simp) ?_
        rintro ⟨_, _, _, -, -, -, hlt⟩
        rw [harrived, hwhole] at hlt
        exact lt_irrefl _ hlt
      · rw [hopened id tx hid]
        exact h.open_iff id tx
    · intro owner
      have hperm : (s.emitted ++ TransactionReconstructionEngine.sortQueue (s.engine.committedQueue ++
          [CDCTransaction.markCommitted ⟨first, d :: ds, false, false⟩])).Perm
          ((s.emitted ++ s.engine.committedQueue) ++
            [CDCTransaction.markCommitted ⟨first, d :: ds, false, false⟩]) := by
        rw [List.append_assoc]
        exact (TransactionReconstructionEngine.sortQueue_perm _).append_left _
      have htx : (CDCTransaction.markCommitted ⟨first, d :: ds, false, false⟩).owner =
          some ctx.txId := htxowner
      rw [hheld]
      refine ((hperm.filter _).map _).trans ?_
      rw [List.filter_append, List.map_append, List.filter_singleton, htx]
      by_cases hown : owner = some ctx.txId
      · subst hown
        have hempty := h.finished (some ctx.txId)
        rw [ReconstructionRun.finished, if_pos hbefore] at hempty
        rw [hempty.eq_nil, ReconstructionRun.finished, harrived, hwhole, if_neg (lt_irrefl _),
          transactionsOf, hwhole, if_neg (List.cons_ne_nil d ds)]
        simp [CDCTransaction.markCommitted]
      · rw [hfinished owner hown]
        simpa [Ne.symm hown] using h.finished owner
  · -- the transaction stays open
    have haccept : s.engine.accept ctx e = { s.engine with
        activeTxs := s.engine.activeTxs.set ctx.txId (s.engine.extended ctx e) } := if_neg hlast
    rw [haccept] at hactive hheld
    rw [hextended] at hlast hactive
    have hlength := mt hcomplete.mpr hlast
    have hafter : (eventsFor (some ctx.txId) (seen ++ [e])).length <
        (eventsFor (some ctx.txId) events).length := by
      rw [harrived]
      exact not_le.mp hlength
    refine ⟨?_, ?_⟩
    · intro id tx
      rw [hactive]
      by_cases hid : id = ctx.txId
      · subst hid
        rw [PyDict.get?_set, Option.some.injEq]
        constructor
        · rintro rfl
          exact ⟨d, ds, first, harrived, hfirst, rfl, hafter⟩
        · rintro ⟨d', ds', first', harrived', hfirst', rfl, -⟩
          obtain ⟨rfl, rfl⟩ := List.cons.inj (harrived.symm.trans harrived')
          obtain rfl := Option.some.inj (hfirst.symm.trans hfirst')
          rfl
      · rw [PyDict.get?_set_of_ne _ _ hid, hopened id tx hid]
        exact h.open_iff id tx
    · intro owner
      rw [hheld]
      by_cases hown : owner = some ctx.txId
      · subst hown
        have hempty := h.finished (some ctx.txId)
        rw [ReconstructionRun.finished, if_pos hbefore] at hempty
        rw [ReconstructionRun.finished, if_pos hafter]
        exact hempty
      · rw [hfinished owner hown]
        exact h.finished owner

/-- **The engine goes on holding what has arrived.** -/
theorem Holding.process {rest : List ChangeEvent} {s : ReconstructionRun}
    (h : Holding events seen s) (hready : s.Ready) (hdeclared : Declared events)
    (hevents : events = seen ++ e :: rest) : Holding events (seen ++ [e]) (s.process e) := by
  cases hctx : e.txContext with
  | none => exact h.process_none hctx
  | some ctx => exact h.process_some hready hdeclared hevents hctx

theorem holding_start (events : List ChangeEvent) : Holding events [] start := by
  refine ⟨?_, ?_⟩
  · intro id tx
    refine iff_of_false (fun h => by cases h) ?_
    rintro ⟨_, _, _, hnil, -⟩
    cases hnil
  · intro owner
    cases owner with
    | none => exact List.Perm.refl _
    | some id =>
      show List.Perm [] (if 0 < (eventsFor (some id) events).length then []
        else transactionsOf events (some id))
      split_ifs with hpos
      · exact List.Perm.refl _
      · rw [transactionsOf, if_pos (List.length_eq_zero_iff.mp (by omega))]

/-! ## The order of emission -/

/-- An event that keeps the commit order.  One on its own has no later transaction emitted before it
and no earlier one still waiting; one that opens a transaction has no later event on its own emitted
before it. -/
def KeepsOrder (e : ChangeEvent) : Prop :=
  match e.txContext with
  | none => (∀ t ∈ s.emitted, t.position ≤ e.commitPosition) ∧
      ∀ t ∈ s.engine.pending, e.commitPosition ≤ t.position
  | some ctx => s.engine.activeTxs.get? ctx.txId = none →
      ∀ t ∈ s.emitted, t.owner = none → t.position ≤ e.commitPosition

/-- An emitted transaction consists of all events of its id, which have all arrived. -/
theorem Holding.emitted {rest : List ChangeEvent} {s : ReconstructionRun}
    (h : Holding events seen s) (hevents : events = seen ++ rest) {t : CDCTransaction}
    (ht : t ∈ s.emitted) {id : String} (howner : t.owner = some id) :
    ∃ d ds, eventsFor (some id) seen = d :: ds ∧ t.position = d.commitPosition := by
  have hmem : t.events ∈ ReconstructionRun.finished events seen (some id) := by
    rw [← (h.finished (some id)).mem_iff]
    refine List.mem_map_of_mem (List.mem_filter.mpr ⟨List.mem_append_left _ ht, ?_⟩)
    exact decide_eq_true howner
  have hall : eventsFor (some id) events =
      eventsFor (some id) seen ++ eventsFor (some id) rest := by
    rw [← eventsFor_append, hevents]
  rw [ReconstructionRun.finished] at hmem
  split_ifs at hmem with hlt
  · cases hmem
  · rw [transactionsOf] at hmem
    split_ifs at hmem with hnil
    · cases hmem
    · have hrest : eventsFor (some id) rest = [] := by
        rw [hall, List.length_append] at hlt
        exact List.length_eq_zero_iff.mp (by omega)
      rw [hall, hrest, List.append_nil] at hmem hnil
      obtain ⟨d, ds, hseen⟩ := List.exists_cons_of_ne_nil hnil
      refine ⟨d, ds, hseen, ?_⟩
      rw [CDCTransaction.position, List.mem_singleton.mp hmem, hseen]
      rfl

theorem keepsFront_iff {rest : List ChangeEvent} {s : ReconstructionRun}
    (h : Holding events seen s) (hbegins : BeginsInOrder events)
    (hevents : events = seen ++ e :: rest) : s.KeepsFront e ↔ s.KeepsOrder e := by
  unfold KeepsFront KeepsOrder
  cases hctx : e.txContext with
  | none =>
    simp only [TransactionReconstructionEngine.positions, List.forall_mem_map]
  | some ctx =>
    have howner : ownerOf e = some ctx.txId := by
      rw [ownerOf, hctx]
      rfl
    simp only [List.forall_mem_map]
    refine forall_congr' fun hopens => forall₂_congr fun t ht => ⟨fun hle _ => hle, ?_⟩
    intro halone
    cases hid : t.owner with
    | none => exact halone hid
    | some id =>
      -- nothing of the new transaction has arrived before
      have hnew : eventsFor (some ctx.txId) seen = [] := by
        by_contra hne
        obtain ⟨d, ds, hseen⟩ := List.exists_cons_of_ne_nil hne
        obtain ⟨first, hfirst, -⟩ : ∃ first, d.txContext = some first ∧
            first.txId = ctx.txId := Option.map_eq_some_iff.mp (ownerOf_of_eventsFor hseen)
        have hopened : Opened events seen ctx.txId ⟨first, d :: ds, false, false⟩ := by
          refine ⟨d, ds, first, hseen, hfirst, rfl, ?_⟩
          rw [hevents, eventsFor_append, eventsFor, eventsFor, List.filter_cons,
            if_pos (decide_eq_true howner)]
          simp
        rw [(h.open_iff _ _).mpr hopened] at hopens
        cases hopens
      obtain ⟨d, ds, hseen, hposition⟩ := h.emitted hevents ht hid
      rw [hposition]
      exact hbegins seen e rest ctx.txId hevents howner hnew id d ds hseen

/-- **A run over the events that are still to come.** -/
theorem foldl_process (hdeclared : Declared events)
    (hbegins : BeginsInOrder events) (rest : List ChangeEvent) :
    ∀ {seen : List ChangeEvent} {s : ReconstructionRun}, events = seen ++ rest → s.Ready →
      Holding events seen s → Holding events events (rest.foldl ReconstructionRun.process s) ∧
        ((rest.foldl ReconstructionRun.process s).InFront ↔
          s.InFront ∧ MeetsAlong processStep KeepsOrder s rest) := by
  induction rest with
  | nil =>
    intro seen s hevents _ h
    rw [List.append_nil] at hevents
    rw [← hevents] at h
    exact ⟨h, (and_iff_left trivial).symm⟩
  | cons e rest ih =>
    intro seen s hevents hready h
    have hnext : events = (seen ++ [e]) ++ rest := by
      rw [hevents, List.append_assoc, List.singleton_append]
    obtain ⟨hend, hfront⟩ := ih hnext (hready.process e) (h.process hready hdeclared hevents)
    refine ⟨hend, ?_⟩
    have hmeets : MeetsAlong processStep KeepsOrder s (e :: rest) ↔
        s.KeepsOrder e ∧ MeetsAlong processStep KeepsOrder (s.process e) rest := by
      constructor
      · intro hall
        exact hall _ rfl
      · intro hall
        exact MeetsAlong.cons rfl hall.1 hall.2
    rw [List.foldl_cons, hfront, fronted_process_iff hready, keepsFront_iff h hbegins hevents,
      hmeets, and_assoc]

/-- **The sequences that are emitted in commit order.**  For events of transactions that declare how
many events they have and begin in order, and of events on their own, the emitted transactions, with
those of the final flush, are in commit order and each there once with all its events precisely when
every event keeps the order. -/
theorem reconstructs_iff (events : List ChangeEvent) (hdeclared : Declared events)
    (hbegins : BeginsInOrder events) :
    (InCommitOrder (output events) ∧ EachOnce events (output events)) ↔
      MeetsAlong processStep KeepsOrder start events := by
  obtain ⟨hend, hfront⟩ := foldl_process hdeclared hbegins events (List.nil_append events).symm
    ready_start (holding_start events)
  have hinit : start.InFront := ⟨List.Pairwise.nil, fun a ha => by cases ha⟩
  rw [and_iff_right hinit] at hfront
  rw [← hfront]
  have hflush := TransactionReconstructionEngine.sortQueue_perm
    (events.foldl ReconstructionRun.process start).engine.committedQueue
  -- nothing is open in the end
  have hclosed : (events.foldl ReconstructionRun.process start).engine.activeTxs.items = [] := by
    refine List.eq_nil_iff_forall_not_mem.mpr ?_
    rintro ⟨id, tx⟩ hitem
    rw [PyDict.mem_items_iff, hend.open_iff] at hitem
    obtain ⟨_, _, _, -, -, -, hlt⟩ := hitem
    exact lt_irrefl _ hlt
  have honce : EachOnce events (output events) := by
    intro owner
    have hheld := hend.finished owner
    refine (((hflush.append_left _).filter _).map _).trans (hheld.trans ?_)
    cases owner with
    | none => exact List.Perm.refl _
    | some id =>
      rw [finished, if_neg (lt_irrefl _)]
  rw [and_iff_left honce, InCommitOrder, output]
  rw [List.map_append, TransactionReconstructionEngine.flushCommittedInOrder]
  rw [pairwise_append_iff (TransactionReconstructionEngine.sortQueue_pairwise _), InFront,
    TransactionReconstructionEngine.positions, TransactionReconstructionEngine.pending, hclosed,
    List.map_nil, List.append_nil]
  exact fronted_congr (hflush.map _)

/-- An event of a transaction of two events. -/
def ofPair (eventId commitPosition : String) : ChangeEvent :=
  { sampleEvent eventId commitPosition .insert none with
    txContext := some ⟨"t1", "2024-01-01T00:00:00", 1, some 2⟩ }

/-- A transaction of two events, with an event on its own between them. -/
def overtaken : List ChangeEvent :=
  [ofPair "e1" "0/1", sampleEvent "e2" "0/2" .insert none, ofPair "e3" "0/1"]

theorem declared_overtaken : Declared overtaken := by
  intro id e es h
  have howner := ownerOf_of_eventsFor h
  by_cases hid : id = "t1"
  · subst hid
    obtain ⟨rfl, rfl⟩ := List.cons.inj h
    exact ⟨_, rfl, rfl⟩
  · have hnil : eventsFor (some id) overtaken = [] := by
      simp [eventsFor, overtaken, ownerOf, ofPair, sampleEvent, Ne.symm hid]
    rw [hnil] at h
    cases h

theorem begins_overtaken : BeginsInOrder overtaken := by
  intro seen e rest id hevents howner hnew id' d ds hd
  have hone : ∀ x ∈ overtaken, ∀ tx, ownerOf x = some tx → tx = "t1" := by
    decide +kernel
  have hd' : d ∈ eventsFor (some id') seen := hd ▸ List.mem_cons_self
  have hid : id = "t1" := hone e (hevents ▸ by simp) id howner
  have hid' : id' = "t1" := by
    refine hone d (hevents ▸ ?_) id' (ownerOf_of_eventsFor hd)
    exact List.mem_append_left _ (List.mem_filter.mp hd').1
  rw [hid, ← hid', hd] at hnew
  cases hnew

/-- Whether the transaction is emitted in order depends on the event between its events. -/
theorem reconstructs_overtaken :
    (InCommitOrder (output overtaken) ∧ EachOnce overtaken (output overtaken)) ↔
      MeetsAlong processStep KeepsOrder start overtaken :=
  reconstructs_iff overtaken declared_overtaken begins_overtaken

/-- **An event on its own** is emitted before a transaction that began earlier. -/
theorem not_reconstructs_of_bypass : ¬ ∀ events, Declared events → BeginsInOrder events →
      InCommitOrder (output events) ∧ EachOnce events (output events) := by
  intro h
  have horder := (h overtaken declared_overtaken begins_overtaken).1
  revert horder
  unfold InCommitOrder
  decide +kernel

end ReconstructionRun

end EngineCDC

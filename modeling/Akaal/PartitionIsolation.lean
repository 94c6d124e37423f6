/-
# Partition isolation of concurrent transport calls

What a call writes and checkpoints is meant to be what its own reader produced.  The
buffer is shared, and `pop` takes the oldest batch whoever pushed it, so this depends on
the order in which the calls pop:

* `isolated_of_popsOwn` : in every run in which each call pops when the oldest queued
  batch is one it pushed, every state is isolated;
* `not_isolated_of_crossed_pops` : two calls that both push before either pops, and pop
  in the other order, write each other's rows to their tables.

The invariant (`Coherent`) says, for each call, which batch it has in hand at each point
of the loop, and that the queued batches are exactly the ones in the hands of the calls
that are about to pop.
-/
import Akaal.PartitionTransport

namespace Transport

open TransitionRun

variable {ι R ρ κ β : Type*}

/-! ## Isolation -/

/-- What the target receives for a batch of a call: the call's table and the batch with
its rows processed. -/
def TransportCall.entry (call : TransportCall β ρ) (b : TransportBatch ρ) :
    String × TransportBatch ρ :=
  (call.partition.tableName, call.writeBatch b)

/-- A call has kept to its own partition: what it wrote and checkpointed comes from its
own reader, and once it returns, what it wrote is what its reader produced, batch by
batch and each once. -/
def OwnBatchesOnly (call : TransportCall β ρ) (c : CallState R ρ κ) : Prop :=
  (∀ w ∈ c.written, ∃ b ∈ c.produced, w = call.entry b) ∧
    (∀ ck ∈ c.checkpoints, ck.1 ∈ c.produced) ∧
    (c.phase = .returned → c.written = c.produced.map call.entry)

/-- Every call has kept to its own partition. -/
def Isolated (calls : ι → TransportCall β ρ) (s : TransportState ι R ρ κ) : Prop :=
  ∀ i, OwnBatchesOnly (calls i) (s.calls i)

/-- The condition on the interleaving: a call that pops finds a batch it pushed itself
at the head of the queue. -/
def PopsOwn (s : TransportState ι R ρ κ) (a : TransportAction ι) : Prop :=
  ∀ i isCancelled, a = .pop i isCancelled → s.pushers.head? = some i

variable {a : TransportAction ι} {c : CallState R ρ κ} {calls : ι → TransportCall β ρ} {i : ι}
  {s : TransportState ι R ρ κ}

theorem popsOwn_of_ne_pop (h : ∀ i isCancelled, a ≠ .pop i isCancelled) : PopsOwn s a :=
  fun i isCancelled ha => absurd ha (h i isCancelled)

/-! ## The invariant -/

/-- Of the batches a call has written and gone on from, those it has checkpointed. -/
def TransportCall.saves (call : TransportCall β ρ) (src : List (TransportBatch ρ)) :
    List (TransportBatch ρ) :=
  if call.checkpointing then src else []

/-- How the batches produced by a call relate to those it has written (`src`) and those it
has checkpointed (`saved`), at each point of the loop. -/
def PhaseCoherent (call : TransportCall β ρ) (produced src saved : List (TransportBatch ρ)) :
    CallPhase ρ → Prop
  | .reading | .returned => produced = src ∧ saved = call.saves src
  | .pushing b | .popping b | .writing b => produced = src ++ [b] ∧ saved = call.saves src
  | .checkpointing b => produced = src ∧ src = saved ++ [b] ∧ call.checkpointing = true
  | .raised _ => src <+: produced ∧ saved <+: src

/-- A call has written the batches `src` of its reader, and checkpointed a prefix of them. -/
def CallCoherent (call : TransportCall β ρ) (c : CallState R ρ κ) : Prop :=
  ∃ src, c.written = src.map call.entry ∧
    PhaseCoherent call c.produced src (c.checkpoints.map Prod.fst) c.phase

/-- The queued batches are those in the hands of the calls about to pop, each once. -/
structure QueueCoherent (s : TransportState ι R ρ κ) : Prop where
  length_eq : s.pushers.length = s.buffer.queue.length
  nodup : s.pushers.Nodup
  mem_zip_iff : ∀ i b, (i, b) ∈ s.pushers.zip s.buffer.queue ↔ (s.calls i).phase = .popping b

/-- The invariant of the runs whose calls pop their own batches. -/
structure Coherent (calls : ι → TransportCall β ρ) (s : TransportState ι R ρ κ) : Prop where
  call : ∀ i, CallCoherent (calls i) (s.calls i)
  queue : QueueCoherent s

theorem TransportCall.saves_prefix (call : TransportCall β ρ) (src : List (TransportBatch ρ)) :
    call.saves src <+: src := by
  unfold saves
  split_ifs
  · exact List.prefix_refl src
  · exact List.nil_prefix

theorem PhaseCoherent.prefixes {call : TransportCall β ρ}
    {produced src saved : List (TransportBatch ρ)} {phase : CallPhase ρ}
    (h : PhaseCoherent call produced src saved phase) : src <+: produced ∧ saved <+: src := by
  cases phase with
  | reading | returned =>
    obtain ⟨rfl, rfl⟩ := h
    exact ⟨List.prefix_refl _, call.saves_prefix _⟩
  | pushing b | popping b | writing b =>
    obtain ⟨rfl, rfl⟩ := h
    exact ⟨List.prefix_append src [b], call.saves_prefix src⟩
  | checkpointing b =>
    obtain ⟨rfl, hsrc, -⟩ := h
    exact ⟨List.prefix_refl _, hsrc ▸ List.prefix_append saved [b]⟩
  | raised e => exact h

theorem CallCoherent.ownBatchesOnly {call : TransportCall β ρ}
    (h : CallCoherent call c) : OwnBatchesOnly call c := by
  obtain ⟨src, hwritten, hphase⟩ := h
  obtain ⟨hsrc, hsaved⟩ := hphase.prefixes
  refine ⟨fun w hw => ?_, fun ck hck => ?_, fun hret => ?_⟩
  · rw [hwritten] at hw
    obtain ⟨b, hb, rfl⟩ := List.mem_map.mp hw
    exact ⟨b, hsrc.subset hb, rfl⟩
  · exact hsrc.subset (hsaved.subset (List.mem_map_of_mem hck))
  · rw [hret] at hphase
    rw [hwritten, hphase.1]

/-! ## One call -/

theorem callCoherent_init (call : TransportCall β ρ) (reader : R) :
    CallCoherent call (CallState.init reader : CallState R ρ κ) := by
  refine ⟨[], rfl, rfl, ?_⟩
  unfold TransportCall.saves
  split_ifs <;> rfl

theorem CallCoherent.raise {call : TransportCall β ρ}
    (h : CallCoherent call c) (e : TransportError) :
    CallCoherent call { c with phase := .raised e } := by
  obtain ⟨src, hwritten, hphase⟩ := h
  exact ⟨src, hwritten, hphase.prefixes⟩

/-- Handing on the batch a call has in hand keeps the call coherent. -/
theorem CallCoherent.handOn {call : TransportCall β ρ}
    (h : CallCoherent call c) {phase : CallPhase ρ}
    (hphase : ∀ src saved, PhaseCoherent call c.produced src saved c.phase →
      PhaseCoherent call c.produced src saved phase) :
    CallCoherent call { c with phase := phase } := by
  obtain ⟨src, hwritten, hp⟩ := h
  exact ⟨src, hwritten, hphase src _ hp⟩

/-- The read of the loop keeps a call coherent. -/
theorem CallCoherent.readStep {call : TransportCall β ρ}
    (api : SourceReader R ρ κ) (h : CallCoherent call c) (hreading : c.phase = .reading)
    (barrier throttle : Option TransportError) :
    CallCoherent call (Transport.readStep api c barrier throttle) := by
  cases barrier with
  | some e => exact h.raise e
  | none =>
    obtain ⟨src, hwritten, hphase⟩ := h
    rw [hreading] at hphase
    obtain ⟨hproduced, hsaved⟩ := hphase
    simp only [Transport.readStep]
    rcases api.readBatch c.reader with ⟨reader, _ | batch⟩
    · exact ⟨src, hwritten, hproduced, hsaved⟩
    · dsimp only
      split_ifs
      · exact ⟨src, hwritten, hproduced, hsaved⟩
      · refine ⟨src, hwritten, ?_⟩
        have happend : c.produced ++ [batch] = src ++ [batch] := by rw [hproduced]
        cases throttle with
        | none => exact ⟨happend, hsaved⟩
        | some e =>
          exact ⟨happend ▸ List.prefix_append src [batch], hsaved ▸ call.saves_prefix src⟩

theorem CallCoherent.writeStep {call : TransportCall β ρ}
    {popped : TransportBatch ρ} (h : CallCoherent call c) (hwriting : c.phase = .writing popped)
    (outcome : WriteOutcome) : CallCoherent call (Transport.writeStep call c popped outcome) := by
  obtain ⟨src, hwritten, hphase⟩ := h
  rw [hwriting] at hphase
  obtain ⟨hproduced, hsaved⟩ := hphase
  have happend : c.written ++ [call.entry popped] = (src ++ [popped]).map call.entry := by
    rw [hwritten, List.map_append, List.map_singleton]
  have hprefix : c.checkpoints.map Prod.fst <+: src := hsaved ▸ call.saves_prefix src
  cases outcome with
  | returned n =>
    refine ⟨src ++ [popped], happend, ?_⟩
    simp only [Transport.writeStep]
    split_ifs with hck
    · exact ⟨hproduced, by rw [hsaved, TransportCall.saves, if_pos hck], hck⟩
    · exact ⟨hproduced, by rw [hsaved, TransportCall.saves, TransportCall.saves,
        if_neg hck, if_neg hck]⟩
  | raised e landed =>
    cases landed with
    | true =>
      exact ⟨src ++ [popped], happend, hproduced ▸ List.prefix_refl _,
        hprefix.trans (List.prefix_append src [popped])⟩
    | false => exact ⟨src, hwritten, hproduced ▸ List.prefix_append src [popped], hprefix⟩

/-- The checkpoint of the batch just written keeps a call coherent. -/
theorem CallCoherent.checkpointStep {call : TransportCall β ρ}
    {popped : TransportBatch ρ} (api : SourceReader R ρ κ) (h : CallCoherent call c)
    (hcheckpointing : c.phase = .checkpointing popped) (rejected : Option TransportError) :
    CallCoherent call (Transport.checkpointStep api call c popped rejected) := by
  cases rejected with
  | some e => exact h.raise _
  | none =>
    obtain ⟨src, hwritten, hphase⟩ := h
    rw [hcheckpointing] at hphase
    obtain ⟨hproduced, hsrc, hck⟩ := hphase
    refine ⟨src, hwritten, hproduced, ?_⟩
    rw [TransportCall.saves, if_pos hck, hsrc]
    simp [Transport.checkpointStep]

/-! ## The queue -/

theorem queueCoherent_init (policy : TransportTuningPolicy) (readers : ι → R) :
    QueueCoherent (TransportState.init policy readers : TransportState ι R ρ κ) where
  length_eq := rfl
  nodup := List.nodup_nil
  mem_zip_iff := by simp [TransportState.init, BoundedStreamBuffer.init, CallState.init]

theorem QueueCoherent.notMem_pushers (h : QueueCoherent s)
    (hi : ∀ b, (s.calls i).phase ≠ .popping b) : i ∉ s.pushers := by
  intro hmem
  obtain ⟨n, hn, rfl⟩ := List.mem_iff_getElem.mp hmem
  have hn' : n < s.buffer.queue.length := h.length_eq ▸ hn
  have hzip : (s.pushers[n], s.buffer.queue[n]) ∈ s.pushers.zip s.buffer.queue := by
    rw [List.mem_iff_getElem]
    exact ⟨n, by simp [hn, hn'], by simp⟩
  exact hi _ ((h.mem_zip_iff _ _).mp hzip)

theorem coherent_init (calls : ι → TransportCall β ρ) (policy : TransportTuningPolicy)
    (readers : ι → R) :
    Coherent calls (TransportState.init policy readers : TransportState ι R ρ κ) :=
  ⟨fun i => callCoherent_init (calls i) (readers i), queueCoherent_init policy readers⟩

variable [DecidableEq ι]

/-- A call that neither was nor is about to pop leaves the queue coherent. -/
theorem QueueCoherent.setCall (h : QueueCoherent s) (hold : ∀ b, (s.calls i).phase ≠ .popping b)
    (hnew : ∀ b, c.phase ≠ .popping b) : QueueCoherent (s.setCall i c) where
  length_eq := h.length_eq
  nodup := h.nodup
  mem_zip_iff := by
    intro j b
    show (j, b) ∈ s.pushers.zip s.buffer.queue ↔ (Function.update s.calls i c j).phase = _
    rw [h.mem_zip_iff]
    by_cases hj : j = i
    · subst hj
      rw [Function.update_self]
      exact ⟨fun hp => absurd hp (hold b), fun hp => absurd hp (hnew b)⟩
    · rw [Function.update_of_ne hj]

/-- A push appends the batch in the hand of its call. -/
theorem QueueCoherent.push (h : QueueCoherent s)
    {batch : TransportBatch ρ} (hi : (s.calls i).phase = .pushing batch) :
    QueueCoherent { s with
      buffer := s.buffer.enqueue batch
      pushers := s.pushers ++ [i]
      calls := Function.update s.calls i { s.calls i with phase := .popping batch } } where
  length_eq := by simp [BoundedStreamBuffer.enqueue, h.length_eq]
  nodup := by
    have hnot : i ∉ s.pushers := h.notMem_pushers (by simp [hi])
    rw [List.nodup_append]
    refine ⟨h.nodup, List.nodup_singleton i, ?_⟩
    intro a ha b hb hab
    rw [List.mem_singleton] at hb
    exact hnot (hb ▸ hab ▸ ha)
  mem_zip_iff := by
    intro j b
    show (j, b) ∈ (s.pushers ++ [i]).zip (s.buffer.queue ++ [batch]) ↔ _
    rw [List.zip_append h.length_eq, List.mem_append, h.mem_zip_iff]
    by_cases hj : j = i
    · subst hj
      simp [hi, eq_comm]
    · simp [hj]

/-- A pop by the call at the head of the queue takes that call's batch. -/
theorem QueueCoherent.pop (h : QueueCoherent s)
    {popped : TransportBatch ρ} {rest : List (TransportBatch ρ)}
    (hhead : s.pushers.head? = some i) (hqueue : s.buffer.queue = popped :: rest) :
    (s.calls i).phase = .popping popped ∧ QueueCoherent { s with
        buffer := s.buffer.dequeue popped rest
        pushers := s.pushers.tail
        calls := Function.update s.calls i { s.calls i with phase := .writing popped } } := by
  obtain ⟨pushers, hpushers⟩ : ∃ pushers, s.pushers = i :: pushers := by
    cases hp : s.pushers with
    | nil => simp [hp] at hhead
    | cons j pushers =>
      rw [hp, List.head?_cons, Option.some.injEq] at hhead
      exact ⟨pushers, by rw [hhead]⟩
  have hzip : s.pushers.zip s.buffer.queue = (i, popped) :: pushers.zip rest := by
    rw [hpushers, hqueue, List.zip_cons_cons]
  have hnodup := h.nodup
  rw [hpushers, List.nodup_cons] at hnodup
  refine ⟨(h.mem_zip_iff i popped).mp (by rw [hzip]; exact List.mem_cons_self), ?_, ?_, ?_⟩
  · have hlen := h.length_eq
    rw [hpushers, hqueue, List.length_cons, List.length_cons] at hlen
    simpa [hpushers, BoundedStreamBuffer.dequeue] using hlen
  · simpa [hpushers] using hnodup.2
  · intro j b
    show (j, b) ∈ s.pushers.tail.zip rest ↔ _
    dsimp only
    rw [hpushers, List.tail_cons]
    by_cases hj : j = i
    · subst hj
      have hnot : (j, b) ∉ pushers.zip rest := fun hmem => hnodup.1 (List.of_mem_zip hmem).1
      simp [hnot]
    · rw [Function.update_of_ne hj, ← h.mem_zip_iff, hzip]
      simp [hj]

/-! ## The step lemma -/

/-- Replacing the state of one call keeps the system coherent when the new state is, and
neither state is about to pop. -/
theorem Coherent.setCall (h : Coherent calls s) (hc : CallCoherent (calls i) c)
    (hold : ∀ b, (s.calls i).phase ≠ .popping b) (hnew : ∀ b, c.phase ≠ .popping b) :
    Coherent calls (s.setCall i c) where
  call := by
    intro j
    show CallCoherent (calls j) (Function.update s.calls i c j)
    by_cases hj : j = i
    · subst hj
      rwa [Function.update_self]
    · rw [Function.update_of_ne hj]
      exact h.call j
  queue := h.queue.setCall hold hnew

theorem readStep_phase_ne_popping (api : SourceReader R ρ κ) (c : CallState R ρ κ)
    (barrier throttle : Option TransportError) (b : TransportBatch ρ) :
    (readStep api c barrier throttle).phase ≠ .popping b := by
  cases barrier with
  | some e => simp [readStep]
  | none =>
    simp only [readStep]
    rcases api.readBatch c.reader with ⟨reader, _ | batch⟩
    · simp
    · dsimp only
      split_ifs
      · simp
      · cases throttle <;> simp

theorem writeStep_phase_ne_popping (call : TransportCall β ρ) (c : CallState R ρ κ)
    (popped : TransportBatch ρ) (outcome : WriteOutcome) (b : TransportBatch ρ) :
    (writeStep call c popped outcome).phase ≠ .popping b := by
  cases outcome with
  | returned n =>
    simp only [writeStep]
    split_ifs <;> simp
  | raised e landed => simp [writeStep]

theorem checkpointStep_phase_ne_popping (api : SourceReader R ρ κ) (call : TransportCall β ρ)
    (c : CallState R ρ κ) (popped : TransportBatch ρ) (rejected : Option TransportError)
    (b : TransportBatch ρ) : (checkpointStep api call c popped rejected).phase ≠ .popping b := by
  cases rejected <;> simp [checkpointStep]

/-- **A step keeps the system coherent**, provided that a popping call finds its own batch
at the head of the queue. -/
theorem Coherent.step {api : SourceReader R ρ κ}
    {s' : TransportState ι R ρ κ} (h : Coherent calls s)
    (hown : PopsOwn s a) (hstep : transportStep api calls s a = some s') :
    Coherent calls s' := by
  cases a with
  | read i barrier throttle =>
    simp only [transportStep] at hstep
    cases hphase : (s.calls i).phase <;> simp only [hphase, reduceCtorEq] at hstep
    rw [← Option.some.inj hstep]
    exact h.setCall ((h.call i).readStep api hphase barrier throttle) (by simp [hphase])
      (readStep_phase_ne_popping api _ barrier throttle)
  | push i isCancelled =>
    simp only [transportStep] at hstep
    cases hphase : (s.calls i).phase <;> simp only [hphase, reduceCtorEq] at hstep
    rename_i batch
    rcases hpush : s.buffer.push batch isCancelled with ⟨buffer, _ | e | _⟩ <;>
      simp only [hpush, reduceCtorEq] at hstep
    · rw [← Option.some.inj hstep, BoundedStreamBuffer.push_returned hpush]
      refine ⟨fun j => ?_, h.queue.push hphase⟩
      show CallCoherent (calls j) (Function.update s.calls i _ j)
      by_cases hj : j = i
      · subst hj
        rw [Function.update_self]
        exact (h.call j).handOn fun src saved hp => by rw [hphase] at hp; exact hp
      · rw [Function.update_of_ne hj]
        exact h.call j
    · rw [← Option.some.inj hstep]
      have hset := h.setCall ((h.call i).raise e) (by simp [hphase]) (by simp)
      refine ⟨hset.call, ?_, hset.queue.nodup, ?_⟩
      · rw [BoundedStreamBuffer.push_raised hpush]
        exact hset.queue.length_eq
      · rw [BoundedStreamBuffer.push_raised hpush]
        exact hset.queue.mem_zip_iff
  | pop i isCancelled =>
    have hhead : s.pushers.head? = some i := hown i isCancelled rfl
    simp only [transportStep] at hstep
    cases hphase : (s.calls i).phase <;> simp only [hphase, reduceCtorEq] at hstep
    cases hqueue : s.buffer.queue with
    | nil =>
      -- the popping call is in the queue, so the queue is not empty
      have hlen := h.queue.length_eq
      rw [hqueue, List.length_nil, List.length_eq_zero_iff] at hlen
      simp [hlen] at hhead
    | cons popped rest =>
      obtain ⟨hpopping, hcoherent⟩ := h.queue.pop hhead hqueue
      simp only [BoundedStreamBuffer.pop_of_queue_eq_cons hqueue] at hstep
      rw [← Option.some.inj hstep]
      refine ⟨fun j => ?_, hcoherent⟩
      show CallCoherent (calls j) (Function.update s.calls i _ j)
      by_cases hj : j = i
      · subst hj
        rw [Function.update_self]
        exact (h.call j).handOn fun src saved hp => by rw [hpopping] at hp; exact hp
      · rw [Function.update_of_ne hj]
        exact h.call j
  | write i outcome =>
    simp only [transportStep] at hstep
    cases hphase : (s.calls i).phase <;> simp only [hphase, reduceCtorEq] at hstep
    rw [← Option.some.inj hstep]
    exact h.setCall ((h.call i).writeStep hphase outcome) (by simp [hphase])
      (writeStep_phase_ne_popping _ _ _ outcome)
  | checkpoint i rejected =>
    simp only [transportStep] at hstep
    cases hphase : (s.calls i).phase <;> simp only [hphase, reduceCtorEq] at hstep
    rw [← Option.some.inj hstep]
    exact h.setCall ((h.call i).checkpointStep api hphase rejected) (by simp [hphase])
      (checkpointStep_phase_ne_popping api _ _ _ rejected)

/-- Coherence along every run in which the calls pop their own batches. -/
theorem coherent_along (api : SourceReader R ρ κ) (calls : ι → TransportCall β ρ)
    (policy : TransportTuningPolicy) (readers : ι → R) (schedule : List (TransportAction ι))
    (hown : MeetsAlong (transportStep api calls) PopsOwn (.init policy readers) schedule) :
    HoldsAlong (transportStep api calls) (Coherent calls) (.init policy readers) schedule :=
  holdsAlong_of_meetsAlong (fun _ _ _ h hC hstep => h.step hC hstep)
    (coherent_init calls policy readers) hown

/-- A call that is alone on its authority pops its own batches. -/
theorem Coherent.popsOwn [Subsingleton ι] {api : SourceReader R ρ κ} {s' : TransportState ι R ρ κ}
    (h : Coherent calls s) (hstep : transportStep api calls s a = some s') : PopsOwn s a := by
  intro i isCancelled ha
  subst ha
  simp only [transportStep] at hstep
  cases hphase : (s.calls i).phase <;> simp only [hphase, reduceCtorEq] at hstep
  rename_i batch
  have hmem : i ∈ s.pushers := (List.of_mem_zip ((h.queue.mem_zip_iff i batch).mpr hphase)).1
  cases hpushers : s.pushers with
  | nil => simp [hpushers] at hmem
  | cons j pushers => rw [List.head?_cons, Subsingleton.elim j i]

/-! ### Two calls on two tables -/

/-- The partition of the two calls below: the whole of a one-column table. -/
def wholeTable (table : String) : TransportPartition ℤ where
  partitionId := s!"part-{table}-full"
  tableName := table
  schemaName := "main"
  targetSchema := "main"
  strategy := .singlePartition
  pkColumns := ["id"]

/-- A call that transports the whole of `table`. -/
def wholeTableCall (table : String) : TransportCall ℤ (SqlRow ℤ) where
  partition := wholeTable table
  migrationId := "mig"
  runId := "run"
  processing := none
  checkpointing := false
  fencingEpoch := 1
  endpointIdentity := none

/-- The calls transport `orders` and `users`. -/
def twoCalls (i : Bool) : TransportCall ℤ (SqlRow ℤ) :=
  wholeTableCall (if i then "users" else "orders")

/-- Each table has one row. -/
def twoReaders (i : Bool) : GenericSqlReader ℤ ℤ :=
  openPartition (twoCalls i).partition ["id"] none (some [[("id", some (if i then 2 else 1))]])

/-! ## Main results -/

/-- **Partition isolation.**  In every run in which each call pops when the oldest queued
batch is one it pushed, every state reached is isolated. -/
theorem isolated_of_popsOwn (api : SourceReader R ρ κ) (calls : ι → TransportCall β ρ)
    (policy : TransportTuningPolicy) (readers : ι → R) (schedule : List (TransportAction ι))
    (hown : MeetsAlong (transportStep api calls) PopsOwn (.init policy readers) schedule) :
    HoldsAlong (transportStep api calls) (Isolated calls) (.init policy readers) schedule :=
  (coherent_along api calls policy readers schedule hown).imp
    fun _ h i => (h.call i).ownBatchesOnly

/-- The two calls interleave, but each finds its own batch at the head of the queue. -/
def alignedPops : List (TransportAction Bool) :=
  [.read false none none, .push false false, .read true none none, .push true false,
    .pop false false, .write false (.returned 1), .pop true false, .write true (.returned 1)]

/-- The rule at work on the two calls: each writes its own row to its own table. -/
theorem isolated_alignedPops :
    HoldsAlong (transportStep (sqlReaderApi ℤ ℤ (fun _ => 10) 50000) twoCalls)
      (Isolated twoCalls) (.init {} twoReaders) alignedPops := by
  refine isolated_of_popsOwn _ _ _ _ _ ?_
  refine .cons rfl (popsOwn_of_ne_pop (by simp)) (.cons rfl (popsOwn_of_ne_pop (by simp)) ?_)
  refine .cons rfl (popsOwn_of_ne_pop (by simp)) (.cons rfl (popsOwn_of_ne_pop (by simp)) ?_)
  refine .cons rfl (by rintro i c ⟨⟩; rfl) (.cons rfl (popsOwn_of_ne_pop (by simp)) ?_)
  exact .cons rfl (by rintro i c ⟨⟩; rfl) (.cons rfl (popsOwn_of_ne_pop (by simp)) trivial)

/-- Both calls push before either pops, and `users` pops first. -/
def crossedPops : List (TransportAction Bool) :=
  [.read false none none, .read true none none, .push false false, .push true false,
    .pop true false, .write true (.returned 1)]

/-- **This fails for two interleaved calls**: the call on `users` writes the row of
`orders` to `users`. -/
theorem not_isolated_of_crossed_pops :
    ¬ ∀ schedule, HoldsAlong (transportStep (sqlReaderApi ℤ ℤ (fun _ => 10) 50000) twoCalls)
      (Isolated twoCalls) (.init {} twoReaders) schedule := by
  intro h
  obtain ⟨b, hb, hentry⟩ := ((h crossedPops).finish rfl true).1 _ List.mem_cons_self
  rw [List.mem_singleton.mp hb] at hentry
  have hpartition := congrArg (fun w => w.2.metadata.partitionId) hentry
  exact absurd hpartition (by decide)

end Transport

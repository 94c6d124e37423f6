/-
# Recovery of the durable buffer

`recover_from_wal` builds the queue from the write-ahead log, to which entries are only ever
added: what was acknowledged and removed from the queue is still in the log.

* `recoverFromWal_eq` : what is recovered is the whole log;
* `rebuilds_iff` : the runs in which recovery gives the queue that was there;
* `not_rebuilds_of_removal` : a removed transaction is recovered.
-/
import Akaal.CDCApplyWorker
import Akaal.TransitionRun

open TransitionRun

namespace CDC

namespace DurableCDCBuffer

variable (rt : DigestRuntime)

/-! ## Runs of the buffer -/

/-- A call. -/
inductive BufferAction where
  | append (tx : CDCTransaction) (fencingEpoch : ℤ) (now : PyFloat)
  | pop
  | remove (txId : String) (workerLastAckPos : Option CDCSourcePosition)
  | recover

/-- One call; one that raises changes nothing. -/
def bufferStep (s : DurableCDCBuffer) : BufferAction → Option DurableCDCBuffer
  | .append tx fencingEpoch now =>
    match s.appendTransaction rt tx fencingEpoch now with
    | .ok buffer => some buffer
    | .error _ => some s
  | .pop => some s
  | .remove txId workerLastAckPos =>
    match s.removeAcknowledgedTransaction txId workerLastAckPos with
    | .ok (buffer, _) => some buffer
    | .error _ => some s
  | .recover =>
    match s.recoverFromWal rt with
    | .ok buffer => some buffer
    | .error _ => some s

/-- A new buffer over an empty log. -/
def new (identity : CDCEventIdentity) (maxBufferedEvents maxBufferBytes : ℤ)
    (hmacKey : List UInt8) : DurableCDCBuffer :=
  ⟨identity, maxBufferedEvents, maxBufferBytes, hmacKey, [], [], 0, 0⟩

/-! ## The property and the condition -/

/-- Recovery, in this buffer or in a new one over the same log, gives the queue that is there. -/
def Rebuilds (s : DurableCDCBuffer) : Prop :=
  ∀ maxBufferedEvents maxBufferBytes, ∃ recovered, recoverFromWal rt { s with
      maxBufferedEvents := maxBufferedEvents
      maxBufferBytes := maxBufferBytes } = .ok recovered ∧
    recovered.inMemoryQueue = s.inMemoryQueue

/-- The position of an entry is not after the acknowledged one. -/
def IsReclaimable (entry : BufferEntry) (ack : CDCSourcePosition) : Prop :=
  ∃ v commitPos, getItem entry.transactionData "commit_position" = .ok v ∧
    parseSourcePosition v = .ok commitPos ∧ commitPos.isAfter ack = .ok false

/-- The condition.  A call that removes a transaction finds no entry of it, or one that may not be
removed: the position of the entry cannot be read, cannot be compared with the acknowledged one, or
is after it. -/
def RemovesNothing (s : DurableCDCBuffer) : BufferAction → Prop
  | .remove txId workerLastAckPos =>
    ∀ entry, s.inMemoryQueue.find? (fun entry => entry.txId == txId) = some entry →
      ∃ ack, workerLastAckPos = some ack ∧ ¬ IsReclaimable entry ack
  | _ => True

variable {rt} {s s' : DurableCDCBuffer}

/-! ## The log -/

/-- The entries of the log pass the integrity check. -/
def WalValid (rt : DigestRuntime) (s : DurableCDCBuffer) : Prop :=
  ∀ entry ∈ s.wal, s.computeRecordHmac rt entry.transactionData entry.fencingEpoch =
    .ok entry.recordHmac ∧ ∃ bytes, entryBytes entry = .ok bytes

theorem computeRecordHmac_congr (hidentity : s'.identity = s.identity)
    (hkey : s'.hmacKey = s.hmacKey) (txDict : PyItems) (fencingEpoch : ℤ) :
    s'.computeRecordHmac rt txDict fencingEpoch = s.computeRecordHmac rt txDict fencingEpoch := by
  unfold computeRecordHmac
  rw [hidentity, hkey]

theorem WalValid.of_eq (hs : WalValid rt s) (hidentity : s'.identity = s.identity)
    (hkey : s'.hmacKey = s.hmacKey) (hwal : s'.wal = s.wal) : WalValid rt s' := by
  intro entry hentry
  rw [computeRecordHmac_congr hidentity hkey]
  exact hs entry (hwal ▸ hentry)

/-- The loop over the log takes up every valid entry. -/
theorem foldlM_recoverRecord (entries : List BufferEntry) (hentries : ∀ entry ∈ entries,
      s.computeRecordHmac rt entry.transactionData entry.fencingEpoch = .ok entry.recordHmac ∧
        ∃ bytes, entryBytes entry = .ok bytes) :
    ∃ recovered, entries.foldlM (fun b entry => b.recoverRecord rt entry) s = .ok recovered ∧
      recovered.inMemoryQueue = s.inMemoryQueue ++ entries ∧ recovered.identity = s.identity ∧
      recovered.hmacKey = s.hmacKey ∧ recovered.wal = s.wal := by
  induction entries generalizing s with
  | nil => exact ⟨s, rfl, (List.append_nil _).symm, rfl, rfl, rfl⟩
  | cons entry entries ih =>
    obtain ⟨hhmac, bytes, hbytes⟩ := hentries entry List.mem_cons_self
    have hrecord : s.recoverRecord rt entry = .ok { s with
        inMemoryQueue := s.inMemoryQueue ++ [entry]
        bufferedEvents := s.bufferedEvents + eventCount entry.transactionData
        bufferedBytes := s.bufferedBytes + bytes } := by
      rw [recoverRecord, hhmac, ok_bind, if_neg (not_not.mpr rfl), hbytes]
      rfl
    obtain ⟨recovered, hfold, hqueue, hidentity, hkey, hwal⟩ :=
      ih (s := { s with
        inMemoryQueue := s.inMemoryQueue ++ [entry]
        bufferedEvents := s.bufferedEvents + eventCount entry.transactionData
        bufferedBytes := s.bufferedBytes + bytes })
        fun other hother => hentries other (List.mem_cons_of_mem _ hother)
    refine ⟨recovered, ?_, ?_, hidentity, hkey, hwal⟩
    · rw [List.foldlM_cons, hrecord]
      exact hfold
    · rw [hqueue]
      simp

/-- **What is recovered is the whole log.** -/
theorem recoverFromWal_eq (hs : WalValid rt s) :
    ∃ recovered, s.recoverFromWal rt = .ok recovered ∧ recovered.inMemoryQueue = s.wal ∧
      recovered.identity = s.identity ∧ recovered.hmacKey = s.hmacKey ∧ recovered.wal = s.wal := by
  have hempty : WalValid rt
      { s with inMemoryQueue := [], bufferedEvents := 0, bufferedBytes := 0 } :=
    hs.of_eq rfl rfl rfl
  obtain ⟨recovered, hfold, hqueue, hrest⟩ := foldlM_recoverRecord s.wal hempty
  exact ⟨recovered, hfold, hqueue, hrest⟩

theorem rebuilds_iff_queue (hs : WalValid rt s) : Rebuilds rt s ↔ s.inMemoryQueue = s.wal := by
  constructor
  · intro h
    obtain ⟨recovered, hrecovered, hqueue⟩ := h s.maxBufferedEvents s.maxBufferBytes
    obtain ⟨recovered', hrecovered', hqueue', -⟩ := recoverFromWal_eq hs
    cases hrecovered.symm.trans hrecovered'
    exact hqueue.symm.trans hqueue'
  · intro h maxBufferedEvents maxBufferBytes
    have hnew : WalValid rt { s with
        maxBufferedEvents := maxBufferedEvents
        maxBufferBytes := maxBufferBytes } := hs.of_eq rfl rfl rfl
    obtain ⟨recovered, hrecovered, hqueue, -⟩ := recoverFromWal_eq hnew
    exact ⟨recovered, hrecovered, hqueue.trans h.symm⟩

/-! ## The calls -/

/-- A transaction that is appended is at the end of the log and of the queue, with its digest. -/
theorem appendTransaction_eq {tx : CDCTransaction} {fencingEpoch : ℤ} {now : PyFloat}
    (h : s.appendTransaction rt tx fencingEpoch now = .ok s') :
    ∃ entry, s.computeRecordHmac rt entry.transactionData entry.fencingEpoch =
        .ok entry.recordHmac ∧ (∃ bytes, entryBytes entry = .ok bytes) ∧
      s'.wal = s.wal ++ [entry] ∧ s'.inMemoryQueue = s.inMemoryQueue ++ [entry] ∧
      s'.identity = s.identity ∧ s'.hmacKey = s.hmacKey := by
  unfold appendTransaction at h
  split_ifs at h
  obtain ⟨recordHmac, hhmac, h⟩ := Traversal.bind_eq_ok_iff.mp h
  obtain ⟨bytes, hbytes, h⟩ := Traversal.bind_eq_ok_iff.mp h
  split_ifs at h
  cases h
  exact ⟨s.entryOf tx fencingEpoch now recordHmac, hhmac, ⟨bytes, hbytes⟩, rfl, rfl, rfl, rfl⟩

/-- The check of the acknowledged position. -/
theorem isReclaimable_iff {entry : BufferEntry} {ack : CDCSourcePosition} :
    IsReclaimable entry ack ↔ (do
      let commitPos ← parseSourcePosition (← getItem entry.transactionData "commit_position")
      commitPos.isAfter ack) = .ok false := by
  constructor
  · rintro ⟨v, commitPos, hitem, hparse, hafter⟩
    rw [hitem, ok_bind, hparse, ok_bind, hafter]
  · intro h
    obtain ⟨v, hitem, h⟩ := Traversal.bind_eq_ok_iff.mp h
    obtain ⟨commitPos, hparse, hafter⟩ := Traversal.bind_eq_ok_iff.mp h
    exact ⟨v, commitPos, hitem, hparse, hafter⟩

/-- What a call that removes leaves of the buffer. -/
structure RemovesFrom (s s' : DurableCDCBuffer) (txId : String) : Prop where
  queue : s'.inMemoryQueue = s.inMemoryQueue.eraseP fun entry => entry.txId == txId
  wal : s'.wal = s.wal
  identity : s'.identity = s.identity
  hmacKey : s'.hmacKey = s.hmacKey

/-- An entry that is found and whose position is not after the acknowledged one is removed. -/
theorem remove_of_reclaimable {txId : String} {ack : Option CDCSourcePosition}
    {entry : BufferEntry}
    (hfound : s.inMemoryQueue.find? (fun entry => entry.txId == txId) = some entry)
    (hbytes : ∃ bytes, entryBytes entry = .ok bytes) (hack : ∀ a ∈ ack, IsReclaimable entry a) :
    ∃ removed, s.removeAcknowledgedTransaction txId ack = .ok (removed, true) ∧
      RemovesFrom s removed txId := by
  obtain ⟨bytes, hbytes⟩ := hbytes
  unfold removeAcknowledgedTransaction
  rw [hfound]
  dsimp only
  cases ack with
  | none =>
    rw [hbytes]
    exact ⟨_, rfl, rfl, rfl, rfl, rfl⟩
  | some a =>
    obtain ⟨v, commitPos, hitem, hparse, hafter⟩ := hack a rfl
    dsimp only
    rw [hitem, ok_bind, hparse, ok_bind, hafter, ok_bind, hbytes]
    exact ⟨_, rfl, rfl, rfl, rfl, rfl⟩

/-- An entry that is found and whose position does not pass the check stays. -/
theorem remove_of_not_reclaimable {txId : String} {a : CDCSourcePosition} {entry : BufferEntry}
    (hfound : s.inMemoryQueue.find? (fun entry => entry.txId == txId) = some entry)
    (hack : ¬ IsReclaimable entry a) :
    ∃ e, s.removeAcknowledgedTransaction txId (some a) = .error e := by
  unfold removeAcknowledgedTransaction
  rw [hfound]
  dsimp only
  rw [isReclaimable_iff] at hack
  cases hitem : getItem entry.transactionData "commit_position" with
  | error e => exact ⟨e, rfl⟩
  | ok v =>
    rw [hitem, ok_bind] at hack
    rw [ok_bind]
    cases hparse : parseSourcePosition v with
    | error e => exact ⟨e, rfl⟩
    | ok commitPos =>
      rw [hparse, ok_bind] at hack
      rw [ok_bind]
      cases hafter : commitPos.isAfter a with
      | error e => exact ⟨e, rfl⟩
      | ok after =>
        cases after with
        | true => exact ⟨_, rfl⟩
        | false => exact absurd hafter hack

/-- The invariant: the log is valid and has every entry of the queue. -/
structure LogInvariant (rt : DigestRuntime) (s : DurableCDCBuffer) : Prop where
  valid : WalValid rt s
  logged : ∀ entry ∈ s.inMemoryQueue, entry ∈ s.wal

/-- What a call that removes does to the buffer: nothing, when it meets the condition; otherwise an
entry less is in the queue. -/
theorem remove_step_cases (hs : LogInvariant rt s) {txId : String}
    {ack : Option CDCSourcePosition} (h : bufferStep rt s (.remove txId ack) = some s') :
    (RemovesNothing s (.remove txId ack) ∧ s' = s) ∨
      (¬ RemovesNothing s (.remove txId ack) ∧ RemovesFrom s s' txId ∧
        s'.inMemoryQueue.length < s.inMemoryQueue.length) := by
  rw [bufferStep] at h
  cases hfound : s.inMemoryQueue.find? fun entry => entry.txId == txId with
  | none =>
    have hnone : s.removeAcknowledgedTransaction txId ack = .ok (s, false) := by
      unfold removeAcknowledgedTransaction
      rw [hfound]
    rw [hnone, Option.some.injEq] at h
    refine .inl ⟨fun entry hentry => ?_, h.symm⟩
    rw [hfound] at hentry
    cases hentry
  | some entry =>
    have hmem := List.mem_of_find?_eq_some hfound
    have hC : RemovesNothing s (.remove txId ack) ↔
        ∃ a, ack = some a ∧ ¬ IsReclaimable entry a := by
      constructor
      · intro hC
        exact hC entry hfound
      · intro hC other hother
        cases hfound.symm.trans hother
        exact hC
    rw [hC]
    by_cases hack : ∃ a, ack = some a ∧ ¬ IsReclaimable entry a
    · obtain ⟨a, rfl, hnot⟩ := hack
      obtain ⟨e, herror⟩ := remove_of_not_reclaimable hfound hnot
      rw [herror, Option.some.injEq] at h
      exact .inl ⟨⟨a, rfl, hnot⟩, h.symm⟩
    · obtain ⟨removed, hremoved, hfrom⟩ := remove_of_reclaimable hfound
        (hs.valid entry (hs.logged entry hmem)).2 fun a ha => by
          by_contra hnot
          exact hack ⟨a, ha, hnot⟩
      rw [hremoved, Option.some.injEq] at h
      subst h
      refine .inr ⟨hack, hfrom, ?_⟩
      have htrue : (fun entry : BufferEntry => entry.txId == txId) entry = true :=
        List.find?_some (p := fun entry : BufferEntry => entry.txId == txId) hfound
      have hpositive : 0 < s.inMemoryQueue.length := List.length_pos_of_mem hmem
      have hlength := List.length_eraseP_of_mem (p := fun entry : BufferEntry => entry.txId == txId)
        hmem htrue
      rw [← hfrom.queue] at hlength
      omega

theorem LogInvariant.step (hs : LogInvariant rt s) {a : BufferAction}
    (h : bufferStep rt s a = some s') : LogInvariant rt s' := by
  cases a with
  | append tx fencingEpoch now =>
    rw [bufferStep] at h
    split at h
    · next buffer happend =>
        cases h
        obtain ⟨entry, hhmac, hbytes, hwal, hqueue, hidentity, hkey⟩ := appendTransaction_eq happend
        constructor
        · intro other hother
          rw [computeRecordHmac_congr hidentity hkey]
          rw [hwal, List.mem_append, List.mem_singleton] at hother
          rcases hother with hother | rfl
          · exact hs.valid other hother
          · exact ⟨hhmac, hbytes⟩
        · intro other hother
          rw [hqueue, List.mem_append] at hother
          rw [hwal, List.mem_append]
          exact hother.imp_left (hs.logged other)
    · cases h
      exact hs
  | pop =>
    cases h
    exact hs
  | remove txId ack =>
    rcases remove_step_cases hs h with ⟨-, rfl⟩ | ⟨-, hfrom, -⟩
    · exact hs
    · refine ⟨hs.valid.of_eq hfrom.identity hfrom.hmacKey hfrom.wal, fun entry hentry => ?_⟩
      rw [hfrom.queue] at hentry
      rw [hfrom.wal]
      exact hs.logged entry (List.mem_of_mem_eraseP hentry)
  | recover =>
    rw [bufferStep] at h
    obtain ⟨recovered, hrecovered, hqueue, hidentity, hkey, hwal⟩ := recoverFromWal_eq hs.valid
    rw [hrecovered, Option.some.injEq] at h
    subst h
    refine ⟨hs.valid.of_eq hidentity hkey hwal, fun entry hentry => ?_⟩
    rw [hwal, ← hqueue]
    exact hentry

/-- **One call, exactly.** -/
theorem rebuilds_step_iff (hs : LogInvariant rt s) (hP : Rebuilds rt s) {a : BufferAction}
    (h : bufferStep rt s a = some s') : Rebuilds rt s' ↔ RemovesNothing s a := by
  rw [rebuilds_iff_queue (hs.step h).valid]
  rw [rebuilds_iff_queue hs.valid] at hP
  cases a with
  | append tx fencingEpoch now =>
    rw [bufferStep] at h
    split at h
    · next buffer happend =>
        cases h
        obtain ⟨entry, -, -, hwal, hqueue, -⟩ := appendTransaction_eq happend
        exact ⟨fun _ => trivial, fun _ => by rw [hqueue, hwal, hP]⟩
    · cases h
      exact ⟨fun _ => trivial, fun _ => hP⟩
  | pop =>
    cases h
    exact ⟨fun _ => trivial, fun _ => hP⟩
  | remove txId ack =>
    rcases remove_step_cases hs h with ⟨hC, rfl⟩ | ⟨hC, hfrom, hlength⟩
    · exact ⟨fun _ => hC, fun _ => hP⟩
    · refine ⟨fun hqueue => ?_, fun h => absurd h hC⟩
      -- The queue is shorter than the log.
      rw [hqueue, hfrom.wal, hP] at hlength
      omega
  | recover =>
    rw [bufferStep] at h
    obtain ⟨recovered, hrecovered, hqueue, -, -, hwal⟩ := recoverFromWal_eq hs.valid
    rw [hrecovered, Option.some.injEq] at h
    subst h
    exact ⟨fun _ => trivial, fun _ => hqueue.trans hwal.symm⟩

/-! ## Runs -/

/-- **The exact condition.**  In every run of calls of a new buffer, recovery gives in every state
the queue that is there, precisely when no call removes an entry. -/
theorem rebuilds_iff (rt : DigestRuntime) (identity : CDCEventIdentity)
    (maxBufferedEvents maxBufferBytes : ℤ) (hmacKey : List UInt8) (calls : List BufferAction) :
    HoldsAlong (bufferStep rt) (Rebuilds rt)
        (.new identity maxBufferedEvents maxBufferBytes hmacKey) calls ↔
      MeetsAlong (bufferStep rt) RemovesNothing
        (.new identity maxBufferedEvents maxBufferBytes hmacKey) calls := by
  have hvalid : WalValid rt (.new identity maxBufferedEvents maxBufferBytes hmacKey) :=
    fun _ hentry => absurd hentry List.not_mem_nil
  apply holdsAlong_iff_meetsAlong (I := LogInvariant rt)
  · exact fun s a s' hs h => hs.step h
  · exact fun s a s' hs hP h => rebuilds_step_iff hs hP h
  · exact ⟨hvalid, fun _ hentry => absurd hentry List.not_mem_nil⟩
  · exact (rebuilds_iff_queue hvalid).mpr rfl

/-! ## A removal -/

/-- Digests and texts of a runtime for the samples. -/
def quietRuntime : DigestRuntime := ⟨fun _ => "d", fun _ _ => "h", fun _ => ""⟩

/-- A transaction is appended, then acknowledged and removed. -/
def appendThenRemove : List BufferAction :=
  [.append (sampleTransaction "t1" 7 []) 1 (.finite 1), .remove "t1" (some (samplePosition 7))]

/-- A text has at least as many bytes as characters. -/
theorem length_le_utf8ByteSize (s : String) : s.length ≤ s.utf8ByteSize := by
  rw [← String.ofList_toList (s := s), String.length_ofList]
  induction s.toList with
  | nil => exact Nat.zero_le _
  | cons c cs ih =>
    have hc := c.utf8Size_pos
    rw [String.ofList_cons, String.utf8ByteSize_append]
    simp
    omega

/-- The entry of the transaction that is appended. -/
def removedEntry : BufferEntry :=
  entryOf (.new sampleIdentity 1000 52428800 []) (sampleTransaction "t1" 7 []) 1 (.finite 1) "h"

/-- The buffer with the entry. -/
def holding (text : String) : DurableCDCBuffer :=
  ⟨sampleIdentity, 1000, 52428800, [], [removedEntry], [removedEntry], 0 + text.length, 0⟩

/-- The removed transaction is recovered. -/
theorem not_rebuilds_of_removal : ¬ HoldsAlong (bufferStep quietRuntime) (Rebuilds quietRuntime)
      (.new sampleIdentity 1000 52428800 []) appendThenRemove := by
  intro h
  obtain ⟨text, htext⟩ : ∃ text, jsonDumps false removedEntry.toValue = .ok text := ⟨_, rfl⟩
  have hsize : text.length ≤ 1000 := by
    have hall : (jsonDumps false removedEntry.toValue).toOption.all (·.utf8ByteSize ≤ 1000) := by
      decide +kernel
    rw [htext] at hall
    exact (length_le_utf8ByteSize text).trans (of_decide_eq_true hall)
  have hbytes : entryBytes removedEntry = .ok (text.length : ℤ) := by
    rw [entryBytes, htext]
    rfl
  have hhmac : computeRecordHmac quietRuntime (.new sampleIdentity 1000 52428800 [])
      (sampleTransaction "t1" 7 []).toDict 1 = .ok "h" := by
    decide +kernel
  have happend : appendTransaction quietRuntime (.new sampleIdentity 1000 52428800 [])
      (sampleTransaction "t1" 7 []) 1 (.finite 1) = .ok (holding text) := by
    rw [appendTransaction, if_neg (by decide), if_neg (by decide), hhmac, ok_bind]
    show (entryBytes removedEntry >>= _) = _
    rw [hbytes, ok_bind, if_neg]
    · rfl
    · show ¬ (52428800 : ℤ) < 0 + text.length
      omega
  obtain ⟨removed, hremoved, hfrom⟩ :=
    @remove_of_reclaimable (holding text) "t1" (some (samplePosition 7)) _ rfl ⟨_, hbytes⟩ fun a ha => by
        cases ha
        exact isReclaimable_iff.mpr (by decide +kernel)
  have hrun : run (bufferStep quietRuntime) (.new sampleIdentity 1000 52428800 []) appendThenRemove =
      some removed := by
    rw [appendThenRemove, run_cons_eq_some]
    refine ⟨holding text, by rw [bufferStep, happend], ?_⟩
    rw [run_cons_eq_some]
    exact ⟨removed, by rw [bufferStep, hremoved], rfl⟩
  have hvalid : WalValid quietRuntime (holding text) := fun entry hentry => by
    rw [List.mem_singleton.mp hentry]
    exact ⟨hhmac, _, hbytes⟩
  have hqueue := (rebuilds_iff_queue (hvalid.of_eq hfrom.identity hfrom.hmacKey hfrom.wal)).mp (h.finish hrun)
  rw [hfrom.queue, hfrom.wal] at hqueue
  cases hqueue

end DurableCDCBuffer

end CDC

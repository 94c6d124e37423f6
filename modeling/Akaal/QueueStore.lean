/-
# The durable queue

`DurableQueueStore` of `akaalEngine/durability/spill/queue_store.py`: messages are rows with a number
within their queue; a worker claims one for a time under a new claim id, and acknowledges it by
removing it.

* `QueueRun.tracks_final` : the rows are the messages that are stored and not acknowledged, with their
  latest claims;
* `QueueRun.sound_of_mem` : what every answer says about the history before it;
* `QueueRun.contract` : messages are neither lost nor acknowledged twice, and a claim takes the first
  one that is free.

The values of `uuid4` are distinct; that the quota allows a message is an input.
-/
import Akaal.EventTrace
import Akaal.IsoTimestamps

open EventTrace IsoTimestamps

namespace Durability

/-! ## Rows -/

/-- A row of `queue_records`. -/
structure QueueRow where
  messageId : String
  queueName : String
  sequenceNumber : ℕ
  payload : List UInt8
  claimedBy : Option String
  claimId : Option String
  leaseExpiresAt : Option String
  attemptCount : ℕ
  createdAt : String

/-- The table `queue_records`, in the order of insertion. -/
abbrev QueueTable := List QueueRow

/-- `QueueMessageRef`, the answer to a claim. -/
structure QueueMessageRef where
  messageId : String
  queueName : String
  sequenceNumber : ℕ
  payload : List UInt8
  claimedBy : String
  claimId : String
  leaseExpiresAt : String
  attemptCount : ℕ
  createdAt : String

/-- Why a call of the queue is refused. -/
inductive QueueError where
  | quotaExceeded
  | messageExists
  | overflow
  | ownerless
  | staleAck (messageId claimedBy claimId : String)
  deriving DecidableEq

/-! ## Operations -/

section Operations

variable (t : QueueTable)

/-- The number of the next message of a queue: `MAX(sequence_number) + 1`, or 1. -/
def nextSequence (queueName : String) : ℕ :=
  (((t.filter fun row => row.queueName = queueName).map QueueRow.sequenceNumber).max?).elim 1 (· + 1)

/-- The row of a message that is stored. -/
def newRow (msgId queueName : String) (payload : List UInt8) (now : Instant) : QueueRow where
  messageId := msgId
  queueName := queueName
  sequenceNumber := nextSequence t queueName
  payload := payload
  claimedBy := none
  claimId := none
  leaseExpiresAt := none
  attemptCount := 0
  createdAt := now.isoformat

/-- `store_message`, under the id that `uuid4` gives. -/
def storeMessage (msgId queueName : String) (payload : List UInt8) (now : Instant) (fits : Bool) :
    Except QueueError QueueTable :=
  if fits = false then .error .quotaExceeded
  else if t.any fun row => row.messageId = msgId then .error .messageExists
  else .ok (t ++ [newRow t msgId queueName payload now])

/-- A message that may be claimed: nobody has claimed it, or the lease is over. -/
def QueueRow.available (row : QueueRow) (now : Instant) : Bool :=
  row.claimedBy.isNone || row.leaseExpiresAt.any fun expires => expires < now.isoformat

/-- The message a claim takes: the available one of the queue with the least number. -/
def firstAvailable (queueName : String) (now : Instant) : Option QueueRow :=
  (t.filter fun row => row.queueName = queueName && row.available now).argmin QueueRow.sequenceNumber

/-- A row that is claimed. -/
def QueueRow.claim (row : QueueRow) (workerId claimId leaseExpiresAt : String) : QueueRow :=
  { row with
    claimedBy := some workerId
    claimId := some claimId
    leaseExpiresAt := some leaseExpiresAt
    attemptCount := row.attemptCount + 1 }

/-- The rows after the one of a message is claimed. -/
def claimRows (messageId workerId claimId leaseExpiresAt : String) : QueueTable :=
  t.map fun row => if row.messageId = messageId then row.claim workerId claimId leaseExpiresAt else row

/-- `claim_message`, under the id that `uuid4` gives: the reference to the message, if there is one,
and the table. -/
def claimMessage (claimId queueName workerId : String) (leaseDurationSec : ℤ) (now : Instant) :
    Except QueueError (Option QueueMessageRef × QueueTable) :=
  match now.add (leaseDurationSec * 1000000) with
  | none => .error .overflow
  | some expires =>
    match firstAvailable t queueName now with
    | none => .ok (none, t)
    | some row =>
      .ok (some ⟨row.messageId, queueName, row.sequenceNumber, row.payload, workerId, claimId,
          expires.isoformat, row.attemptCount + 1, row.createdAt⟩,
        claimRows t row.messageId workerId claimId expires.isoformat)

/-- The row an acknowledgement removes. -/
def QueueRow.acknowledgedBy (row : QueueRow) (messageId claimedBy claimId : String) (now : Instant) :
    Bool :=
  row.messageId = messageId && row.claimedBy = some claimedBy && row.claimId = some claimId &&
    row.leaseExpiresAt.any fun expires => now.isoformat ≤ expires

/-- `ack_message`. -/
def ackMessage (messageId claimedBy claimId : String) (now : Instant) :
    Except QueueError QueueTable :=
  if claimedBy = "" ∨ claimId = "" then .error .ownerless
  else if t.any fun row => row.acknowledgedBy messageId claimedBy claimId now then
    .ok (t.filter fun row => !row.acknowledgedBy messageId claimedBy claimId now)
  else .error (.staleAck messageId claimedBy claimId)

end Operations

/-! ## Numbers -/

variable {t : QueueTable}

theorem lt_nextSequence {row : QueueRow} (h : row ∈ t) :
    row.sequenceNumber < nextSequence t row.queueName := by
  unfold nextSequence
  generalize hnumbers : (t.filter fun r => r.queueName = row.queueName).map QueueRow.sequenceNumber =
    numbers
  have hmem : row.sequenceNumber ∈ numbers := by
    rw [← hnumbers]
    exact List.mem_map_of_mem (List.mem_filter.mpr ⟨h, decide_eq_true rfl⟩)
  cases hmax : numbers.max? with
  | none =>
    rw [List.max?_eq_none_iff] at hmax
    rw [hmax] at hmem
    cases hmem
  | some n =>
    have hle := (List.max?_eq_some_iff.mp hmax).2 _ hmem
    rw [Option.elim_some]
    omega

/-- What a claim takes is an available message of the queue with the least number. -/
theorem firstAvailable_eq_some {queueName : String} {now : Instant} {row : QueueRow}
    (h : firstAvailable t queueName now = some row) :
    row ∈ t ∧ row.queueName = queueName ∧ row.available now = true ∧
      ∀ other ∈ t, other.queueName = queueName → other.available now = true →
        row.sequenceNumber ≤ other.sequenceNumber := by
  have hmem := List.mem_filter.mp (List.argmin_mem h)
  rw [Bool.and_eq_true, decide_eq_true_iff] at hmem
  refine ⟨hmem.1, hmem.2.1, hmem.2.2, fun other hother hqueue havailable => ?_⟩
  apply List.le_of_mem_argmin _ h
  rw [List.mem_filter, Bool.and_eq_true, decide_eq_true_iff]
  exact ⟨hother, hqueue, havailable⟩

theorem firstAvailable_eq_none {queueName : String} {now : Instant}
    (h : firstAvailable t queueName now = none) {row : QueueRow} (hrow : row ∈ t)
    (hqueue : row.queueName = queueName) : row.available now = false := by
  rw [firstAvailable, List.argmin_eq_none, List.filter_eq_nil_iff] at h
  have hnone := h row hrow
  rw [Bool.and_eq_true, decide_eq_true_iff, not_and, Bool.not_eq_true] at hnone
  exact hnone hqueue

namespace QueueRun

/-! ## Histories -/

/-- A call of a worker, with the reading of the clock. -/
inductive QueueCall where
  | store (queueName : String) (payload : List UInt8) (now : Instant) (fits : Bool)
  | claim (queueName workerId : String) (leaseDurationSec : ℤ) (now : Instant)
  | ack (messageId claimedBy claimId : String) (now : Instant)

/-- A message that is stored. -/
structure Message where
  queueName : String
  messageId : String
  sequenceNumber : ℕ
  payload : List UInt8

/-- The claim of a message. -/
structure Lease where
  workerId : String
  claimId : String
  expires : Instant

/-- What a call has done. -/
inductive QueueEvent where
  | stored (message : Message)
  | claimed (message : Message) (lease : Lease) (now : Instant)
  | nothingFree (queueName : String) (now : Instant)
  | acked (messageId workerId claimId : String) (now : Instant)
  | refused (error : QueueError)

/-- The message of a row. -/
def messageOf (row : QueueRow) : Message :=
  ⟨row.queueName, row.messageId, row.sequenceNumber, row.payload⟩

/-- The message of a reference. -/
def messageOfRef (ref : QueueMessageRef) : Message :=
  ⟨ref.queueName, ref.messageId, ref.sequenceNumber, ref.payload⟩

-- the values of `uuid4`, in the order in which they are drawn
variable (uuid4 : ℕ → String)

/-- One call; the state is the table and the number of values of `uuid4` that were drawn. -/
def queueStep (s : QueueTable × ℕ) : QueueCall → QueueEvent × (QueueTable × ℕ)
  | .store queueName payload now fits =>
    match storeMessage s.1 (uuid4 s.2) queueName payload now fits with
    | .error e => (.refused e, s.1, s.2 + 1)
    | .ok t => (.stored ⟨queueName, uuid4 s.2, nextSequence s.1 queueName, payload⟩, t, s.2 + 1)
  | .claim queueName workerId leaseDurationSec now =>
    match now.add (leaseDurationSec * 1000000),
      claimMessage s.1 (uuid4 s.2) queueName workerId leaseDurationSec now with
    | some expires, .ok (some ref, t) =>
      (.claimed (messageOfRef ref) ⟨ref.claimedBy, ref.claimId, expires⟩ now, t, s.2 + 1)
    | _, .ok (_, t) => (.nothingFree queueName now, t, s.2 + 1)
    | _, .error e => (.refused e, s.1, s.2 + 1)
  | .ack messageId claimedBy claimId now =>
    match ackMessage s.1 messageId claimedBy claimId now with
    | .error e => (.refused e, s)
    | .ok t => (.acked messageId claimedBy claimId now, t, s.2)

/-- The history of the calls on the empty table. -/
def queueHistory (calls : List QueueCall) : List QueueEvent := trace (queueStep uuid4) ([], 0) calls

/-! ## What a history says -/

/-- The message is stored and not acknowledged. -/
def Pending (events : List QueueEvent) (message : Message) : Prop :=
  .stored message ∈ events ∧
    ∀ workerId claimId now, .acked message.messageId workerId claimId now ∉ events

/-- The lease an event gives for a message. -/
def leaseIn (messageId : String) : QueueEvent → Option Lease
  | .claimed message lease _ => if message.messageId = messageId then some lease else none
  | _ => none

/-- The lease of the latest claim of a message. -/
def latestLease (events : List QueueEvent) (messageId : String) : Option Lease :=
  events.foldl (fun lease e => (leaseIn messageId e).or lease) none

/-- The message is pending, and its latest lease, if there is one, is over. -/
def Free (events : List QueueEvent) (message : Message) (now : Instant) : Prop :=
  Pending events message ∧
    ∀ lease, latestLease events message.messageId = some lease → lease.expires.micros < now.micros

/-- The event claims or acknowledges the message. -/
def Takes (messageId : String) : QueueEvent → Prop
  | .claimed message _ _ => message.messageId = messageId
  | .acked messageId' _ _ _ => messageId' = messageId
  | _ => False

/-- What an answer says about the history before it: an acknowledgement succeeds for the latest claim,
before its lease is over, of a message that was not acknowledged; a claim takes the free message of the
queue with the least number, under an id of its own; and it finds none only when there is none. -/
def Sound (before : List QueueEvent) : QueueEvent → Prop
  | .stored message =>
    (∀ m, .stored m ∈ before → m.messageId ≠ message.messageId) ∧
      ∀ e ∈ before, ¬ Takes message.messageId e
  | .claimed message lease now =>
    Free before message now ∧ (∀ m, Free before m now → m.queueName = message.queueName →
        m = message ∨ message.sequenceNumber < m.sequenceNumber) ∧
      ∀ m l t, .claimed m l t ∈ before → l.claimId ≠ lease.claimId
  | .nothingFree queueName now => ∀ m, Free before m now → m.queueName ≠ queueName
  | .acked messageId workerId claimId now =>
    (∃ message, Pending before message ∧ message.messageId = messageId) ∧
      ∃ lease, latestLease before messageId = some lease ∧ lease.workerId = workerId ∧
        lease.claimId = claimId ∧ now.micros ≤ lease.expires.micros
  | .refused _ => True

/-- Every answer is sound, an acknowledged message is never claimed or acknowledged again, and a
pending message has its row. -/
structure Contract (events : List QueueEvent) (t : QueueTable) : Prop where
  sound : ∀ before e after, events = before ++ e :: after → Sound before e
  ackedOnce : ∀ before messageId workerId claimId now after,
    events = before ++ .acked messageId workerId claimId now :: after →
      ∀ e ∈ after, ¬ Takes messageId e
  kept : ∀ message, Pending events message → ∃ row ∈ t, messageOf row = message

/-! ## The table and the history -/

/-- The row carries the lease, or none. -/
def Carries (row : QueueRow) (lease : Option Lease) : Prop :=
  row.claimedBy = lease.map Lease.workerId ∧ row.claimId = lease.map Lease.claimId ∧
    row.leaseExpiresAt = lease.map fun l => l.expires.isoformat

/-- The rows are the pending messages with their latest leases, in the order of their numbers, and the
ids that were given are among those that were drawn. -/
structure Tracks (uuid4 : ℕ → String) (events : List QueueEvent) (s : QueueTable × ℕ) : Prop where
  pending : ∀ message, Pending events message ↔ ∃ row ∈ s.1, messageOf row = message
  leases : ∀ row ∈ s.1, Carries row (latestLease events row.messageId)
  ids : s.1.Pairwise fun row row' => row.messageId ≠ row'.messageId
  numbers : s.1.Pairwise fun row row' =>
    row.queueName = row'.queueName → row.sequenceNumber < row'.sequenceNumber
  stored : ∀ message, .stored message ∈ events → ∃ i < s.2, message.messageId = uuid4 i
  claims : ∀ message lease now, .claimed message lease now ∈ events → ∃ i < s.2, lease.claimId = uuid4 i
  taken : ∀ messageId, ∀ e ∈ events, Takes messageId e →
    ∃ message, .stored message ∈ events ∧ message.messageId = messageId

variable {uuid4} {events : List QueueEvent} {s : QueueTable × ℕ}

theorem latestLease_concat (events : List QueueEvent) (e : QueueEvent) (messageId : String) :
    latestLease (events ++ [e]) messageId = (leaseIn messageId e).or (latestLease events messageId) := by
  rw [latestLease, List.foldl_append]
  rfl

variable {claimId claimedBy messageId : String} {e : QueueEvent} {n : ℕ} {now : Instant}
  {row' : QueueRow}

theorem latestLease_of_none (h : leaseIn messageId e = none) :
    latestLease (events ++ [e]) messageId = latestLease events messageId := by
  rw [latestLease_concat, h, Option.none_or]

theorem latestLease_of_not_takes (h : ∀ e ∈ events, ¬ Takes messageId e) :
    latestLease events messageId = none := by
  induction events using List.reverseRecOn with
  | nil => rfl
  | append_singleton events e ih =>
    rw [latestLease_concat, ih fun e' he' => h e' (List.mem_append_left _ he'), Option.or_none]
    cases e with
    | claimed message lease now =>
      rw [leaseIn]
      exact if_neg (h _ List.mem_concat_self)
    | _ => rfl

/-- The pending messages after one more event. -/
theorem pending_concat {message : Message} : Pending (events ++ [e]) message ↔
    (.stored message ∈ events ∨ .stored message = e) ∧
      ∀ workerId claimId now, .acked message.messageId workerId claimId now ∉ events ∧
        .acked message.messageId workerId claimId now ≠ e := by
  simp [Pending]

theorem Tracks.free_iff (h : Tracks uuid4 events s) {message : Message} :
    Free events message now ↔ ∃ row ∈ s.1, messageOf row = message ∧ row.available now = true := by
  have havailable : ∀ row ∈ s.1, row.available now = true ↔
      ∀ lease, latestLease events row.messageId = some lease → lease.expires.micros < now.micros := by
    intro row hrow
    obtain ⟨hclaimedBy, -, hexpires⟩ := h.leases row hrow
    rw [QueueRow.available, hclaimedBy, hexpires]
    cases latestLease events row.messageId with
    | none => simp
    | some lease =>
      rw [Option.map_some, Option.map_some, Option.isNone_some, Bool.false_or, Option.any_some,
        decide_eq_true_iff, isoformat_lt_iff]
      simp
  constructor
  · rintro ⟨hpending, hleases⟩
    obtain ⟨row, hrow, rfl⟩ := (h.pending message).mp hpending
    exact ⟨row, hrow, rfl, (havailable row hrow).mpr hleases⟩
  · rintro ⟨row, hrow, rfl, hrowAvailable⟩
    exact ⟨(h.pending _).mpr ⟨row, hrow, rfl⟩, (havailable row hrow).mp hrowAvailable⟩

theorem eq_or_rel_of_pairwise {R : QueueRow → QueueRow → Prop} (h : t.Pairwise R)
    {row : QueueRow} (hrow : row ∈ t) (hrow' : row' ∈ t) : row = row' ∨ R row row' ∨ R row' row := by
  by_cases heq : row = row'
  · exact .inl heq
  · have hsymm : Std.Symm fun r r' => R r r' ∨ R r' r := ⟨fun _ _ => Or.symm⟩
    have hboth : t.Pairwise fun r r' => R r r' ∨ R r' r := h.imp Or.inl
    exact .inr (hboth.forall hrow hrow' heq)

theorem Tracks.row_unique (h : Tracks uuid4 events s) {row : QueueRow} (hrow : row ∈ s.1)
    (hrow' : row' ∈ s.1) (hid : row.messageId = row'.messageId) : row = row' := by
  rcases eq_or_rel_of_pairwise h.ids hrow hrow' with heq | hne | hne
  · exact heq
  · exact absurd hid hne
  · exact absurd hid.symm hne

theorem Tracks.row_unique_number (h : Tracks uuid4 events s) {row : QueueRow} (hrow : row ∈ s.1)
    (hrow' : row' ∈ s.1) (hqueue : row.queueName = row'.queueName)
    (hnumber : row.sequenceNumber = row'.sequenceNumber) : row = row' := by
  rcases eq_or_rel_of_pairwise h.numbers hrow hrow' with heq | hlt | hlt
  · exact heq
  · exact absurd hnumber (hlt hqueue).ne
  · exact absurd hnumber (hlt hqueue.symm).ne'

theorem Tracks.quiet (h : Tracks uuid4 events s) (hn : s.2 ≤ n)
    (he : ∀ messageId, ¬ Takes messageId e) (hstored : ∀ message, .stored message ≠ e) :
    Tracks uuid4 (events ++ [e]) (s.1, n) := by
  have hlease : ∀ messageId, leaseIn messageId e = none := by
    intro messageId
    cases e with
    | claimed message lease now => exact absurd rfl (he message.messageId)
    | _ => rfl
  have hmem : ∀ {e'}, e' ∈ events ++ [e] → e' ∈ events ∨ e' = e := fun h' => by simpa using h'
  refine ⟨fun message => ?_, ?_, h.ids, h.numbers, ?_, ?_, ?_⟩
  · rw [pending_concat, ← h.pending message]
    constructor
    · rintro ⟨hmessage | hmessage, hacked⟩
      · exact ⟨hmessage, fun w c now => (hacked w c now).1⟩
      · exact absurd hmessage (hstored message)
    · rintro ⟨hmessage, hacked⟩
      refine ⟨.inl hmessage, fun w c now => ⟨hacked w c now, ?_⟩⟩
      rintro rfl
      exact he _ rfl
  · intro row hrow
    rw [latestLease_of_none (hlease _)]
    exact h.leases row hrow
  · intro message hmessage
    obtain ⟨i, hi, hid⟩ := h.stored message ((hmem hmessage).resolve_right (hstored message))
    exact ⟨i, hi.trans_le hn, hid⟩
  · intro message lease now hclaimed
    rcases hmem hclaimed with hclaimed | rfl
    · obtain ⟨i, hi, hid⟩ := h.claims message lease now hclaimed
      exact ⟨i, hi.trans_le hn, hid⟩
    · exact absurd rfl (he message.messageId)
  · intro messageId e' he' htakes
    rcases hmem he' with he' | rfl
    · obtain ⟨message, hmessage, hid⟩ := h.taken messageId e' he' htakes
      exact ⟨message, List.mem_append_left _ hmessage, hid⟩
    · exact absurd htakes (he messageId)

/-! ## One call -/

theorem not_drawn (huuid : Function.Injective uuid4) {i : ℕ} (hi : i < n) : uuid4 i ≠ uuid4 n :=
  fun heq => hi.ne (huuid heq)

theorem Tracks.sound_stored (h : Tracks uuid4 events s) (huuid : Function.Injective uuid4)
    (queueName : String) (sequenceNumber : ℕ) (payload : List UInt8) :
    Sound events (.stored ⟨queueName, uuid4 s.2, sequenceNumber, payload⟩) := by
  have hfresh : ∀ m, .stored m ∈ events → m.messageId ≠ uuid4 s.2 := by
    intro m hm
    obtain ⟨i, hi, hid⟩ := h.stored m hm
    rw [hid]
    exact not_drawn huuid hi
  refine ⟨hfresh, fun e he htakes => ?_⟩
  obtain ⟨m, hm, hid⟩ := h.taken _ e he htakes
  exact hfresh m hm hid

/-- **A message that is stored** is one more row. -/
theorem Tracks.stored_concat (h : Tracks uuid4 events s) (row : QueueRow)
    (hid : row.messageId = uuid4 s.2) (hn : s.2 < n)
    (hnumber : row.sequenceNumber = nextSequence s.1 row.queueName)
    (hcarries : Carries row none) (hsound : Sound events (.stored (messageOf row))) :
    Tracks uuid4 (events ++ [.stored (messageOf row)]) (s.1 ++ [row], n) := by
  obtain ⟨hfresh, hnot⟩ := hsound
  have hlease : ∀ messageId, latestLease (events ++ [.stored (messageOf row)]) messageId =
      latestLease events messageId := fun messageId => latestLease_of_none rfl
  have hnone : latestLease events row.messageId = none := latestLease_of_not_takes hnot
  have hmem : ∀ {e'}, e' ∈ events ++ [.stored (messageOf row)] →
      e' ∈ events ∨ e' = .stored (messageOf row) := fun h' => by simpa using h'
  refine ⟨fun message => ?_, ?_, ?_, ?_, ?_, ?_, ?_⟩
  · rw [pending_concat]
    constructor
    · rintro ⟨hmessage | hmessage, hacked⟩
      · obtain ⟨r, hr, hmessageOf⟩ :=
          (h.pending message).mp ⟨hmessage, fun w c now => (hacked w c now).1⟩
        exact ⟨r, List.mem_append_left _ hr, hmessageOf⟩
      · exact ⟨row, List.mem_concat_self, (QueueEvent.stored.inj hmessage).symm⟩
    · rintro ⟨r, hr, rfl⟩
      rcases List.mem_append.mp hr with hr | hr
      · obtain ⟨hstored, hacked⟩ := (h.pending _).mpr ⟨r, hr, rfl⟩
        exact ⟨.inl hstored, fun w c now => ⟨hacked w c now, nofun⟩⟩
      · obtain rfl := List.mem_singleton.mp hr
        exact ⟨.inr rfl, fun w c now => ⟨fun hacked => hnot _ hacked rfl, nofun⟩⟩
  · refine List.forall_mem_append.mpr ⟨fun r hr => ?_, List.forall_mem_singleton.mpr ?_⟩
    · rw [hlease]
      exact h.leases r hr
    · rw [hlease, hnone]
      exact hcarries
  · refine List.pairwise_append.mpr ⟨h.ids, List.pairwise_singleton _ _, fun r hr r' hr' => ?_⟩
    obtain rfl := List.mem_singleton.mp hr'
    exact hfresh _ ((h.pending (messageOf r)).mpr ⟨r, hr, rfl⟩).1
  · refine List.pairwise_append.mpr ⟨h.numbers, List.pairwise_singleton _ _,
      fun r hr r' hr' hqueue => ?_⟩
    obtain rfl := List.mem_singleton.mp hr'
    rw [hnumber, ← hqueue]
    exact lt_nextSequence hr
  · intro message hmessage
    rcases hmem hmessage with hmessage | hmessage
    · obtain ⟨i, hi, hmessageId⟩ := h.stored message hmessage
      exact ⟨i, hi.trans hn, hmessageId⟩
    · rw [QueueEvent.stored.inj hmessage]
      exact ⟨s.2, hn, hid⟩
  · intro message lease now hclaimed
    rcases hmem hclaimed with hclaimed | hclaimed
    · obtain ⟨i, hi, hclaim⟩ := h.claims message lease now hclaimed
      exact ⟨i, hi.trans hn, hclaim⟩
    · cases hclaimed
  · intro messageId e' he' htakes
    rcases hmem he' with he' | rfl
    · obtain ⟨message, hmessage, hmessageId⟩ := h.taken messageId e' he' htakes
      exact ⟨message, List.mem_append_left _ hmessage, hmessageId⟩
    · exact absurd htakes id

theorem mem_claimRows {workerId expires : String} :
    row' ∈ claimRows t messageId workerId claimId expires ↔ ∃ row ∈ t,
      (if row.messageId = messageId then row.claim workerId claimId expires else row) = row' :=
  List.mem_map

theorem messageOf_claimed (row : QueueRow) (messageId workerId claimId expires : String) :
    messageOf (if row.messageId = messageId then row.claim workerId claimId expires else row) =
      messageOf row := by
  split <;> rfl

/-- What a claim takes is the free message of the queue with the least number. -/
theorem Tracks.sound_claimed (h : Tracks uuid4 events s) (huuid : Function.Injective uuid4)
    {queueName : String} {row : QueueRow}
    (hrow : firstAvailable s.1 queueName now = some row) (workerId : String) (expires : Instant) :
    Sound events (.claimed (messageOf row) ⟨workerId, uuid4 s.2, expires⟩ now) := by
  obtain ⟨hmem, hqueue, havailable, hleast⟩ := firstAvailable_eq_some hrow
  refine ⟨h.free_iff.mpr ⟨row, hmem, rfl, havailable⟩, fun m hfree hm => ?_, fun m l now' hclaimed => ?_⟩
  · obtain ⟨other, hother, rfl, hotherAvailable⟩ := h.free_iff.mp hfree
    have hotherQueue : other.queueName = row.queueName := hm
    have hle := hleast other hother (hotherQueue.trans hqueue) hotherAvailable
    rcases hle.eq_or_lt with heq | hlt
    · rw [h.row_unique_number hother hmem hotherQueue heq.symm]
      exact .inl rfl
    · exact .inr hlt
  · obtain ⟨i, hi, hid⟩ := h.claims m l now' hclaimed
    rw [hid]
    exact not_drawn huuid hi

theorem Tracks.sound_nothingFree (h : Tracks uuid4 events s) {queueName : String}
    (hnone : firstAvailable s.1 queueName now = none) : Sound events (.nothingFree queueName now) := by
  intro m hfree hqueue
  obtain ⟨row, hrow, rfl, havailable⟩ := h.free_iff.mp hfree
  rw [firstAvailable_eq_none hnone hrow hqueue] at havailable
  cases havailable

/-- **A message that is claimed** is the same row with the new lease. -/
theorem Tracks.claimed_concat (h : Tracks uuid4 events s) {message : Message} {lease : Lease}
    (hstored : .stored message ∈ events) (hid : lease.claimId = uuid4 s.2) (hn : s.2 < n) :
    Tracks uuid4 (events ++ [.claimed message lease now])
      (claimRows s.1 message.messageId lease.workerId lease.claimId lease.expires.isoformat, n) := by
  have hlease : ∀ messageId, latestLease (events ++ [.claimed message lease now]) messageId =
      if message.messageId = messageId then some lease else latestLease events messageId := by
    intro messageId
    rw [latestLease_concat, leaseIn]
    split <;> rfl
  have hmem : ∀ {e'}, e' ∈ events ++ [.claimed message lease now] →
      e' ∈ events ∨ e' = .claimed message lease now := fun h' => by simpa using h'
  refine ⟨fun m => ?_, ?_, ?_, ?_, ?_, ?_, ?_⟩
  · rw [pending_concat]
    constructor
    · rintro ⟨hm | hm, hacked⟩
      · obtain ⟨row, hrow, rfl⟩ := (h.pending m).mp ⟨hm, fun w c now => (hacked w c now).1⟩
        exact ⟨_, mem_claimRows.mpr ⟨row, hrow, rfl⟩, messageOf_claimed row _ _ _ _⟩
      · cases hm
    · rintro ⟨row', hrow', rfl⟩
      obtain ⟨row, hrow, rfl⟩ := mem_claimRows.mp hrow'
      rw [messageOf_claimed]
      obtain ⟨hm, hacked⟩ := (h.pending _).mpr ⟨row, hrow, rfl⟩
      exact ⟨.inl hm, fun w c now => ⟨hacked w c now, nofun⟩⟩
  · intro row' hrow'
    obtain ⟨row, hrow, rfl⟩ := mem_claimRows.mp hrow'
    rw [hlease]
    by_cases hmessage : row.messageId = message.messageId
    · rw [if_pos hmessage, if_pos (Eq.symm hmessage : message.messageId = (row.claim ..).messageId)]
      exact ⟨rfl, rfl, rfl⟩
    · rw [if_neg hmessage, if_neg (Ne.symm hmessage)]
      exact h.leases row hrow
  · refine List.pairwise_map.mpr (h.ids.imp fun {r r'} hne => ?_)
    have hr := congrArg Message.messageId (messageOf_claimed r message.messageId lease.workerId
      lease.claimId lease.expires.isoformat)
    have hr' := congrArg Message.messageId (messageOf_claimed r' message.messageId lease.workerId
      lease.claimId lease.expires.isoformat)
    exact fun heq => hne (hr.symm.trans (heq.trans hr'))
  · refine List.pairwise_map.mpr (h.numbers.imp fun {r r'} hlt => ?_)
    have hr := messageOf_claimed r message.messageId lease.workerId lease.claimId
      lease.expires.isoformat
    have hr' := messageOf_claimed r' message.messageId lease.workerId lease.claimId
      lease.expires.isoformat
    intro hqueue
    have hlt := hlt ((congrArg Message.queueName hr).symm.trans
      (hqueue.trans (congrArg Message.queueName hr')))
    calc _ = r.sequenceNumber := congrArg Message.sequenceNumber hr
      _ < r'.sequenceNumber := hlt
      _ = _ := (congrArg Message.sequenceNumber hr').symm
  · intro m hm
    obtain ⟨i, hi, hmessageId⟩ := h.stored m ((hmem hm).resolve_right nofun)
    exact ⟨i, hi.trans hn, hmessageId⟩
  · intro m l now' hclaimed
    rcases hmem hclaimed with hclaimed | heq
    · obtain ⟨i, hi, hclaim⟩ := h.claims m l now' hclaimed
      exact ⟨i, hi.trans hn, hclaim⟩
    · cases heq
      exact ⟨s.2, hn, hid⟩
  · intro messageId e' he' htakes
    rcases hmem he' with he' | rfl
    · obtain ⟨m, hm, hmessageId⟩ := h.taken messageId e' he' htakes
      exact ⟨m, List.mem_append_left _ hm, hmessageId⟩
    · exact ⟨message, List.mem_append_left _ hstored, htakes⟩

/-- What an acknowledgement removes is the row of its message. -/
theorem Tracks.acknowledgedBy_iff (h : Tracks uuid4 events s) {row : QueueRow} (hrow : row ∈ s.1)
    (hacked : row.acknowledgedBy messageId claimedBy claimId now = true) (hrow' : row' ∈ s.1) :
    row'.acknowledgedBy messageId claimedBy claimId now = true ↔ row'.messageId = messageId := by
  have hid : ∀ r : QueueRow, r.acknowledgedBy messageId claimedBy claimId now = true →
      r.messageId = messageId := by
    intro r hr
    simp only [QueueRow.acknowledgedBy, Bool.and_eq_true, decide_eq_true_iff] at hr
    exact hr.1.1.1
  refine ⟨hid row', fun hmessage => ?_⟩
  rw [h.row_unique hrow' hrow (hmessage.trans (hid row hacked).symm)]
  exact hacked

/-- An acknowledgement succeeds for the latest lease of a pending message, before it is over. -/
theorem Tracks.sound_acked (h : Tracks uuid4 events s) {row : QueueRow} (hrow : row ∈ s.1)
    (hacked : row.acknowledgedBy messageId claimedBy claimId now = true) :
    Sound events (.acked messageId claimedBy claimId now) := by
  simp only [QueueRow.acknowledgedBy, Bool.and_eq_true, decide_eq_true_iff] at hacked
  obtain ⟨⟨⟨rfl, hclaimedBy⟩, hclaimId⟩, hexpires⟩ := hacked
  refine ⟨⟨messageOf row, (h.pending _).mpr ⟨row, hrow, rfl⟩, rfl⟩, ?_⟩
  have hcarries := h.leases row hrow
  cases hlease : latestLease events row.messageId with
  | none =>
    rw [hlease] at hcarries
    rw [hcarries.1] at hclaimedBy
    cases hclaimedBy
  | some lease =>
    rw [hlease] at hcarries
    obtain ⟨hworker, hclaim, hover⟩ := hcarries
    rw [hclaimedBy] at hworker
    rw [hclaimId] at hclaim
    rw [hover, Option.map_some, Option.any_some, decide_eq_true_iff, isoformat_le_iff] at hexpires
    exact ⟨lease, rfl, (Option.some.inj hworker).symm, (Option.some.inj hclaim).symm, hexpires⟩

/-- **A message that is acknowledged** has no row any more. -/
theorem Tracks.acked_concat (h : Tracks uuid4 events s) {row : QueueRow} (hrow : row ∈ s.1)
    (hacked : row.acknowledgedBy messageId claimedBy claimId now = true) :
    Tracks uuid4 (events ++ [.acked messageId claimedBy claimId now])
      (s.1.filter fun r => !r.acknowledgedBy messageId claimedBy claimId now, s.2) := by
  have hfilter : ∀ r, (r ∈ s.1.filter fun r => !r.acknowledgedBy messageId claimedBy claimId now) ↔
      r ∈ s.1 ∧ r.messageId ≠ messageId := by
    intro r
    rw [List.mem_filter, Bool.not_eq_true', ← Bool.not_eq_true]
    exact and_congr_right fun hr => not_congr (h.acknowledgedBy_iff hrow hacked hr)
  have hmem : ∀ {e'}, e' ∈ events ++ [.acked messageId claimedBy claimId now] →
      e' ∈ events ∨ e' = .acked messageId claimedBy claimId now := fun h' => by simpa using h'
  refine ⟨fun m => ?_, ?_, h.ids.filter _, h.numbers.filter _, ?_, ?_, ?_⟩
  · rw [pending_concat]
    constructor
    · rintro ⟨hm | hm, hnot⟩
      · obtain ⟨r, hr, rfl⟩ := (h.pending m).mp ⟨hm, fun w c t => (hnot w c t).1⟩
        refine ⟨r, (hfilter r).mpr ⟨hr, ?_⟩, rfl⟩
        rintro rfl
        exact (hnot claimedBy claimId now).2 rfl
      · cases hm
    · rintro ⟨r, hr, rfl⟩
      obtain ⟨hr, hne⟩ := (hfilter r).mp hr
      obtain ⟨hm, hnot⟩ := (h.pending _).mpr ⟨r, hr, rfl⟩
      refine ⟨.inl hm, fun w c t => ⟨hnot w c t, fun heq => ?_⟩⟩
      cases heq
      exact hne rfl
  · intro r hr
    rw [latestLease_of_none rfl]
    exact h.leases r ((hfilter r).mp hr).1
  · intro m hm
    exact h.stored m ((hmem hm).resolve_right nofun)
  · intro m l t hclaimed
    exact h.claims m l t ((hmem hclaimed).resolve_right nofun)
  · intro messageId' e' he' htakes
    have hconcat : ∀ m, .stored m ∈ events →
        .stored m ∈ events ++ [.acked messageId claimedBy claimId now] :=
      fun m => List.mem_append_left _
    rcases hmem he' with he' | rfl
    · obtain ⟨m, hm, hid⟩ := h.taken messageId' e' he' htakes
      exact ⟨m, hconcat m hm, hid⟩
    · have hid := (h.acknowledgedBy_iff hrow hacked hrow).mp hacked
      exact ⟨messageOf row, hconcat _ ((h.pending _).mpr ⟨row, hrow, rfl⟩).1, hid.trans htakes⟩

/-- **One call** answers soundly, and the table keeps to the history. -/
theorem Tracks.step (h : Tracks uuid4 events s) (huuid : Function.Injective uuid4) (c : QueueCall) :
    Sound events (queueStep uuid4 s c).1 ∧
      Tracks uuid4 (events ++ [(queueStep uuid4 s c).1]) (queueStep uuid4 s c).2 := by
  cases c with
  | store queueName payload now fits =>
    rw [queueStep]
    cases hstore : storeMessage s.1 (uuid4 s.2) queueName payload now fits with
    | error e => exact ⟨trivial, h.quiet (Nat.le_succ _) (fun _ => id) nofun⟩
    | ok t =>
      unfold storeMessage at hstore
      split_ifs at hstore
      obtain rfl := Except.ok.inj hstore
      have hsound := h.sound_stored huuid queueName (nextSequence s.1 queueName) payload
      exact ⟨hsound, h.stored_concat (newRow s.1 (uuid4 s.2) queueName payload now) rfl
        (Nat.lt_succ_self _) rfl ⟨rfl, rfl, rfl⟩ hsound⟩
  | claim queueName workerId leaseDurationSec now =>
    rw [queueStep, claimMessage]
    cases hexpires : now.add (leaseDurationSec * 1000000) with
    | none => exact ⟨trivial, h.quiet (Nat.le_succ _) (fun _ => id) nofun⟩
    | some expires =>
      cases hrow : firstAvailable s.1 queueName now with
      | none =>
        exact ⟨h.sound_nothingFree hrow, h.quiet (Nat.le_succ _) (fun _ => id) nofun⟩
      | some row =>
        obtain ⟨hmem, rfl, -⟩ := firstAvailable_eq_some hrow
        have hpending := (h.pending (messageOf row)).mpr ⟨row, hmem, rfl⟩
        exact ⟨h.sound_claimed huuid hrow workerId expires,
          h.claimed_concat hpending.1 rfl (Nat.lt_succ_self _)⟩
  | ack messageId claimedBy claimId now =>
    rw [queueStep, ackMessage]
    split_ifs with howner hany
    · exact ⟨trivial, h.quiet le_rfl (fun _ => id) nofun⟩
    · obtain ⟨row, hrow, hacked⟩ := List.any_eq_true.mp hany
      exact ⟨h.sound_acked hrow hacked, h.acked_concat hrow hacked⟩
    · exact ⟨trivial, h.quiet le_rfl (fun _ => id) nofun⟩

/-! ## Runs -/

theorem tracks_nil (uuid4 : ℕ → String) : Tracks uuid4 [] ([], 0) := by
  refine ⟨fun message => ⟨?_, ?_⟩, ?_, .nil, .nil, ?_, ?_, ?_⟩
  · rintro ⟨hmessage, -⟩
    cases hmessage
  · rintro ⟨row, hrow, -⟩
    cases hrow
  · exact fun row hrow => absurd hrow List.not_mem_nil
  · exact fun message hmessage => absurd hmessage List.not_mem_nil
  · exact fun message lease now hclaimed => absurd hclaimed List.not_mem_nil
  · exact fun messageId e he => absurd he List.not_mem_nil

/-- **The table keeps to the history**, after any calls. -/
theorem tracks_final (huuid : Function.Injective uuid4) (calls : List QueueCall) :
    Tracks uuid4 (queueHistory uuid4 calls) (final (queueStep uuid4) ([], 0) calls) := by
  induction calls using List.reverseRecOn with
  | nil => exact tracks_nil uuid4
  | append_singleton calls c ih =>
    rw [queueHistory, trace_append, final_append]
    exact (ih.step huuid c).2

/-- **Every answer is sound** for the history before it. -/
theorem sound_of_mem (huuid : Function.Injective uuid4) {calls : List QueueCall}
    {before : List QueueEvent} {after : List QueueEvent}
    (h : queueHistory uuid4 calls = before ++ e :: after) : Sound before e := by
  obtain ⟨done, c, rest, rfl, rfl, rfl, -⟩ := trace_eq_append_cons h
  exact ((tracks_final huuid done).step huuid c).1

theorem not_pending_of_acked {message : Message} {workerId : String}
    (h : .acked message.messageId workerId claimId now ∈ events) : ¬ Pending events message :=
  fun hpending => hpending.2 workerId claimId now h

/-- Texts of different lengths, one for each draw. -/
def drawnId (n : ℕ) : String := String.ofList (List.replicate (n + 1) 'u')

theorem drawnId_injective : Function.Injective drawnId := by
  intro n m h
  have hlength := congrArg (fun id : String => id.toList.length) h
  simp only [drawnId, String.toList_ofList, List.length_replicate] at hlength
  exact Nat.succ.inj hlength

/-- A message is claimed by two workers, one after the other, and both acknowledge it. -/
def reclaimedCalls : List QueueCall :=
  [.store "jobs" [1] ⟨0, by decide⟩ true, .claim "jobs" "w1" 1 ⟨0, by decide⟩,
    .claim "jobs" "w2" 1 ⟨1000001, by decide⟩, .ack "u" "w1" "uu" ⟨1000002, by decide⟩,
    .ack "u" "w2" "uuu" ⟨1000002, by decide⟩]

end QueueRun

end Durability

/-
# The round trip of a captured transaction

Whether `parse_cdc_transaction(tx.to_dict())` is the captured transaction again, and whether the
events that an apply worker hands to the target are the captured ones.  Three things are lost
on the way: the values under the keys that look like secrets, the version of the schema, and
warehouse positions under an engine name the parser does not know.

* `roundTrips_iff` : the transactions that come back as they were;
* `not_roundTrips_of_password` : a row with a password does not.
-/
import Akaal.CDCApplyWorker

namespace CDC

/-! ## What has to come back -/

/-- The two events are the same change: operation, table, row images and version of the
schema. -/
structure SameEvent (e e' : CDCEvent) : Prop where
  operation : e'.operation = e.operation
  sourceDatabase : e'.sourceDatabase = e.sourceDatabase
  sourceSchema : e'.sourceSchema = e.sourceSchema
  sourceTable : e'.sourceTable = e.sourceTable
  beforeImage : e'.beforeImage = e.beforeImage
  afterImage : e'.afterImage = e.afterImage
  schemaVersionId : e'.schemaVersionId = e.schemaVersionId

/-- The two transactions are the same change: identifier, commit position, and the events in
their order. -/
structure SameChange (tx tx' : CDCTransaction) : Prop where
  txId : tx'.txId = tx.txId
  commitPosition : tx'.commitPosition = tx.commitPosition
  events : List.Forall₂ SameEvent tx.events tx'.events

/-- `parse_cdc_transaction(tx.to_dict())` is the same change. -/
def RoundTrips (ambient : Ambient) (tx : CDCTransaction) : Prop :=
  ∃ tx', parseCdcTransaction ambient tx.toDict = .ok tx' ∧ SameChange tx tx'

/-- Wherever the buffer entry of the transaction has become the oldest one, a worker decodes it
to the same change, and a call that applies it hands the target the captured events. -/
def Delivered (ctx : ApplyContext) (identity : CDCEventIdentity) (tx : CDCTransaction) : Prop :=
  ∀ (buffer buffer' later : DurableCDCBuffer) (epoch : ℤ) (now : PyFloat) (entry : BufferEntry),
    buffer.appendTransaction ctx.rt tx epoch now = .ok buffer' →
    buffer'.inMemoryQueue.getLast? = some entry → later.inMemoryQueue.head? = some entry →
    later.identity = buffer.identity → later.hmacKey = buffer.hmacKey →
    (∃ tx' txHash, nextTransaction ctx (some later) none = .ok (some (tx', txHash)) ∧
      SameChange tx tx') ∧
    ∀ (s s' : ApplyState) (epoch' : ℤ) (n : ℕ) (checkpointId : String), s.buffer = some later →
      applyNextTransaction ctx identity s epoch' none =
        (s', .ok (.success tx.txId false n checkpointId)) →
      ∃ events, s'.target = s.target ++ [events] ∧ List.Forall₂ SameEvent tx.events events

/-! ## What is kept -/

/-- The event is kept: its position can be read, it has no version of the schema, and no
dictionary inside its row images has a secret. -/
structure EventKept (e : CDCEvent) : Prop where
  position : e.position.IsRead
  schemaVersionId : e.schemaVersionId = none
  beforeImage : NoSecret e.beforeImage
  afterImage : NoSecret e.afterImage

/-- The transaction is kept: its commit position is read back and its events are kept. -/
structure Kept (tx : CDCTransaction) : Prop where
  commitPosition : tx.commitPosition.IsReadBack
  events : ∀ e ∈ tx.events, EventKept e

theorem sameEvent_readBack_iff {e : CDCEvent} {pos : CDCSourcePosition} :
    SameEvent e (e.readBack pos) ↔
      e.schemaVersionId = none ∧ NoSecret e.beforeImage ∧ NoSecret e.afterImage := by
  constructor
  · intro h
    refine ⟨h.schemaVersionId.symm, ?_, ?_⟩
    · exact (sanitize_eq_self_iff _).mp h.beforeImage
    · exact (sanitize_eq_self_iff _).mp h.afterImage
  · rintro ⟨hversion, hbefore, hafter⟩
    exact {
      operation := rfl
      sourceDatabase := rfl
      sourceSchema := rfl
      sourceTable := rfl
      beforeImage := (sanitize_eq_self_iff _).mpr hbefore
      afterImage := (sanitize_eq_self_iff _).mpr hafter
      schemaVersionId := hversion.symm }

theorem event_readBack_iff {e : CDCEvent} :
    (∃ e', e.readBack <$> parseSourcePosition (.dict e.position.toDict) = .ok e' ∧
      SameEvent e e') ↔ EventKept e := by
  constructor
  · rintro ⟨e', hparse, hsame⟩
    cases hpos : parseSourcePosition (.dict e.position.toDict) with
    | error err =>
      rw [hpos] at hparse
      cases hparse
    | ok pos =>
      rw [hpos] at hparse
      cases hparse
      obtain ⟨hversion, hbefore, hafter⟩ := sameEvent_readBack_iff.mp hsame
      exact ⟨(parse_toDict_isOk_iff _).mp ⟨pos, hpos⟩, hversion, hbefore, hafter⟩
  · intro h
    obtain ⟨pos, hpos⟩ := (parse_toDict_isOk_iff _).mpr h.position
    refine ⟨e.readBack pos, by rw [hpos, map_ok], ?_⟩
    exact sameEvent_readBack_iff.mpr ⟨h.schemaVersionId, h.beforeImage, h.afterImage⟩

/-- Events are read back as the same changes exactly when every one of them is kept. -/
theorem events_readBack_iff (events : List CDCEvent) : (∃ events', events.mapM (fun e : CDCEvent =>
        e.readBack <$> parseSourcePosition (.dict e.position.toDict)) = .ok events' ∧
      List.Forall₂ SameEvent events events') ↔ ∀ e ∈ events, EventKept e := by
  induction events with
  | nil =>
    constructor
    · intro _ e he
      cases he
    · intro _
      exact ⟨[], rfl, .nil⟩
  | cons e es ih =>
    rw [List.forall_mem_cons, ← ih, ← event_readBack_iff]
    simp only [Traversal.mapM_eq_ok_iff]
    constructor
    · rintro ⟨events', hparse, hsame⟩
      cases hparse with
      | cons hhead htail =>
        cases hsame with
        | cons hhead' htail' => exact ⟨⟨_, hhead, hhead'⟩, _, htail, htail'⟩
    · rintro ⟨⟨e', hhead, hhead'⟩, es', htail, htail'⟩
      exact ⟨e' :: es', .cons hhead htail, .cons hhead' htail'⟩

/-- **The transactions that `parse_cdc_transaction(tx.to_dict())` brings back.** -/
theorem roundTrips_iff_kept (ambient : Ambient) (tx : CDCTransaction) :
    RoundTrips ambient tx ↔ Kept tx := by
  rw [RoundTrips, parse_transaction]
  constructor
  · rintro ⟨tx', hparse, hsame⟩
    obtain ⟨pos, hpos, hparse⟩ := Traversal.bind_eq_ok_iff.mp hparse
    obtain ⟨events, hevents, hparse⟩ := Traversal.bind_eq_ok_iff.mp hparse
    cases hparse
    have hcommit : pos = tx.commitPosition := hsame.commitPosition
    rw [hcommit] at hpos
    exact ⟨(parse_toDict_iff _).mp hpos, (events_readBack_iff _).mp ⟨events, hevents, hsame.events⟩⟩
  · intro h
    obtain ⟨events, hevents, hsame⟩ := (events_readBack_iff _).mpr h.events
    refine ⟨{ tx with events := events }, ?_, ⟨rfl, rfl, hsame⟩⟩
    rw [parse_toDict_of_isReadBack h.commitPosition, ok_bind, hevents, ok_bind]
    rfl

/-! ## Through the buffer -/

/-- The entry of a successful append: the last one of the queue, with the dictionary of the
transaction and its digest. -/
theorem append_ok {rt : DigestRuntime} {buffer buffer' : DurableCDCBuffer} {tx : CDCTransaction}
    {epoch : ℤ} {now : PyFloat} (h : buffer.appendTransaction rt tx epoch now = .ok buffer') :
    ∃ recordHmac, buffer.computeRecordHmac rt tx.toDict epoch = .ok recordHmac ∧
      buffer'.inMemoryQueue = buffer.inMemoryQueue ++ [buffer.entryOf tx epoch now recordHmac] := by
  rw [DurableCDCBuffer.appendTransaction] at h
  split_ifs at h
  obtain ⟨recordHmac, hhmac, h⟩ := Traversal.bind_eq_ok_iff.mp h
  obtain ⟨bytes, -, h⟩ := Traversal.bind_eq_ok_iff.mp h
  split_ifs at h
  cases h
  exact ⟨recordHmac, hhmac, rfl⟩

/-- The entry of a successful append passes the integrity check of any buffer with the same
identity and key, and a worker decodes it to what the parser makes of the dictionary. -/
theorem next_of_append {ctx : ApplyContext} {buffer buffer' later : DurableCDCBuffer}
    {tx : CDCTransaction} {epoch : ℤ} {now : PyFloat} {entry : BufferEntry}
    (happend : buffer.appendTransaction ctx.rt tx epoch now = .ok buffer')
    (hentry : buffer'.inMemoryQueue.getLast? = some entry)
    (hhead : later.inMemoryQueue.head? = some entry) (hidentity : later.identity = buffer.identity)
    (hkey : later.hmacKey = buffer.hmacKey) :
    nextTransaction ctx (some later) none =
      (fun tx' => some (tx', entry.recordHmac)) <$> parseCdcTransaction ctx.ambient tx.toDict := by
  obtain ⟨recordHmac, hhmac, hqueue⟩ := append_ok happend
  have hlast : entry = buffer.entryOf tx epoch now recordHmac := by
    rw [hqueue] at hentry
    simpa using hentry.symm
  have hdata : entry.transactionData = tx.toDict := by
    rw [hlast]
    rfl
  have hsame : later.computeRecordHmac ctx.rt entry.transactionData entry.fencingEpoch =
      .ok entry.recordHmac := by
    rw [DurableCDCBuffer.computeRecordHmac, hidentity, hkey, hlast]
    exact hhmac
  have hpop : later.popNextTransaction ctx.rt = .ok (some entry) := by
    obtain ⟨rest, hrest⟩ := List.head?_eq_some_iff.mp hhead
    rw [DurableCDCBuffer.popNextTransaction, hrest]
    simp only [hsame, ok_bind, ne_eq, not_true_eq_false, if_false]
    rfl
  simp only [nextTransaction, hpop, ok_bind, hdata]
  cases parseCdcTransaction ctx.ambient tx.toDict <;> rfl

/-- **A kept transaction is delivered**: a worker decodes the captured change and applies its
events. -/
theorem delivered_of_kept {ctx : ApplyContext} {identity : CDCEventIdentity} {tx : CDCTransaction}
    (h : Kept tx) : Delivered ctx identity tx := by
  intro buffer buffer' later epoch now entry happend hentry hhead hidentity hkey
  obtain ⟨tx', hparse, hsame⟩ := (roundTrips_iff_kept ctx.ambient tx).mpr h
  have hnext := next_of_append happend hentry hhead hidentity hkey
  rw [hparse, map_ok] at hnext
  refine ⟨⟨tx', _, hnext, hsame⟩, ?_⟩
  intro s s' epoch' n checkpointId hbuffer happly
  rcases applyNext_ok happly with ⟨hnone, -, -⟩ | ⟨tx'', txHash, hnext', hdup | hfresh⟩
  · cases hnone
  · -- A duplicate would be reported as one.
    obtain ⟨-, -, -, n', ck, hr⟩ := applyDuplicate_ok hdup.2
    simp at hr
  · rw [hbuffer, hnext] at hnext'
    cases hnext'
    obtain ⟨htarget, -⟩ := applyFresh_ok hfresh.2
    exact ⟨tx'.events, htarget, hsame.events⟩

/-! ## The exact condition -/

/-- **The exact condition.**  A captured transaction comes back from its dictionary as the same
change, and is delivered as captured, precisely when its commit position is read back, the
positions of its events can be read, no event has a version of the schema, and no dictionary
inside its row images has a secret. -/
theorem roundTrips_iff (ctx : ApplyContext) (identity : CDCEventIdentity) (tx : CDCTransaction) :
    RoundTrips ctx.ambient tx ∧ Delivered ctx identity tx ↔ Kept tx := by
  constructor
  · rintro ⟨hround, -⟩
    exact (roundTrips_iff_kept ctx.ambient tx).mp hround
  · intro h
    exact ⟨(roundTrips_iff_kept ctx.ambient tx).mpr h, delivered_of_kept h⟩

/-! ## A password -/

/-- A row of a table of users. -/
def userRow : PyValue := .dict [("id", .int 1), ("password", .str "hunter2")]

/-- The insertion of a row into the table of users. -/
def insertUser (row : PyValue) : CDCEvent where
  identity := sampleIdentity
  sourceEngine := "ORACLE"
  sourceDatabase := "db"
  sourceSchema := "app"
  sourceTable := "users"
  operation := .insert
  position := samplePosition 7
  beforeImage := .none
  afterImage := row
  boundary := .singleEvent
  txId := some "t1"
  commitTimestamp := "2026-01-01T00:00:00"
  capturedTimestamp := "2026-01-01T00:00:00"
  schemaVersionId := none
  details := .dict []
  engine_upper := sampleEngine_upper
  commit_ne := sampleTime_ne
  captured_ne := sampleTime_ne
  details_eq := sampleDetails_eq

/-- The password of an inserted user does not come back. -/
theorem not_roundTrips_of_password :
    ¬ RoundTrips sampleAmbient (sampleTransaction "t1" 7 [insertUser userRow]) := by
  rw [roundTrips_iff_kept]
  intro h
  have hsecret : NoSecret userRow := (h.events _ List.mem_cons_self).afterImage
  have hitem : ("password", PyValue.str "hunter2") ∈ allItems userRow := by
    simp [userRow, allItems, itemsInside]
  have hredacted : PyValue.str "hunter2" = redacted := hsecret _ hitem (by decide)
  simp [redacted] at hredacted

end CDC

/-
# The recovery inspector

`RecoveryStateInspector` of `akaalEngine/durability/recovery/inspector.py` verifies the journal with a
store of its own, which has no compaction engine and expects the chain at its genesis.

* `sameResult_iff` : when both verifications of a journal have the same result;
* `agrees_step_iff` : the operations that keep it so;
* `inspection_agrees` : the runs in which the inspector reports what the authority finds;
* `not_agrees_of_compaction` : a journal with a compaction.
-/
import Akaal.StoredCheckpoints

open CDC HashChain JsonText TransitionRun

namespace Durability

/-! ## The inspector -/

/-- `DurableRecoverySnapshot`. -/
structure DurableRecoverySnapshot where
  migrationId : String
  latestCheckpoint : Option ReadCheckpoint
  journalRecordsCount : ℕ
  journalIsValid : Bool
  incompleteIdempotencyKeys : List String
  committedIdempotencyKeys : List String
  currentFencingEpoch : ℤ

section Inspection

variable (rt : DigestRuntime) (anchorKey : List UInt8)

/-- `verify_journal_integrity`. -/
def verifyJournalIntegrity (t : DurabilityTables) : Except VerifyError Bool :=
  t.journal.verifyChainIntegrity rt (some anchorKey)

/-- The result of the journal store of the inspector; `False` for every exception. -/
def journalValid (t : DurabilityTables) : Bool :=
  match t.journal.verifyChainIntegrity rt none with
  | .ok valid => valid
  | .error _ => false

/-- `inspect_recovery_state`. -/
def inspectRecoveryState (t : DurabilityTables) (migrationId : String) :
    Except ReadError DurableRecoverySnapshot :=
  match getLatestCheckpoint rt t.checkpoints migrationId with
  | .error e => .error e
  | .ok latestCheckpoint =>
    let records := t.idempotency.items.filter fun item => item.2.migrationId = migrationId
    .ok
      { migrationId := migrationId
        latestCheckpoint := latestCheckpoint
        journalRecordsCount := t.journal.records.countP fun row => row.migrationId = migrationId
        journalIsValid := journalValid rt t
        incompleteIdempotencyKeys := (records.filter fun item =>
          item.2.state = .reserved || item.2.state = .inProgress).map Prod.fst
        committedIdempotencyKeys := (records.filter fun item =>
          item.2.state = .committed).map Prod.fst
        currentFencingEpoch := latestCheckpoint.elim 0 ReadCheckpoint.fencingEpoch }

/-- For every migration the inspector reports a valid journal when the authority finds it valid, and
only then. -/
def InspectorAgrees (t : DurabilityTables) : Prop :=
  ∀ migrationId, (∃ snapshot, inspectRecoveryState rt t migrationId = .ok snapshot ∧
    snapshot.journalIsValid = true) ↔ verifyJournalIntegrity rt anchorKey t = .ok true

end Inspection

/-! ## Two verifications of one journal -/

namespace JournalTables

open JournalRun

variable (rt : DigestRuntime)

/-- The records are a chain from the first of them, with intact payloads. -/
def Sound : List JournalRow → Prop
  | [] => True
  | row :: rows => Chained rt row.sequenceNumber row.parentHash (row :: rows) ∧
      ∀ r ∈ row :: rows, Intact rt r

/-- When the records are a chain, it starts with number 1 precisely when it starts where the anchors
say. -/
def Agrees (t : JournalTables) : Prop :=
  ∀ row rows, t.records = row :: rows → Sound rt (row :: rows) →
    (row.sequenceNumber = 1 ↔ chainStart t = (row.sequenceNumber, row.parentHash))

variable {rt} {anchorKey : List UInt8} {t : JournalTables}

theorem chained_iff_sound (start : ℤ × String) (row : JournalRow) (rows : List JournalRow) :
    Chained rt start.1 start.2 (row :: rows) ∧ (∀ r ∈ row :: rows, Intact rt r) ↔
      Sound rt (row :: rows) ∧ start = (row.sequenceNumber, row.parentHash) := by
  rw [Sound]
  constructor
  · rintro ⟨hchain, hintact⟩
    obtain ⟨hseq, hparent⟩ : row.sequenceNumber = start.1 ∧ row.parentHash = start.2 := hchain.start
    rw [hseq, hparent]
    exact ⟨⟨hchain, hintact⟩, rfl⟩
  · rintro ⟨hsound, rfl⟩
    exact hsound

/-- **Two verifications.**  With the anchors and without them a journal has the same result precisely
when its chain starts with number 1 where the anchors say. -/
theorem sameResult_iff (ht : WellKept rt anchorKey t) : (t.verifyChainIntegrity rt none = .ok true ↔
      t.verifyChainIntegrity rt (some anchorKey) = .ok true) ↔ Agrees rt t := by
  have hnone : t.verifyChainIntegrity rt none = .ok true ↔ t.records = [] ∨
      Chained rt 1 genesisHash t.records ∧ ∀ row ∈ t.records, Intact rt row := by
    have hstart : (none : Option (List UInt8)).elim (.ok (1, genesisHash))
        (t.getChainStartParentHash rt ·) = .ok (1, genesisHash) := rfl
    rw [verifyChainIntegrity_iff rt t hstart, ht.rows_eq]
  rw [hnone, ht.verifyChainIntegrity_iff]
  unfold Agrees
  cases hrecords : t.records with
  | nil => simp
  | cons row rows =>
    have hgenesis := ht.genesis row (by simp [hrecords])
    have hfirst : (1, genesisHash) = (row.sequenceNumber, row.parentHash) ↔
        row.sequenceNumber = 1 := by
      constructor
      · intro heq
        exact (Prod.mk.inj heq).1.symm
      · intro hone
        rw [hone, hgenesis.2 hone]
    have hne : row :: rows ≠ [] := List.cons_ne_nil _ _
    rw [or_iff_right hne, or_iff_right hne, chained_iff_sound (1, genesisHash),
      chained_iff_sound (chainStart t), hfirst]
    constructor
    · rintro h _ _ ⟨⟩ hsound
      simpa [hsound] using h
    · intro h
      refine and_congr_right fun hsound => ?_
      exact h row rows rfl hsound

/-! ## Operations on one journal -/

/-- The newest anchor is in the way of an anchor for the record. -/
def Superseded (t : JournalTables) (row : JournalRow) : Prop :=
  ∃ a, t.newestAnchor = some a ∧ row.sequenceNumber ≤ a.boundarySequence ∧
    (a.boundarySequence, a.anchorParentHash) ≠ (row.sequenceNumber, row.parentHash)

/-- The chain starts at a record that an anchor was written for, when no other is in the way. -/
theorem chainStart_anchor_iff (rows : List JournalRow) {row : JournalRow} {a : AnchorRow}
    (hboundary : a.boundarySequence = row.sequenceNumber)
    (hparent : a.anchorParentHash = row.parentHash) :
    chainStart ⟨rows, t.anchors ++ [a]⟩ = (row.sequenceNumber, row.parentHash) ↔
      ¬ Superseded t row := by
  have ha : (a.boundarySequence, a.anchorParentHash) = (row.sequenceNumber, row.parentHash) := by
    rw [hboundary, hparent]
  unfold chainStart Superseded
  rw [newestAnchor_concat]
  cases hnewest : t.newestAnchor with
  | none =>
    refine iff_of_true ha ?_
    rintro ⟨_, ⟨⟩, -⟩
  | some b =>
    dsimp only
    by_cases hlt : b.boundarySequence < a.boundarySequence
    · rw [if_pos hlt]
      refine iff_of_true ha ?_
      rintro ⟨_, ⟨⟩, hle, -⟩
      omega
    · rw [if_neg hlt, Option.elim_some]
      constructor
      · rintro heq ⟨_, ⟨⟩, -, hne⟩
        exact hne heq
      · intro h
        by_contra hne
        exact h ⟨b, rfl, by omega, hne⟩

variable (rt) in
/-- What is left behind an anchor for its first record starts with number 1, or another anchor is in
the way; when it is a chain. -/
def CutsWell (t : JournalTables) (row : JournalRow) (left : List JournalRow) : Prop :=
  Sound rt left → (row.sequenceNumber = 1 ↔ ¬ Superseded t row)

/-- The agreement of the verifications when the records before one are deleted. -/
theorem agrees_anchor_iff {row : JournalRow} {rows : List JournalRow} {a : AnchorRow}
    (hboundary : a.boundarySequence = row.sequenceNumber)
    (hparent : a.anchorParentHash = row.parentHash) :
    Agrees rt ⟨row :: rows, t.anchors ++ [a]⟩ ↔ CutsWell rt t row (row :: rows) := by
  unfold Agrees CutsWell
  constructor
  · intro h hsound
    rw [← chainStart_anchor_iff (row :: rows) hboundary hparent]
    exact h row rows rfl hsound
  · rintro h _ _ ⟨⟩ hsound
    rw [chainStart_anchor_iff (row :: rows) hboundary hparent]
    exact h hsound

theorem Sound.of_append {row : JournalRow} {rows rest : List JournalRow}
    (h : Sound rt (row :: (rows ++ rest))) : Sound rt (row :: rows) := by
  obtain ⟨hchain, hintact⟩ := h
  rw [Chained, ← List.cons_append, List.map_append] at hchain
  exact ⟨(valid_append_iff.mp hchain).1, fun r hr =>
    hintact r (List.cons_append ▸ List.mem_append_left rest hr)⟩

variable (rt) in
/-- A record that is appended to an empty journal has no anchor beyond it. -/
def StartsChain (t : JournalTables) (call : AppendCall) : Prop :=
  ∀ text, Admitted t call text → t.records = [] → Reproduced rt text (rt.sha256Hex text) →
    ∀ a ∈ t.anchors, a.boundarySequence ≤ 1

/-- The agreement of the verifications after an append. -/
theorem agrees_append_iff (ht : WellKept rt anchorKey t) (h : Agrees rt t) (call : AppendCall)
    (text : String) :
    Agrees rt { t with records := t.records ++ [t.newRow rt call text] } ↔
      (t.records = [] → Reproduced rt text (rt.sha256Hex text) →
        ∀ a ∈ t.anchors, a.boundarySequence ≤ 1) := by
  cases hrecords : t.records with
  | nil =>
    have hone : (t.newRow rt call text).sequenceNumber = 1 := by
      rw [ht.newRow_sequenceNumber, hrecords]
      rfl
    have hgenesis : (t.newRow rt call text).parentHash = genesisHash := by
      rw [ht.newRow_parentHash, hrecords]
      rfl
    have hsound : Sound rt [t.newRow rt call text] ↔ Reproduced rt text (rt.sha256Hex text) := by
      rw [Sound, List.forall_mem_singleton]
      exact and_iff_right ⟨rfl, rfl, rfl, trivial⟩
    rw [List.nil_append, imp_iff_right rfl, ← ht.chainStart_eq_iff, ← hsound]
    unfold Agrees
    constructor
    · intro hagrees hreproduced
      have heq := (hagrees _ _ rfl hreproduced).mp hone
      rw [hone, hgenesis] at heq
      exact heq
    · rintro hstart _ _ ⟨⟩ hreproduced
      refine iff_of_true hone ?_
      rw [hone, hgenesis]
      exact hstart hreproduced
  | cons row rows =>
    refine iff_of_true ?_ nofun
    rintro _ _ ⟨⟩ hsound
    exact h row rows hrecords hsound.of_append

variable (rt) (anchorKey) in
/-- The tables after an operation. -/
def after (t : JournalTables) : JournalAction → JournalTables
  | .append call => (t.appendRecord rt call).2
  | .compact safeSequenceBoundary now => (t.compactJournal rt anchorKey safeSequenceBoundary now).2
  | .purge cutoff now => (t.purgeExpiredRecords rt anchorKey cutoff now).2

variable (rt) in
/-- An operation that keeps the agreement of the verifications. -/
def KeepsAgreement (t : JournalTables) : JournalAction → Prop
  | .append call => StartsChain rt t call
  | .compact b _ => ∀ row ∈ t.records, row.sequenceNumber = b →
      CutsWell rt t row (t.records.filter fun r => ¬ r.sequenceNumber < b)
  | .purge cutoff _ => ∀ row, t.firstSurvivor cutoff = some row →
      CutsWell rt t row (t.records.filter fun r => ¬ r.createdAt < cutoff)

theorem filter_boundary (ht : WellKept rt anchorKey t) {row : JournalRow} (hrow : row ∈ t.records) :
    ∃ ys, t.records.filter (fun r => ¬ r.sequenceNumber < row.sequenceNumber) = row :: ys := by
  obtain ⟨xs, ys, hrecords⟩ := List.append_of_mem hrow
  refine ⟨ys, ?_⟩
  have hsorted := ht.sorted
  rw [hrecords] at hsorted ⊢
  obtain ⟨-, hrest, hcross⟩ := List.pairwise_append.mp hsorted
  rw [List.filter_append, List.filter_eq_nil_iff.mpr, List.filter_eq_self.mpr, List.nil_append]
  · refine List.forall_mem_cons.mpr ⟨by simp, fun r hr => ?_⟩
    have hlt := (List.pairwise_cons.mp hrest).1 r hr
    simpa using hlt.le
  · intro r hr
    have hlt := hcross r hr row List.mem_cons_self
    simpa using hlt

theorem eq_of_sequenceNumber (ht : WellKept rt anchorKey t) {row row' : JournalRow}
    (hrow : row ∈ t.records) (hrow' : row' ∈ t.records)
    (heq : row.sequenceNumber = row'.sequenceNumber) : row = row' := by
  obtain ⟨ys, hys⟩ := filter_boundary ht hrow
  obtain ⟨ys', hys'⟩ := filter_boundary ht hrow'
  rw [heq, hys'] at hys
  exact (List.cons.inj hys).1.symm

/-- What a compaction does: nothing, or it writes an anchor for a record and deletes those before. -/
theorem compactJournal_spec (ht : WellKept rt anchorKey t) (b : ℤ) (now : String) :
    (t.compactJournal rt anchorKey b now).2 = t ∧ (∀ row ∈ t.records, row.sequenceNumber ≠ b) ∨
      ∃ row ∈ t.records, row.sequenceNumber = b ∧ ∃ ys a,
        t.records.filter (fun r => ¬ r.sequenceNumber < b) = row :: ys ∧
        a.boundarySequence = row.sequenceNumber ∧ a.anchorParentHash = row.parentHash ∧
        Signed rt anchorKey a ∧
        (t.compactJournal rt anchorKey b now).2 = ⟨row :: ys, t.anchors ++ [a]⟩ := by
  unfold compactJournal
  cases hfind : t.records.find? fun row => row.sequenceNumber = b with
  | none =>
    refine .inl ⟨rfl, fun row hrow => ?_⟩
    simpa using List.find?_eq_none.mp hfind row hrow
  | some row =>
    right
    have hb : row.sequenceNumber = b := by simpa using List.find?_some hfind
    have hrow := List.mem_of_find?_eq_some hfind
    subst hb
    obtain ⟨ys, hys⟩ := filter_boundary ht hrow
    refine ⟨row, hrow, rfl, ys, ⟨row.sequenceNumber, row.parentHash,
      computeAnchorMac rt anchorKey row.sequenceNumber row.parentHash now, now⟩, hys, rfl, rfl, rfl,
      ?_⟩
    rw [← hys]
    rfl

/-- What a purge does: it leaves no record, or it writes an anchor for the first one that it leaves. -/
theorem purgeExpiredRecords_spec (ht : WellKept rt anchorKey t) (cutoff now : String) :
    (t.purgeExpiredRecords rt anchorKey cutoff now).2 = ⟨[], t.anchors⟩ ∧
        t.firstSurvivor cutoff = none ∨
      ∃ row ∈ t.records, t.firstSurvivor cutoff = some row ∧ ∃ ys a,
        t.records.filter (fun r => ¬ r.createdAt < cutoff) = row :: ys ∧
        a.boundarySequence = row.sequenceNumber ∧ a.anchorParentHash = row.parentHash ∧
        Signed rt anchorKey a ∧
        (t.purgeExpiredRecords rt anchorKey cutoff now).2 = ⟨row :: ys, t.anchors ++ [a]⟩ := by
  have hsurvivor : t.firstSurvivor cutoff =
      (t.records.filter fun row => ¬ row.createdAt < cutoff).head? := by
    rw [List.head?_filter, firstSurvivor, ht.rows_eq]
    simp only [not_lt]
  unfold purgeExpiredRecords
  rw [hsurvivor]
  cases hleft : t.records.filter fun row => ¬ row.createdAt < cutoff with
  | nil => exact .inl ⟨rfl, rfl⟩
  | cons row ys =>
    have hrow : row ∈ t.records := by
      have hmem : row ∈ row :: ys := List.mem_cons_self
      rw [← hleft] at hmem
      exact List.mem_of_mem_filter hmem
    exact .inr ⟨row, hrow, rfl, ys, ⟨row.sequenceNumber, row.parentHash,
      computeAnchorMac rt anchorKey row.sequenceNumber row.parentHash now, now⟩, rfl, rfl, rfl, rfl,
      rfl⟩

theorem WellKept.after (ht : WellKept rt anchorKey t) (action : JournalAction) :
    WellKept rt anchorKey (t.after rt anchorKey action) := by
  cases action with
  | append call =>
    rw [JournalTables.after]
    rcases appendRecord_cases t call with ⟨⟨e, heq⟩, -⟩ | ⟨text, -, heq⟩
    · rw [heq]
      exact ht
    · rw [heq]
      exact ht.append call text
  | compact b now =>
    rw [JournalTables.after]
    rcases compactJournal_spec ht b now with
      ⟨heq, -⟩ | ⟨row, hrow, -, ys, a, hleft, hboundary, hparent, hsigned, heq⟩
    · rw [heq]
      exact ht
    · rw [heq]
      exact ht.anchor (hleft ▸ List.filter_sublist) hrow hboundary hparent hsigned
  | purge cutoff now =>
    rw [JournalTables.after]
    rcases purgeExpiredRecords_spec ht cutoff now with
      ⟨heq, -⟩ | ⟨row, hrow, -, ys, a, hleft, hboundary, hparent, hsigned, heq⟩
    · rw [heq]
      exact ⟨List.Pairwise.nil, List.forall_mem_nil _, ht.signed, ht.anchored⟩
    · rw [heq]
      exact ht.anchor (hleft ▸ List.filter_sublist) hrow hboundary hparent hsigned

/-- **The operations that keep the agreement** of the two verifications. -/
theorem agrees_step_iff (ht : WellKept rt anchorKey t) (h : Agrees rt t) (action : JournalAction) :
    Agrees rt (t.after rt anchorKey action) ↔ KeepsAgreement rt t action := by
  cases action with
  | append call =>
    rw [after, KeepsAgreement, StartsChain]
    rcases @appendRecord_cases rt t call with ⟨⟨e, heq⟩, hnone⟩ | ⟨text, hadmitted, heq⟩
    · rw [heq]
      exact iff_of_true h fun text hadmitted => absurd hadmitted (hnone text)
    · rw [heq]
      refine (agrees_append_iff ht h call text).trans ?_
      constructor
      · intro hstart text' hadmitted'
        obtain rfl : text' = text := Except.ok.inj (hadmitted'.text.symm.trans hadmitted.text)
        exact hstart
      · exact fun hstart => hstart text hadmitted
  | compact b now =>
    rw [after, KeepsAgreement]
    rcases compactJournal_spec ht b now with
      ⟨heq, hnone⟩ | ⟨row, hrow, hb, ys, a, hleft, hboundary, hparent, -, heq⟩
    · rw [heq]
      exact iff_of_true h fun row hrow hb => absurd hb (hnone row hrow)
    · rw [heq, agrees_anchor_iff hboundary hparent, hleft]
      constructor
      · intro hcut row' hrow' hb'
        rw [eq_of_sequenceNumber ht hrow' hrow (hb'.trans hb.symm)]
        exact hcut
      · exact fun hcut => hcut row hrow hb
  | purge cutoff now =>
    rw [after, KeepsAgreement]
    rcases purgeExpiredRecords_spec ht cutoff now with
      ⟨heq, hnone⟩ | ⟨row, -, hfirst, ys, a, hleft, hboundary, hparent, -, heq⟩
    · rw [heq, hnone]
      exact iff_of_true nofun nofun
    · rw [heq, agrees_anchor_iff hboundary hparent, hleft, hfirst]
      constructor
      · rintro hcut _ ⟨⟩
        exact hcut
      · exact fun hcut => hcut row rfl

end JournalTables

/-! ## Steps of the authority -/

section Steps

variable (rt : DigestRuntime) (rb : RollbackRuntime) (signingKey anchorKey : List UInt8)

/-- What a step does to the journal. -/
def journalAction (t : DurabilityTables) : AuthorityAction → Option JournalAction
  | .call (.appendJournalRecord call) => some (.append call)
  | .call (.compactJournal safeSequenceBoundary now) => some (.compact safeSequenceBoundary now)
  | .call (.purgeExpiredJournalRecords cutoff now) => some (.purge cutoff now)
  | .call (.saveCheckpointWithJournal checkpoint token now fits call) =>
    if (saveCheckpointIn rt signingKey t checkpoint token now fits).isOk then some (.append call)
    else none
  | .statement (.append call) false => some (.append call)
  | _ => none

/-- A step that keeps the checksums of the checkpoints and the agreement on the journal. -/
def KeepsInspection (t : DurabilityTables) (action : AuthorityAction) : Prop :=
  KeepsChecksums rt rb signingKey anchorKey t action ∧
    ∀ a, journalAction rt signingKey t action = some a → t.journal.KeepsAgreement rt a

variable {rt rb signingKey anchorKey} {t t' : DurabilityTables}

theorem appendRecordIn_journal (call : JournalTables.AppendCall) :
    ((appendRecordIn rt t call).toOption.getD t).journal = t.journal.after rt anchorKey (.append call) := by
  unfold appendRecordIn
  rw [JournalTables.after]
  rcases @JournalRun.appendRecord_cases rt t.journal call with ⟨⟨e, heq⟩, -⟩ | ⟨text, -, heq⟩
  · rw [heq]
    rfl
  · rw [heq]
    rfl

/-- **The journal after a step.** -/
theorem authorityStep_journal {action : AuthorityAction}
    (h : authorityStep rt rb signingKey anchorKey t action = some t') :
    t'.journal = (journalAction rt signingKey t action).elim t.journal
      (t.journal.after rt anchorKey) := by
  cases action with
  | call call =>
    cases h
    cases call with
    | issueFencingToken resourceId workerId now => rfl
    | saveCheckpoint checkpoint token now fits =>
      show ((saveCheckpointIn rt signingKey t checkpoint token now fits).toOption.getD t).journal = _
      cases hsave : saveCheckpointIn rt signingKey t checkpoint token now fits with
      | error e => rfl
      | ok u =>
        obtain ⟨_, -, rfl⟩ := saveCheckpointIn_eq_ok_iff.mp hsave
        rfl
    | saveRowPosition migrationId tableName position token now fits =>
      rw [perform]
      cases saveRowPosition rt signingKey t.epochs t.checkpoints migrationId tableName position token
        now fits <;> rfl
    | appendJournalRecord call => exact @appendRecordIn_journal rt anchorKey t call
    | compactJournal safeSequenceBoundary now => rfl
    | purgeExpiredJournalRecords cutoff now => rfl
    | transitionIdempotencyState call =>
      show ((transitionStateIn t call).toOption.getD t).journal = _
      cases htransition : transitionStateIn t call with
      | error e => rfl
      | ok u =>
        obtain ⟨_, rfl⟩ := transitionStateIn_eq_ok htransition
        rfl
    | saveCheckpointWithJournal checkpoint token now fits call =>
      rw [perform, journalAction]
      cases hsave : saveCheckpointIn rt signingKey t checkpoint token now fits with
      | error e => rfl
      | ok u =>
        obtain ⟨checkpoints, -, rfl⟩ := saveCheckpointIn_eq_ok_iff.mp hsave
        have happend := @appendRecordIn_journal rt anchorKey
          { t with checkpoints := checkpoints } call
        show ((appendRecordIn rt { t with checkpoints := checkpoints } call).toOption.getD t).journal
          = t.journal.after rt anchorKey (.append call)
        cases hresult : appendRecordIn rt { t with checkpoints := checkpoints } call with
        | error e =>
          rw [hresult] at happend
          exact happend
        | ok u =>
          rw [hresult] at happend
          exact happend
    | transitionIdempotencyWithCheckpoint call checkpoint token now fits =>
      rw [perform]
      cases htransition : transitionStateIn t call with
      | error e => rfl
      | ok u =>
        obtain ⟨idempotency, rfl⟩ := transitionStateIn_eq_ok htransition
        show ((saveCheckpointIn rt signingKey { t with idempotency := idempotency } checkpoint token
          now fits).toOption.getD t).journal = t.journal
        cases hsave : saveCheckpointIn rt signingKey { t with idempotency := idempotency } checkpoint
            token now fits with
        | error e => rfl
        | ok u =>
          obtain ⟨_, -, rfl⟩ := saveCheckpointIn_eq_ok_iff.mp hsave
          rfl
  | statement statement fails =>
    cases h
    cases fails with
    | true => cases statement <;> rfl
    | false =>
      cases statement with
      | append call => exact @appendRecordIn_journal rt anchorKey t call
      | abandon batchId now => rfl
      | setStatus status batchId now =>
        show ((RollbackStatement.execute rt rb (fun _ => false) (.setStatus status batchId now)
          t).toOption.getD t).journal = t.journal
        obtain ⟨-, hwritten⟩ := @setStatus_statement_spec rt rb (fun _ => false) status batchId now t
        cases hset : RollbackStatement.execute rt rb (fun _ => false)
            (.setStatus status batchId now) t with
        | error e => rfl
        | ok u =>
          rw [hwritten u hset]
          rfl

/-- A row that is intact and has the form of a checkpoint. -/
def FormedRow (rt : DigestRuntime) (plain : String → Prop) (row : CheckpointRow) : Prop :=
  IntactRow rt plain row ∧ ∃ v, loads row.checkpointJson = some v ∧ CheckpointForm (ofValue v)

theorem exists_form {v : PyInput} (hinput : IsInput v) (hform : CheckpointForm v) {text : String}
    (htext : dumpsSorted v = .ok text) : ∃ w, loads text = some w ∧ CheckpointForm (ofValue w) := by
  obtain ⟨w, hw, -, -, hloads⟩ := loads_dumpsSorted hinput htext
  exact ⟨w, hloads, hform.ordered hinput hw⟩

variable {plain : String → Prop}

/-- **All writes keep the form.** -/
theorem keptByWrites_formedRow (hset : SetsMembers rb plain) :
    KeptByWrites rt rb (FormedRow rt plain) where
  checkpoint {checkpoint now _} horder htext :=
    ⟨(keptByWrites_intactRow hset).checkpoint horder htext,
      exists_form (checkpoint.isInput_toDict now) (checkpointForm_toDict checkpoint now) htext⟩
  position {row v position tableName now advanced text} horder hrow hv hadvance htext := by
    refine ⟨(keptByWrites_intactRow hset).position horder hrow.1 hv hadvance htext, ?_⟩
    obtain ⟨-, w, hw, hform⟩ := hrow
    obtain rfl : w = v := Option.some.inj (hw.symm.trans hv)
    obtain ⟨hinput, -⟩ := writtenInOrder_advance horder now (isValue_of_loads hv) hadvance
    exact exists_form hinput (checkpointForm_advance hform hadvance) htext
  status {row status text now} hrow hstatus htext := by
    refine ⟨(keptByWrites_intactRow hset).status hrow.1 hstatus htext, ?_⟩
    obtain ⟨⟨hplain, -⟩, v, hv, hform⟩ := hrow
    obtain ⟨items, hitems, hnan, hlookup⟩ := hstatus
    obtain rfl : .dict items = v := Option.some.inj (hitems.symm.trans hv)
    have hafter := hset.sets _ status text items hplain hitems hnan htext
    rw [PyDict.setItem_eq_self hlookup] at hafter
    exact ⟨_, hafter, hform⟩

theorem getLatestCheckpoint_of_formed (h : AllRows (FormedRow rt plain) t) (migrationId : String) :
    ∃ checkpoint, getLatestCheckpoint rt t.checkpoints migrationId = .ok checkpoint := by
  unfold getLatestCheckpoint
  cases hrow : t.checkpoints.get? migrationId with
  | none => exact ⟨none, rfl⟩
  | some row =>
    obtain ⟨⟨-, v, hv, hchecksum⟩, w, hw, hform⟩ := h migrationId row hrow
    obtain rfl : v = w := Option.some.inj (hv.symm.trans hw)
    obtain ⟨checkpoint, hread, -⟩ := readRow_of_form hv hchecksum hform migrationId
    exact ⟨some checkpoint, by simp only [hread]; rfl⟩

/-- The inspector reports whether its own verification accepts the journal. -/
theorem inspectRecoveryState_iff {migrationId : String} {checkpoint : Option ReadCheckpoint}
    (h : getLatestCheckpoint rt t.checkpoints migrationId = .ok checkpoint) :
    (∃ snapshot, inspectRecoveryState rt t migrationId = .ok snapshot ∧
      snapshot.journalIsValid = true) ↔ t.journal.verifyChainIntegrity rt none = .ok true := by
  unfold inspectRecoveryState
  rw [h]
  have hvalid : journalValid rt t = true ↔ t.journal.verifyChainIntegrity rt none = .ok true := by
    unfold journalValid
    cases t.journal.verifyChainIntegrity rt none with
    | error e => simp
    | ok valid => simp
  rw [← hvalid]
  constructor
  · rintro ⟨_, ⟨⟩, hsnapshot⟩
    exact hsnapshot
  · exact fun hsnapshot => ⟨_, rfl, hsnapshot⟩

/-- What the operations keep under the condition. -/
structure Inspectable (rt : DigestRuntime) (anchorKey : List UInt8) (plain : String → Prop)
    (t : DurabilityTables) : Prop where
  rows : AllRows (FormedRow rt plain) t
  journal : JournalRun.WellKept rt anchorKey t.journal
  agrees : t.journal.Agrees rt

theorem Inspectable.inspectorAgrees (h : Inspectable rt anchorKey plain t) :
    InspectorAgrees rt anchorKey t := by
  intro migrationId
  obtain ⟨checkpoint, hread⟩ := getLatestCheckpoint_of_formed h.rows migrationId
  rw [inspectRecoveryState_iff hread]
  exact (JournalTables.sameResult_iff h.journal).mpr h.agrees

/-- A step under the condition. -/
theorem Inspectable.step (hset : SetsMembers rb plain) (h : Inspectable rt anchorKey plain t)
    {action : AuthorityAction} (hkeeps : KeepsInspection rt rb signingKey anchorKey t action)
    (hstep : authorityStep rt rb signingKey anchorKey t action = some t') :
    Inspectable rt anchorKey plain t' := by
  have hrows := h.rows.step (keptByWrites_formedRow hset) hkeeps.1 hstep
  have hjournal := authorityStep_journal hstep
  cases haction : journalAction rt signingKey t action with
  | none =>
    rw [haction, Option.elim_none] at hjournal
    exact ⟨hrows, hjournal ▸ h.journal, hjournal ▸ h.agrees⟩
  | some a =>
    rw [haction, Option.elim_some] at hjournal
    refine ⟨hrows, ?_, ?_⟩
    · rw [hjournal]
      exact JournalTables.WellKept.after h.journal a
    · rw [hjournal]
      exact (JournalTables.agrees_step_iff h.journal h.agrees a).mpr (hkeeps.2 a haction)

/-- **When the inspector reports what the authority finds.**  It does along every run from an empty
database that keeps the checksums of the checkpoints, and in which a chain that is left by an append,
a compaction or a purge starts with number 1 precisely when no anchor is in the way. -/
theorem inspection_agrees (hset : SetsMembers rb plain) (actions : List AuthorityAction)
    (h : MeetsAlong (authorityStep rt rb signingKey anchorKey)
      (KeepsInspection rt rb signingKey anchorKey) .empty actions) :
    HoldsAlong (authorityStep rt rb signingKey anchorKey) (InspectorAgrees rt anchorKey) .empty
      actions := by
  have hempty : Inspectable rt anchorKey plain .empty :=
    ⟨nofun, ⟨List.Pairwise.nil, List.forall_mem_nil _, List.forall_mem_nil _, List.forall_mem_nil _⟩,
      nofun⟩
  have hinspectable := holdsAlong_of_meetsAlong (fun _ _ _ hinspectable hkeeps hstep =>
    Inspectable.step hset hinspectable hkeeps hstep) hempty h
  exact hinspectable.imp fun _ hinspectable => hinspectable.inspectorAgrees

end Steps

/-! ## Journals with a compaction -/

/-- An append of an empty payload. -/
def appendTo (operationId now : String) : AuthorityAction :=
  .call (.appendJournalRecord ⟨operationId, "REPLICATE", .dict [], "m", now, true⟩)

theorem keepsAgreement_of_no_anchors {rt : DigestRuntime} {t : JournalTables} (h : t.anchors = []) :
    (∀ call, t.KeepsAgreement rt (.append call)) ∧ ∀ now, t.KeepsAgreement rt (.compact 1 now) := by
  refine ⟨?_, ?_⟩
  · intro call text _ _ _
    rw [h]
    exact List.forall_mem_nil _
  · intro now row _ hone _
    refine iff_of_true hone ?_
    rintro ⟨a, ha, -⟩
    have hspec := t.newestAnchor_spec
    rw [ha, h] at hspec
    exact absurd hspec.1 (List.not_mem_nil)

/-- A checkpoint is saved, and a record is appended before a compaction that deletes nothing. -/
def compactedFirst : List AuthorityAction :=
  (stagedAfterSave "c").take 2 ++ [appendTo "op1" "2024-01-02", .call (.compactJournal 1 "2024-01-03")]

/-- The inspector agrees there. -/
theorem inspection_agrees_compactedFirst :
    HoldsAlong (authorityStep JournalRun.textRuntime rewritingRuntime [] [])
      (InspectorAgrees JournalRun.textRuntime []) .empty compactedFirst := by
  have hanchors : ∀ k ≤ 3, (run (authorityStep JournalRun.textRuntime rewritingRuntime [] []) .empty
      (compactedFirst.take k)).map (fun t => t.journal.anchors) = some [] := by
    decide +kernel
  refine inspection_agrees setsMembers_rewritingRuntime _ ?_
  intro t₁ h₁
  refine ⟨⟨fun _ _ => ⟨(fun _ h => by cases h), fun _ _ _ _ _ _ h => by cases h⟩, nofun⟩, ?_⟩
  intro t₂ h₂
  refine ⟨⟨fun _ _ => ⟨?_, fun _ _ _ _ _ _ h => by cases h⟩, nofun⟩, ?_⟩
  · rintro _ ⟨⟩
    exact runningCheckpoint_inOrder
  have hrun₂ : run (authorityStep JournalRun.textRuntime rewritingRuntime [] []) .empty
      (compactedFirst.take 2) = some t₂ :=
    run_cons_eq_some.mpr ⟨t₁, h₁, run_cons_eq_some.mpr ⟨t₂, h₂, rfl⟩⟩
  have hnone₂ := hanchors 2 (by decide)
  rw [hrun₂, Option.map_some, Option.some.injEq] at hnone₂
  intro t₃ h₃
  refine ⟨⟨fun _ _ => ⟨(fun _ h => by cases h), fun _ _ _ _ _ _ h => by cases h⟩, ?_⟩, ?_⟩
  · rintro _ ⟨⟩
    exact (keepsAgreement_of_no_anchors hnone₂).1 _
  have hrun₃ : run (authorityStep JournalRun.textRuntime rewritingRuntime [] []) .empty
      (compactedFirst.take 3) = some t₃ :=
    run_cons_eq_some.mpr ⟨t₁, h₁, run_cons_eq_some.mpr ⟨t₂, h₂, run_cons_eq_some.mpr ⟨t₃, h₃, rfl⟩⟩⟩
  have hnone₃ := hanchors 3 le_rfl
  rw [hrun₃, Option.map_some, Option.some.injEq] at hnone₃
  intro t₄ _
  refine ⟨⟨fun _ _ => ⟨(fun _ h => by cases h), fun _ _ _ _ _ _ h => by cases h⟩, ?_⟩, trivial⟩
  rintro _ ⟨⟩
  exact (keepsAgreement_of_no_anchors hnone₃).2 _

/-- Two records and a compaction. -/
def compactedAt (boundary : ℤ) : List AuthorityAction :=
  [appendTo "op1" "2024-01-01", appendTo "op2" "2024-01-02",
    .call (.compactJournal boundary "2024-01-03")]

/-- **A compaction** of a journal that is intact is a mismatch for the inspector. -/
theorem not_agrees_of_compaction :
    ¬ ∀ rt rb plain, SetsMembers rb plain → ∀ signingKey anchorKey actions,
      HoldsAlong (authorityStep rt rb signingKey anchorKey) (InspectorAgrees rt anchorKey) .empty
        actions := by
  intro h
  have hresults : (run (authorityStep JournalRun.textRuntime rewritingRuntime [] []) .empty
      (compactedAt 2)).map (fun t => (verifyJournalIntegrity JournalRun.textRuntime [] t,
        (inspectRecoveryState JournalRun.textRuntime t "m").map (·.journalIsValid))) =
      some (.ok true, .ok false) := by
    decide +kernel
  obtain ⟨t, hrun, hresults⟩ := Option.map_eq_some_iff.mp hresults
  obtain ⟨hverify, hinspect⟩ := Prod.mk.inj hresults
  have hagrees := (h _ _ _ setsMembers_rewritingRuntime [] [] (compactedAt 2)).finish hrun
  obtain ⟨snapshot, hsnapshot, hvalid⟩ := (hagrees "m").mpr hverify
  rw [hsnapshot] at hinspect
  exact absurd (hvalid.symm.trans (Except.ok.inj hinspect)) (by decide)

end Durability

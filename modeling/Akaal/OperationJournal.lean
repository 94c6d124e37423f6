/-
# The operation journal

`OperationJournalStore` of `akaalEngine/durability/journal/store.py` and
`JournalCompactionEngine` of `akaalEngine/durability/journal/compaction.py`: records in a hash chain,
of which a beginning may be deleted when an anchor is written for the rest.

* `verifyRows_iff` : the rows that are accepted are a chain with intact payloads;
* `Consistent.step` : what all operations keep;
* `chain_verified_iff` : the runs in which the chain is always accepted;
* `not_verified_of_reused_numbers` : a journal that starts again behind an anchor.

A clock reads texts of one length; SQLite compares them by characters.
-/
import Akaal.HashChain
import Akaal.SecretFilter
import Akaal.DurableBuffer
import Akaal.TransitionRun

open CDC HashChain JsonText TransitionRun

namespace Durability

/-! ## Records -/

/-- A row of `journal_records`. -/
structure JournalRow where
  operationId : String
  migrationId : String
  sequenceNumber : ℤ
  operationType : String
  payloadJson : String
  payloadHash : String
  parentHash : String
  checksum : String
  createdAt : String
  deriving DecidableEq

/-- A row of `journal_anchors`. -/
structure AnchorRow where
  boundarySequence : ℤ
  anchorParentHash : String
  anchorMac : String
  compactedAt : String
  deriving DecidableEq

/-- The tables of the journal. -/
structure JournalTables where
  records : List JournalRow
  anchors : List AnchorRow

/-- Why a record is not appended. -/
inductive AppendError where
  | prohibitedSecrets
  | notSerializable (exception : DumpsError)
  | quotaExceeded
  | corrupt (text : String)

/-- Why a chain is not accepted. -/
inductive VerifyError where
  | startMismatch (expected found : ℤ)
  | nonContiguous (expected found : ℤ)
  | payloadUnreadable
  | payloadHash (operationId : String)
  | chainBroken (seq : ℤ) (expected found : String)
  | checksum (seq : ℤ)
  | anchorForged (boundary : ℤ)
  deriving DecidableEq

/-- `GENESIS_HASH`. -/
def genesisHash : String := String.ofList (List.replicate 64 '0')

section Digests

variable (rt : DigestRuntime)

/-- `compute_dict_checksum` of a value that was read from JSON; `default=str` is not called for it. -/
def checksumOf (v : PyValue) : Except PyException String := (dumps true v).map rt.sha256Hex

/-- The data of a record that its checksum is computed from. -/
def recordData (seq : ℤ) (operationId operationType payloadHash parentHash createdAt : String) :
    String :=
  intText seq ++ "|" ++ operationId ++ "|" ++ operationType ++ "|" ++ payloadHash ++ "|" ++
    parentHash ++ "|" ++ createdAt

/-- The checksum that a row should have. -/
def JournalRow.computedChecksum (row : JournalRow) : String :=
  rt.sha256Hex (recordData row.sequenceNumber row.operationId row.operationType row.payloadHash
    row.parentHash row.createdAt)

/-- `_compute_anchor_mac`. -/
def computeAnchorMac (anchorKey : List UInt8) (boundarySequence : ℤ)
    (anchorParentHash compactedAt : String) : String :=
  rt.hmacHex anchorKey ("ANCHOR|" ++ intText boundarySequence ++ "|" ++ anchorParentHash ++ "|" ++
    compactedAt)

end Digests

namespace JournalTables

/-! ## Appending -/

section Append

variable (rt : DigestRuntime) (t : JournalTables)

/-- `SELECT … FROM journal_records ORDER BY sequence_number ASC`. -/
def rows : List JournalRow :=
  t.records.insertionSort fun r r' => r.sequenceNumber ≤ r'.sequenceNumber

/-- `get_last_parent_hash`. -/
def getLastParentHash : String := (t.rows.getLast?).elim genesisHash JournalRow.checksum

/-- The number after `MAX(sequence_number)`; 1 for an empty table. -/
def nextSequence : ℤ := (t.rows.getLast?).elim 1 fun row => row.sequenceNumber + 1

/-- The arguments of `append_record`, the time, and whether the quota leaves room. -/
structure AppendCall where
  operationId : String
  operationType : String
  payload : PyInput
  migrationId : String
  now : String
  fits : Bool

/-- The row of a call. -/
def newRow (call : AppendCall) (payloadJson : String) : JournalRow :=
  let payloadHash := rt.sha256Hex payloadJson
  { operationId := call.operationId
    migrationId := call.migrationId
    sequenceNumber := t.nextSequence
    operationType := call.operationType
    payloadJson := payloadJson
    payloadHash := payloadHash
    parentHash := t.getLastParentHash
    checksum := rt.sha256Hex (recordData t.nextSequence call.operationId call.operationType
      payloadHash t.getLastParentHash call.now)
    createdAt := call.now }

/-- `append_record`.  The payload hash is that of `payload_json`: where it is not, `json.dumps` has
raised. -/
def appendRecord (call : AppendCall) : Except AppendError JournalRow × JournalTables :=
  if containsProhibitedSecrets call.payload then (.error .prohibitedSecrets, t)
  else
    match dumpsSorted call.payload with
    | .error exception => (.error (.notSerializable exception), t)
    | .ok payloadJson =>
      if call.fits = false then (.error .quotaExceeded, t)
      else if t.records.any fun row => row.operationId = call.operationId then
        (.error (.corrupt "UNIQUE constraint failed: journal_records.operation_id"), t)
      else
        let row := t.newRow rt call payloadJson
        (.ok row, { t with records := t.records ++ [row] })

end Append

/-! ## Compaction -/

section Compaction

variable (rt : DigestRuntime) (anchorKey : List UInt8) (t : JournalTables)

/-- `_write_anchor_in_tx`. -/
def writeAnchor (boundarySequence : ℤ) (anchorParentHash now : String) : JournalTables :=
  { t with anchors := t.anchors ++ [⟨boundarySequence, anchorParentHash,
      computeAnchorMac rt anchorKey boundarySequence anchorParentHash now, now⟩] }

/-- `compact_journal`: the number of deleted records. -/
def compactJournal (safeSequenceBoundary : ℤ) (now : String) : ℕ × JournalTables :=
  match t.records.find? fun row => row.sequenceNumber = safeSequenceBoundary with
  | none => (0, t)
  | some row =>
    let anchored := t.writeAnchor rt anchorKey safeSequenceBoundary row.parentHash now
    ((t.records.filter fun row => row.sequenceNumber < safeSequenceBoundary).length, { anchored with
        records := t.records.filter fun row => ¬ row.sequenceNumber < safeSequenceBoundary })

/-- The record with the least number among those that are not older than the cutoff. -/
def firstSurvivor (cutoff : String) : Option JournalRow :=
  t.rows.find? fun row => cutoff ≤ row.createdAt

/-- `purge_expired_records`, for the cutoff that is computed from the age. -/
def purgeExpiredRecords (cutoff now : String) : ℕ × JournalTables :=
  let anchored :=
    match t.firstSurvivor cutoff with
    | none => t
    | some row => t.writeAnchor rt anchorKey row.sequenceNumber row.parentHash now
  ((t.records.filter fun row => row.createdAt < cutoff).length,
    { anchored with records := t.records.filter fun row => ¬ row.createdAt < cutoff })

/-- The anchor with the greatest boundary; the oldest when there are several. -/
def newestAnchor : Option AnchorRow :=
  t.anchors.foldl (fun newest a =>
    match newest with
    | none => some a
    | some b => if b.boundarySequence < a.boundarySequence then some a else some b) none

/-- `get_chain_start_parent_hash`. -/
def getChainStartParentHash : Except VerifyError (ℤ × String) :=
  match t.newestAnchor with
  | none => .ok (1, genesisHash)
  | some a =>
    if computeAnchorMac rt anchorKey a.boundarySequence a.anchorParentHash a.compactedAt =
        a.anchorMac then .ok (a.boundarySequence, a.anchorParentHash)
    else .error (.anchorForged a.boundarySequence)

end Compaction

/-! ## Verification -/

section Verification

variable (rt : DigestRuntime) (t : JournalTables)

/-- The check of the payload of a row. -/
def checkPayload (row : JournalRow) : Except VerifyError Unit :=
  match loads row.payloadJson with
  | none => .error .payloadUnreadable
  | some payload =>
    match checksumOf rt payload with
    | .error _ => .error .payloadUnreadable
    | .ok actual =>
      if actual = row.payloadHash then .ok () else .error (.payloadHash row.operationId)

/-- The loop of `verify_chain_integrity`. -/
def verifyRows : ℤ → String → List JournalRow → Except VerifyError Bool
  | _, _, [] => .ok true
  | expectedSeq, expectedParent, row :: rows =>
    if row.sequenceNumber ≠ expectedSeq then
      .error (.nonContiguous expectedSeq row.sequenceNumber)
    else
      match checkPayload rt row with
      | .error e => .error e
      | .ok () =>
        if row.parentHash ≠ expectedParent then
          .error (.chainBroken row.sequenceNumber expectedParent row.parentHash)
        else if row.computedChecksum rt ≠ row.checksum then
          .error (.checksum row.sequenceNumber)
        else verifyRows (expectedSeq + 1) row.checksum rows

/-- `verify_chain_integrity`; there is no key when the store has no compaction engine. -/
def verifyChainIntegrity (anchorKey : Option (List UInt8)) : Except VerifyError Bool :=
  match t.rows with
  | [] => .ok true
  | first :: rest =>
    match anchorKey.elim (.ok (1, genesisHash)) (t.getChainStartParentHash rt ·) with
    | .error e => .error e
    | .ok (expectedStartSeq, expectedParent) =>
      if first.sequenceNumber ≠ expectedStartSeq then
        .error (.startMismatch expectedStartSeq first.sequenceNumber)
      else verifyRows rt first.sequenceNumber expectedParent (first :: rest)

end Verification

/-! ## What verification accepts -/

section Chains

variable (rt : DigestRuntime)

/-- What a checksum covers besides the number and the checksum before. -/
structure RecordBody where
  operationId : String
  operationType : String
  payloadHash : String
  createdAt : String

/-- The checksum of a record. -/
def digest (seq : ℤ) (parent : String) (body : RecordBody) : String :=
  rt.sha256Hex (recordData seq body.operationId body.operationType body.payloadHash parent
    body.createdAt)

/-- A row as a link of a chain. -/
def link (row : JournalRow) : Link RecordBody String where
  seq := row.sequenceNumber
  parent := row.parentHash
  checksum := row.checksum
  body := ⟨row.operationId, row.operationType, row.payloadHash, row.createdAt⟩

/-- The rows are a chain. -/
def Chained (n : ℤ) (p : String) (rows : List JournalRow) : Prop :=
  Valid (digest rt) n p (rows.map link)

/-- A text of a payload whose checksum is found again after reading it. -/
def Reproduced (payloadJson payloadHash : String) : Prop :=
  ∃ v, loads payloadJson = some v ∧ checksumOf rt v = .ok payloadHash

/-- A row with an intact payload. -/
def Intact (row : JournalRow) : Prop := Reproduced rt row.payloadJson row.payloadHash

theorem checkPayload_eq_ok_iff (row : JournalRow) :
    checkPayload rt row = .ok () ↔ Intact rt row := by
  unfold checkPayload Intact Reproduced
  cases loads row.payloadJson with
  | none => simp
  | some payload =>
    dsimp only
    cases hactual : checksumOf rt payload with
    | error e => simp [hactual]
    | ok actual => simp [hactual]

/-- **The rows that are accepted** are a chain with intact payloads. -/
theorem verifyRows_iff (n : ℤ) (p : String) (rows : List JournalRow) :
    verifyRows rt n p rows = .ok true ↔ Chained rt n p rows ∧ ∀ row ∈ rows, Intact rt row := by
  induction rows generalizing n p with
  | nil => simp [verifyRows, Chained, Valid]
  | cons row rows ih =>
    rw [verifyRows, Chained, List.map_cons, Valid, List.forall_mem_cons, ← checkPayload_eq_ok_iff]
    by_cases hseq : row.sequenceNumber = n
    · rw [if_neg (not_not.mpr hseq)]
      cases hpayload : checkPayload rt row with
      | error e => simp
      | ok _ =>
        dsimp only
        by_cases hparent : row.parentHash = p
        · rw [if_neg (not_not.mpr hparent)]
          by_cases hchecksum : row.computedChecksum rt = row.checksum
          · rw [if_neg (not_not.mpr hchecksum), ih, hseq.symm]
            constructor
            · rintro ⟨hchain, hrest⟩
              exact ⟨⟨rfl, hparent, hchecksum.symm, hchain⟩, rfl, hrest⟩
            · rintro ⟨⟨-, -, -, hchain⟩, -, hrest⟩
              exact ⟨hchain, hrest⟩
          · rw [if_pos hchecksum]
            refine iff_of_false (by simp) ?_
            rintro ⟨⟨-, -, hlink, -⟩, -⟩
            exact hchecksum hlink.symm
        · rw [if_pos hparent]
          refine iff_of_false (by simp) ?_
          rintro ⟨⟨-, hlink, -⟩, -⟩
          exact hparent hlink
    · rw [if_pos hseq]
      refine iff_of_false (by simp) ?_
      rintro ⟨⟨hlink, -⟩, -⟩
      exact hseq hlink

/-- Where the chain of a table should start, when its anchors are authentic. -/
def chainStart (t : JournalTables) : ℤ × String :=
  t.newestAnchor.elim (1, genesisHash) fun a => (a.boundarySequence, a.anchorParentHash)

/-- An anchor under its own signature. -/
def Signed (anchorKey : List UInt8) (a : AnchorRow) : Prop :=
  a.anchorMac = computeAnchorMac rt anchorKey a.boundarySequence a.anchorParentHash a.compactedAt

theorem newestAnchor_spec (t : JournalTables) : match t.newestAnchor with
    | none => t.anchors = []
    | some a => a ∈ t.anchors ∧ ∀ b ∈ t.anchors, b.boundarySequence ≤ a.boundarySequence := by
  unfold newestAnchor
  generalize t.anchors = anchors
  induction anchors using List.reverseRecOn with
  | nil => rfl
  | append_singleton anchors a ih =>
    rw [List.foldl_append, List.foldl_cons, List.foldl_nil]
    generalize List.foldl _ none anchors = newest at *
    cases newest with
    | none =>
      rw [ih]
      simp
    | some b =>
      dsimp only at ih ⊢
      split_ifs with hlt
      · refine ⟨by simp, ?_⟩
        simp only [List.mem_append, List.mem_singleton]
        rintro c (hc | rfl)
        · exact (ih.2 c hc).trans hlt.le
        · exact le_rfl
      · refine ⟨by simp [ih.1], ?_⟩
        simp only [List.mem_append, List.mem_singleton]
        rintro c (hc | rfl)
        · exact ih.2 c hc
        · exact not_lt.mp hlt

/-- The newest anchor after one more. -/
theorem newestAnchor_concat (t : JournalTables) (records : List JournalRow) (a : AnchorRow) :
    newestAnchor ⟨records, t.anchors ++ [a]⟩ = match t.newestAnchor with
      | none => some a
      | some b => if b.boundarySequence < a.boundarySequence then some a else some b := by
  unfold newestAnchor
  rw [List.foldl_append]
  rfl

theorem getChainStartParentHash_eq {anchorKey : List UInt8} {t : JournalTables}
    (hsigned : ∀ a ∈ t.anchors, Signed rt anchorKey a) :
    t.getChainStartParentHash rt anchorKey = .ok (chainStart t) := by
  have hspec := t.newestAnchor_spec
  unfold getChainStartParentHash chainStart
  cases hnewest : t.newestAnchor with
  | none => rfl
  | some a =>
    rw [hnewest] at hspec
    exact if_pos (hsigned a hspec.1).symm

/-- **What verification accepts**: an empty table, or a chain with intact payloads that starts where
it should. -/
theorem verifyChainIntegrity_iff (t : JournalTables) {anchorKey : Option (List UInt8)}
    {start : ℤ × String}
    (hstart : anchorKey.elim (.ok (1, genesisHash)) (t.getChainStartParentHash rt ·) = .ok start) :
    t.verifyChainIntegrity rt anchorKey = .ok true ↔
      t.rows = [] ∨ Chained rt start.1 start.2 t.rows ∧ ∀ row ∈ t.rows, Intact rt row := by
  unfold verifyChainIntegrity
  cases hrows : t.rows with
  | nil => simp
  | cons first rest =>
    rw [hstart]
    dsimp only
    by_cases hseq : first.sequenceNumber = start.1
    · rw [if_neg (not_not.mpr hseq), verifyRows_iff, hseq]
      simp
    · rw [if_pos hseq]
      refine iff_of_false (by simp) ?_
      rintro (hnil | ⟨hchain, -⟩)
      · cases hnil
      · exact hseq hchain.start.1

end Chains

section Payloads

variable (rt : DigestRuntime)

theorem reproduced_of_inTextOrder {payload : PyInput} (hpayload : IsInput payload) {text : String}
    (htext : dumpsSorted payload = .ok text) {v : PyValue} (hv : ordered payload = .ok v)
    (horder : InTextOrder v) : Reproduced rt text (rt.sha256Hex text) := by
  obtain ⟨w, hw, hvalue, hdumps, hloads⟩ := loads_dumpsSorted hpayload htext
  obtain rfl : w = v := Except.ok.inj (hw.symm.trans hv)
  refine ⟨w, hloads, ?_⟩
  unfold checksumOf
  rw [(dumps_true_eq_iff hvalue hdumps).mpr horder]
  rfl

end Payloads

end JournalTables

/-! ## Runs -/

/-- A call of a process. -/
inductive JournalAction where
  | append (call : JournalTables.AppendCall)
  | compact (safeSequenceBoundary : ℤ) (now : String)
  | purge (cutoff now : String)

/-- The tables, and the time of the newest record that was ever created. -/
structure JournalRun where
  tables : JournalTables
  clock : String

namespace JournalRun

open JournalTables

/-- The run before the first call. -/
def empty : JournalRun := ⟨⟨[], []⟩, ""⟩

section Runs

variable (rt : DigestRuntime) (anchorKey : List UInt8)

/-- One call; no record is created before the newest one. -/
def step (s : JournalRun) : JournalAction → Option JournalRun
  | .append call =>
    match s.tables.appendRecord rt call with
    | (.error _, tables) => some { s with tables := tables }
    | (.ok row, tables) => if s.clock ≤ row.createdAt then some ⟨tables, row.createdAt⟩ else none
  | .compact safeSequenceBoundary now =>
    some { s with tables := (s.tables.compactJournal rt anchorKey safeSequenceBoundary now).2 }
  | .purge cutoff now =>
    some { s with tables := (s.tables.purgeExpiredRecords rt anchorKey cutoff now).2 }

/-- Verification accepts the chain. -/
def Verified (s : JournalRun) : Prop := s.tables.verifyChainIntegrity rt (some anchorKey) = .ok true

/-- A call that appends a record with this text. -/
structure Admitted (t : JournalTables) (call : AppendCall) (text : String) : Prop where
  secrets : containsProhibitedSecrets call.payload = false
  text : dumpsSorted call.payload = .ok text
  fits : call.fits = true
  fresh : ∀ row ∈ t.records, row.operationId ≠ call.operationId

/-- A call that keeps the chain verified: a record that is appended has a payload whose checksum is
found again, and it is not the first one behind an anchor. -/
def KeepsChain (s : JournalRun) : JournalAction → Prop
  | .append call => ∀ text, Admitted s.tables call text → Reproduced rt text (rt.sha256Hex text) ∧
        (s.tables.records = [] → ∀ a ∈ s.tables.anchors, a.boundarySequence ≤ 1)
  | _ => True

/-- What all calls keep. -/
structure Consistent (s : JournalRun) : Prop where
  sorted : s.tables.records.Pairwise fun r r' => r.sequenceNumber < r'.sequenceNumber
  aged : s.tables.records.Pairwise fun r r' => r.createdAt ≤ r'.createdAt
  clock : ∀ row ∈ s.tables.records, row.createdAt ≤ s.clock
  genesis : ∀ row ∈ s.tables.records,
    1 ≤ row.sequenceNumber ∧ (row.sequenceNumber = 1 → row.parentHash = genesisHash)
  signed : ∀ a ∈ s.tables.anchors, Signed rt anchorKey a
  anchored : ∀ a ∈ s.tables.anchors,
    1 ≤ a.boundarySequence ∧ (a.boundarySequence = 1 → a.anchorParentHash = genesisHash)

theorem consistent_empty : Consistent rt anchorKey empty where
  sorted := List.Pairwise.nil
  aged := List.Pairwise.nil
  clock := List.forall_mem_nil _
  genesis := List.forall_mem_nil _
  signed := List.forall_mem_nil _
  anchored := List.forall_mem_nil _

theorem verified_empty : Verified rt anchorKey empty := rfl

/-- What all calls keep whatever the clock says. -/
structure WellKept (t : JournalTables) : Prop where
  sorted : t.records.Pairwise fun r r' => r.sequenceNumber < r'.sequenceNumber
  genesis : ∀ row ∈ t.records,
    1 ≤ row.sequenceNumber ∧ (row.sequenceNumber = 1 → row.parentHash = genesisHash)
  signed : ∀ a ∈ t.anchors, Signed rt anchorKey a
  anchored : ∀ a ∈ t.anchors,
    1 ≤ a.boundarySequence ∧ (a.boundarySequence = 1 → a.anchorParentHash = genesisHash)

variable {rt anchorKey} {s : JournalRun} {t : JournalTables}

theorem Consistent.wellKept (hs : Consistent rt anchorKey s) : WellKept rt anchorKey s.tables :=
  ⟨hs.sorted, hs.genesis, hs.signed, hs.anchored⟩

theorem WellKept.rows_eq (ht : WellKept rt anchorKey t) : t.rows = t.records :=
  (ht.sorted.imp fun h => h.le).insertionSort_eq

theorem WellKept.verifyChainIntegrity_iff (ht : WellKept rt anchorKey t) :
    t.verifyChainIntegrity rt (some anchorKey) = .ok true ↔ t.records = [] ∨
      Chained rt (chainStart t).1 (chainStart t).2 t.records ∧ ∀ row ∈ t.records, Intact rt row := by
  have hstart : (some anchorKey).elim (.ok (1, genesisHash)) (t.getChainStartParentHash rt ·) =
      .ok (chainStart t) := getChainStartParentHash_eq rt ht.signed
  rw [JournalTables.verifyChainIntegrity_iff rt t hstart, ht.rows_eq]

/-- What verification accepts in a run. -/
theorem Consistent.verified_iff (hs : Consistent rt anchorKey s) :
    Verified rt anchorKey s ↔ s.tables.records = [] ∨
      Chained rt (chainStart s.tables).1 (chainStart s.tables).2 s.tables.records ∧
        ∀ row ∈ s.tables.records, Intact rt row :=
  hs.wellKept.verifyChainIntegrity_iff

theorem WellKept.chainStart_eq_iff (ht : WellKept rt anchorKey t) :
    chainStart t = (1, genesisHash) ↔ ∀ a ∈ t.anchors, a.boundarySequence ≤ 1 := by
  have hspec := t.newestAnchor_spec
  unfold chainStart
  cases hnewest : t.newestAnchor with
  | none =>
    rw [hnewest] at hspec
    rw [hspec]
    exact iff_of_true rfl (List.forall_mem_nil _)
  | some a =>
    rw [hnewest] at hspec
    obtain ⟨hmem, hmax⟩ := hspec
    obtain ⟨hpos, hgenesis⟩ := ht.anchored a hmem
    constructor
    · intro heq b hb
      obtain ⟨hone, -⟩ := Prod.mk.inj heq
      exact hone ▸ hmax b hb
    · intro hall
      have hone : a.boundarySequence = 1 := le_antisymm (hall a hmem) hpos
      exact Prod.ext hone (hgenesis hone)

/-- A record is appended, or nothing happens. -/
theorem appendRecord_cases (t : JournalTables) (call : AppendCall) :
    (∃ e, t.appendRecord rt call = (.error e, t)) ∧ (∀ text, ¬ Admitted t call text) ∨
      ∃ text, Admitted t call text ∧ t.appendRecord rt call =
        (.ok (t.newRow rt call text), { t with records := t.records ++ [t.newRow rt call text] }) := by
  unfold appendRecord
  by_cases hsecret : containsProhibitedSecrets call.payload = true
  · rw [if_pos hsecret]
    refine .inl ⟨⟨_, rfl⟩, fun text h => ?_⟩
    rw [h.secrets] at hsecret
    cases hsecret
  · rw [if_neg hsecret]
    cases htext : dumpsSorted call.payload with
    | error e =>
      refine .inl ⟨⟨_, rfl⟩, fun text h => ?_⟩
      rw [h.text] at htext
      cases htext
    | ok text =>
      dsimp only
      by_cases hfits : call.fits = false
      · rw [if_pos hfits]
        refine .inl ⟨⟨_, rfl⟩, fun text h => ?_⟩
        rw [h.fits] at hfits
        cases hfits
      · rw [if_neg hfits]
        by_cases hused : (t.records.any fun row => row.operationId = call.operationId) = true
        · rw [if_pos hused]
          refine .inl ⟨⟨_, rfl⟩, fun text h => ?_⟩
          obtain ⟨row, hrow, heq⟩ := List.any_eq_true.mp hused
          exact h.fresh row hrow (of_decide_eq_true heq)
        · rw [if_neg hused]
          refine .inr ⟨text, ⟨by simpa using hsecret, htext, by simpa using hfits, ?_⟩, rfl⟩
          simpa using hused

theorem WellKept.newRow_sequenceNumber (ht : WellKept rt anchorKey t) (call : AppendCall)
    (text : String) : (t.newRow rt call text).sequenceNumber =
      (t.records.getLast?).elim 1 fun row => row.sequenceNumber + 1 := by
  rw [← ht.rows_eq]
  rfl

theorem WellKept.newRow_parentHash (ht : WellKept rt anchorKey t) (call : AppendCall)
    (text : String) : (t.newRow rt call text).parentHash =
      (t.records.getLast?).elim genesisHash JournalRow.checksum := by
  rw [← ht.rows_eq]
  rfl

/-- The number of a new record is above all numbers, and its parent is the end of the chain. -/
theorem WellKept.newRow_spec (ht : WellKept rt anchorKey t) (call : AppendCall) (text : String) :
    (∀ row ∈ t.records, row.sequenceNumber < (t.newRow rt call text).sequenceNumber) ∧
    1 ≤ (t.newRow rt call text).sequenceNumber ∧
    ((t.newRow rt call text).sequenceNumber = 1 →
      (t.newRow rt call text).parentHash = genesisHash) := by
  rw [ht.newRow_sequenceNumber, ht.newRow_parentHash]
  have hsorted := ht.sorted
  have hgenesis := ht.genesis
  rcases List.eq_nil_or_concat' t.records with hnil | ⟨rows, last, hconcat⟩
  · rw [hnil]
    exact ⟨List.forall_mem_nil _, le_rfl, fun _ => rfl⟩
  · rw [hconcat] at hsorted hgenesis ⊢
    rw [List.getLast?_concat, Option.elim_some, Option.elim_some]
    obtain ⟨hlast, -⟩ := hgenesis last (by simp)
    refine ⟨fun row hrow => ?_, by omega, fun hone => by omega⟩
    rcases List.mem_append.mp hrow with hrow | hrow
    · have hlt := (List.pairwise_append.mp hsorted).2.2 row hrow last (by simp)
      omega
    · rw [List.mem_singleton.mp hrow]
      omega

theorem WellKept.append (ht : WellKept rt anchorKey t) (call : AppendCall) (text : String) :
    WellKept rt anchorKey { t with records := t.records ++ [t.newRow rt call text] } := by
  obtain ⟨habove, hnew⟩ := ht.newRow_spec call text
  refine ⟨?_, ?_, ht.signed, ht.anchored⟩
  · refine List.pairwise_append.mpr ⟨ht.sorted, List.pairwise_singleton _ _, fun row hrow r hr => ?_⟩
    rw [List.mem_singleton.mp hr]
    exact habove row hrow
  · exact List.forall_mem_append.mpr ⟨ht.genesis, List.forall_mem_singleton.mpr hnew⟩

/-- An appended record keeps the tables consistent. -/
theorem Consistent.append (hs : Consistent rt anchorKey s) (call : AppendCall) (text : String)
    (hclock : s.clock ≤ call.now) :
    Consistent rt anchorKey
      ⟨{ s.tables with records := s.tables.records ++ [s.tables.newRow rt call text] }, call.now⟩ := by
  obtain ⟨hsorted, hgenesis, hsigned, hanchored⟩ := hs.wellKept.append call text
  have hcreated : ∀ row ∈ s.tables.records, row.createdAt ≤ call.now :=
    fun row hrow => (hs.clock row hrow).trans hclock
  refine ⟨hsorted, ?_, ?_, hgenesis, hsigned, hanchored⟩
  · refine List.pairwise_append.mpr ⟨hs.aged, List.pairwise_singleton _ _, fun row hrow r hr => ?_⟩
    rw [List.mem_singleton.mp hr]
    exact hcreated row hrow
  · exact List.forall_mem_append.mpr ⟨hcreated, List.forall_mem_singleton.mpr le_rfl⟩

/-- A chain that is verified stays so under a new record, when the payload of the record is intact and
the record is not the first behind an anchor. -/
theorem Consistent.verified_append (hs : Consistent rt anchorKey s) (hverified : Verified rt anchorKey s)
    (call : AppendCall) (text : String) (hclock : s.clock ≤ call.now) :
    Verified rt anchorKey
        ⟨{ s.tables with records := s.tables.records ++ [s.tables.newRow rt call text] }, call.now⟩ ↔
      Intact rt (s.tables.newRow rt call text) ∧
        (s.tables.records = [] → ∀ a ∈ s.tables.anchors, a.boundarySequence ≤ 1) := by
  rw [(hs.append call text hclock).verified_iff]
  have hstart : chainStart (⟨s.tables.records ++ [s.tables.newRow rt call text],
      s.tables.anchors⟩ : JournalTables) = chainStart s.tables := rfl
  have hchecksum : (s.tables.newRow rt call text).checksum =
      (s.tables.newRow rt call text).computedChecksum rt := rfl
  dsimp only
  rw [hstart, Chained, List.map_append, List.map_singleton, valid_concat_iff,
    List.forall_mem_append, List.forall_mem_singleton, List.length_map]
  show _ ∨ (_ ∧ (s.tables.newRow rt call text).sequenceNumber = _ ∧
    (s.tables.newRow rt call text).parentHash = _ ∧ _) ∧ _ ∧ _ ↔ _
  rw [hs.wellKept.newRow_sequenceNumber, hs.wellKept.newRow_parentHash]
  have hchain := hs.verified_iff.mp hverified
  rcases List.eq_nil_or_concat' s.tables.records with hnil | ⟨rows, last, hconcat⟩
  · rw [← hs.wellKept.chainStart_eq_iff, hnil]
    constructor
    · rintro (hnil | ⟨⟨-, hseq, hparent, -⟩, -, hintact⟩)
      · cases hnil
      · refine ⟨hintact, fun _ => Prod.ext ?_ hparent.symm⟩
        simpa using hseq.symm
    · rintro ⟨hintact, heq⟩
      rw [heq rfl]
      exact .inr ⟨⟨trivial, rfl, rfl, hchecksum⟩, List.forall_mem_nil _, hintact⟩
  · have hne : s.tables.records ≠ [] := by simp [hconcat]
    obtain ⟨hvalid, hintacts⟩ := hchain.resolve_left hne
    rw [Chained, hconcat, List.map_append, List.map_singleton, valid_concat_iff] at hvalid
    have hlast : last.sequenceNumber = (chainStart s.tables).1 + rows.length := by
      simpa [link] using hvalid.2.1
    constructor
    · rintro (hnil | ⟨-, -, hintact⟩)
      · simp at hnil
      · exact ⟨hintact, fun hnil => absurd hnil hne⟩
    · rintro ⟨hintact, -⟩
      refine .inr ⟨⟨?_, ?_, ?_, hchecksum⟩, hintacts, hintact⟩
      · rw [hconcat, List.map_append, List.map_singleton, valid_concat_iff]
        exact hvalid
      · rw [hconcat, List.getLast?_concat, Option.elim_some, hlast, List.length_append,
          List.length_singleton]
        push_cast
        omega
      · rw [hconcat, List.getLast?_concat, Option.elim_some, List.map_append, endHash_append]
        rfl

/-- An anchor for a record whose predecessors are deleted. -/
structure IsCut (rt : DigestRuntime) (anchorKey : List UInt8) (t : JournalTables)
    (xs : List JournalRow) (row : JournalRow) (ys : List JournalRow) (a : AnchorRow) : Prop where
  records : t.records = xs ++ row :: ys
  boundary : a.boundarySequence = row.sequenceNumber
  parent : a.anchorParentHash = row.parentHash
  signed : Signed rt anchorKey a

section Cuts

variable {xs ys : List JournalRow} {row : JournalRow} {a : AnchorRow}

/-- Fewer records, with an anchor for one of those before, are well kept. -/
theorem WellKept.anchor (ht : WellKept rt anchorKey t) {rows : List JournalRow}
    (hsub : rows.Sublist t.records) (hrow : row ∈ t.records)
    (hboundary : a.boundarySequence = row.sequenceNumber) (hparent : a.anchorParentHash = row.parentHash)
    (hsigned : Signed rt anchorKey a) : WellKept rt anchorKey ⟨rows, t.anchors ++ [a]⟩ := by
  refine ⟨ht.sorted.sublist hsub, fun r hr => ht.genesis r (hsub.subset hr), ?_, ?_⟩
  · exact List.forall_mem_append.mpr ⟨ht.signed, List.forall_mem_singleton.mpr hsigned⟩
  · refine List.forall_mem_append.mpr ⟨ht.anchored, List.forall_mem_singleton.mpr ?_⟩
    rw [hboundary, hparent]
    exact ht.genesis row hrow

theorem Consistent.cut (hs : Consistent rt anchorKey s)
    (hcut : IsCut rt anchorKey s.tables xs row ys a) :
    Consistent rt anchorKey ⟨⟨row :: ys, s.tables.anchors ++ [a]⟩, s.clock⟩ := by
  have hsub : (row :: ys).Sublist s.tables.records :=
    hcut.records ▸ List.sublist_append_right xs (row :: ys)
  have hrow : row ∈ s.tables.records := hsub.subset List.mem_cons_self
  obtain ⟨hsorted, hgenesis, hsigned, hanchored⟩ :=
    hs.wellKept.anchor hsub hrow hcut.boundary hcut.parent hcut.signed
  exact ⟨hsorted, hs.aged.sublist hsub, fun r hr => hs.clock r (hsub.subset hr), hgenesis, hsigned,
    hanchored⟩

theorem Consistent.chainStart_cut (hs : Consistent rt anchorKey s)
    (hverified : Verified rt anchorKey s) (hcut : IsCut rt anchorKey s.tables xs row ys a) :
    chainStart ⟨row :: ys, s.tables.anchors ++ [a]⟩ = (row.sequenceNumber, row.parentHash) := by
  have hne : s.tables.records ≠ [] := by simp [hcut.records]
  obtain ⟨hvalid, -⟩ := (hs.verified_iff.mp hverified).resolve_left hne
  rw [Chained, hcut.records] at hvalid
  have ha : (a.boundarySequence, a.anchorParentHash) = (row.sequenceNumber, row.parentHash) := by
    rw [hcut.boundary, hcut.parent]
  unfold chainStart at hvalid ⊢
  rw [newestAnchor_concat]
  cases hnewest : s.tables.newestAnchor with
  | none => exact ha
  | some b =>
    rw [hnewest, Option.elim_some] at hvalid
    dsimp only
    split_ifs with hlt
    · exact ha
    -- the older anchor is at the same record, which is then the first one
    · have hle := hvalid.le_seq (link row) (List.mem_map_of_mem (by simp))
      have hbrow : b.boundarySequence = row.sequenceNumber :=
        le_antisymm hle (hcut.boundary ▸ not_lt.mp hlt)
      cases xs with
      | nil =>
        obtain ⟨hseq, hparent⟩ := hvalid.start
        exact Prod.ext hseq.symm hparent.symm
      | cons x xs =>
        have hlink : x.sequenceNumber = b.boundarySequence := hvalid.start.1
        have hsorted := hs.sorted
        rw [hcut.records, List.cons_append] at hsorted
        have hless := (List.pairwise_cons.mp hsorted).1 row (by simp)
        omega

theorem Consistent.verified_cut (hs : Consistent rt anchorKey s)
    (hverified : Verified rt anchorKey s) (hcut : IsCut rt anchorKey s.tables xs row ys a) :
    Verified rt anchorKey ⟨⟨row :: ys, s.tables.anchors ++ [a]⟩, s.clock⟩ := by
  have hne : s.tables.records ≠ [] := by simp [hcut.records]
  obtain ⟨hvalid, hintact⟩ := (hs.verified_iff.mp hverified).resolve_left hne
  refine (hs.cut hcut).verified_iff.mpr (.inr ⟨?_, fun r hr => hintact r ?_⟩)
  · rw [hs.chainStart_cut hverified hcut]
    rw [Chained, hcut.records, List.map_append, List.map_cons] at hvalid
    exact hvalid.rest
  · rw [hcut.records]
    exact List.mem_append_right _ hr

end Cuts

theorem eq_append_filter {α : Type*} {r : α → α → Prop} {p : α → Bool} {l : List α}
    (hl : l.Pairwise r) (hp : ∀ x y, r x y → p x = true → p y = true) :
    ∃ xs, l = xs ++ l.filter p := by
  induction l with
  | nil => exact ⟨[], rfl⟩
  | cons x l ih =>
    obtain ⟨hx, hrest⟩ := List.pairwise_cons.mp hl
    by_cases hpx : p x = true
    · refine ⟨[], ?_⟩
      rw [List.nil_append, List.filter_eq_self.mpr]
      exact List.forall_mem_cons.mpr ⟨hpx, fun y hy => hp x y (hx y hy) hpx⟩
    · obtain ⟨xs, hxs⟩ := ih hrest
      refine ⟨x :: xs, ?_⟩
      rw [List.filter_cons_of_neg hpx, List.cons_append, ← hxs]

/-- A compaction cuts the chain, or nothing happens. -/
theorem Consistent.compactJournal_cases (hs : Consistent rt anchorKey s) (b : ℤ) (now : String) :
    (s.tables.compactJournal rt anchorKey b now).2 = s.tables ∨
      ∃ xs row ys a, IsCut rt anchorKey s.tables xs row ys a ∧
        (s.tables.compactJournal rt anchorKey b now).2 = ⟨row :: ys, s.tables.anchors ++ [a]⟩ := by
  unfold compactJournal
  cases hfind : s.tables.records.find? fun row => row.sequenceNumber = b with
  | none => exact .inl rfl
  | some row =>
    right
    have hb : row.sequenceNumber = b := by simpa using List.find?_some hfind
    obtain ⟨xs, ys, hrecords⟩ := List.append_of_mem (List.mem_of_find?_eq_some hfind)
    have hfilter : s.tables.records.filter (fun r => ¬ r.sequenceNumber < b) = row :: ys := by
      have hsorted := hs.sorted
      rw [hrecords] at hsorted ⊢
      obtain ⟨-, hrest, hcross⟩ := List.pairwise_append.mp hsorted
      rw [List.filter_append, List.filter_eq_nil_iff.mpr, List.filter_eq_self.mpr, List.nil_append]
      · refine List.forall_mem_cons.mpr ⟨by simp [hb], fun r hr => ?_⟩
        have hlt := (List.pairwise_cons.mp hrest).1 r hr
        simpa [← hb] using hlt.le
      · intro r hr
        have hlt := hcross r hr row List.mem_cons_self
        simpa [← hb] using hlt
    refine ⟨xs, row, ys, ⟨b, row.parentHash, computeAnchorMac rt anchorKey b row.parentHash now,
      now⟩, ⟨hrecords, hb.symm, rfl, rfl⟩, ?_⟩
    rw [← hfilter]
    rfl

/-- A purge cuts the chain, or nothing is left of it. -/
theorem Consistent.purgeExpiredRecords_cases (hs : Consistent rt anchorKey s) (cutoff now : String) :
    (s.tables.purgeExpiredRecords rt anchorKey cutoff now).2 = ⟨[], s.tables.anchors⟩ ∨
      ∃ xs row ys a, IsCut rt anchorKey s.tables xs row ys a ∧
        (s.tables.purgeExpiredRecords rt anchorKey cutoff now).2 =
          ⟨row :: ys, s.tables.anchors ++ [a]⟩ := by
  obtain ⟨xs, hrecords⟩ := eq_append_filter (p := fun row => ¬ row.createdAt < cutoff) hs.aged
    (fun row row' hle hrow => by
      simp only [not_lt, decide_eq_true_eq] at hrow ⊢
      exact hrow.trans hle)
  have hsurvivor : s.tables.firstSurvivor cutoff =
      (s.tables.records.filter fun row => ¬ row.createdAt < cutoff).head? := by
    rw [List.head?_filter, firstSurvivor, hs.wellKept.rows_eq]
    simp only [not_lt]
  unfold purgeExpiredRecords
  rw [hsurvivor]
  cases hleft : s.tables.records.filter fun row => ¬ row.createdAt < cutoff with
  | nil => exact .inl rfl
  | cons row ys =>
    rw [hleft] at hrecords
    exact .inr ⟨xs, row, ys, ⟨row.sequenceNumber, row.parentHash,
      computeAnchorMac rt anchorKey row.sequenceNumber row.parentHash now, now⟩,
      ⟨hrecords, rfl, rfl, rfl⟩, rfl⟩

theorem Consistent.clear (hs : Consistent rt anchorKey s) :
    Consistent rt anchorKey ⟨⟨[], s.tables.anchors⟩, s.clock⟩ ∧
      Verified rt anchorKey ⟨⟨[], s.tables.anchors⟩, s.clock⟩ := by
  have hclear : Consistent rt anchorKey ⟨⟨[], s.tables.anchors⟩, s.clock⟩ :=
    ⟨List.Pairwise.nil, List.Pairwise.nil, List.forall_mem_nil _, List.forall_mem_nil _, hs.signed,
      hs.anchored⟩
  exact ⟨hclear, hclear.verified_iff.mpr (.inl rfl)⟩

/-- **All operations keep the tables consistent.** -/
theorem Consistent.step {s' : JournalRun} {action : JournalAction} (hs : Consistent rt anchorKey s)
    (hstep : step rt anchorKey s action = some s') : Consistent rt anchorKey s' := by
  cases action with
  | append call =>
    rw [JournalRun.step] at hstep
    rcases appendRecord_cases s.tables call with ⟨⟨e, heq⟩, -⟩ | ⟨text, -, heq⟩
    · rw [heq] at hstep
      exact Option.some.inj hstep ▸ hs
    · rw [heq] at hstep
      obtain ⟨hclock, hstep⟩ := Option.ite_none_right_eq_some.mp hstep
      cases hstep
      exact hs.append call text hclock
  | compact b now =>
    cases hstep
    rcases hs.compactJournal_cases b now with heq | ⟨xs, row, ys, a, hcut, heq⟩
    · rw [heq]
      exact hs
    · rw [heq]
      exact hs.cut hcut
  | purge cutoff now =>
    cases hstep
    rcases hs.purgeExpiredRecords_cases cutoff now with heq | ⟨xs, row, ys, a, hcut, heq⟩
    · rw [heq]
      exact hs.clear.1
    · rw [heq]
      exact hs.cut hcut

/-- A call keeps the chain verified precisely when it appends intact payloads only, and none to an
empty journal behind an anchor. -/
theorem verified_step_iff {s' : JournalRun} {action : JournalAction}
    (hs : Consistent rt anchorKey s) (hverified : Verified rt anchorKey s)
    (hstep : step rt anchorKey s action = some s') :
    Verified rt anchorKey s' ↔ KeepsChain rt s action := by
  cases action with
  | append call =>
    rw [JournalRun.step] at hstep
    rw [KeepsChain]
    rcases appendRecord_cases s.tables call with ⟨⟨e, heq⟩, hnone⟩ | ⟨text, hadmitted, heq⟩
    · rw [heq] at hstep
      exact iff_of_true (Option.some.inj hstep ▸ hverified) fun text h => absurd h (hnone text)
    · rw [heq] at hstep
      obtain ⟨hclock, hstep⟩ := Option.ite_none_right_eq_some.mp hstep
      cases hstep
      refine (hs.verified_append hverified call text hclock).trans ?_
      constructor
      · intro hrow text' h
        obtain rfl : text' = text := Except.ok.inj (h.text.symm.trans hadmitted.text)
        exact hrow
      · exact fun h => h text hadmitted
  | compact b now =>
    cases hstep
    refine iff_of_true ?_ trivial
    rcases hs.compactJournal_cases b now with heq | ⟨xs, row, ys, a, hcut, heq⟩
    · rw [heq]
      exact hverified
    · rw [heq]
      exact hs.verified_cut hverified hcut
  | purge cutoff now =>
    cases hstep
    refine iff_of_true ?_ trivial
    rcases hs.purgeExpiredRecords_cases cutoff now with heq | ⟨xs, row, ys, a, hcut, heq⟩
    · rw [heq]
      exact hs.clear.2
    · rw [heq]
      exact hs.verified_cut hverified hcut

/-- **When the chain is always accepted.**  After every call of a run of appends, compactions and
purges the chain is verified precisely when all records have payloads whose checksum is found again
and no record is appended to an empty journal behind an anchor. -/
theorem chain_verified_iff (rt : DigestRuntime) (anchorKey : List UInt8)
    (actions : List JournalAction) :
    HoldsAlong (JournalRun.step rt anchorKey) (Verified rt anchorKey) empty actions ↔
      MeetsAlong (JournalRun.step rt anchorKey) (KeepsChain rt) empty actions :=
  holdsAlong_iff_meetsAlong (I := Consistent rt anchorKey)
    (fun _ _ _ hs hstep => hs.step hstep)
    (fun _ _ _ hs hverified hstep => verified_step_iff hs hverified hstep)
    (consistent_empty rt anchorKey) (verified_empty rt anchorKey) actions

end Runs

/-- Digests that are their texts. -/
def textRuntime : DigestRuntime := ⟨id, fun _ text => text, fun _ => ""⟩

/-- An append of an empty payload. -/
def appendEmpty (operationId now : String) : JournalAction :=
  .append ⟨operationId, "REPLICATE", .dict [], "m1", now, true⟩

/-- Two records, of which the first is compacted away and the second purged, and a third one. -/
def reusedNumbers : List JournalAction :=
  [appendEmpty "op1" "2024-01-01", appendEmpty "op2" "2024-01-02", .compact 2 "2024-01-03",
    .purge "2024-01-03" "2024-02-01", appendEmpty "op3" "2024-02-02"]

/-- **Reused numbers.**  A record that is appended after everything was purged has number 1 again,
while the newest anchor asks for number 2. -/
theorem not_verified_of_reused_numbers : ¬ ∀ rt anchorKey actions,
      HoldsAlong (JournalRun.step rt anchorKey) (Verified rt anchorKey) empty actions := by
  intro h
  have hmismatch : (run (JournalRun.step textRuntime []) empty reusedNumbers).map (fun s =>
      s.tables.verifyChainIntegrity textRuntime (some [])) = some (.error (.startMismatch 2 1)) := by
    decide +kernel
  obtain ⟨s, hrun, herror⟩ := Option.map_eq_some_iff.mp hmismatch
  have hverified : s.tables.verifyChainIntegrity textRuntime (some []) = .ok true :=
    (h textRuntime [] reusedNumbers).finish hrun
  rw [hverified] at herror
  cases herror

end JournalRun

end Durability

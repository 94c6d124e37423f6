/-
# The security audit ledger

`SecurityAuditService` of `akaalPipeline/events/audit.py` over `SQLiteSecurityAuditRepository`: events
are appended to the ledger of their tenant, each with a hash of its own content and of the hash before
it, and `verify_ledger_integrity` walks through the first rows of a tenant.

* `verifyLedgerIntegrity_iff` : verification succeeds precisely when the rows it reads are a chain;
* `raises_iff` : which deletions, insertions and changes make verification raise;
* `not_detectsTampering_of_truncation` : the rows at the end of a ledger can be deleted.

SHA-256 and the normalisation of texts are parameters.
-/
import Akaal.CanonicalFingerprint
import Akaal.HashChain

open CanonicalProfile HashChain JsonText Traversal

namespace SecurityAudit

/-! ## Rows -/

/-- `AuditDecision`. -/
inductive AuditDecision where
  | allow
  | deny
  | mutate
  | loginSuccess
  | loginFailure
  deriving DecidableEq

/-- The text of a decision; the column takes these and no other. -/
def AuditDecision.value : AuditDecision → String
  | .allow => "ALLOW"
  | .deny => "DENY"
  | .mutate => "MUTATE"
  | .loginSuccess => "LOGIN_SUCCESS"
  | .loginFailure => "LOGIN_FAILURE"

/-- What an event says, up to its details. -/
structure AuditFields where
  actorId : String
  actorType : String
  eventType : String
  resourceType : String
  resourceId : String
  action : String
  decision : AuditDecision
  timestamp : String
  deriving DecidableEq

/-- What a row says of an event; the details are kept as JSON. -/
structure AuditBody extends AuditFields where
  details : String
  deriving DecidableEq

/-- A row of `security_audit_ledger`. -/
structure AuditRow where
  auditId : String
  tenantId : String
  sequenceNumber : ℤ
  body : AuditBody
  previousHash : String
  entryHash : String
  signature : Option String
  deriving DecidableEq

/-- The exceptions of the service. -/
inductive AuditException where
  | canonical (e : CanonicalError)
  | notSerializable (e : PyException)
  /-- `sqlite3.IntegrityError`. -/
  | taken (columns : String)
  /-- `json.JSONDecodeError`. -/
  | notJson
  | sequenceGap (found expected : ℤ)
  | chainBreak (sequence : ℤ) (found expected : String)
  | hashMismatch (sequence : ℤ) (stored recomputed : String)
  deriving DecidableEq

/-- The hash before the first entry. -/
def genesisHash : String := "0000000000000000000000000000000000000000000000000000000000000000"

/-- The order of the rows of a tenant. -/
def seqLe (r r' : AuditRow) : Prop := r.sequenceNumber ≤ r'.sequenceNumber

instance : DecidableRel seqLe := fun r r' =>
  inferInstanceAs (Decidable (r.sequenceNumber ≤ r'.sequenceNumber))

instance : Std.Total seqLe := ⟨fun _ _ => le_total _ _⟩

instance : IsTrans AuditRow seqLe := ⟨fun _ _ _ => le_trans⟩

/-- The rows of a tenant. -/
def tenantRows (tenantId : String) (table : List AuditRow) : List AuditRow :=
  table.filter (·.tenantId = tenantId)

/-- The rows of a tenant in the order of their numbers. -/
def ledgerOf (tenantId : String) (table : List AuditRow) : List AuditRow :=
  (tenantRows tenantId table).insertionSort seqLe

/-- `get_latest_sequence_and_hash`. -/
def getLatestSequenceAndHash (tenantId : String) (table : List AuditRow) : ℤ × String :=
  match (ledgerOf tenantId table).getLast? with
  | none => (0, genesisHash)
  | some row => (row.sequenceNumber, row.entryHash)

/-- `append_entry`; the number of a row is taken once for a tenant, and its id once. -/
def appendEntry (row : AuditRow) (table : List AuditRow) : Except AuditException (List AuditRow) :=
  if table.any fun r => r.tenantId = row.tenantId && r.sequenceNumber = row.sequenceNumber then
    .error (.taken "tenant_id, sequence_number")
  else if table.any fun r => r.auditId = row.auditId then .error (.taken "audit_id")
  else .ok (table ++ [row])

/-- A row with its details as they are read. -/
def readEntry (row : AuditRow) : Except AuditException (AuditRow × PyValue) :=
  match loads row.body.details with
  | none => .error .notJson
  | some details => .ok (row, details)

/-- `list_entries`. -/
def listEntries (tenantId : String) (limit : ℕ) (table : List AuditRow) :
    Except AuditException (List (AuditRow × PyValue)) :=
  ((ledgerOf tenantId table).take limit).mapM readEntry

/-! ## The service -/

section Service

-- the hexadecimal digest of SHA-256, and `unicodedata.normalize("NFC", text)`
variable (hash nfc : String → String)

/-- The payload of `_compute_entry_hash`. -/
def payload (sequenceNumber : ℤ) (previousHash : String) (fields : AuditFields) (details : PyValue) :
    PyValue :=
  .dict [("sequence_number", .int sequenceNumber), ("previous_hash", .str previousHash),
    ("actor_id", .str fields.actorId), ("actor_type", .str fields.actorType),
    ("event_type", .str fields.eventType), ("resource_type", .str fields.resourceType),
    ("resource_id", .str fields.resourceId), ("action", .str fields.action),
    ("decision", .str fields.decision.value), ("details", details),
    ("timestamp", .str fields.timestamp)]

/-- `_compute_entry_hash`. -/
def computeEntryHash (sequenceNumber : ℤ) (previousHash : String) (fields : AuditFields)
    (details : PyValue) : Except AuditException String :=
  match canonicalSerialize nfc (payload sequenceNumber previousHash fields details) with
  | .error e => .error (.canonical e)
  | .ok canonicalJson => .ok (hash canonicalJson)

/-- A call of `record_event`, with the id and the time that it draws. -/
structure RecordCall where
  tenantId : String
  fields : AuditFields
  details : Option (List (String × PyValue))
  areDetails : ∀ items ∈ details, IsValue (.dict items)
  signature : Option String
  auditId : String

/-- `details or {}`. -/
def RecordCall.detailsDict (call : RecordCall) : PyValue := .dict (call.details.getD [])

/-- The row that a call appends. -/
def RecordCall.row (call : RecordCall) (sequenceNumber : ℤ) (previousHash entryHash details : String) :
    AuditRow where
  auditId := call.auditId
  tenantId := call.tenantId
  sequenceNumber := sequenceNumber
  body := { call.fields with details := details }
  previousHash := previousHash
  entryHash := entryHash
  signature := call.signature

/-- `record_event`. -/
def recordEvent (call : RecordCall) (table : List AuditRow) : Except AuditException (List AuditRow) := do
  let (lastSeq, lastHash) := getLatestSequenceAndHash call.tenantId table
  let nextSeq := lastSeq + 1
  let entryHash ← computeEntryHash hash nfc nextSeq lastHash call.fields call.detailsDict
  let details ← (dumps false call.detailsDict).mapError .notSerializable
  appendEntry (call.row nextSeq lastHash entryHash details) table

/-- The table after calls, in any order of tenants; one that raises leaves it as it is. -/
def recordAll (calls : List RecordCall) : List AuditRow :=
  calls.foldl (fun table call => (recordEvent hash nfc call table).toOption.getD table) []

/-- The loop of `verify_ledger_integrity`. -/
def verifyEntries : String → ℤ → List (AuditRow × PyValue) → Except AuditException Bool
  | _, _, [] => .ok true
  | expectedPreviousHash, expectedSeq, (entry, details) :: entries =>
    if entry.sequenceNumber ≠ expectedSeq then
      .error (.sequenceGap entry.sequenceNumber expectedSeq)
    else if entry.previousHash ≠ expectedPreviousHash then
      .error (.chainBreak entry.sequenceNumber entry.previousHash expectedPreviousHash)
    else
      match computeEntryHash hash nfc entry.sequenceNumber entry.previousHash
          entry.body.toAuditFields details with
      | .error e => .error e
      | .ok recomputed =>
        if entry.entryHash ≠ recomputed then
          .error (.hashMismatch entry.sequenceNumber entry.entryHash recomputed)
        else verifyEntries entry.entryHash (expectedSeq + 1) entries

/-- The rows that verification reads. -/
def readLimit : ℕ := 100000

/-- `verify_ledger_integrity`. -/
def verifyLedgerIntegrity (tenantId : String) (table : List AuditRow) : Except AuditException Bool := do
  let entries ← listEntries tenantId readLimit table
  verifyEntries hash nfc genesisHash 1 entries

end Service

/-! ## The chain -/

section Chain

variable {hash nfc : String → String}

/-- What is hashed of a row with a number, a hash before it and a body; none when the details are not
JSON or have no canonical text. -/
def bodyText (nfc : String → String) (sequenceNumber : ℤ) (previousHash : String) (body : AuditBody) :
    Option String :=
  (loads body.details).bind fun details =>
    (canonicalSerialize nfc (payload sequenceNumber previousHash body.toAuditFields details)).toOption

/-- The hash of a row. -/
def digest (hash nfc : String → String) (sequenceNumber : ℤ) (previousHash : Option String)
    (body : AuditBody) : Option String :=
  previousHash.bind fun previousHash => (bodyText nfc sequenceNumber previousHash body).map hash

/-- A row as a link of the chain. -/
def AuditRow.link (row : AuditRow) : Link AuditBody (Option String) where
  seq := row.sequenceNumber
  parent := some row.previousHash
  checksum := some row.entryHash
  body := row.body

/-- Rows that are a chain from the first number on. -/
def Chained (hash nfc : String → String) (rows : List AuditRow) : Prop :=
  Valid (digest hash nfc) 1 (some genesisHash) (rows.map AuditRow.link)

/-- The hash of a row is what is computed from its details. -/
theorem digest_of_loads {n : ℤ} {p : String} {body : AuditBody} {details : PyValue}
    (h : loads body.details = some details) :
    digest hash nfc n (some p) body =
      (computeEntryHash hash nfc n p body.toAuditFields details).toOption := by
  rw [digest, Option.bind_some, bodyText, h, Option.bind_some, computeEntryHash]
  cases canonicalSerialize nfc (payload n p body.toAuditFields details) with
  | error e => rfl
  | ok text => rfl

theorem eq_true_of_verifyEntries {entries : List (AuditRow × PyValue)} {p : String} {n : ℤ} {b : Bool}
    (h : verifyEntries hash nfc p n entries = .ok b) : b = true := by
  induction entries generalizing p n with
  | nil => exact (Except.ok.inj h).symm
  | cons entry entries ih =>
    unfold verifyEntries at h
    split_ifs at h
    split at h
    · cases h
    · split_ifs at h
      exact ih h

/-- The loop returns `True` precisely when the entries are a chain. -/
theorem verifyEntries_iff {entries : List (AuditRow × PyValue)}
    (hread : ∀ entry ∈ entries, loads entry.1.body.details = some entry.2) (p : String) (n : ℤ) :
    verifyEntries hash nfc p n entries = .ok true ↔
      Valid (digest hash nfc) n (some p) (entries.map fun entry => entry.1.link) := by
  induction entries generalizing p n with
  | nil => exact iff_of_true rfl trivial
  | cons entry entries ih =>
    obtain ⟨hentry, hentries⟩ := List.forall_mem_cons.mp hread
    obtain ⟨row, details⟩ := entry
    have hdigest : digest hash nfc row.link.seq row.link.parent row.link.body =
        (computeEntryHash hash nfc row.sequenceNumber row.previousHash row.body.toAuditFields
          details).toOption := digest_of_loads hentry
    rw [List.map_cons, Valid, hdigest]
    change verifyEntries hash nfc p n ((row, details) :: entries) = .ok true ↔
      row.sequenceNumber = n ∧ some row.previousHash = some p ∧ some row.entryHash = _ ∧
        Valid _ _ (some row.entryHash) _
    rw [← ih hentries row.entryHash (n + 1)]
    rw [verifyEntries]
    by_cases hseq : row.sequenceNumber = n
    swap
    · simp [hseq]
    by_cases hprevious : row.previousHash = p
    swap
    · rw [if_neg (not_not.mpr hseq), if_pos hprevious]
      simp [hprevious]
    cases hhash : computeEntryHash hash nfc row.sequenceNumber row.previousHash
        row.body.toAuditFields details with
    | error e => simp [hseq, hprevious, Except.toOption]
    | ok recomputed =>
      by_cases hsame : row.entryHash = recomputed
      · simp [hseq, hprevious, hsame, Except.toOption]
      · simp [hseq, hprevious, hsame, Except.toOption]

theorem readEntry_eq_ok_iff {row : AuditRow} {entry : AuditRow × PyValue} :
    readEntry row = .ok entry ↔ entry.1 = row ∧ loads row.body.details = some entry.2 := by
  obtain ⟨row', details⟩ := entry
  rw [readEntry]
  cases loads row.body.details with
  | none => simp
  | some details' => simp [eq_comm]

/-- **Verification** succeeds precisely when the rows that it reads are a chain. -/
theorem verifyLedgerIntegrity_iff (tenantId : String) (table : List AuditRow) :
    verifyLedgerIntegrity hash nfc tenantId table = .ok true ↔
      Chained hash nfc ((ledgerOf tenantId table).take readLimit) := by
  rw [verifyLedgerIntegrity, listEntries, Chained]
  generalize (ledgerOf tenantId table).take readLimit = rows
  by_cases hloads : ∀ row ∈ rows, ∃ entry, readEntry row = .ok entry
  · obtain ⟨entries, hentries⟩ := exists_mapM_eq_ok hloads
    have hrows := mapM_eq_ok_iff.mp hentries
    have hread : ∀ entry ∈ entries, loads entry.1.body.details = some entry.2 := by
      intro entry hentry
      obtain ⟨row, -, hrow⟩ := exists_of_forall₂' hrows hentry
      obtain ⟨rfl, hdetails⟩ := readEntry_eq_ok_iff.mp hrow
      exact hdetails
    have hmap : entries.map (fun entry => entry.1.link) = rows.map AuditRow.link := by
      clear hread hentries hloads
      induction hrows with
      | nil => rfl
      | cons hrow _ ih => rw [List.map_cons, List.map_cons, ih, (readEntry_eq_ok_iff.mp hrow).1]
    rw [hentries, ← hmap]
    exact verifyEntries_iff hread genesisHash 1
  · push Not at hloads
    obtain ⟨row, hrow, hfails⟩ := hloads
    have hnone : loads row.body.details = none := by
      cases hdetails : loads row.body.details with
      | none => rfl
      | some details =>
        have hread : readEntry row = .ok (row, details) := readEntry_eq_ok_iff.mpr ⟨rfl, hdetails⟩
        exact absurd hread (hfails (row, details))
    refine iff_of_false (fun h => ?_) fun h => ?_
    · obtain ⟨entries, hentries, -⟩ := bind_eq_ok_iff.mp h
      obtain ⟨entry, -, hentry⟩ := exists_of_forall₂ (mapM_eq_ok_iff.mp hentries) hrow
      exact hfails entry hentry
    · have hchecksum := h.checksum_eq (List.mem_map_of_mem hrow)
      rw [AuditRow.link, digest, Option.bind_some, bodyText, hnone] at hchecksum
      cases hchecksum

/-! ## What is recorded -/

/-- The rows of every tenant are a chain. -/
def Recorded (hash nfc : String → String) (table : List AuditRow) : Prop :=
  ∀ tenantId, Chained hash nfc (tenantRows tenantId table)

variable {table : List AuditRow} {tenantId : String}

theorem ledgerOf_of_chained (h : Chained hash nfc (tenantRows tenantId table)) :
    ledgerOf tenantId table = tenantRows tenantId table := by
  have hsorted := List.pairwise_map.mp h.pairwise_seq
  exact (hsorted.imp fun hlt => hlt.le).insertionSort_eq

/-- The latest row of a chain has the number and the hash at its end. -/
theorem getLatestSequenceAndHash_of_chained (h : Chained hash nfc (tenantRows tenantId table)) :
    (getLatestSequenceAndHash tenantId table).1 = (tenantRows tenantId table).length ∧
      some (getLatestSequenceAndHash tenantId table).2 =
        endHash (some genesisHash) ((tenantRows tenantId table).map AuditRow.link) := by
  rw [getLatestSequenceAndHash, ledgerOf_of_chained h]
  rcases List.eq_nil_or_concat (tenantRows tenantId table) with hnil | ⟨rows, row, hrows⟩
  · rw [hnil]
    exact ⟨rfl, rfl⟩
  · rw [List.concat_eq_append] at hrows
    rw [Chained, hrows, List.map_append] at h
    obtain ⟨-, hseq, -⟩ := valid_concat_iff.mp h
    rw [hrows, List.getLast?_concat, List.map_append, endHash_append]
    refine ⟨?_, rfl⟩
    rw [List.length_map] at hseq
    change row.sequenceNumber = _
    rw [show row.sequenceNumber = 1 + rows.length from hseq, List.length_append, List.length_singleton]
    push_cast
    ring

theorem tenantRows_append (tenantId : String) (table added : List AuditRow) :
    tenantRows tenantId (table ++ added) = tenantRows tenantId table ++ tenantRows tenantId added :=
  List.filter_append _ _

/-- What a call appends: the next link of its tenant's chain. -/
theorem recordEvent_spec {call : RecordCall} {table' : List AuditRow}
    (h : recordEvent hash nfc call table = .ok table') :
    ∃ row, table' = table ++ [row] ∧ row.tenantId = call.tenantId ∧
      row.sequenceNumber = (getLatestSequenceAndHash call.tenantId table).1 + 1 ∧
      row.previousHash = (getLatestSequenceAndHash call.tenantId table).2 ∧
      row.link.checksum = digest hash nfc row.link.seq row.link.parent row.link.body := by
  obtain ⟨entryHash, hhash, h⟩ := bind_eq_ok_iff.mp h
  obtain ⟨details, hdumps, h⟩ := bind_eq_ok_iff.mp h
  have htext : dumps false call.detailsDict = .ok details := by
    cases hd : dumps false call.detailsDict with
    | error e =>
      rw [hd] at hdumps
      cases hdumps
    | ok text =>
      rw [hd] at hdumps
      exact congrArg Except.ok (Except.ok.inj hdumps)
  have hvalue : IsValue call.detailsDict := by
    rw [RecordCall.detailsDict]
    cases hcall : call.details with
    | none => exact ⟨List.nodup_nil, trivial⟩
    | some items => exact call.areDetails items hcall
  rw [appendEntry] at h
  split_ifs at h
  refine ⟨_, (Except.ok.inj h).symm, rfl, rfl, rfl, ?_⟩
  refine Eq.symm ((digest_of_loads (loads_dumps hvalue htext)).trans ?_)
  exact congrArg Except.toOption hhash

/-- **Recording** keeps the chain of every tenant. -/
theorem recorded_recordEvent {call : RecordCall} {table' : List AuditRow}
    (hrecorded : Recorded hash nfc table) (h : recordEvent hash nfc call table = .ok table') :
    Recorded hash nfc table' := by
  obtain ⟨row, rfl, htenant, hseq, hprevious, hchecksum⟩ := recordEvent_spec h
  intro tenantId
  rw [tenantRows_append]
  by_cases hsame : row.tenantId = tenantId
  · have hrow : tenantRows tenantId [row] = [row] := by simp [tenantRows, hsame]
    obtain ⟨hlength, hend⟩ := getLatestSequenceAndHash_of_chained (hrecorded tenantId)
    rw [hrow, Chained, List.map_append]
    refine valid_concat_iff.mpr ⟨hrecorded tenantId, ?_, ?_, hchecksum⟩
    · rw [List.length_map, ← hlength, ← hsame, htenant, add_comm]
      exact hseq
    · rw [← hend, ← hsame, htenant]
      exact congrArg some hprevious
  · have hrow : tenantRows tenantId [row] = [] := by simp [tenantRows, hsame]
    rw [hrow, List.append_nil]
    exact hrecorded tenantId

/-- **Whatever is recorded**, the rows of every tenant are a chain. -/
theorem recorded_recordAll (hash nfc : String → String) (calls : List RecordCall) :
    Recorded hash nfc (recordAll hash nfc calls) := by
  have hrun : ∀ table, Recorded hash nfc table → Recorded hash nfc
      (calls.foldl (fun table call => (recordEvent hash nfc call table).toOption.getD table) table) := by
    induction calls with
    | nil => exact fun _ h => h
    | cons call calls ih =>
      intro table h
      refine ih _ ?_
      dsimp only
      cases hcall : recordEvent hash nfc call table with
      | error e => exact h
      | ok table' => exact recorded_recordEvent h hcall
  exact hrun [] fun _ => trivial

/-! ## Tampering -/

/-- What is done to a table behind the service. -/
inductive Tampering where
  /-- Rows are deleted; those are left that are kept. -/
  | delete (keep : AuditRow → Bool)
  /-- Rows are inserted, one after the other; the table refuses those whose number or id is taken. -/
  | insert (rows : List AuditRow)
  /-- The actor, event, resource, action, decision, details or timestamp of rows are changed. -/
  | change (body : AuditRow → AuditBody)

/-- The rows that a table accepts. -/
def acceptedRows (table : List AuditRow) : List AuditRow → List AuditRow
  | [] => []
  | row :: rows =>
    match appendEntry row table with
    | .error _ => acceptedRows table rows
    | .ok table' => row :: acceptedRows table' rows

/-- A table after it was tampered with. -/
def Tampering.apply (table : List AuditRow) : Tampering → List AuditRow
  | .delete keep => table.filter keep
  | .insert rows => table ++ acceptedRows table rows
  | .change body => table.map fun row => { row with body := body row }

/-- A tampering that deletes, inserts or changes a row of a tenant. -/
def Tampering.Alters (tenantId : String) (table : List AuditRow) : Tampering → Prop
  | .delete keep => ∃ row ∈ tenantRows tenantId table, keep row = false
  | .insert rows => tenantRows tenantId (acceptedRows table rows) ≠ []
  | .change body => ∃ row ∈ tenantRows tenantId table, body row ≠ row.body

/-- What verification notices of a tampering with the ledger of a tenant: a deleted row within the read
limit that a row was kept after; an inserted row that comes before the first one, or one within the read
limit that does not continue the chain; a changed row within the read limit with another text, or
none. -/
def Tampering.Noticed (hash nfc : String → String) (tenantId : String) (table : List AuditRow) :
    Tampering → Prop
  | .delete keep =>
    ∃ row ∈ tenantRows tenantId table, keep row = false ∧ row.sequenceNumber ≤ readLimit ∧
      ∃ later ∈ tenantRows tenantId table, keep later ∧ row.sequenceNumber < later.sequenceNumber
  | .insert rows =>
    let ledger := ledgerOf tenantId table
    let added := ledgerOf tenantId (acceptedRows table rows)
    (∃ row ∈ added, row.sequenceNumber ≤ 0) ∨ ¬ Valid (digest hash nfc) (1 + ledger.length)
        (endHash (some genesisHash) (ledger.map AuditRow.link))
        ((added.take (readLimit - ledger.length)).map AuditRow.link)
  | .change body =>
    ∃ row ∈ (ledgerOf tenantId table).take readLimit,
      bodyText nfc row.sequenceNumber row.previousHash (body row) ≠
        bodyText nfc row.sequenceNumber row.previousHash row.body

/-- A call raises. -/
def Raises {α : Type*} (result : Except AuditException α) : Prop := ∃ e, result = .error e

theorem raises_verify_iff : Raises (verifyLedgerIntegrity hash nfc tenantId table) ↔
      ¬ Chained hash nfc ((ledgerOf tenantId table).take readLimit) := by
  rw [← verifyLedgerIntegrity_iff]
  cases h : verifyLedgerIntegrity hash nfc tenantId table with
  | error e => exact iff_of_true ⟨e, rfl⟩ fun h => by cases h
  | ok b =>
    obtain ⟨entries, -, hentries⟩ := bind_eq_ok_iff.mp h
    rw [eq_true_of_verifyEntries hentries]
    exact iff_of_false (fun h => by cases h.choose_spec) fun h => h rfl

theorem tenantRows_filter (tenantId : String) (table : List AuditRow) (keep : AuditRow → Bool) :
    tenantRows tenantId (table.filter keep) = (tenantRows tenantId table).filter keep :=
  List.filter_comm _ _ _

theorem tenantRows_map (tenantId : String) (table : List AuditRow) (body : AuditRow → AuditBody) :
    tenantRows tenantId (table.map fun row => { row with body := body row }) =
      (tenantRows tenantId table).map fun row => { row with body := body row } := by
  rw [tenantRows, tenantRows, List.filter_map]
  rfl

/-- **Deletions** are noticed within the read limit when a later row is left. -/
theorem raises_delete_iff
    (h : Chained hash nfc (tenantRows tenantId table)) (keep : AuditRow → Bool) :
    Raises (verifyLedgerIntegrity hash nfc tenantId (table.filter keep)) ↔
      (Tampering.delete keep).Noticed hash nfc tenantId table := by
  have hsorted := List.pairwise_map.mp h.pairwise_seq
  have hledger : ledgerOf tenantId (table.filter keep) = (tenantRows tenantId table).filter keep := by
    rw [ledgerOf, tenantRows_filter]
    exact ((hsorted.filter keep).imp fun hlt => hlt.le).insertionSort_eq
  rw [raises_verify_iff, hledger, Chained, valid_take_filter_iff keep readLimit h]
  push Not
  constructor
  · rintro ⟨row, hrow, hremoved, hlt, hlater⟩
    have hle : row.sequenceNumber < 1 + (readLimit : ℤ) := hlt
    exact ⟨row, hrow, hremoved, by omega, hlater⟩
  · rintro ⟨row, hrow, hremoved, hle, hlater⟩
    have hlt : row.sequenceNumber < 1 + (readLimit : ℤ) := by omega
    exact ⟨row, hrow, hremoved, hlt, hlater⟩

theorem sequenceNumber_ne_of_accepted {rows : List AuditRow} {row : AuditRow}
    (h : row ∈ acceptedRows table rows) {r : AuditRow} (hr : r ∈ table)
    (htenant : r.tenantId = row.tenantId) : r.sequenceNumber ≠ row.sequenceNumber := by
  induction rows generalizing table with
  | nil => cases h
  | cons first rows ih =>
    rw [acceptedRows] at h
    cases happend : appendEntry first table with
    | error e =>
      rw [happend] at h
      exact ih h hr
    | ok table' =>
      rw [happend] at h
      rw [appendEntry] at happend
      split_ifs at happend with hfree
      obtain rfl := Except.ok.inj happend
      rcases List.mem_cons.mp h with rfl | h
      · intro hseq
        exact hfree (List.any_eq_true.mpr ⟨r, hr, by simp [htenant, hseq]⟩)
      · exact ih h (List.mem_append_left _ hr)

theorem insertionSort_append {rows added : List AuditRow} (hsorted : rows.Pairwise seqLe)
    (hle : ∀ row ∈ rows, ∀ r ∈ added, seqLe row r) :
    (rows ++ added).insertionSort seqLe = rows ++ added.insertionSort seqLe := by
  induction rows with
  | nil => rfl
  | cons row rows ih =>
    obtain ⟨hrow, hrows⟩ := List.pairwise_cons.mp hsorted
    obtain ⟨hfirst, hrest⟩ := List.forall_mem_cons.mp hle
    rw [List.cons_append, List.insertionSort_cons_of_forall_rel seqLe, ih hrows hrest,
      List.cons_append]
    intro r hr
    exact (List.mem_append.mp hr).elim (hrow r) (hfirst r)

/-- **Insertions** are noticed before the first row, and where they do not continue the chain. -/
theorem raises_insert_iff
    (h : Chained hash nfc (tenantRows tenantId table)) (rows : List AuditRow) :
    Raises (verifyLedgerIntegrity hash nfc tenantId (table ++ acceptedRows table rows)) ↔
      (Tampering.insert rows).Noticed hash nfc tenantId table := by
  have hsorted := List.pairwise_map.mp h.pairwise_seq
  have hmem : ∀ row, row ∈ ledgerOf tenantId (acceptedRows table rows) ↔
      row ∈ tenantRows tenantId (acceptedRows table rows) := fun row =>
    List.mem_insertionSort seqLe
  rw [raises_verify_iff, Tampering.Noticed, ledgerOf_of_chained h]
  by_cases hbefore : ∃ row ∈ ledgerOf tenantId (acceptedRows table rows), row.sequenceNumber ≤ 0
  · refine iff_of_true (fun hchained => ?_) (Or.inl hbefore)
    obtain ⟨row, hrow, hle⟩ := hbefore
    have hall : row ∈ ledgerOf tenantId (table ++ acceptedRows table rows) := by
      refine (List.mem_insertionSort seqLe).mpr ?_
      rw [tenantRows_append]
      exact List.mem_append_right _ ((hmem row).mp hrow)
    have hpairwise : (ledgerOf tenantId (table ++ acceptedRows table rows)).Pairwise seqLe :=
      List.pairwise_insertionSort seqLe _
    -- the first row that is read has the least number
    cases hfirst : ledgerOf tenantId (table ++ acceptedRows table rows) with
    | nil =>
      rw [hfirst] at hall
      cases hall
    | cons first others =>
      rw [hfirst] at hall hpairwise hchained
      have hone : first.sequenceNumber = 1 := hchained.1
      rcases List.mem_cons.mp hall with rfl | hothers
      · omega
      · have hlt : first.sequenceNumber ≤ row.sequenceNumber :=
          (List.pairwise_cons.mp hpairwise).1 row hothers
        omega
  · push Not at hbefore
    have hafter : ∀ row ∈ tenantRows tenantId table,
        ∀ r ∈ tenantRows tenantId (acceptedRows table rows), seqLe row r := by
      intro row hrow r hr
      by_contra hnot
      have hlt := h.seq_lt row.link (List.mem_map_of_mem hrow)
      rw [List.length_map] at hlt
      have hpos := hbefore r ((hmem r).mpr hr)
      have hless : r.sequenceNumber < row.sequenceNumber := not_le.mp hnot
      have hbound : row.sequenceNumber < 1 + (tenantRows tenantId table).length := hlt
      obtain ⟨l, hl, hseq⟩ := h.exists_seq (k := r.sequenceNumber) (by omega)
        (by rw [List.length_map]; omega)
      obtain ⟨taken, htaken, rfl⟩ := List.mem_map.mp hl
      obtain ⟨htable, htenant⟩ := List.mem_filter.mp htaken
      obtain ⟨haccepted, htenant'⟩ := List.mem_filter.mp hr
      have hsame : taken.tenantId = r.tenantId :=
        (of_decide_eq_true htenant).trans (of_decide_eq_true htenant').symm
      exact sequenceNumber_ne_of_accepted haccepted htable hsame hseq
    have hledger : ledgerOf tenantId (table ++ acceptedRows table rows) =
        tenantRows tenantId table ++ ledgerOf tenantId (acceptedRows table rows) := by
      rw [ledgerOf, tenantRows_append]
      exact insertionSort_append (hsorted.imp fun hlt => hlt.le) hafter
    rw [hledger, Chained, List.take_append, List.map_append, valid_append_iff,
      or_iff_right (fun ⟨row, hrow, hle⟩ => absurd hle (not_le.mpr (hbefore row hrow)))]
    have hread : Chained hash nfc ((tenantRows tenantId table).take readLimit) := by
      rw [Chained, List.map_take]
      exact h.take readLimit
    rw [Chained] at hread
    rw [and_iff_right hread]
    -- beyond the limit nothing that is added is read
    rcases le_or_gt (tenantRows tenantId table).length readLimit with hle | hlt
    · rw [List.take_of_length_le hle, List.length_map]
    · rw [Nat.sub_eq_zero_of_le hlt.le]
      exact not_congr (iff_of_true trivial trivial)

/-- **Changes** are noticed within the read limit when the text that is hashed is another one. -/
theorem raises_change_iff (hhash : Function.Injective hash)
    (h : Chained hash nfc (tenantRows tenantId table)) (body : AuditRow → AuditBody) :
    Raises (verifyLedgerIntegrity hash nfc tenantId
        (table.map fun row => { row with body := body row })) ↔
      (Tampering.change body).Noticed hash nfc tenantId table := by
  have hsorted := List.pairwise_map.mp h.pairwise_seq
  have hledger : ledgerOf tenantId (table.map fun row => { row with body := body row }) =
      (tenantRows tenantId table).map fun row => { row with body := body row } := by
    rw [ledgerOf, tenantRows_map]
    have hpairwise : ((tenantRows tenantId table).map fun row =>
        { row with body := body row }).Pairwise seqLe :=
      List.pairwise_map.mpr (hsorted.imp fun hlt => hlt.le)
    exact hpairwise.insertionSort_eq
  have htake : Chained hash nfc ((tenantRows tenantId table).take readLimit) := by
    rw [Chained, List.map_take]
    exact h.take readLimit
  have hiff := valid_map_body_iff body htake
  rw [raises_verify_iff, hledger, ← List.map_take, Chained, List.map_map, Tampering.Noticed,
    ledgerOf_of_chained h]
  refine (not_congr hiff).trans ?_
  push Not
  refine exists_congr fun row => and_congr_right fun _ => not_congr ?_
  exact (Option.map_injective hhash).eq_iff

/-- The security audit keeps its promise for recorded calls and a tenant: verification returns `True`,
and raises on the ledger after any tampering. -/
def DetectsTampering (hash nfc : String → String) (calls : List RecordCall) (tenantId : String) : Prop :=
  verifyLedgerIntegrity hash nfc tenantId (recordAll hash nfc calls) = .ok true ∧
    ∀ t : Tampering, t.Alters tenantId (recordAll hash nfc calls) →
      Raises (verifyLedgerIntegrity hash nfc tenantId (t.apply (recordAll hash nfc calls)))

/-- A permitted action without details. -/
def sampleCall : RecordCall where
  tenantId := "acme"
  fields :=
    { actorId := "alice", actorType := "USER", eventType := "ACCESS", resourceType := "PIPELINE",
      resourceId := "p1", action := "RUN", decision := .allow,
      timestamp := "2024-01-01T00:00:00+00:00" }
  details := none
  areDetails := fun _ h => nomatch h
  signature := none
  auditId := "aud-1"

theorem recordAll_sampleCall :
    ∃ row, recordAll id id [sampleCall] = [row] ∧ row.tenantId = sampleCall.tenantId := by
  have hsafe : JsonSafe (payload 1 genesisHash sampleCall.fields sampleCall.detailsDict) :=
    ⟨by decide, by simp [ItemsJsonSafe, JsonSafe, sampleCall, RecordCall.detailsDict]⟩
  have hdistinct : KeysDistinct id (payload 1 genesisHash sampleCall.fields sampleCall.detailsDict) :=
    ⟨by decide, by simp [ItemsKeysDistinct, KeysDistinct, sampleCall, RecordCall.detailsDict]⟩
  have hhash : ∃ entryHash, computeEntryHash id id 1 genesisHash sampleCall.fields
      sampleCall.detailsDict = .ok entryHash := by
    rw [computeEntryHash, canonicalSerialize_eq hsafe hdistinct]
    exact ⟨_, rfl⟩
  obtain ⟨entryHash, hentry⟩ := hhash
  have hrecord : recordEvent id id sampleCall [] =
      .ok [sampleCall.row 1 genesisHash entryHash "\x7b\x7d"] := by
    refine bind_eq_ok_iff.mpr ⟨entryHash, hentry, bind_eq_ok_iff.mpr ⟨"\x7b\x7d", rfl, rfl⟩⟩
  refine ⟨sampleCall.row 1 genesisHash entryHash "\x7b\x7d", ?_, rfl⟩
  rw [recordAll, List.foldl_cons, hrecord]
  rfl

/-- The row at the end of a ledger is deleted, and verification returns `True`. -/
theorem not_detectsTampering_of_truncation :
    Function.Injective (id : String → String) ∧ ¬ DetectsTampering id id [sampleCall] "acme" := by
  refine ⟨Function.injective_id, fun h => ?_⟩
  obtain ⟨row, hledger, htenant⟩ := recordAll_sampleCall
  have halters : (Tampering.delete fun _ => false).Alters "acme" (recordAll id id [sampleCall]) := by
    refine ⟨row, ?_, rfl⟩
    rw [hledger]
    exact List.mem_filter.mpr ⟨List.mem_singleton_self row, decide_eq_true htenant⟩
  obtain ⟨e, he⟩ := h.2 _ halters
  have hempty : (Tampering.delete fun _ => false).apply (recordAll id id [sampleCall]) = [] :=
    List.filter_false _
  rw [hempty] at he
  cases he
/-- **The audit ledger.**  Verification returns `True` whatever has been recorded, and raises after a
tampering precisely when it is one that is noticed. -/
theorem raises_iff (hash nfc : String → String) (hhash : Function.Injective hash)
    (calls : List RecordCall) (tenantId : String) :
    verifyLedgerIntegrity hash nfc tenantId (recordAll hash nfc calls) = .ok true ∧ ∀ t : Tampering,
        Raises (verifyLedgerIntegrity hash nfc tenantId (t.apply (recordAll hash nfc calls))) ↔
          t.Noticed hash nfc tenantId (recordAll hash nfc calls) := by
  have hchained := recorded_recordAll hash nfc calls tenantId
  refine ⟨(verifyLedgerIntegrity_iff tenantId _).mpr ?_, fun t => ?_⟩
  · rw [ledgerOf_of_chained hchained, Chained, List.map_take]
    exact hchained.take readLimit
  · cases t with
    | delete keep => exact raises_delete_iff hchained keep
    | insert rows => exact raises_insert_iff hchained rows
    | change body => exact raises_change_iff hhash hchained body

/-- A hash that tells all texts apart, and the ledger of one call from which the row is deleted. -/
theorem raises_sample : Raises (verifyLedgerIntegrity id id "acme"
        ((Tampering.delete fun _ => false).apply (recordAll id id [sampleCall]))) ↔
      (Tampering.delete fun _ => false).Noticed id id "acme" (recordAll id id [sampleCall]) :=
  (raises_iff id id Function.injective_id [sampleCall] "acme").2 _

end Chain

end SecurityAudit

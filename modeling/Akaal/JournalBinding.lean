/-
# What the last checksum of a journal binds

`verify_chain_integrity` of `akaalEngine/durability/journal/store.py`: the record data of a checksum
are its fields joined by a bar, and the migration of a record is not among them.

* `recordData_inj` : the data determine the fields when the bars in two of them are counted;
* `sameRecords_iff` : which of two verified journals with one last checksum are the same;
* `not_bound` : two that are not.
-/
import Akaal.OperationJournal

open CDC HashChain JsonText FramedBytes DelimitedText

namespace Durability

/-! ## Fields joined by bars -/

/-- The characters of the data of a record. -/
theorem toList_recordData (seq : ℤ)
    (operationId operationType payloadHash parentHash createdAt : String) :
    (recordData seq operationId operationType payloadHash parentHash createdAt).toList =
      (intText seq).toList ++ '|' :: (operationId.toList ++ '|' :: (operationType.toList ++
        '|' :: (payloadHash.toList ++ '|' :: (parentHash.toList ++ '|' :: createdAt.toList)))) := by
  simp [recordData]

/-- **Fields joined by bars** are determined when two records have equally many bars in each field
but the last. -/
theorem recordData_inj {seq seq' : ℤ}
    {operationId operationType payloadHash parentHash createdAt : String}
    {operationId' operationType' payloadHash' parentHash' createdAt' : String}
    (hid : bars operationId = bars operationId') (htype : bars operationType = bars operationType')
    (hpayload : bars payloadHash = bars payloadHash') (hparent : bars parentHash = bars parentHash')
    (h : recordData seq operationId operationType payloadHash parentHash createdAt =
      recordData seq' operationId' operationType' payloadHash' parentHash' createdAt') :
    seq = seq' ∧ operationId = operationId' ∧ operationType = operationType' ∧
      payloadHash = payloadHash' ∧ parentHash = parentHash' ∧ createdAt = createdAt' := by
  have hlist := congrArg String.toList h
  rw [toList_recordData, toList_recordData] at hlist
  have hseq : bars (intText seq) = bars (intText seq') := by rw [bars_intText, bars_intText]
  obtain ⟨h1, hlist⟩ := separate_count hseq hlist
  obtain ⟨h2, hlist⟩ := separate_count hid hlist
  obtain ⟨h3, hlist⟩ := separate_count htype hlist
  obtain ⟨h4, hlist⟩ := separate_count hpayload hlist
  obtain ⟨h5, h6⟩ := separate_count hparent hlist
  exact ⟨intText_injective (String.toList_injective h1), String.toList_injective h2,
    String.toList_injective h3, String.toList_injective h4, String.toList_injective h5,
    String.toList_injective h6⟩

namespace JournalTables

/-! ## Two journals -/

/-- Payloads that are read as equal dictionaries. -/
def SamePayload (row row' : JournalRow) : Prop :=
  ∃ v v', loads row.payloadJson = some v ∧ loads row'.payloadJson = some v' ∧
    sortValue v = sortValue v'

/-- Rows of one record. -/
structure SameRecord (row row' : JournalRow) : Prop where
  sequenceNumber : row.sequenceNumber = row'.sequenceNumber
  operationId : row.operationId = row'.operationId
  operationType : row.operationType = row'.operationType
  migrationId : row.migrationId = row'.migrationId
  payload : SamePayload row row'
  createdAt : row.createdAt = row'.createdAt

/-- Rows of one migration whose texts have bars at the same places. -/
structure SameShape (row row' : JournalRow) : Prop where
  migrationId : row.migrationId = row'.migrationId
  operationId : bars row.operationId = bars row'.operationId
  operationType : bars row.operationType = bars row'.operationType

/-- Where the chain of a table is expected to start. -/
def expectedStart (rt : DigestRuntime) (anchorKey : Option (List UInt8)) (t : JournalTables) :
    Except VerifyError (ℤ × String) :=
  anchorKey.elim (.ok (1, genesisHash)) (t.getChainStartParentHash rt ·)

section Binding

variable {rt : DigestRuntime}

theorem samePayload_of_intact (hinj : Function.Injective rt.sha256Hex) {row row' : JournalRow}
    (hrow : Intact rt row) (hrow' : Intact rt row') (h : row.payloadHash = row'.payloadHash) :
    SamePayload row row' := by
  obtain ⟨v, hv, hsum⟩ := hrow
  obtain ⟨v', hv', hsum'⟩ := hrow'
  refine ⟨v, v', hv, hv', ?_⟩
  unfold checksumOf at hsum hsum'
  cases htext : dumps true v with
  | error e =>
    rw [htext] at hsum
    cases hsum
  | ok text =>
    cases htext' : dumps true v' with
    | error e =>
      rw [htext'] at hsum'
      cases hsum'
    | ok text' =>
      rw [htext] at hsum
      rw [htext'] at hsum'
      have hdigest : rt.sha256Hex text = rt.sha256Hex text' := by
        rw [Except.ok.inj hsum, Except.ok.inj hsum', h]
      -- one text is read as both
      have hread := loads_dumps (isValue_sortValue v (isValue_of_loads hv))
        (dumps_sortValue v htext)
      have hread' := loads_dumps (isValue_sortValue v' (isValue_of_loads hv'))
        (dumps_sortValue v' htext')
      rw [hinj hdigest, hread'] at hread
      exact (Option.some.inj hread).symm

/-- The hashes of payloads and of parents have equally many bars in two chains from one start. -/
theorem forall₂_bars (hhex : ∀ text, '|' ∉ (rt.sha256Hex text).toList)
    {rows rows' : List JournalRow} {n n' : ℤ} {p p' : String} (h : Chained rt n p rows)
    (h' : Chained rt n' p' rows') (hintact : ∀ row ∈ rows, Intact rt row)
    (hintact' : ∀ row ∈ rows', Intact rt row) (hshape : rows.Forall₂ SameShape rows')
    (hp : bars p = bars p') :
    rows.Forall₂ (fun row row' => SameShape row row' ∧
      bars row.payloadHash = bars row'.payloadHash ∧ bars row.parentHash = bars row'.parentHash)
      rows' := by
  have hdigest : ∀ text, bars (rt.sha256Hex text) = 0 := fun text => bars_eq_zero (hhex text)
  have hpayload : ∀ {row}, Intact rt row → bars row.payloadHash = 0 := by
    intro row hrow
    obtain ⟨v, -, hsum⟩ := hrow
    unfold checksumOf at hsum
    cases htext : dumps true v with
    | error e =>
      rw [htext] at hsum
      cases hsum
    | ok text =>
      rw [htext] at hsum
      rw [← Except.ok.inj hsum, hdigest]
  induction hshape generalizing n n' p p' with
  | nil => exact .nil
  | @cons row row' rows rows' hrow _ ih =>
    obtain ⟨-, hparent, hchecksum, hrest⟩ := h
    obtain ⟨-, hparent', hchecksum', hrest'⟩ := h'
    obtain ⟨hfirst, hintact⟩ := List.forall_mem_cons.mp hintact
    obtain ⟨hfirst', hintact'⟩ := List.forall_mem_cons.mp hintact'
    refine .cons ⟨hrow, ?_, ?_⟩ (ih hrest hrest' hintact hintact' ?_)
    · rw [hpayload hfirst, hpayload hfirst']
    · exact (congrArg bars hparent).trans (hp.trans (congrArg bars hparent').symm)
    · rw [hchecksum, hchecksum']
      exact (hdigest _).trans (hdigest _).symm

theorem endHash_of_getLast {p : String} {rows : List JournalRow} {last : JournalRow}
    (h : rows.getLast? = some last) : endHash p (rows.map link) = last.checksum := by
  obtain ⟨before, rfl⟩ := List.getLast?_eq_some_iff.mp h
  rw [List.map_append, endHash_append]
  rfl

/-- A verified journal that is not empty is a chain from where it is expected to start. -/
theorem exists_start {anchorKey : Option (List UInt8)} {t : JournalTables}
    (h : t.verifyChainIntegrity rt anchorKey = .ok true) (hne : t.rows ≠ []) :
    ∃ start, expectedStart rt anchorKey t = .ok start ∧ Chained rt start.1 start.2 t.rows ∧
      ∀ row ∈ t.rows, Intact rt row := by
  cases hstart : expectedStart rt anchorKey t with
  | error e =>
    unfold verifyChainIntegrity at h
    cases hrows : t.rows with
    | nil => exact absurd hrows hne
    | cons first rest =>
      unfold expectedStart at hstart
      rw [hrows, hstart] at h
      cases h
  | ok start =>
    exact ⟨start, rfl, ((verifyChainIntegrity_iff rt t hstart).mp h).resolve_left hne⟩

/-- Rows with the same links, of the same migrations and with intact payloads, are of the same
records. -/
theorem sameRecord_of_links (hinj : Function.Injective rt.sha256Hex) {rows rows' : List JournalRow}
    (hshape : rows.Forall₂ SameShape rows') (hlinks : rows.map link = rows'.map link)
    (hintact : ∀ row ∈ rows, Intact rt row) (hintact' : ∀ row ∈ rows', Intact rt row) :
    rows.Forall₂ SameRecord rows' := by
  induction hshape with
  | nil => exact .nil
  | @cons row row' rows rows' hrow _ ih =>
    obtain ⟨hlink, hrest⟩ := List.cons.inj hlinks
    obtain ⟨hfirst, hintact⟩ := List.forall_mem_cons.mp hintact
    obtain ⟨hfirst', hintact'⟩ := List.forall_mem_cons.mp hintact'
    rw [link, link, Link.mk.injEq, RecordBody.mk.injEq] at hlink
    obtain ⟨hseq, -, -, hid, htype, hpayload, hcreated⟩ := hlink
    exact .cons ⟨hseq, hid, htype, hrow.migrationId,
      samePayload_of_intact hinj hfirst hfirst' hpayload, hcreated⟩ (ih hrest hintact hintact')

end Binding

/-- **What the last checksum binds.**  Two verified journals that start at one anchor and end with one
checksum contain the same records precisely when their rows are of the same migrations and have
equally many bars in their identifiers and types. -/
theorem sameRecords_iff (rt : DigestRuntime) (hinj : Function.Injective rt.sha256Hex)
    (hhex : ∀ text, '|' ∉ (rt.sha256Hex text).toList) {anchorKey : Option (List UInt8)}
    {t t' : JournalTables} (hstart : expectedStart rt anchorKey t = expectedStart rt anchorKey t')
    (ht : t.verifyChainIntegrity rt anchorKey = .ok true)
    (ht' : t'.verifyChainIntegrity rt anchorKey = .ok true) {last last' : JournalRow}
    (hlast : t.rows.getLast? = some last) (hlast' : t'.rows.getLast? = some last')
    (hchecksum : last.checksum = last'.checksum) :
    t.rows.Forall₂ SameRecord t'.rows ↔ t.rows.Forall₂ SameShape t'.rows := by
  constructor
  · intro h
    exact h.imp fun row row' hrow =>
      ⟨hrow.migrationId, congrArg bars hrow.operationId, congrArg bars hrow.operationType⟩
  · intro hshape
    have hne : t.rows ≠ [] := by
      rintro hnil
      rw [hnil] at hlast
      cases hlast
    have hne' : t'.rows ≠ [] := by
      rintro hnil
      rw [hnil] at hlast'
      cases hlast'
    obtain ⟨start, heq, hchain, hintact⟩ := exists_start ht hne
    obtain ⟨start', heq', hchain', hintact'⟩ := exists_start ht' hne'
    obtain rfl : start = start' := Except.ok.inj (heq.symm.trans (hstart.trans heq'))
    have hend : endHash start.2 (t.rows.map link) = endHash start.2 (t'.rows.map link) := by
      rw [endHash_of_getLast hlast, endHash_of_getLast hlast', hchecksum]
    have hpairs := forall₂_bars hhex hchain hchain' hintact hintact' hshape rfl
    have hlinks : t.rows.map link = t'.rows.map link := by
      refine (hchain.commit hchain' ?_ hend).1
      rw [List.forall₂_map_left_iff, List.forall₂_map_right_iff]
      refine hpairs.imp fun row row' hrow hdigest => ?_
      obtain ⟨hshape, hpayload, hparent⟩ := hrow
      obtain ⟨h1, h2, h3, h4, h5, h6⟩ := recordData_inj hshape.operationId hshape.operationType
        hpayload hparent (hinj hdigest)
      refine ⟨h1, h5, ?_⟩
      rw [link, link, RecordBody.mk.injEq]
      exact ⟨h2, h3, h4, h6⟩
    exact sameRecord_of_links hinj hshape hlinks hintact hintact'

/-! ## Journals of one record -/

/-- Two characters without a bar for a character. -/
def spellBar (c : Char) : List Char := if c = '|' then ['0', '0'] else ['1', c]

theorem bar_not_mem_spellBar (c : Char) : '|' ∉ spellBar c := by
  unfold spellBar
  split_ifs with hbar
  · decide
  · simp [Ne.symm hbar]

theorem flatMap_spellBar_injective : Function.Injective (List.flatMap spellBar) := by
  intro cs ds h
  induction cs generalizing ds with
  | nil =>
    cases ds with
    | nil => rfl
    | cons d ds =>
      rw [List.flatMap_cons, spellBar] at h
      split_ifs at h <;> cases h
  | cons c cs ih =>
    cases ds with
    | nil =>
      rw [List.flatMap_cons, spellBar] at h
      split_ifs at h <;> cases h
    | cons d ds =>
      rw [List.flatMap_cons, List.flatMap_cons] at h
      have hlength : (spellBar c).length = (spellBar d).length := by
        unfold spellBar
        split_ifs <;> rfl
      obtain ⟨hfirst, hrest⟩ := List.append_inj h hlength
      have hc : c = d := by
        unfold spellBar at hfirst
        split_ifs at hfirst with hc hd hd
        · rw [hc, hd]
        · simp at hfirst
        · simp at hfirst
        · simpa using hfirst
      rw [hc, ih hrest]

/-- The digest of the empty payload. -/
def emptyHash : String := "44136fa355b3678a1146ad16f7e8649e94fb4fc21fe77e8310c060f61caaff8a"

/-- The row of the first record of a journal, with an empty payload and a given checksum. -/
def firstRow (operationId operationType migrationId checksum : String) : JournalRow where
  operationId := operationId
  migrationId := migrationId
  sequenceNumber := 1
  operationType := operationType
  payloadJson := "\x7b\x7d"
  payloadHash := emptyHash
  parentHash := genesisHash
  checksum := checksum
  createdAt := "2024-01-01T00:00:00+00:00"

/-- A journal of one replication, in a migration. -/
def replicated (migrationId : String) : JournalTables where
  records := [firstRow "op1" "REPLICATE" migrationId
    "17636b2abf76e8987b117df26ccd7292e3fc7a3a2f0abf62a6e8388ece3d1649"]
  anchors := []

/-- A journal of one record whose identifier and type are joined to `a|b|c`. -/
def joined (operationId operationType : String) : JournalTables where
  records := [firstRow operationId operationType "m1"
    "e28bb33166d180781323c35564ae3e908bf36eb6610ac8c59c2dc2d715ed1dca"]
  anchors := []

/-- The texts below with their digests. -/
def sampleDigests : List (String × String) :=
  [("\x7b\x7d", emptyHash),
    (recordData 1 "op1" "REPLICATE" emptyHash genesisHash "2024-01-01T00:00:00+00:00",
      "17636b2abf76e8987b117df26ccd7292e3fc7a3a2f0abf62a6e8388ece3d1649"),
    (recordData 1 "a|b" "c" emptyHash genesisHash "2024-01-01T00:00:00+00:00",
      "e28bb33166d180781323c35564ae3e908bf36eb6610ac8c59c2dc2d715ed1dca")]

/-- A digest without collisions that gives the texts above their digests. -/
def journalRuntime : DigestRuntime where
  sha256Hex text :=
    (sampleDigests.lookup text).getD (String.ofList ('x' :: text.toList.flatMap spellBar))
  hmacHex _ _ := ""
  str _ := ""

theorem mem_of_lookup {text digest : String} (h : sampleDigests.lookup text = some digest) :
    (text, digest) ∈ sampleDigests := by
  obtain ⟨before, after, hsplit, -⟩ := List.lookup_eq_some_iff.mp h
  simp [hsplit]

theorem sampleDigests_spec : (∀ d ∈ sampleDigests, '|' ∉ d.2.toList ∧ d.2.toList.head? ≠ some 'x') ∧
    ∀ d ∈ sampleDigests, ∀ d' ∈ sampleDigests, d.2 = d'.2 → d.1 = d'.1 := by
  decide +kernel

theorem journalRuntime_injective : Function.Injective journalRuntime.sha256Hex := by
  obtain ⟨hhead, hdistinct⟩ := sampleDigests_spec
  intro x y h
  simp only [journalRuntime] at h
  cases hx : sampleDigests.lookup x with
  | some d =>
    have hmem := mem_of_lookup hx
    cases hy : sampleDigests.lookup y with
    | some d' =>
      rw [hx, hy] at h
      exact hdistinct _ hmem _ (mem_of_lookup hy) h
    | none =>
      rw [hx, hy, Option.getD_some, Option.getD_none] at h
      refine absurd ?_ (hhead _ hmem).2
      simp [h]
  | none =>
    cases hy : sampleDigests.lookup y with
    | some d' =>
      rw [hx, hy, Option.getD_some, Option.getD_none] at h
      refine absurd ?_ (hhead _ (mem_of_lookup hy)).2
      simp [← h]
    | none =>
      rw [hx, hy, Option.getD_none, Option.getD_none] at h
      have hlist := (List.cons.inj (String.ofList_injective h)).2
      exact String.toList_injective (flatMap_spellBar_injective hlist)

theorem bar_not_mem_journalRuntime (text : String) :
    '|' ∉ (journalRuntime.sha256Hex text).toList := by
  simp only [journalRuntime]
  cases htext : sampleDigests.lookup text with
  | some d => exact (sampleDigests_spec.1 _ (mem_of_lookup htext)).1
  | none =>
    rw [Option.getD_none, String.toList_ofList, List.mem_cons]
    rintro (hx | hmem)
    · cases hx
    · obtain ⟨c, -, hc⟩ := List.mem_flatMap.mp hmem
      exact bar_not_mem_spellBar c hc

/-- Two verified journals with one last checksum. -/
def SameEnd (rt : DigestRuntime) (t t' : JournalTables) : Prop :=
  t.verifyChainIntegrity rt none = .ok true ∧ t'.verifyChainIntegrity rt none = .ok true ∧
    ∃ last last', t.rows.getLast? = some last ∧ t'.rows.getLast? = some last' ∧
      last.checksum = last'.checksum

/-- A journal of one replication is bound to itself. -/
theorem sameRecords_replicated : (replicated "m1").rows.Forall₂ SameRecord (replicated "m1").rows ↔
      (replicated "m1").rows.Forall₂ SameShape (replicated "m1").rows :=
  @sameRecords_iff journalRuntime journalRuntime_injective bar_not_mem_journalRuntime none _ _ rfl
    (by decide +kernel) (by decide +kernel) _ _ rfl rfl rfl

/-- **What is not bound.**  The migration of a record, and the place of a bar. -/
theorem not_bound : (Function.Injective journalRuntime.sha256Hex ∧
      ∀ text, '|' ∉ (journalRuntime.sha256Hex text).toList) ∧
    (SameEnd journalRuntime (replicated "m1") (replicated "m2") ∧
      ¬ (replicated "m1").rows.Forall₂ SameRecord (replicated "m2").rows) ∧
    (SameEnd journalRuntime (joined "a|b" "c") (joined "a" "b|c") ∧
      ¬ (joined "a|b" "c").rows.Forall₂ SameRecord (joined "a" "b|c").rows) := by
  refine ⟨⟨journalRuntime_injective, bar_not_mem_journalRuntime⟩, ⟨?_, ?_⟩, ⟨?_, ?_⟩⟩
  · exact ⟨by decide +kernel, by decide +kernel, _, _, rfl, rfl, rfl⟩
  · intro h
    obtain ⟨hrow, -⟩ := List.forall₂_cons.mp h
    exact absurd hrow.migrationId (by decide)
  · exact ⟨by decide +kernel, by decide +kernel, _, _, rfl, rfl, rfl⟩
  · intro h
    obtain ⟨hrow, -⟩ := List.forall₂_cons.mp h
    exact absurd hrow.operationId (by decide)

end JournalTables

end Durability

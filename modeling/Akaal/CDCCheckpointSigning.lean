/-
# The hash of a checkpoint

`compute_hmac` signs the fields of a checkpoint joined by colons, which the fields may contain
themselves, and the constructor computes the hash of a record that has none.  So a record is
accepted only with a hash that was computed for its own fields exactly when it carries one and no
other checkpoint has the same text.

* `fromDict_ok_iff` : the records that are accepted;
* `onlySigned_iff` : the records that are accepted only with a hash of their own;
* `not_onlySigned` : a record without a hash, and one whose text has two readings;
* `alone_of_colonFree` : a text with no more colons than it needs has one reading.
-/
import Akaal.CDCCheckpoint
import Akaal.DelimitedText

open DelimitedText FramedBytes

namespace CDC

variable {rt : DigestRuntime} {same : CDCSourcePosition → CDCSourcePosition → Prop}
  {providerKey : List UInt8} {now : String} {data : PyItems} {key : Option (List UInt8)}

/-! ## What is signed -/

/-- The fields of a checkpoint that its hash is computed from. -/
structure CheckpointFields where
  checkpointId : String
  migrationId : String
  jobId : String
  runId : String
  cdcSessionId : String
  fencingEpoch : ℤ
  sourcePosition : CDCSourcePosition
  appliedPosition : CDCSourcePosition
  acknowledgedPosition : CDCSourcePosition

namespace CheckpointFields

/-- The text that is signed. -/
def text (f : CheckpointFields) : String :=
  CDCCheckpoint.signedText f.checkpointId f.migrationId f.jobId f.runId f.cdcSessionId
    f.fencingEpoch f.sourcePosition f.appliedPosition f.acknowledgedPosition

/-- The fields pass the checks of the constructor. -/
structure Valid (f : CheckpointFields) : Prop where
  identified : ¬ (f.checkpointId = "" ∨ f.migrationId = "" ∨ f.jobId = "" ∨ f.runId = "" ∨
    f.cdcSessionId = "")
  epoch : ¬ f.fencingEpoch < 0
  ordered : CDCCheckpoint.checkPositions f.sourcePosition f.appliedPosition
    f.acknowledgedPosition = .ok ()

/-- The same identity and epoch, and the same positions. -/
structure Same (same : CDCSourcePosition → CDCSourcePosition → Prop) (f g : CheckpointFields) :
    Prop where
  checkpointId : f.checkpointId = g.checkpointId
  migrationId : f.migrationId = g.migrationId
  jobId : f.jobId = g.jobId
  runId : f.runId = g.runId
  cdcSessionId : f.cdcSessionId = g.cdcSessionId
  fencingEpoch : f.fencingEpoch = g.fencingEpoch
  sourcePosition : same f.sourcePosition g.sourcePosition
  appliedPosition : same f.appliedPosition g.appliedPosition
  acknowledgedPosition : same f.acknowledgedPosition g.acknowledgedPosition

end CheckpointFields

/-- The fields of a checkpoint. -/
def CDCCheckpoint.fields (c : CDCCheckpoint) : CheckpointFields where
  checkpointId := c.checkpointId
  migrationId := c.migrationId
  jobId := c.jobId
  runId := c.runId
  cdcSessionId := c.cdcSessionId
  fencingEpoch := c.fencingEpoch
  sourcePosition := c.sourcePosition
  appliedPosition := c.appliedPosition
  acknowledgedPosition := c.acknowledgedPosition

/-! ## The property and the condition -/

/-- An accepted record carries a hash, which was computed with the key of the call for a checkpoint
with the fields of the record, and for no other. -/
def OnlySigned (rt : DigestRuntime) (same : CDCSourcePosition → CDCSourcePosition → Prop)
    (providerKey : List UInt8) (now : String) (data : PyItems) (key : Option (List UInt8)) : Prop :=
  ∀ c, CDCCheckpoint.fromDict rt providerKey now data key = .ok c →
    ∃ hash, getValue data "checkpoint_hash" = .str hash ∧ hash ≠ "" ∧
      hash = rt.hmacHex (CDCCheckpoint.keyOr key providerKey) c.fields.text ∧
      ∀ holderKey (f : CheckpointFields), f.Valid → rt.hmacHex holderKey f.text = hash →
        holderKey = CDCCheckpoint.keyOr key providerKey ∧ f.Same same c.fields

/-- What `from_dict` reads. -/
structure CheckpointRecord where
  fields : CheckpointFields
  createdAt : Option String
  checkpointHash : Option String

/-- The reading of a record, up to the call of the constructor. -/
def readRecord (data : PyItems) : Except PyRaised CheckpointRecord := do
  let checkpointId ← getStr data "checkpoint_id"
  let migrationId ← getStr data "migration_id"
  let jobId ← getStr data "job_id"
  let runId ← getStr data "run_id"
  let cdcSessionId ← getStr data "cdc_session_id"
  let fencingEpoch ← getInt data "fencing_epoch"
  let sourcePosition ← parseSourcePosition (← getItem data "source_position")
  let appliedPosition ← CDCCheckpoint.readPosition data "applied_position"
  let acknowledgedPosition ← CDCCheckpoint.readPosition data "acknowledged_position"
  let createdAt ← getOptStr data "created_at"
  let checkpointHash ← getOptStr data "checkpoint_hash"
  return ⟨⟨checkpointId, migrationId, jobId, runId, cdcSessionId, fencingEpoch, sourcePosition,
    appliedPosition.getD sourcePosition, acknowledgedPosition.getD sourcePosition⟩, createdAt,
    checkpointHash⟩

/-- No other checkpoint has the same text. -/
def CheckpointFields.Alone (same : CDCSourcePosition → CDCSourcePosition → Prop)
    (f : CheckpointFields) : Prop :=
  ∀ g : CheckpointFields, g.Valid → g.text = f.text → g.Same same f

/-- The condition.  A record that can be read as a valid checkpoint carries a hash, and when this
is the hash of its text no other checkpoint has the text. -/
def CarriesOwnHash (rt : DigestRuntime) (same : CDCSourcePosition → CDCSourcePosition → Prop)
    (providerKey : List UInt8) (data : PyItems) (key : Option (List UInt8)) : Prop :=
  ∀ r, readRecord data = .ok r → r.fields.Valid → ∃ hash, r.checkpointHash = some hash ∧ hash ≠ "" ∧
      (hash = rt.hmacHex (CDCCheckpoint.keyOr key providerKey) r.fields.text → r.fields.Alone same)

/-! ## The records that are accepted -/

/-- The checkpoint that is made of valid fields. -/
def CheckpointRecord.checkpoint (rt : DigestRuntime) (providerKey : List UInt8) (now : String)
    (key : Option (List UInt8)) (r : CheckpointRecord) : CDCCheckpoint where
  checkpointId := r.fields.checkpointId
  migrationId := r.fields.migrationId
  jobId := r.fields.jobId
  runId := r.fields.runId
  cdcSessionId := r.fields.cdcSessionId
  fencingEpoch := r.fields.fencingEpoch
  sourcePosition := r.fields.sourcePosition
  appliedPosition := r.fields.appliedPosition
  acknowledgedPosition := r.fields.acknowledgedPosition
  createdAt := orDefault r.createdAt now
  checkpointHash := orDefault r.checkpointHash
    (rt.hmacHex (CDCCheckpoint.keyOr key providerKey) r.fields.text)
  secretKey := CDCCheckpoint.keyOr key providerKey

/-- The call of the constructor. -/
def CheckpointRecord.construct (rt : DigestRuntime) (providerKey : List UInt8) (now : String)
    (key : Option (List UInt8)) (r : CheckpointRecord) : Except PyRaised CDCCheckpoint :=
  CDCCheckpoint.new rt providerKey now r.fields.checkpointId r.fields.migrationId r.fields.jobId
    r.fields.runId r.fields.cdcSessionId r.fields.fencingEpoch r.fields.sourcePosition
    (some r.fields.appliedPosition) (some r.fields.acknowledgedPosition) r.createdAt
    r.checkpointHash key

variable {c : CDCCheckpoint}

theorem construct_ok_iff {r : CheckpointRecord} : r.construct rt providerKey now key = .ok c ↔
      r.fields.Valid ∧ c = r.checkpoint rt providerKey now key := by
  rw [CheckpointRecord.construct, CDCCheckpoint.new]
  by_cases hidentified : r.fields.checkpointId = "" ∨ r.fields.migrationId = "" ∨
      r.fields.jobId = "" ∨ r.fields.runId = "" ∨ r.fields.cdcSessionId = ""
  · rw [if_pos hidentified]
    constructor
    · intro h
      cases h
    · intro h
      exact absurd hidentified h.1.identified
  · rw [if_neg hidentified]
    by_cases hepoch : r.fields.fencingEpoch < 0
    · rw [if_pos hepoch]
      constructor
      · intro h
        cases h
      · intro h
        exact absurd hepoch h.1.epoch
    · rw [if_neg hepoch]
      simp only [Option.getD_some, Traversal.bind_eq_ok_iff]
      constructor
      · rintro ⟨_, hordered, h⟩
        cases h
        exact ⟨⟨hidentified, hepoch, hordered⟩, rfl⟩
      · rintro ⟨hvalid, rfl⟩
        exact ⟨(), hvalid.ordered, rfl⟩

/-- `from_dict` reads the record, calls the constructor and verifies. -/
theorem fromDict_eq : CDCCheckpoint.fromDict rt providerKey now data key = (do
    let r ← readRecord data
    let chk ← r.construct rt providerKey now key
    if chk.verifyIntegrity rt key then return chk
    else .error (.valueError ("[CORRUPT CHECKPOINT] Checkpoint '" ++ chk.checkpointId ++
      "' failed SHA-256 HMAC integrity verification!"))) := by
  simp only [CDCCheckpoint.fromDict, readRecord, bind_assoc, pure_bind]
  rfl

theorem keyOr_keyOr (key : Option (List UInt8)) (providerKey : List UInt8) :
    CDCCheckpoint.keyOr key (CDCCheckpoint.keyOr key providerKey) =
      CDCCheckpoint.keyOr key providerKey := by
  cases key with
  | none => rfl
  | some k =>
    simp only [CDCCheckpoint.keyOr]
    split_ifs <;> rfl

/-- **The records that are accepted**: those that can be read as a valid checkpoint and carry no
hash or the hash of their text. -/
theorem fromDict_ok_iff : CDCCheckpoint.fromDict rt providerKey now data key = .ok c ↔
      ∃ r, readRecord data = .ok r ∧ r.fields.Valid ∧ orDefault r.checkpointHash
            (rt.hmacHex (CDCCheckpoint.keyOr key providerKey) r.fields.text) =
          rt.hmacHex (CDCCheckpoint.keyOr key providerKey) r.fields.text ∧
        c = r.checkpoint rt providerKey now key := by
  have hverify : ∀ r : CheckpointRecord,
      (r.checkpoint rt providerKey now key).verifyIntegrity rt key = true ↔
        orDefault r.checkpointHash
            (rt.hmacHex (CDCCheckpoint.keyOr key providerKey) r.fields.text) =
          rt.hmacHex (CDCCheckpoint.keyOr key providerKey) r.fields.text := by
    intro r
    rw [CDCCheckpoint.verifyIntegrity, decide_eq_true_eq, CDCCheckpoint.computeHmac]
    simp only [CheckpointRecord.checkpoint, keyOr_keyOr, CheckpointFields.text]
  rw [fromDict_eq]
  simp only [Traversal.bind_eq_ok_iff, construct_ok_iff]
  constructor
  · rintro ⟨r, hread, chk, ⟨hvalid, rfl⟩, h⟩
    split_ifs at h with hok
    cases h
    exact ⟨r, hread, hvalid, (hverify r).mp hok, rfl⟩
  · rintro ⟨r, hread, hvalid, hhash, rfl⟩
    exact ⟨r, hread, _, ⟨hvalid, rfl⟩, by rw [if_pos ((hverify r).mpr hhash)]; rfl⟩

/-! ## The exact condition -/

@[simp] theorem fields_checkpoint (r : CheckpointRecord) :
    (r.checkpoint rt providerKey now key).fields = r.fields := rfl

theorem checkpointHash_eq_some_iff {r : CheckpointRecord} (h : readRecord data = .ok r)
    {hash : String} :
    r.checkpointHash = some hash ↔ getValue data "checkpoint_hash" = .str hash := by
  simp only [readRecord, Traversal.bind_eq_ok_iff] at h
  obtain ⟨_, -, _, -, _, -, _, -, _, -, _, -, _, -, _, -, _, -, _, -, _, -, read, hread, h⟩ := h
  cases h
  rw [getOptStr] at hread
  cases hvalue : getValue data "checkpoint_hash" with
  | none =>
    rw [hvalue] at hread
    cases hread
    simp
  | str s =>
    rw [hvalue] at hread
    cases hread
    simp
  | _ =>
    rw [hvalue] at hread
    cases hread

theorem isFalsy_toDict (p : CDCSourcePosition) : isFalsy (.dict p.toDict) = false := by
  cases p <;> rfl

/-- The record of a checkpoint without its hash, which is the last item. -/
theorem readRecord_unsigned (hsource : c.sourcePosition.IsReadBack)
    (happlied : c.appliedPosition.IsReadBack)
    (hacknowledged : c.acknowledgedPosition.IsReadBack) :
    readRecord c.toDict.dropLast = .ok ⟨c.fields, some c.createdAt, none⟩ := by
  simp [readRecord, CDCCheckpoint.toDict, getStr, getInt, getItem, getOptStr, getValue, asStr,
    asInt, asOptStr, List.lookup, CDCCheckpoint.readPosition, isFalsy_toDict,
    parse_toDict_of_isReadBack hsource, parse_toDict_of_isReadBack happlied,
    parse_toDict_of_isReadBack hacknowledged, CDCCheckpoint.fields]

/-- The record of a checkpoint. -/
theorem readRecord_toDict (hsource : c.sourcePosition.IsReadBack)
    (happlied : c.appliedPosition.IsReadBack)
    (hacknowledged : c.acknowledgedPosition.IsReadBack) :
    readRecord c.toDict = .ok ⟨c.fields, some c.createdAt, some c.checkpointHash⟩ := by
  simp [readRecord, CDCCheckpoint.toDict, getStr, getInt, getItem, getOptStr, getValue, asStr,
    asInt, asOptStr, List.lookup, CDCCheckpoint.readPosition, isFalsy_toDict,
    parse_toDict_of_isReadBack hsource, parse_toDict_of_isReadBack happlied,
    parse_toDict_of_isReadBack hacknowledged, CDCCheckpoint.fields]

/-- **A valid record is accepted when its hash is left out.** -/
theorem not_onlySigned_of_unsigned (hvalid : c.fields.Valid)
    (hsource : c.sourcePosition.IsReadBack) (happlied : c.appliedPosition.IsReadBack)
    (hacknowledged : c.acknowledgedPosition.IsReadBack) :
    ¬ OnlySigned rt same providerKey now c.toDict.dropLast key := by
  intro h
  have hread := readRecord_unsigned hsource happlied hacknowledged
  obtain ⟨hash, hvalue, -⟩ := h _ (fromDict_ok_iff.mpr ⟨_, hread, hvalid, rfl, rfl⟩)
  have hnone := (checkpointHash_eq_some_iff hread).mpr hvalue
  cases hnone

theorem CheckpointFields.not_alone_of_colon {f : CheckpointFields} (hvalid : f.Valid)
    {first rest : String} (hid : f.checkpointId = first ++ ":" ++ rest) (hfirst : first ≠ "") :
    ¬ f.Alone same := by
  intro halone
  let shifted : CheckpointFields :=
    { f with checkpointId := first, migrationId := rest ++ ":" ++ f.migrationId }
  have hshifted : shifted.Valid := by
    refine ⟨?_, hvalid.epoch, hvalid.ordered⟩
    have hids := hvalid.identified
    simp only [not_or] at hids
    simp [shifted, hfirst, hids]
  have htext : shifted.text = f.text := by
    simp only [CheckpointFields.text, CDCCheckpoint.signedText, hid, shifted, String.append_assoc]
  have hsame := (halone shifted hshifted htext).checkpointId
  have hlength : first.toList.length = (first ++ ":" ++ rest).toList.length :=
    congrArg (fun id => id.toList.length) (hsame.trans hid)
  simp at hlength

/-- **A hash is accepted for two readings** when the first identifier contains a colon. -/
theorem not_onlySigned_of_colon (hvalid : c.fields.Valid)
    (hsource : c.sourcePosition.IsReadBack) (happlied : c.appliedPosition.IsReadBack)
    (hacknowledged : c.acknowledgedPosition.IsReadBack)
    (hhash : c.checkpointHash = rt.hmacHex (CDCCheckpoint.keyOr key providerKey) c.fields.text)
    {first rest : String} (hid : c.checkpointId = first ++ ":" ++ rest) (hfirst : first ≠ "") :
    ¬ OnlySigned rt same providerKey now c.toDict key := by
  intro h
  have hread := readRecord_toDict hsource happlied hacknowledged
  have haccepted : orDefault (some c.checkpointHash)
      (rt.hmacHex (CDCCheckpoint.keyOr key providerKey) c.fields.text) =
        rt.hmacHex (CDCCheckpoint.keyOr key providerKey) c.fields.text := by
    rw [orDefault, hhash]
    split_ifs <;> rfl
  obtain ⟨hash, -, -, hdigest, honly⟩ :=
    h _ (fromDict_ok_iff.mpr ⟨_, hread, hvalid, haccepted, rfl⟩)
  have hnot : ¬ c.fields.Alone same := CheckpointFields.not_alone_of_colon hvalid hid hfirst
  apply hnot
  intro g hg htext
  refine (honly (CDCCheckpoint.keyOr key providerKey) g hg ?_).2
  rw [hdigest, htext]
  rfl

/-! ## Texts with one reading -/

namespace CheckpointFields

/-- The parts of the text. -/
def parts (f : CheckpointFields) : List String :=
  [f.checkpointId, f.migrationId, f.jobId, f.runId, f.cdcSessionId, intText f.fencingEpoch,
    f.sourcePosition.toText, f.appliedPosition.toText, f.acknowledgedPosition.toText]

theorem toList_text (f : CheckpointFields) :
    f.text.toList = [':'].intercalate (f.parts.map String.toList) := by
  simp [text, CDCCheckpoint.signedText, parts, List.intercalate]

/-- No part contains a colon. -/
def ColonFree (f : CheckpointFields) : Prop := ∀ part ∈ f.parts, ':' ∉ part.toList

theorem ColonFree.parts_eq {f g : CheckpointFields} (hf : f.ColonFree) (h : g.text = f.text) :
    g.parts = f.parts := by
  have hlists : g.parts.map String.toList = f.parts.map String.toList := by
    apply intercalate_inj (c := ':')
    · intro l hl
      obtain ⟨part, hpart, rfl⟩ := List.mem_map.mp hl
      exact hf part hpart
    · rfl
    · rw [← toList_text, ← toList_text, h]
  exact List.map_injective_iff.mpr (fun _ _ => String.toList_injective) hlists

end CheckpointFields

theorem v_not_mem_of_lsnToInt {lsn : String} {n : ℤ} (h : lsnToInt lsn = .ok n) :
    'v' ∉ lsn.toList := by
  have hread : ∀ {part : List Char} {z : ℤ}, PythonText.hexInt (String.ofList part) = some z →
      'v' ∉ part := by
    intro part z hz hv
    rcases PythonText.mem_hexInt hz (c := 'v') (by simpa using hv) with h | h | h
    · revert h
      decide
    · revert h
      decide
    · revert h
      decide
  rw [lsnToInt] at h
  split at h
  · next high low hsplit =>
      split at h
      · next hz lz hhigh hlow =>
          have hjoin : ['/'].intercalate (lsn.toList.splitOn '/') = lsn.toList :=
            List.intercalate_splitOn '/'
          rw [hsplit] at hjoin
          rw [← hjoin]
          simp [List.intercalate, hread hhigh, hread hlow]
      · cases h
  · cases h

theorem v_mem_delta (p : DeltaTableVersionPosition) :
    'v' ∈ (CDCSourcePosition.delta p).toText.toList := by
  simp [CDCSourcePosition.toText]

theorem colonFree_cases {p : CDCSourcePosition} (hp : ':' ∉ p.toText.toList) :
    (∃ q, p = .postgres q) ∨ ∃ q, p = .delta q := by
  cases p with
  | postgres q => exact .inl ⟨q, rfl⟩
  | delta q => exact .inr ⟨q, rfl⟩
  | mysql q =>
    refine absurd ?_ hp
    simp only [CDCSourcePosition.toText]
    split
    · split_ifs <;> simp
    · simp
  | _ => exact absurd (by simp [CDCSourcePosition.toText]) hp

theorem eq_of_colonFree {p q : CDCSourcePosition} (hp : ':' ∉ p.toText.toList)
    (h : q.toText = p.toText) : q.eq p = true := by
  have hq : ':' ∉ q.toText.toList := h ▸ hp
  have hengine : q.engine = p.engine := by
    rcases colonFree_cases hp with ⟨p, rfl⟩ | ⟨p, rfl⟩
    · rcases colonFree_cases hq with ⟨q, rfl⟩ | ⟨q, rfl⟩
      · rfl
      · have hv := v_mem_delta q
        rw [h] at hv
        exact absurd hv (v_not_mem_of_lsnToInt p.numeric_eq)
    · rcases colonFree_cases hq with ⟨q, rfl⟩ | ⟨q, rfl⟩
      · have hv := v_mem_delta p
        rw [← h] at hv
        exact absurd hv (v_not_mem_of_lsnToInt q.numeric_eq)
      · rfl
  simp [CDCSourcePosition.eq, hengine, h]

/-- **A text with no more colons than it needs has one reading**, when positions are compared by
`==`. -/
theorem CheckpointFields.alone_of_colonFree {f : CheckpointFields} (hf : f.ColonFree) :
    f.Alone fun p q => p.eq q = true := by
  intro g _ htext
  have hparts := hf.parts_eq htext
  simp only [parts, List.cons.injEq, and_true] at hparts
  obtain ⟨hcheckpoint, hmigration, hjob, hrun, hsession, hepoch, hsource, happlied,
    hacknowledged⟩ := hparts
  have hfree : ∀ p ∈ [f.sourcePosition, f.appliedPosition, f.acknowledgedPosition],
      ':' ∉ p.toText.toList := by
    intro p hp
    apply hf p.toText
    simp only [List.mem_cons, List.not_mem_nil, or_false] at hp
    rcases hp with rfl | rfl | rfl
    · simp [parts]
    · simp [parts]
    · simp [parts]
  exact ⟨hcheckpoint, hmigration, hjob, hrun, hsession, intText_injective hepoch,
    eq_of_colonFree (hfree _ (by simp)) hsource, eq_of_colonFree (hfree _ (by simp)) happlied,
    eq_of_colonFree (hfree _ (by simp)) hacknowledged⟩

/-! ## Three records -/

/-- The text that is signed with the key `k` below. -/
def signedSample : String := "c:m:j:r:s:1:0/16B3748:0/16B3748:0/16B3748"

/-- Its digest, as `hmac` computes it. -/
def signedDigest : String := "6a5fe0fb658ebf76ca80328aab1590c9cd519c04eb97db9adbad87b1cec5a8d1"

/-- A byte as a character outside ASCII. -/
def byteChar (b : UInt8) : Char := Char.ofNat (b.toNat + 256)

/-- Digests that tell keys and messages apart; the one of the sample is the real one. -/
def signingRuntime : DigestRuntime where
  sha256Hex _ := ""
  hmacHex k m :=
    if k = [107] ∧ m = signedSample then signedDigest
    else String.ofList ('x' :: (k.map byteChar ++ ':' :: m.toList))
  str _ := ""

theorem toNat_byteChar (b : UInt8) : (byteChar b).toNat = b.toNat + 256 := by
  have hvalid : (b.toNat + 256).isValidChar := by
    have := b.toNat_lt
    exact .inl (by omega)
  rw [byteChar, Char.ofNat, dif_pos hvalid]
  rfl

theorem signingRuntime_separates (k : List UInt8) (m : String) (k' : List UInt8) (m' : String)
    (h : signingRuntime.hmacHex k m = signingRuntime.hmacHex k' m') : k = k' ∧ m = m' := by
  have hbytes : Function.Injective byteChar := by
    intro a b hab
    have hnat := congrArg Char.toNat hab
    rw [toNat_byteChar, toNat_byteChar] at hnat
    exact UInt8.toNat_inj.mp (by omega)
  have hcolon : ∀ l : List UInt8, ':' ∉ l.map byteChar := by
    intro l hl
    obtain ⟨b, -, hb⟩ := List.mem_map.mp hl
    have hnat := congrArg Char.toNat hb
    rw [toNat_byteChar] at hnat
    have hcode : ':'.toNat = 58 := rfl
    omega
  have hother : ∀ l : List Char, signedDigest ≠ String.ofList ('x' :: l) := by
    intro l hl
    have hhead := congrArg (fun s => s.toList.head?) hl
    have hsix : signedDigest.toList.head? = some '6' := by decide
    simp [hsix] at hhead
  simp only [signingRuntime] at h
  split_ifs at h with h₁ h₂ h₂
  · exact ⟨h₁.1.trans h₂.1.symm, h₁.2.trans h₂.2.symm⟩
  · exact absurd h (hother _)
  · exact absurd h.symm (hother _)
  · have hlist := (List.cons.inj (String.ofList_injective h)).2
    obtain ⟨hkey, hmessage⟩ := separate_left (hcolon k) (hcolon k') hlist
    exact ⟨List.map_injective_iff.mpr hbytes hkey, String.toList_injective hmessage⟩

/-- A position of a PostgreSQL source. -/
def signedLsn : PostgresLSNPosition where
  lsn := "0/16B3748"
  flushedLsn := "0/16B3748"
  numericVal := 0x16B3748
  lsn_upper := by decide
  flushed_upper := by decide
  flushed_ne := by decide
  numeric_eq := by decide

/-- A checkpoint with a single position. -/
def checkpointAt (checkpointId : String) (position : CDCSourcePosition) (checkpointHash : String) :
    CDCCheckpoint where
  checkpointId := checkpointId
  migrationId := "m"
  jobId := "j"
  runId := "r"
  cdcSessionId := "s"
  fencingEpoch := 1
  sourcePosition := position
  appliedPosition := position
  acknowledgedPosition := position
  createdAt := "2026-01-01T00:00:00"
  checkpointHash := checkpointHash
  secretKey := [107]

theorem checkpointAt_valid {checkpointId checkpointHash : String} {position : CDCSourcePosition}
    (hid : checkpointId ≠ "") : (checkpointAt checkpointId position checkpointHash).fields.Valid where
  identified := by simp [checkpointAt, CDCCheckpoint.fields, hid]
  epoch := by simp [checkpointAt, CDCCheckpoint.fields]
  ordered := CDCCheckpoint.checkPositions_self position

end CDC

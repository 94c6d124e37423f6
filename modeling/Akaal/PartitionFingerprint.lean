/-
# Partition fingerprints

`PartitionFingerprintEngine` of `validation/fingerprint/partition.py`: the digests of the rows
of a partition are combined by XOR, the rows are counted, and the fingerprint is the hash of a
text with both numbers.

* `updateBatch_eq_ok_iff` : a batch adds the number of its rows and the XOR of their digests;
* `finalize_eq_iff` : two partitions have one fingerprint precisely when they have as
  many rows and the digests of the rows that occur an odd number of times in the two together
  cancel.
-/
import Akaal.CanonicalRow
import Akaal.Traversal
import Akaal.XorParity

open FramedBytes XorParity

namespace Validation

/-! ## The engine -/

/-- The running state of a partition. -/
structure PartitionFingerprintEngine where
  partitionId : String
  rowCount : ℕ
  accumulator : ℕ
  deriving DecidableEq

namespace PartitionFingerprintEngine

/-- `PartitionFingerprintEngine(partition_id)`. -/
def init (partitionId : String) : PartitionFingerprintEngine := ⟨partitionId, 0, 0⟩

variable (sha256 : List UInt8 → ℕ)

/-- The digest of a row enters the accumulator. -/
def updateRow (engine : PartitionFingerprintEngine) (row : PyRow) :
    Except PyException PartitionFingerprintEngine := do
  let rowInt ← computeFingerprint sha256 [] false row
  return { engine with
    accumulator := engine.accumulator ^^^ rowInt, rowCount := engine.rowCount + 1 }

/-- `update_batch`. -/
def updateBatch (engine : PartitionFingerprintEngine) (rows : List PyRow) :
    Except PyException PartitionFingerprintEngine :=
  rows.foldlM (updateRow sha256) engine

/-- The text that is hashed for a partition. -/
def summary (engine : PartitionFingerprintEngine) : String :=
  if engine.rowCount = 0 then "EMPTY_PARTITION_" ++ engine.partitionId
  else "COUNT:" ++ engine.rowCount.repr ++ "#ACCUM:" ++ hexPadded 64 engine.accumulator

/-- `finalize`. -/
def finalize (engine : PartitionFingerprintEngine) : ℕ := sha256 (utf8 engine.summary)

end PartitionFingerprintEngine

open PartitionFingerprintEngine

/-- The canonical rows of a partition, with its columns in order and decimals normalized. -/
def canonicalRows (rows : List PyRow) : Except PyException (List (List CanonicalField)) :=
  rows.mapM (canonicalRow [] false)

/-- The fingerprint of a partition. -/
def fingerprintRows (sha256 : List UInt8 → ℕ) (partitionId : String) (rows : List PyRow) :
    Except PyException ℕ :=
  (updateBatch sha256 (init partitionId) rows).map (finalize sha256)

/-! ## What a batch adds -/

variable {sha256 : List UInt8 → ℕ}

/-- One row adds its digest and one to the count. -/
theorem updateRow_eq_ok_iff {engine e : PartitionFingerprintEngine} {row : PyRow} :
    updateRow sha256 engine row = .ok e ↔ ∃ c, canonicalRow [] false row = .ok c ∧
        e = ⟨engine.partitionId, engine.rowCount + 1, engine.accumulator ^^^ digest sha256 c⟩ := by
  rw [updateRow, computeFingerprint]
  cases canonicalRow [] false row with
  | error x =>
    constructor
    · intro h
      cases h
    · rintro ⟨c, ⟨⟩, -⟩
  | ok c =>
    constructor
    · intro h
      cases h
      exact ⟨c, rfl, rfl⟩
    · rintro ⟨c', ⟨⟩, rfl⟩
      rfl

/-- **A batch.**  It adds the number of its rows and the XOR of their digests, and raises when
one of them has no canonical form. -/
theorem updateBatch_eq_ok_iff {engine e : PartitionFingerprintEngine} {rows : List PyRow} :
    updateBatch sha256 engine rows = .ok e ↔ ∃ cs, canonicalRows rows = .ok cs ∧
        e = ⟨engine.partitionId, engine.rowCount + cs.length,
          engine.accumulator ^^^ xorSum (digest sha256) cs⟩ := by
  induction rows generalizing engine with
  | nil =>
    constructor
    · intro h
      cases h
      exact ⟨[], rfl, by simp⟩
    · rintro ⟨cs, ⟨⟩, rfl⟩
      simp [updateBatch]
      rfl
  | cons row rows ih =>
    have hunfold : updateBatch sha256 engine (row :: rows) =
        updateRow sha256 engine row >>= fun e' => updateBatch sha256 e' rows := by
      rw [updateBatch, List.foldlM_cons]
      rfl
    rw [hunfold]
    constructor
    · intro h
      cases hrow : updateRow sha256 engine row with
      | error x =>
        rw [hrow] at h
        cases h
      | ok e' =>
        rw [hrow] at h
        obtain ⟨c, hc, rfl⟩ := updateRow_eq_ok_iff.mp hrow
        obtain ⟨cs, hcs, rfl⟩ := ih.mp h
        refine ⟨c :: cs, ?_, ?_⟩
        · exact Traversal.mapM_eq_ok_iff.mpr (.cons hc (Traversal.mapM_eq_ok_iff.mp hcs))
        · rw [xorSum_cons, List.length_cons, Nat.xor_assoc, Nat.add_assoc, Nat.add_comm 1 cs.length]
    · rintro ⟨cs, hcs, rfl⟩
      cases Traversal.mapM_eq_ok_iff.mp hcs with
      | @cons _ c _ cs hc hrest =>
        rw [updateRow_eq_ok_iff.mpr ⟨c, hc, rfl⟩]
        refine ih.mpr ⟨cs, Traversal.mapM_eq_ok_iff.mpr hrest, ?_⟩
        rw [xorSum_cons, List.length_cons, Nat.xor_assoc, Nat.add_assoc, Nat.add_comm 1 cs.length]

/-- The fingerprint of a partition is that of the number of its rows and the XOR of their
digests. -/
theorem fingerprintRows_eq_ok_iff {partitionId : String} {rows : List PyRow} {fp : ℕ} :
    fingerprintRows sha256 partitionId rows = .ok fp ↔ ∃ cs, canonicalRows rows = .ok cs ∧
        fp = finalize sha256 ⟨partitionId, cs.length, xorSum (digest sha256) cs⟩ := by
  have hbatch : ∀ e, updateBatch sha256 (init partitionId) rows = .ok e ↔
      ∃ cs, canonicalRows rows = .ok cs ∧
        e = ⟨partitionId, cs.length, xorSum (digest sha256) cs⟩ := by
    intro e
    have hbatch : updateBatch sha256 (init partitionId) rows = .ok e ↔ _ := updateBatch_eq_ok_iff
    simpa [init] using hbatch
  rw [fingerprintRows]
  constructor
  · intro h
    cases he : updateBatch sha256 (init partitionId) rows with
    | error x =>
      rw [he] at h
      cases h
    | ok e =>
      rw [he] at h
      cases h
      obtain ⟨cs, hcs, rfl⟩ := (hbatch e).mp he
      exact ⟨cs, hcs, rfl⟩
  · rintro ⟨cs, hcs, rfl⟩
    rw [(hbatch _).mpr ⟨cs, hcs, rfl⟩]
    rfl

/-! ## Equal fingerprints -/

theorem summary_inj {e e' : PartitionFingerprintEngine} (h : utf8 e.summary = utf8 e'.summary) :
    e.rowCount = e'.rowCount ∧ (e.rowCount ≠ 0 → e.accumulator = e'.accumulator) := by
  -- the two kinds of text differ in their first letter
  have hkinds : ∀ s t : String, utf8 ("EMPTY_PARTITION_" ++ s) ≠ utf8 ("COUNT:" ++ t) := by
    intro s t heq
    rw [utf8_append, utf8_append] at heq
    have hhead := congrArg (List.take 1) heq
    rw [List.take_append_of_le_length (by decide), List.take_append_of_le_length (by decide)]
      at hhead
    revert hhead
    decide
  by_cases h0 : e.rowCount = 0
  · by_cases h0' : e'.rowCount = 0
    · exact ⟨h0.trans h0'.symm, fun hne => absurd h0 hne⟩
    · rw [summary, summary, if_pos h0, if_neg h0', String.append_assoc, String.append_assoc] at h
      exact absurd h (hkinds _ _)
  · by_cases h0' : e'.rowCount = 0
    · rw [summary, summary, if_neg h0, if_pos h0', String.append_assoc, String.append_assoc] at h
      exact absurd h.symm (hkinds _ _)
    · have hsharp : ((35 : UInt8).toNat < 48 ∨ 57 < (35 : UInt8).toNat) := by decide
      have hlabel : utf8 "#ACCUM:" = 35 :: utf8 "ACCUM:" := by decide
      rw [summary, summary, if_neg h0, if_neg h0'] at h
      simp only [utf8_append, List.append_assoc, hlabel, List.cons_append] at h
      obtain ⟨hcount, hrest⟩ := numeral_separate hsharp (List.append_cancel_left h)
      have hhex := utf8_injective (List.append_cancel_left hrest)
      exact ⟨hcount, fun _ => hexPadded_injective 64 hhex⟩

/-- The digests of what does not cancel in two lists of rows cancel each other. -/
def Cancels (sha256 : List UInt8 → ℕ) (cs ds : List (List CanonicalField)) : Prop :=
  xorSum (digest sha256) (oddPart (cs ++ ds)) = 0

instance (cs ds : List (List CanonicalField)) : Decidable (Cancels sha256 cs ds) :=
  inferInstanceAs (Decidable (_ = _))

theorem cancels_of_perm {cs ds : List (List CanonicalField)} (h : cs.Perm ds) :
    Cancels sha256 cs ds := by
  rw [Cancels, oddPart_append_of_perm h, xorSum_nil]

/-- **Equal fingerprints.**  Two partitions have one fingerprint precisely when they have as
many rows, and the digests of the rows that occur an odd number of times in the two together
cancel. -/
theorem finalize_eq_iff (hsha : Function.Injective sha256) {partitionId : String}
    {cs ds : List (List CanonicalField)} :
    finalize sha256 ⟨partitionId, cs.length, xorSum (digest sha256) cs⟩ =
        finalize sha256 ⟨partitionId, ds.length, xorSum (digest sha256) ds⟩ ↔
      cs.length = ds.length ∧ Cancels sha256 cs ds := by
  rw [Cancels, ← xorSum_eq_iff_oddPart]
  constructor
  · intro h
    have hsummary := hsha h
    obtain ⟨hlen, hacc⟩ : cs.length = ds.length ∧ (cs.length ≠ 0 → _) := summary_inj hsummary
    refine ⟨hlen, ?_⟩
    by_cases h0 : cs.length = 0
    · -- two empty partitions accumulate nothing
      have hd0 : ds.length = 0 := hlen.symm.trans h0
      rw [List.length_eq_zero_iff.mp h0, List.length_eq_zero_iff.mp hd0]
    · exact hacc h0
  · rintro ⟨hlen, hacc⟩
    rw [hlen, hacc]

end Validation

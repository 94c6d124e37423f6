/-
# Checksums of stored payloads

The payloads that `put_state`, `compare_and_swap` and `append_record` of `akaalEngine/durability` store.  The
checksum is taken from the payload in memory, whose integer keys are sorted as numbers, and is taken again
from what is read, whose keys are texts.

* `reproduced_iff` : when the checksum is found again;
* `payloads_verified_iff` : so for all three writers.
-/
import Akaal.StateRecords

open CDC JsonText

namespace Durability

open JournalTables

/-- In every dictionary of a payload, the order of the keys is that of their texts. -/
def KeysInTextOrder (payload : PyInput) : Prop := ∀ w, ordered payload = .ok w → InTextOrder w

variable {rt : DigestRuntime}

/-- **The checksum is found again** precisely when the keys are in the order of their texts. -/
theorem reproduced_iff (hsha : Function.Injective rt.sha256Hex) {payload : PyInput}
    (hpayload : IsInput payload) {text : String} (htext : dumpsSorted payload = .ok text) :
    Reproduced rt text (rt.sha256Hex text) ↔ KeysInTextOrder payload := by
  obtain ⟨w, hw, hvalue, hdumps, hloads⟩ := loads_dumpsSorted hpayload htext
  constructor
  · rintro ⟨v, hv, hchecksum⟩ w' hw'
    obtain rfl : w = v := Option.some.inj (hloads.symm.trans hv)
    obtain rfl : w = w' := Except.ok.inj (hw.symm.trans hw')
    refine (dumps_true_eq_iff hvalue hdumps).mp ?_
    rw [checksumOf] at hchecksum
    cases hsorted : dumps true w with
    | error e =>
      rw [hsorted] at hchecksum
      cases hchecksum
    | ok text' =>
      rw [hsorted] at hchecksum
      rw [hsha (Except.ok.inj hchecksum)]
  · exact fun horder => reproduced_of_inTextOrder rt hpayload htext hw (horder w hw)

/-- The checksum of a row is found again, and in no table that holds it the row is reported as corrupt. -/
def RowVerified (rt : DigestRuntime) (row : StateRow) : Prop :=
  Reproduced rt row.payloadJson row.checksum ∧
    ∀ (t : StateTable) (key space : String), t space key = some row →
      ∀ e, getState rt t key space ≠ .error (.corrupt e)

theorem rowVerified_iff {row : StateRow} :
    RowVerified rt row ↔ Reproduced rt row.payloadJson row.checksum := by
  refine ⟨And.left, fun h => ⟨h, fun t key space hrow e herror => ?_⟩⟩
  obtain ⟨v, hloads, hchecksum⟩ := h
  have hverified : verifyDictChecksum rt v row.checksum = .ok () := by
    rw [verifyDictChecksum, hchecksum]
    exact if_neg fun h => h rfl
  rw [getState, hrow] at herror
  simp only [hloads, hverified] at herror
  split_ifs at herror
  cases herror

/-- A row whose checksum is not found again is reported as corrupt. -/
theorem corrupt_of_not_reproduced {t : StateTable} {key space : String} {row : StateRow}
    (hrow : t space key = some row) (hversion : row.stateSchemaVersion ≤ currentEngineSchemaVersion)
    (h : ¬ Reproduced rt row.payloadJson row.checksum) :
    ∃ e, getState rt t key space = .error (.corrupt e) := by
  rw [getState, hrow]
  dsimp only
  rw [if_neg (not_lt.mpr hversion)]
  cases hloads : loads row.payloadJson with
  | none => exact ⟨_, rfl⟩
  | some v =>
    dsimp only
    rw [verifyDictChecksum]
    cases hchecksum : checksumOf rt v with
    | error e => exact ⟨_, rfl⟩
    | ok computed =>
      dsimp only
      rw [if_pos fun heq => h ⟨v, hloads, hchecksum.trans (congrArg _ heq)⟩]
      exact ⟨_, rfl⟩

theorem Writes.verified_iff (hsha : Function.Injective rt.sha256Hex) {t t' : StateTable}
    {space key : String} {payload : StatePayload} (h : Writes rt t t' space key payload) :
    ∃ row, t' space key = some row ∧
      (RowVerified rt row ↔ KeysInTextOrder (.dict payload.items)) := by
  obtain ⟨text, schemaVersion, createdAt, updatedAt, htext, rfl, -⟩ := h.row
  refine ⟨_, StateStore.updateAt_self _ _ _ _, ?_⟩
  rw [rowVerified_iff]
  exact reproduced_iff hsha payload.isInput htext

/-- **Stored payloads.**  The checksum of what any of the three writers stores is found again, and no
corruption is reported, precisely when the keys of every dictionary of the payload are in the order of their
texts. -/
theorem payloads_verified_iff (rt : DigestRuntime) (hsha : Function.Injective rt.sha256Hex) :
    (∀ (t t' : StateTable) (record : StateRecord) (now : String) (fits : Bool) (n : ℤ),
      putState rt t record now fits = .ok (n, t') → ∃ row, t' record.space record.key = some row ∧
        (RowVerified rt row ↔ KeysInTextOrder (.dict record.payload.items))) ∧
    (∀ (t t' : StateTable) (key space : String) (expectedVersion n : ℤ) (newPayload : StatePayload)
      (now : String) (fits : Bool),
      compareAndSwap rt t key space expectedVersion newPayload now fits = .ok (n, t') →
      ∃ row, t' space key = some row ∧
        (RowVerified rt row ↔ KeysInTextOrder (.dict newPayload.items))) ∧
    ∀ (t t' : JournalTables) (call : AppendCall) (row : JournalRow), IsInput call.payload →
      t.appendRecord rt call = (.ok row, t') →
      (checkPayload rt row = .ok () ↔ KeysInTextOrder call.payload) := by
  refine ⟨fun t t' record now fits n h => (putState_writes h).2.verified_iff hsha,
    fun t t' key space expectedVersion n newPayload now fits h =>
      (compareAndSwap_writes h).2.2.verified_iff hsha, fun t t' call row hpayload h => ?_⟩
  rcases JournalRun.appendRecord_cases t call with ⟨⟨e, herror⟩, -⟩ | ⟨text, hadmitted, hok⟩
  · rw [herror] at h
    cases h
  · rw [hok] at h
    obtain rfl := Except.ok.inj (Prod.ext_iff.mp h).1
    rw [checkPayload_eq_ok_iff]
    exact reproduced_iff hsha hpayload hadmitted.text

/-- A payload with a dictionary under integers. -/
def rowCounts (a b : ℤ) (hne : PyKey.int a ≠ PyKey.int b) : StatePayload where
  items := [(.int a, .int 1), (.int b, .int 2)]
  isInput := ⟨by simpa using hne, trivial, trivial, trivial⟩

/-- A record of row counts. -/
def countsRecord (a b : ℤ) (hne : PyKey.int a ≠ PyKey.int b) : StateRecord := ⟨"k", "s", rowCounts a b hne, 1⟩

/-- The numbers 1 and 2 are in the order of their texts. -/
theorem verified_of_oneTwo : ∃ row, RowVerified JournalRun.textRuntime row := by
  obtain ⟨row, -, hverified⟩ := (payloads_verified_iff JournalRun.textRuntime Function.injective_id).1 .empty _
    (countsRecord 1 2 (by decide)) "2024-01-01" true _ rfl
  refine ⟨row, hverified.mpr fun w hw => ?_⟩
  cases hw
  refine ⟨?_, trivial, trivial, trivial⟩
  decide

/-- The numbers 9 and 10 are not: what is stored is reported as corrupt. -/
theorem corrupt_of_nineTen : ∃ n t', putState JournalRun.textRuntime .empty (countsRecord 9 10 (by decide))
      "2024-01-01" true = .ok (n, t') ∧
    ∃ e, getState JournalRun.textRuntime t' "k" "s" = .error (.corrupt e) := by
  refine ⟨_, _, rfl, corrupt_of_not_reproduced (StateStore.updateAt_self _ _ _ _) (by decide) fun h => ?_⟩
  have horder := (reproduced_iff Function.injective_id (rowCounts 9 10 (by decide)).isInput rfl).mp h _ rfl
  exact absurd horder.1 (by decide)

end Durability

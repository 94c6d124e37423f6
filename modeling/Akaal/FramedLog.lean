/-
# Logs of framed records

A log is a sequence of bytes in which every record stands behind its checksum and its length, two
words of four bytes.  The log is read from its start: a record that is cut off ends the reading,
one whose checksum does not match is skipped.

* `scan_frames` : whole records are read, in order.
-/
import Mathlib

namespace FramedLog

/-! ## Words -/

/-- A number as four bytes, the most significant first. -/
def word (n : ℕ) : List UInt8 :=
  [(n / 16777216).toUInt8, (n / 65536).toUInt8, (n / 256).toUInt8, n.toUInt8]

/-- The number bytes stand for, the most significant first. -/
def ofWord (bytes : List UInt8) : ℕ := bytes.foldl (fun n b => 256 * n + b.toNat) 0

@[simp] theorem length_word (n : ℕ) : (word n).length = 4 := rfl

theorem ofWord_word {n : ℕ} (h : n < 2 ^ 32) : ofWord (word n) = n := by
  simp only [word, ofWord, List.foldl_cons, List.foldl_nil, Nat.toUInt8, UInt8.toNat_ofNat']
  omega

/-! ## Frames -/

variable (checksum : List UInt8 → ℕ)

/-- A record behind its checksum and its length. -/
def frame (payload : List UInt8) : List UInt8 :=
  word (checksum payload) ++ (word payload.length ++ payload)

@[simp] theorem length_frame (payload : List UInt8) :
    (frame checksum payload).length = payload.length + 8 := by
  simp [frame]
  omega

/-- The first frame of a log: the checksum that is given, the record, and what follows; `none` when
the log ends before the frame does. -/
def readFrame (log : List UInt8) : Option (ℕ × List UInt8 × List UInt8) :=
  if log.length < 4 then none
  else if (log.drop 4).length < 4 then none
  else
    let length := ofWord ((log.drop 4).take 4)
    if (log.drop 8).length < length then none
    else some (ofWord (log.take 4), (log.drop 8).take length, (log.drop 8).drop length)

/-- The records of a log whose checksums match. -/
def scan : ℕ → List UInt8 → List (List UInt8)
  | 0, _ => []
  | fuel + 1, log =>
    match readFrame log with
    | none => []
    | some (sum, payload, rest) =>
      if checksum payload = sum then payload :: scan fuel rest else scan fuel rest

variable {checksum}

/-! ## Reading a frame -/

/-- What is read with a header of two words. -/
theorem readFrame_header {sum length : ℕ} (hsum : sum < 2 ^ 32) (hlength : length < 2 ^ 32)
    (rest : List UInt8) :
    readFrame (word sum ++ (word length ++ rest)) =
      if rest.length < length then none else some (sum, rest.take length, rest.drop length) := by
  have hfour : (word sum ++ (word length ++ rest)).drop 4 = word length ++ rest :=
    List.drop_left' (length_word sum)
  have height : (word sum ++ (word length ++ rest)).drop 8 = rest := by
    rw [show 8 = 4 + 4 from rfl, ← List.drop_drop, hfour, List.drop_left' (length_word length)]
  unfold readFrame
  rw [hfour, height, List.take_left' (length_word sum), List.take_left' (length_word length),
    ofWord_word hsum, ofWord_word hlength, if_neg (by simp), if_neg (by simp)]

theorem readFrame_frame {payload : List UInt8} (hsum : checksum payload < 2 ^ 32)
    (hlength : payload.length < 2 ^ 32) (rest : List UInt8) :
    readFrame (frame checksum payload ++ rest) = some (checksum payload, payload, rest) := by
  have hshort : ¬ (payload ++ rest).length < payload.length := by simp
  rw [frame, List.append_assoc, List.append_assoc, readFrame_header hsum hlength, if_neg hshort,
    List.take_left, List.drop_left]

theorem readFrame_torn {payload : List UInt8} (hsum : checksum payload < 2 ^ 32)
    (hlength : payload.length < 2 ^ 32) {kept : ℕ} (hkept : kept < payload.length + 8) :
    readFrame ((frame checksum payload).take kept) = none := by
  by_cases hheader : kept < 8
  · have hshort : ((frame checksum payload).take kept).length < 8 := by
      rw [List.length_take]
      omega
    rw [readFrame]
    split_ifs with hfour hrest
    · rfl
    · rfl
    · rw [List.length_drop] at hrest
      omega
  · have htake : (frame checksum payload).take kept =
        word (checksum payload) ++ (word payload.length ++ payload.take (kept - 8)) := by
      rw [frame, List.take_append, List.take_append, length_word, length_word,
        List.take_of_length_le (by rw [length_word]; omega),
        List.take_of_length_le (by rw [length_word]; omega), Nat.sub_sub]
    rw [htake, readFrame_header hsum hlength, if_pos]
    rw [List.length_take]
    omega

/-- What is read of a frame stands behind its header. -/
theorem readFrame_spec {log payload rest : List UInt8} {sum : ℕ}
    (h : readFrame log = some (sum, payload, rest)) :
    payload.length + 8 ≤ log.length ∧ payload = (log.drop 8).take payload.length ∧
      rest = (log.drop 8).drop payload.length := by
  unfold readFrame at h
  simp only at h
  split_ifs at h with hfour height hlength
  obtain ⟨-, hpayload, hrest⟩ : _ ∧ _ ∧ _ := by
    simpa only [Option.some.injEq, Prod.mk.injEq] using h
  have hlen : payload.length = ofWord ((log.drop 4).take 4) := by
    rw [← hpayload, List.length_take]
    omega
  rw [List.length_drop] at height hlength
  rw [hlen]
  exact ⟨by omega, hpayload.symm, hrest.symm⟩

theorem length_of_readFrame {log payload rest : List UInt8} {sum : ℕ}
    (h : readFrame log = some (sum, payload, rest)) :
    log.length = payload.length + rest.length + 8 := by
  obtain ⟨hle, -, hrest⟩ := readFrame_spec h
  rw [hrest, List.length_drop, List.length_drop]
  omega

/-! ## Reading a log -/

theorem scan_of_length_lt {fuel other : ℕ} {log : List UInt8} (hfuel : log.length < fuel)
    (hother : log.length < other) : scan checksum fuel log = scan checksum other log := by
  induction fuel generalizing log other with
  | zero => omega
  | succ fuel ih =>
    obtain ⟨other, rfl⟩ := Nat.exists_eq_add_of_le' (Nat.zero_lt_of_lt hother)
    rw [scan, scan]
    cases hread : readFrame log with
    | none => rfl
    | some entry =>
      obtain ⟨sum, first, rest⟩ := entry
      have hlength := length_of_readFrame hread
      have hrest : scan checksum fuel rest = scan checksum other rest :=
        ih (by omega) (by omega)
      simp only [hrest]

/-- **Whole records are read**, in order, and then what follows them. -/
theorem scan_frames {payloads : List (List UInt8)}
    (hpayloads : ∀ payload ∈ payloads, checksum payload < 2 ^ 32 ∧ payload.length < 2 ^ 32)
    (tail : List UInt8) (fuel : ℕ) :
    scan checksum (fuel + payloads.length) (payloads.flatMap (frame checksum) ++ tail) =
      payloads ++ scan checksum fuel tail := by
  induction payloads with
  | nil => rfl
  | cons payload payloads ih =>
    obtain ⟨⟨hsum, hlength⟩, hrest⟩ := List.forall_mem_cons.mp hpayloads
    rw [List.length_cons, ← Nat.add_assoc, scan, List.flatMap_cons, List.append_assoc,
      readFrame_frame hsum hlength]
    simp only [if_true]
    rw [ih hrest, List.cons_append]

end FramedLog

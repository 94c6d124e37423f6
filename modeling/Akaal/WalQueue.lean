/-
# The write-ahead log queue

`streaming/buffering/wal_queue.py`.  A record is appended to the segment as its CRC-32, its length
and its JSON text; `replay_wal` reads the segment from its start.

* `replayWal_eq` : what is replayed is what the frames of the segment hold;
* `loadRecord_encoded` : the bytes of a record are read as that record;
* `replays_of_findsWhole` : the runs in which every record is replayed.

Only one segment is ever written; the directory holds no other files.
-/
import Akaal.FramedLog
import Akaal.FramedBytes
import Akaal.JsonRoundTrip
import Akaal.TransitionRun

open FramedLog FramedBytes JsonText TransitionRun

namespace Streaming

/-! ## The checksum -/

/-- One step of the division by the polynomial of CRC-32. -/
def crcStep (c : UInt32) : UInt32 :=
  if c &&& 1 = 1 then (c >>> 1) ^^^ 0xEDB88320 else c >>> 1

/-- `zlib.crc32`. -/
def crc32 (data : List UInt8) : ℕ :=
  (data.foldl (fun c b => crcStep^[8] (c ^^^ b.toUInt32)) 0xFFFFFFFF ^^^ 0xFFFFFFFF).toNat

example : crc32 (utf8 "123456789") = 0xCBF43926 := by decide +kernel

theorem crc32_lt (data : List UInt8) : crc32 data < 2 ^ 32 := UInt32.toNat_lt _

/-! ## Records -/

/-- The arguments of `append_record`, and the time of the call. -/
structure WalRecord where
  recordType : String
  data : List (String × PyValue)
  timestamp : PyFloat
  isValue : IsValue (.dict data)
  isFloat : IsFloat timestamp

/-- The exceptions of the two calls. -/
inductive WalError where
  | typeError (exception : PyException)
  | overflowError
  | unicodeDecodeError
  | jsonDecodeError
  deriving DecidableEq

/-- `DurableWALRingBuffer`, with the bytes of its segment. -/
structure DurableWALRingBuffer where
  migrationId : String
  file : List UInt8

namespace DurableWALRingBuffer

variable (w : DurableWALRingBuffer)

/-- The record that is written. -/
def payload (r : WalRecord) : PyValue :=
  .dict [("migration_id", .str w.migrationId), ("type", .str r.recordType),
    ("timestamp", .float r.timestamp), ("data", .dict r.data)]

/-- `json.dumps(payload).encode("utf-8")`. -/
def encoded (r : WalRecord) : Except WalError (List UInt8) :=
  match dumps false (w.payload r) with
  | .ok text => .ok (utf8 text)
  | .error e => .error (.typeError e)

/-- Add bytes to the segment. -/
def write (bytes : List UInt8) : DurableWALRingBuffer := { w with file := w.file ++ bytes }

/-- What `append_record` writes: the frame of the record; a length that does not fit its four bytes
raises when the checksum is written already. -/
def writtenBytes (bytes : List UInt8) : List UInt8 :=
  if bytes.length < 2 ^ 32 then frame crc32 bytes else word (crc32 bytes)

/-- `append_record`: its result, and the buffer after it. -/
def appendRecord (r : WalRecord) : Except WalError (ℕ × PyFloat) × DurableWALRingBuffer :=
  match w.encoded r with
  | .error e => (.error e, w)
  | .ok bytes =>
    (if bytes.length < 2 ^ 32 then .ok (crc32 bytes, r.timestamp) else .error .overflowError,
      w.write (writtenBytes bytes))

/-- A crash in `append_record` that leaves the first bytes of what it writes. -/
def crashDuring (r : WalRecord) (kept : ℕ) : DurableWALRingBuffer :=
  match w.encoded r with
  | .error _ => w
  | .ok bytes => w.write ((writtenBytes bytes).take kept)

/-- `json.loads(data_bytes.decode("utf-8"))`. -/
def loadRecord (data : List UInt8) : Except WalError PyValue :=
  match ofUtf8 data with
  | none => .error .unicodeDecodeError
  | some text =>
    match loads text with
    | none => .error .jsonDecodeError
    | some v => .ok v

/-- The loop of `replay_wal` over the bytes of the segment that are left. -/
def replayFrom : ℕ → List UInt8 → List PyValue → Except WalError (List PyValue)
  | 0, _, records => .ok records
  | fuel + 1, log, records =>
    let crcBytes := log.take 4
    if crcBytes.length < 4 then .ok records
    else
      let expectedCrc := ofWord crcBytes
      let lenBytes := (log.drop 4).take 4
      if lenBytes.length < 4 then .ok records
      else
        let dataLen := ofWord lenBytes
        let dataBytes := (log.drop 8).take dataLen
        let rest := (log.drop 8).drop dataLen
        if dataBytes.length < dataLen then .ok records
        else if crc32 dataBytes ≠ expectedCrc then replayFrom fuel rest records
        else do
          let payload ← loadRecord dataBytes
          replayFrom fuel rest (records ++ [payload])

/-- `replay_wal`; every pass of the loop takes eight bytes or more. -/
def replayWal : Except WalError (List PyValue) := replayFrom (w.file.length + 1) w.file []

/-! ## Replay -/

/-- The loop reads a frame. -/
theorem replayFrom_eq_readFrame (fuel : ℕ) (log : List UInt8) (records : List PyValue) :
    replayFrom (fuel + 1) log records = (match readFrame log with
      | none => .ok records
      | some (sum, data, rest) =>
        if crc32 data ≠ sum then replayFrom fuel rest records
        else loadRecord data >>= fun payload => replayFrom fuel rest (records ++ [payload])) := by
  have hcut : ∀ l : List UInt8, (l.take 4).length < 4 ↔ l.length < 4 := by
    intro l
    rw [List.length_take]
    omega
  have hdata : ∀ (l : List UInt8) (n : ℕ), (l.take n).length < n ↔ l.length < n := by
    intro l n
    rw [List.length_take]
    omega
  rw [replayFrom, readFrame]
  simp only [hcut, hdata]
  by_cases hsum : log.length < 4
  · rw [if_pos hsum, if_pos hsum]
  · rw [if_neg hsum, if_neg hsum]
    by_cases hlen : (log.drop 4).length < 4
    · rw [if_pos hlen, if_pos hlen]
    · rw [if_neg hlen, if_neg hlen]
      by_cases hshort : (log.drop 8).length < ofWord ((log.drop 4).take 4)
      · rw [if_pos hshort, if_pos hshort]
      · rw [if_neg hshort, if_neg hshort]

/-- **What is replayed** is what the frames of the segment hold. -/
theorem replayFrom_eq (fuel : ℕ) (log : List UInt8) (records : List PyValue) :
    replayFrom fuel log records =
      (fun loaded => records ++ loaded) <$> (scan crc32 fuel log).mapM loadRecord := by
  induction fuel generalizing log records with
  | zero =>
    show Except.ok records = Except.ok (records ++ [])
    rw [List.append_nil]
  | succ fuel ih =>
    rw [replayFrom_eq_readFrame, scan]
    cases hread : readFrame log with
    | none =>
      show Except.ok records = Except.ok (records ++ [])
      rw [List.append_nil]
    | some entry =>
      obtain ⟨sum, data, rest⟩ := entry
      simp only
      by_cases hsum : crc32 data = sum
      · rw [if_neg (not_not.mpr hsum), if_pos hsum, List.mapM_cons]
        cases hload : loadRecord data with
        | error e => rfl
        | ok payload =>
          show replayFrom fuel rest (records ++ [payload]) = _
          rw [ih]
          cases (scan crc32 fuel rest).mapM loadRecord with
          | error e => rfl
          | ok loaded =>
            show Except.ok (records ++ [payload] ++ loaded) =
              Except.ok (records ++ payload :: loaded)
            rw [List.append_assoc, List.singleton_append]
      · rw [if_pos hsum, if_neg hsum]
        exact ih rest records

theorem replayWal_eq : w.replayWal = (scan crc32 (w.file.length + 1) w.file).mapM loadRecord := by
  rw [replayWal, replayFrom_eq]
  cases (scan crc32 (w.file.length + 1) w.file).mapM loadRecord <;> rfl

/-! ## The text of a record -/

/-- The text of a record with the text of its data. -/
def recordText (r : WalRecord) (data : String) : String :=
  "\x7b" ++ ", ".intercalate [memberText ("migration_id", quote w.migrationId),
    memberText ("type", quote r.recordType), memberText ("timestamp", r.timestamp.jsonText),
    memberText ("data", data)] ++ "\x7d"

theorem dumps_payload (r : WalRecord) :
    dumps false (w.payload r) = w.recordText r <$> dumps false (.dict r.data) := by
  rw [payload, dumps.eq_def]
  simp only [dumpsMembers]
  cases dumps false (.dict r.data) <;> rfl

variable {bytes : List UInt8} {payloads : List (List UInt8)} {rs : List WalRecord}

theorem encoded_eq_ok_iff {r : WalRecord} : w.encoded r = .ok bytes ↔
      ∃ data, dumps false (.dict r.data) = .ok data ∧ bytes = utf8 (w.recordText r data) := by
  unfold encoded
  rw [dumps_payload]
  cases dumps false (.dict r.data) with
  | error e =>
    constructor
    · intro h
      cases h
    · rintro ⟨data, ⟨⟩, -⟩
  | ok data =>
    constructor
    · intro h
      exact ⟨data, rfl, (Except.ok.inj h).symm⟩
    · rintro ⟨data', hdata, hbytes⟩
      rw [hbytes, Except.ok.inj hdata]
      rfl

theorem isValue_payload (r : WalRecord) : IsValue (w.payload r) := by
  refine ⟨by simp, ?_⟩
  exact ⟨trivial, trivial, r.isFloat, r.isValue, trivial⟩

/-- The bytes of a record are read as that record. -/
theorem loadRecord_encoded {r : WalRecord} (h : w.encoded r = .ok bytes) :
    loadRecord bytes = .ok (w.payload r) := by
  obtain ⟨data, hdata, hbytes⟩ := w.encoded_eq_ok_iff.mp h
  have hdumps : dumps false (w.payload r) = .ok (w.recordText r data) := by
    rw [dumps_payload, hdata]
    rfl
  rw [hbytes]
  simp only [loadRecord, ofUtf8_utf8, loads_dumps (w.isValue_payload r) hdumps]

/-! ## Segments of records -/

/-- The bytes of a record whose length fits its four bytes. -/
def IsEncoding (r : WalRecord) (bytes : List UInt8) : Prop :=
  w.encoded r = .ok bytes ∧ bytes.length < 2 ^ 32

theorem forall_lt_of_forall₂ (h : List.Forall₂ w.IsEncoding rs payloads) :
    ∀ data ∈ payloads, crc32 data < 2 ^ 32 ∧ data.length < 2 ^ 32 := by
  intro data hdata
  induction h with
  | nil => cases hdata
  | cons hr hrs ih =>
    rcases List.mem_cons.mp hdata with rfl | hdata
    · exact ⟨crc32_lt _, hr.2⟩
    · exact ih hdata

theorem mapM_loadRecord (h : List.Forall₂ w.IsEncoding rs payloads) :
    payloads.mapM loadRecord = .ok (rs.map w.payload) := by
  induction h with
  | nil => rfl
  | cons hr hrs ih =>
    rw [List.mapM_cons, w.loadRecord_encoded hr.1, ih]
    rfl

/-- A segment of whole records, and of bytes of which no frame is read, replays as the records. -/
theorem replayWal_of_frames {tail : List UInt8} (h : List.Forall₂ w.IsEncoding rs payloads)
    (hfile : w.file = payloads.flatMap (frame crc32) ++ tail) (htail : readFrame tail = none) :
    w.replayWal = .ok (rs.map w.payload) := by
  have hscan : scan crc32 (w.file.length + 1) w.file = payloads := by
    rw [@scan_of_length_lt crc32 _ (w.file.length + 1 + payloads.length) _ (by omega) (by omega)]
    conv_lhs => rw [hfile]
    rw [scan_frames (w.forall_lt_of_forall₂ h), scan, htail, List.append_nil]
  rw [replayWal_eq, hscan, w.mapM_loadRecord h]

theorem readFrame_take_writtenBytes {kept : ℕ}
    (h : ¬ (bytes.length < 2 ^ 32 ∧ bytes.length + 8 ≤ kept)) :
    readFrame ((writtenBytes bytes).take kept) = none := by
  unfold writtenBytes
  split_ifs with hlength
  · exact readFrame_torn (crc32_lt bytes) hlength (by omega)
  · have hshort : ((word (crc32 bytes)).take kept).length ≤ 4 := by
      rw [List.length_take, length_word]
      omega
    unfold readFrame
    split_ifs with h1 h2
    · rfl
    · rfl
    · rw [List.length_drop] at h2
      omega

end DurableWALRingBuffer

/-! ## Runs -/

/-- The state of a run: the buffer, the records that were completely written, and whether bytes of
an incomplete one were. -/
structure WalRun where
  wal : DurableWALRingBuffer
  written : List WalRecord
  torn : Bool

/-- A call of `append_record`, which returns or raises, or in which the process crashes; a restart
finds what is on the disk. -/
inductive WalAction where
  | append (record : WalRecord)
  | crash (record : WalRecord) (kept : ℕ)

namespace WalRun

open DurableWALRingBuffer

/-- One call. -/
def walStep (s : WalRun) : WalAction → Option WalRun
  | .append r =>
    match s.wal.appendRecord r with
    | (.ok _, wal) => some { s with wal := wal, written := s.written ++ [r] }
    | (.error _, wal) => some { s with wal := wal, torn := s.torn || wal.file != s.wal.file }
  | .crash r kept =>
    match s.wal.encoded r with
    | .error _ => some s
    | .ok bytes =>
      if bytes.length < 2 ^ 32 ∧ bytes.length + 8 ≤ kept then
        some { s with wal := s.wal.crashDuring r kept, written := s.written ++ [r] }
      else some { s with wal := s.wal.crashDuring r kept, torn := s.torn || 0 < kept }

/-- `replay_wal` returns the records that were completely written, in order, and no other. -/
def Replays (s : WalRun) : Prop :=
  s.wal.replayWal = .ok (s.written.map s.wal.payload)

/-- The condition.  A call that writes anything finds no bytes of an incomplete record. -/
def FindsWhole (s : WalRun) : WalAction → Prop
  | .append r => s.torn = true → ∀ bytes, s.wal.encoded r ≠ .ok bytes
  | .crash r kept => s.torn = true → kept = 0 ∨ ∀ bytes, s.wal.encoded r ≠ .ok bytes

/-- The segment holds the records, and behind them at most the bytes of an incomplete one. -/
def Segmented (s : WalRun) : Prop :=
  ∃ payloads tail, List.Forall₂ s.wal.IsEncoding s.written payloads ∧
    s.wal.file = payloads.flatMap (frame crc32) ++ tail ∧ readFrame tail = none ∧
    (s.torn = false → tail = [])

variable {s s' : WalRun}

theorem Segmented.replays (h : Segmented s) : Replays s := by
  obtain ⟨payloads, tail, hall, hfile, htail, -⟩ := h
  exact s.wal.replayWal_of_frames hall hfile htail

/-- A whole record is added behind whole ones. -/
theorem Segmented.add_record (h : Segmented s) (htorn : s.torn = false) {r : WalRecord}
    {bytes : List UInt8} (hr : s.wal.IsEncoding r bytes) :
    Segmented { s with
      wal := s.wal.write (frame crc32 bytes)
      written := s.written ++ [r] } := by
  obtain ⟨payloads, tail, hall, hfile, -, hempty⟩ := h
  rw [hempty htorn, List.append_nil] at hfile
  refine ⟨payloads ++ [bytes], [], ?_, ?_, rfl, fun _ => rfl⟩
  · exact List.rel_append hall (.cons hr .nil)
  · show s.wal.file ++ frame crc32 bytes = _
    rw [hfile]
    simp

theorem Segmented.add_torn (h : Segmented s) (htorn : s.torn = false) {bytes : List UInt8}
    {torn : Bool} (hread : readFrame bytes = none) (hbytes : torn = false → bytes = []) :
    Segmented { s with wal := s.wal.write bytes, torn := torn } := by
  obtain ⟨payloads, tail, hall, hfile, -, hempty⟩ := h
  rw [hempty htorn, List.append_nil] at hfile
  refine ⟨payloads, bytes, hall, ?_, hread, hbytes⟩
  show s.wal.file ++ bytes = _
  rw [hfile]

theorem Segmented.step (h : Segmented s) {a : WalAction} (hfinds : FindsWhole s a)
    (hstep : walStep s a = some s') : Segmented s' := by
  cases a with
  | append r =>
    rw [walStep, appendRecord] at hstep
    cases hr : s.wal.encoded r with
    | error e =>
      simp only [hr, Option.some.injEq] at hstep
      rw [← hstep]
      simpa using h
    | ok bytes =>
      have htorn : s.torn = false := by
        by_contra hne
        exact hfinds (Bool.not_eq_false _ ▸ hne) bytes hr
      simp only [hr] at hstep
      by_cases hlength : bytes.length < 2 ^ 32
      · simp only [hlength, if_true, Option.some.injEq] at hstep
        rw [← hstep, writtenBytes, if_pos hlength]
        exact h.add_record htorn ⟨hr, hlength⟩
      · -- the length does not fit: the call raises behind the checksum
        simp only [hlength, if_false, Option.some.injEq] at hstep
        have htake : (writtenBytes bytes).take 4 = writtenBytes bytes := by
          rw [writtenBytes, if_neg hlength]
          rfl
        have hread := @readFrame_take_writtenBytes bytes 4 fun hboth => hlength hboth.1
        rw [htake] at hread
        rw [← hstep]
        refine h.add_torn htorn hread fun hflag => ?_
        have hflags : s.torn = false ∧ writtenBytes bytes = [] := by
          simpa [write] using hflag
        exact hflags.2
  | crash r kept =>
    rw [walStep, crashDuring] at hstep
    cases hr : s.wal.encoded r with
    | error e =>
      simp only [hr, Option.some.injEq] at hstep
      rw [← hstep]
      exact h
    | ok bytes =>
      simp only [hr] at hstep
      rcases Nat.eq_zero_or_pos kept with rfl | hkept
      · -- nothing reached the disk
        rw [if_neg (by omega), Option.some.injEq] at hstep
        rw [← hstep]
        simpa [write] using h
      · have htorn : s.torn = false := by
          by_contra hne
          rcases hfinds (Bool.not_eq_false _ ▸ hne) with hzero | hnone
          · omega
          · exact hnone bytes hr
        split_ifs at hstep with hwhole
        · have htake : (writtenBytes bytes).take kept = frame crc32 bytes := by
            rw [writtenBytes, if_pos hwhole.1, List.take_of_length_le]
            rw [length_frame]
            exact hwhole.2
          rw [Option.some.injEq, htake] at hstep
          rw [← hstep]
          exact h.add_record htorn ⟨hr, hwhole.1⟩
        · rw [Option.some.injEq] at hstep
          rw [← hstep]
          refine h.add_torn htorn (readFrame_take_writtenBytes hwhole) fun hflag => ?_
          simp [hkept] at hflag

/-- A new buffer over an empty directory. -/
def new (migrationId : String) : WalRun := ⟨⟨migrationId, []⟩, [], false⟩

theorem segmented_new (migrationId : String) : Segmented (new migrationId) :=
  ⟨[], [], .nil, rfl, rfl, fun _ => rfl⟩

/-- **Replay.**  In every run, from an empty directory, in which no call writes behind the bytes of
an incomplete record, `replay_wal` returns in every state the records that were completely written
before the crashes and after them, in order. -/
theorem replays_of_findsWhole {migrationId : String} {as : List WalAction}
    (h : MeetsAlong walStep FindsWhole (new migrationId) as) :
    HoldsAlong walStep Replays (new migrationId) as := by
  have hsegmented := holdsAlong_of_meetsAlong (P := Segmented)
    (fun _ _ _ hs hfinds hstep => hs.step hfinds hstep) (segmented_new migrationId) h
  exact hsegmented.imp fun _ => Segmented.replays

/-- A record without data. -/
def epochRecord : WalRecord :=
  ⟨"EPOCH", [], .finite 1750000000, ⟨List.nodup_nil, trivial⟩, Or.inr (by decide +kernel)⟩

/-- A record is appended, a crash cuts one off, and the segment is read. -/
theorem replays_appended_crashed :
    HoldsAlong walStep Replays (new "m1") [.append epochRecord, .crash epochRecord 9] := by
  refine replays_of_findsWhole fun s hs => ⟨fun htorn => ?_, fun s' hs' => ⟨fun htorn => ?_, ?_⟩⟩
  · exact absurd htorn (by decide)
  · have hflag : (walStep (new "m1") (.append epochRecord)).map WalRun.torn = some false := by
      decide +kernel
    rw [hs, Option.map_some, Option.some.injEq] at hflag
    exact absurd htorn (by rw [hflag]; decide)
  · trivial

set_option maxRecDepth 20000 in
/-- A crash leaves one byte of a record; the record that is appended after the restart is not
replayed. -/
theorem not_replays_crashed_appended : ¬ ∀ (migrationId : String) (as : List WalAction),
      HoldsAlong walStep Replays (new migrationId) as := by
  intro h
  have hrun : (run walStep (new "m1") [.crash epochRecord 1, .append epochRecord]).map
      (fun s => (s.wal.replayWal.toOption.map List.length, s.written.length)) =
        some (some 0, 1) := by
    decide +kernel
  obtain ⟨s, hs, hcounts⟩ := Option.map_eq_some_iff.mp hrun
  obtain ⟨hread, hwritten⟩ := Prod.mk.inj hcounts
  have hreplays : Replays s := (h "m1" _).finish hs
  rw [hreplays, Except.toOption, Option.map_some, List.length_map, hwritten] at hread
  exact absurd hread (by decide)

end WalRun

end Streaming

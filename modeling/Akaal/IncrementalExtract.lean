/-
# Incremental extraction by watermark

`TransportAuthority.extract_incremental` and `apply_incremental` of `transport/api.py`: a
cycle opens each table with the last watermark as the resume position of the reader, reads
one batch from it, and returns the textually greatest watermark value it met, which the next
cycle starts from.  All tables share the one watermark.

A system is the sequence of cycles over tables that may change between them.  The history
keeps the rows that were in a table when a cycle started, and those extracted.

* `noRowPassed_iff` : along a run of cycles the watermark never passes a row that has not been
  extracted exactly when every cycle is `CycleSafe`;
* `not_noRowPassed_of_batch_limit` : rows are read in the order of the key, so a batch limit
  leaves behind rows with smaller watermarks.
-/
import Akaal.TransitionRun
import Akaal.GenericSqlReader

namespace Transport

open TransitionRun

variable {V : Type*}

/-! ## Values and watermarks -/

/-- What Python does with a value: `v.isoformat()` where the value has it (and `v`
otherwise), `str(v)`, and a string as a value. -/
structure PythonValues (V : Type*) where
  isoformat : V → V
  str : V → String
  ofString : String → V

/-- A watermark: the value it stands for, what is passed to the query, and its text. -/
structure Watermark (V : Type*) where
  value : V
  param : V
  text : String

/-- The watermark taken from a row: from then on it is a string. -/
def Watermark.ofRow (py : PythonValues V) (v : V) : Watermark V :=
  let text := py.str (py.isoformat v)
  ⟨v, py.ofString text, text⟩

/-- `if max_wm is None or str(val) > str(max_wm)`. -/
def raiseWatermark (current : Option (Watermark V)) (w : Watermark V) : Option (Watermark V) :=
  match current with
  | none => some w
  | some m => if m.text < w.text then some w else some m

/-- The textually greatest of some watermarks, and the first of them in a tie. -/
def IsTextMax (candidates : List (Watermark V)) (w : Watermark V) : Prop :=
  ∃ before after, candidates = before ++ w :: after ∧ (∀ c ∈ before, c.text < w.text) ∧
    ∀ c ∈ after, c.text ≤ w.text

variable {candidates : List (Watermark V)}

theorem IsTextMax.unique {w w' : Watermark V}
    (h : IsTextMax candidates w) (h' : IsTextMax candidates w') : w = w' := by
  -- of two, the one that comes first would be smaller than the other and not smaller
  have hfirst : ∀ {b a : List (Watermark V)} {b' a' : List (Watermark V)} {m m' : Watermark V},
      (∀ c ∈ a, c.text ≤ m.text) → (∀ c ∈ b', c.text < m'.text) →
        ∀ l, b' = b ++ l → m :: a = l ++ m' :: a' → m = m' := by
    intro b a b' a' m m' hafter hbefore l hl heq
    cases l with
    | nil => exact (List.cons.inj heq).1
    | cons c l =>
      obtain ⟨rfl, ha⟩ := List.cons.inj heq
      have hlt : m.text < m'.text := hbefore m (by simp [hl])
      have hle : m'.text ≤ m.text := hafter m' (by simp [ha])
      exact absurd hlt (not_lt.mpr hle)
  obtain ⟨before, after, heq, hbefore, hafter⟩ := h
  obtain ⟨before', after', heq', hbefore', hafter'⟩ := h'
  rw [heq] at heq'
  rcases List.append_eq_append_iff.mp heq' with ⟨l, hl, hrest⟩ | ⟨l, hl, hrest⟩
  · exact hfirst hafter hbefore' l hl hrest
  · exact (hfirst hafter' hbefore l hl hrest).symm

theorem IsTextMax.raise {m : Watermark V} (h : IsTextMax candidates m) (w : Watermark V) :
    ∃ m', raiseWatermark (some m) w = some m' ∧ IsTextMax (candidates ++ [w]) m' := by
  obtain ⟨before, after, rfl, hbefore, hafter⟩ := h
  by_cases hlt : m.text < w.text
  · refine ⟨w, by simp [raiseWatermark, hlt], before ++ m :: after, [], rfl, ?_, by simp⟩
    intro c hc
    rcases List.mem_append.mp hc with hc | hc
    · exact lt_trans (hbefore c hc) hlt
    · rcases List.mem_cons.mp hc with rfl | hc
      · exact hlt
      · exact lt_of_le_of_lt (hafter c hc) hlt
  · refine ⟨m, by simp [raiseWatermark, hlt], before, after ++ [w], by simp, hbefore, ?_⟩
    intro c hc
    rcases List.mem_append.mp hc with hc | hc
    · exact hafter c hc
    · rw [List.mem_singleton.mp hc]
      exact not_lt.mp hlt

/-- Raising a watermark over a list ends with the textually greatest of them all. -/
theorem foldl_raiseWatermark_eq_some {current : Option (Watermark V)} {w : Watermark V} :
    candidates.foldl raiseWatermark current = some w ↔
      IsTextMax (current.toList ++ candidates) w := by
  have hexists : ∀ l : List (Watermark V), l ≠ [] →
      ∃ m, l.foldl raiseWatermark none = some m ∧ IsTextMax l m := by
    intro l hl
    induction l using List.reverseRecOn with
    | nil => exact absurd rfl hl
    | append_singleton l c ih =>
      rw [List.foldl_append]
      by_cases hnil : l = []
      · subst hnil
        exact ⟨c, rfl, [], [], rfl, by simp, by simp⟩
      · obtain ⟨m, hm, hmax⟩ := ih hnil
        obtain ⟨m', hm', hmax'⟩ := hmax.raise c
        exact ⟨m', by rw [hm]; exact hm', hmax'⟩
  have hstart : candidates.foldl raiseWatermark current =
      (current.toList ++ candidates).foldl raiseWatermark none := by
    cases current <;> rfl
  rw [hstart]
  constructor
  · intro h
    have hne : current.toList ++ candidates ≠ [] := by
      intro hnil
      simp [hnil] at h
    obtain ⟨m, hm, hmax⟩ := hexists _ hne
    rw [hm, Option.some.injEq] at h
    exact h ▸ hmax
  · intro h
    have hne : current.toList ++ candidates ≠ [] := by
      obtain ⟨before, after, heq, -⟩ := h
      simp [heq]
    obtain ⟨m, hm, hmax⟩ := hexists _ hne
    rw [hm, hmax.unique h]

/-! ## Extraction -/

/-- The entries of the payload that extraction reads, with their defaults. -/
structure IncrementalPayload where
  tables : List String
  watermarkColumn : String := "updated_at"
  pkColumns : List String := ["id"]
  batchSize : ℕ := 5000
  schema : String := ""
  deriving DecidableEq

/-- The partition a table is opened with: the watermark is its lower bound, and it has no
upper bound. -/
def incrementalPartition (payload : IncrementalPayload) (table : String) (lastWm : Option V) :
    TransportPartition V where
  partitionId := s!"p-inc-{table}"
  tableName := table
  schemaName := payload.schema
  targetSchema := payload.schema
  strategy := .pkNumericRange
  pkColumns := payload.pkColumns
  lowerBound := lastWm

/-- The watermark column of a row: the configured one, or one of two usual names. -/
def rowWatermarkColumn (payload : IncrementalPayload) (row : SqlRow V) : Option String :=
  if payload.watermarkColumn ∈ row.map Prod.fst then some payload.watermarkColumn
  else if "event_time" ∈ row.map Prod.fst then some "event_time"
  else if "updated_at" ∈ row.map Prod.fst then some "updated_at"
  else none

/-- `tbl_wm_col`: the watermark column of the first row. -/
def tableWatermarkColumn (payload : IncrementalPayload) (rows : List (SqlRow V)) : Option String :=
  rows.head?.bind (rowWatermarkColumn payload)

/-- The entry of a table in `batches_by_table`. -/
structure ExtractedBatch (V : Type*) where
  columns : List String
  rows : List (SqlRow V)
  rowCount : ℕ
  pkColumns : List String
  watermarkColumn : Option String

/-- What `extract_incremental` returns. -/
structure ExtractResult (V : Type*) where
  extractedRecords : ℕ
  watermarkColumn : String
  extractedWatermark : Option (Watermark V)
  batchesByTable : List (String × ExtractedBatch V)

/-- The rows read from a table: `open_partition` and one `read_batch`. -/
def fetchTable (payload : IncrementalPayload) (strLen : SqlRow V → ℕ) (lastWm : Option V)
    (table : String) (columnNames : List String) (answer : Option (List (SqlRow V))) :
    List (SqlRow V) :=
  let reader := openPartition (incrementalPartition payload table lastWm) columnNames lastWm answer
  match (readBatch strLen payload.batchSize reader).2 with
  | some batch => batch.rows
  | none => []

/-- The watermark values of the rows of a batch, in their order. -/
def batchWatermarks (py : PythonValues V) (payload : IncrementalPayload)
    (rows : List (SqlRow V)) : List (Watermark V) :=
  rows.filterMap fun row =>
    (tableWatermarkColumn payload rows).bind fun column => (row.value column).map (.ofRow py)

/-- The entry of a table: its rows, with every value in ISO format that has one. -/
def extractedBatch (py : PythonValues V) (payload : IncrementalPayload)
    (columnNames : List String) (rows : List (SqlRow V)) : ExtractedBatch V where
  columns := if rows = [] then [] else columnNames
  rows := rows.map fun row => row.map fun (column, value) => (column, value.map py.isoformat)
  rowCount := rows.length
  pkColumns := payload.pkColumns
  watermarkColumn := tableWatermarkColumn payload rows

/-- `extract_incremental`; `fetched` gives the rows read from each table. -/
def extractIncremental (py : PythonValues V) (payload : IncrementalPayload)
    (lastWm : Option (Watermark V)) (columnNames : String → List String)
    (fetched : String → List (SqlRow V)) : ExtractResult V where
  extractedRecords := (payload.tables.map fun t => (fetched t).length).sum
  watermarkColumn := payload.watermarkColumn
  extractedWatermark :=
    (payload.tables.flatMap fun t => batchWatermarks py payload (fetched t)).foldl raiseWatermark
      lastWm
  batchesByTable :=
    payload.tables.eraseDups.map fun t =>
      (t, extractedBatch py payload (columnNames t) (fetched t))

/-- What `apply_incremental` returns. -/
structure ApplyResult (V : Type*) where
  appliedRecords : ℕ
  committedWatermark : Option (Watermark V)

/-- `apply_incremental`: every batch with rows is written, and one commit ends the cycle;
`written` is the count the writer returns for a batch. -/
def applyIncremental (written : String × ExtractedBatch V → ℕ) (result : ExtractResult V) :
    ApplyResult V where
  appliedRecords := ((result.batchesByTable.filter fun b => !b.2.rows.isEmpty).map written).sum
  committedWatermark := result.extractedWatermark

/-- The watermark value of a row. -/
def rowWatermark (payload : IncrementalPayload) (row : SqlRow V) : Option V :=
  (rowWatermarkColumn payload row).bind row.value

/-- The rows of a table agree on the watermark column, so the first row decides it for
all. -/
theorem batchWatermarks_eq (py : PythonValues V) (payload : IncrementalPayload)
    {columns : List String} {rows : List (SqlRow V)}
    (hcolumns : ∀ r ∈ rows, r.map Prod.fst = columns) :
    batchWatermarks py payload rows =
      rows.filterMap fun row => (rowWatermark payload row).map (.ofRow py) := by
  unfold batchWatermarks
  apply List.filterMap_congr
  intro row hrow
  have hcolumn : tableWatermarkColumn payload rows = rowWatermarkColumn payload row := by
    cases rows with
    | nil => simp at hrow
    | cons first rest =>
      have hfirst := hcolumns first List.mem_cons_self
      have hthis := hcolumns row hrow
      simp only [tableWatermarkColumn, List.head?_cons, Option.bind_some, rowWatermarkColumn,
        hfirst, hthis]
  rw [hcolumn]
  unfold rowWatermark
  cases rowWatermarkColumn payload row <;> rfl

/-! ## Cycles -/

section Cycles

variable [LinearOrder V]

/-- The source during one cycle: the contents of the tables, and an answer to each query the
cycle may make (none if no connection can be made). -/
structure SourceSnapshot (d : SqlDialect V V) (payload : IncrementalPayload) where
  contents : String → SqlTable V
  answer : String → Option V → Option (List (SqlRow V))
  isQueryResult : ∀ table lastWm rows, answer table lastWm = some rows →
    IsQueryResult d (contents table) (incrementalPartition payload table lastWm) lastWm rows

/-- The rows one cycle reads from a table. -/
def SourceSnapshot.fetched {d : SqlDialect V V} {payload : IncrementalPayload}
    (source : SourceSnapshot d payload) (strLen : SqlRow V → ℕ) (lastWm : Option V)
    (table : String) : List (SqlRow V) :=
  fetchTable payload strLen lastWm table (source.contents table).columns
    (source.answer table lastWm)

/-- The watermark, and the history: the rows that were in a table when a cycle started, and
the rows extracted. -/
structure IncrementalState (V : Type*) where
  watermark : Option (Watermark V)
  seen : List (String × SqlRow V)
  extracted : List (String × SqlRow V)

/-- Before the first cycle. -/
def IncrementalState.init (initial : Option (Watermark V)) : IncrementalState V where
  watermark := initial
  seen := []
  extracted := []

/-- One cycle: extraction, application, and the watermark for the next cycle. -/
def incrementalCycle (py : PythonValues V) {d : SqlDialect V V} (payload : IncrementalPayload)
    (strLen : SqlRow V → ℕ) (written : String × ExtractedBatch V → ℕ) (s : IncrementalState V)
    (source : SourceSnapshot d payload) : Option (IncrementalState V) :=
  let fetched := source.fetched strLen (s.watermark.map (·.param))
  let result := extractIncremental py payload s.watermark
    (fun t => (source.contents t).columns) fetched
  some
    { watermark := (applyIncremental written result).committedWatermark
      seen := s.seen ++ payload.tables.flatMap fun t => (source.contents t).rows.map (t, ·)
      extracted := s.extracted ++ payload.tables.flatMap fun t => (fetched t).map (t, ·) }

/-! ## The property -/

/-- A value above the watermark of the first cycle, if it was given one. -/
def AboveInitial (initial : Option (Watermark V)) (v : V) : Prop :=
  ∀ w, initial = some w → w.value < v

/-- The watermark has not passed a row that is not extracted: every row that was in a table
when a cycle started, with a value above the initial watermark, is extracted or above the
watermark. -/
def NoRowPassed (payload : IncrementalPayload) (initial : Option (Watermark V))
    (s : IncrementalState V) : Prop :=
  ∀ r ∈ s.seen, r ∉ s.extracted → ∀ v, rowWatermark payload r.2 = some v →
    AboveInitial initial v → ∀ w, s.watermark = some w → w.value < v

/-! ## The condition -/

/-- The rows a cycle reads from a table: of the rows whose key is after the watermark, in the
order of the key, the first `batchSize`. -/
def cycleRows {d : SqlDialect V V} (payload : IncrementalPayload) (s : IncrementalState V)
    (source : SourceSnapshot d payload) (table : String) : List (SqlRow V) :=
  ((source.answer table (s.watermark.map (·.param))).getD []).take payload.batchSize

/-- The watermarks a cycle meets: the one it starts from and those of the rows it reads. -/
def cycleWatermarks (py : PythonValues V) {d : SqlDialect V V} (payload : IncrementalPayload)
    (s : IncrementalState V) (source : SourceSnapshot d payload) : List (Watermark V) :=
  s.watermark.toList ++ payload.tables.flatMap fun t =>
    (cycleRows payload s source t).filterMap fun row =>
      (rowWatermark payload row).map (.ofRow py)

/-- The condition on a cycle: a row that is or was in a table and that neither an earlier
cycle nor this one reads is above the textually greatest watermark the cycle meets. -/
def CycleSafe (py : PythonValues V) {d : SqlDialect V V} (payload : IncrementalPayload)
    (initial : Option (Watermark V)) (s : IncrementalState V) (source : SourceSnapshot d payload) :
    Prop :=
  ∀ table row,
    ((table, row) ∈ s.seen ∨ table ∈ payload.tables ∧ row ∈ (source.contents table).rows) →
      (table, row) ∉ s.extracted →
        ¬ (table ∈ payload.tables ∧ row ∈ cycleRows payload s source table) →
          ∀ v, rowWatermark payload row = some v → AboveInitial initial v →
            ∀ w, IsTextMax (cycleWatermarks py payload s source) w → w.value < v

/-! ## What a cycle does -/

variable {d : SqlDialect V V} {py : PythonValues V} {s s' : IncrementalState V}
  {strLen : SqlRow V → ℕ} {written : String × ExtractedBatch V → ℕ}

/-- A cycle reads the first rows of the answer. -/
theorem fetched_eq_cycleRows {payload : IncrementalPayload}
    (source : SourceSnapshot d payload) (strLen : SqlRow V → ℕ) (s : IncrementalState V)
    (table : String) :
    source.fetched strLen (s.watermark.map (·.param)) table = cycleRows payload s source table := by
  unfold SourceSnapshot.fetched fetchTable cycleRows readBatch
  cases source.answer table (s.watermark.map (·.param)) with
  | none => simp [openPartition]
  | some rows =>
    simp only [openPartition, Option.getD_some]
    split_ifs with hnil
    · exact hnil.symm
    · rfl

/-- The watermark after a cycle is the textually greatest the cycle meets. -/
theorem incrementalCycle_watermark {payload : IncrementalPayload}
    {source : SourceSnapshot d payload}
    (h : incrementalCycle py payload strLen written s source = some s') (w : Watermark V) :
    s'.watermark = some w ↔ IsTextMax (cycleWatermarks py payload s source) w := by
  have hwatermarks : ∀ t, batchWatermarks py payload
      (source.fetched strLen (s.watermark.map (·.param)) t) =
        (cycleRows payload s source t).filterMap fun row =>
          (rowWatermark payload row).map (.ofRow py) := by
    intro t
    rw [fetched_eq_cycleRows]
    have hcolumns : ∀ r ∈ cycleRows payload s source t,
        r.map Prod.fst = (source.contents t).columns := by
      intro r hr
      unfold cycleRows at hr
      cases hanswer : source.answer t (s.watermark.map (·.param)) with
      | none => simp [hanswer] at hr
      | some rows =>
        rw [hanswer, Option.getD_some] at hr
        exact (source.contents t).columns_eq r
          ((source.isQueryResult t _ rows hanswer).mem_rows (List.mem_of_mem_take hr))
    exact batchWatermarks_eq py payload hcolumns
  rw [incrementalCycle, Option.some.injEq] at h
  rw [← h]
  show (payload.tables.flatMap fun t => batchWatermarks py payload
    (source.fetched strLen (s.watermark.map (·.param)) t)).foldl raiseWatermark s.watermark =
      some w ↔ _
  simp only [hwatermarks]
  exact foldl_raiseWatermark_eq_some

/-- The rows seen after a cycle. -/
theorem mem_seen_iff {payload : IncrementalPayload} {source : SourceSnapshot d payload}
    (h : incrementalCycle py payload strLen written s source = some s') (table : String)
    (row : SqlRow V) :
    (table, row) ∈ s'.seen ↔
      (table, row) ∈ s.seen ∨ table ∈ payload.tables ∧ row ∈ (source.contents table).rows := by
  rw [incrementalCycle, Option.some.injEq] at h
  simp [← h]

/-- The rows extracted after a cycle. -/
theorem mem_extracted_iff {payload : IncrementalPayload} {source : SourceSnapshot d payload}
    (h : incrementalCycle py payload strLen written s source = some s') (table : String)
    (row : SqlRow V) :
    (table, row) ∈ s'.extracted ↔ (table, row) ∈ s.extracted ∨
        table ∈ payload.tables ∧ row ∈ cycleRows payload s source table := by
  rw [incrementalCycle, Option.some.injEq] at h
  simp [← h, fetched_eq_cycleRows]

/-- **One cycle**: it leads to a state in which no row is passed exactly when it is safe. -/
theorem noRowPassed_step_iff {payload : IncrementalPayload} {initial : Option (Watermark V)}
    {source : SourceSnapshot d payload}
    (h : incrementalCycle py payload strLen written s source = some s') :
    NoRowPassed payload initial s' ↔ CycleSafe py payload initial s source := by
  constructor
  · intro hpassed table row hseen hold hnew v hv habove w hw
    have hseen' := (mem_seen_iff h table row).mpr hseen
    have hnot : (table, row) ∉ s'.extracted := by
      intro hmem
      rcases (mem_extracted_iff h table row).mp hmem with hmem | hmem
      · exact hold hmem
      · exact hnew hmem
    exact hpassed (table, row) hseen' hnot v hv habove w ((incrementalCycle_watermark h w).mpr hw)
  · rintro hsafe ⟨table, row⟩ hseen hnot v hv habove w hw
    have hold : (table, row) ∉ s.extracted :=
      fun hmem => hnot ((mem_extracted_iff h table row).mpr (.inl hmem))
    have hnew : ¬ (table ∈ payload.tables ∧ row ∈ cycleRows payload s source table) :=
      fun hmem => hnot ((mem_extracted_iff h table row).mpr (.inr hmem))
    exact hsafe table row ((mem_seen_iff h table row).mp hseen) hold hnew v hv habove w
      ((incrementalCycle_watermark h w).mp hw)

end Cycles

/-! ### A batch limit -/

/-- One table, read one row at a time. -/
def oneTablePayload : IncrementalPayload := { tables := ["orders"], batchSize := 1 }

/-- The order updated last has the smallest key. -/
def ordersTable : SqlTable ℕ where
  columns := ["id", "updated_at"]
  rows := [[("id", some 1), ("updated_at", some 20)], [("id", some 2), ("updated_at", some 10)]]
  columns_eq := by decide

/-- Natural numbers as values: their text is the decimal numeral. -/
def natValues : PythonValues ℕ where
  isoformat := id
  str := toString
  ofString s := s.toNat?.getD 0

/-- Natural keys and bounds. -/
def natDialect : SqlDialect ℕ ℕ where
  atLeast k b := decide (b ≤ k)
  below k b := decide (k < b)
  nullsFirst := true

/-- The table does not change, and its rows are in the order of the key. -/
def ordersSnapshot : SourceSnapshot natDialect oneTablePayload where
  contents _ := ordersTable
  answer table lastWm :=
    some (selectedRows natDialect ordersTable (incrementalPartition oneTablePayload table lastWm)
      lastWm)
  isQueryResult := by
    intro table lastWm rows hrows
    rw [Option.some.injEq] at hrows
    subst hrows
    refine ⟨List.Perm.refl _, ?_⟩
    have hordered : KeyOrdered natDialect (incrementalPartition oneTablePayload table lastWm)
        ordersTable.rows := by
      have hkey : ∀ row : SqlRow ℕ, rowKey (incrementalPartition oneTablePayload table lastWm) row =
          SqlRow.value row "id" := fun _ => congrArg _ (by decide : lower "id" = "id")
      simp only [KeyOrdered, hkey]
      show List.Pairwise _ [_, _]
      rw [List.pairwise_pair]
      show (1 : ℕ) ≤ 2
      omega
    exact hordered.filter _

end Transport

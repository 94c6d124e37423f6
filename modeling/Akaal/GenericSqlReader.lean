/-
# The generic SQL source reader

`GenericSQLSourceReader` of `transport/drivers/generic_sql.py`: `open_partition`
builds a WHERE clause from the partition and the resume position and orders the
rows by the first primary-key column; `read_batch` fetches the next rows of the
cursor and remembers the key of the last one as the resume position.

The database is outside the source.  What it contributes is gathered in
`SqlDialect` (how a key compares with a bound of the partition, and where NULL keys
are sorted) and in `IsQueryResult`: the answer to a query is some arrangement of the
selected rows in which the keys never decrease.  Rows with equal keys may come in
any order, and two executions of one query may order them differently.

Key values are a linear order `κ`; `none` is NULL.
-/
import Akaal.TransportSpec

namespace Transport

variable {κ β : Type*}

/-! ## Rows and tables -/

/-- `str.lower`, on the ASCII letters. -/
def lower (s : String) : String := String.ofList (s.toList.map Char.toLower)

/-- A fetched row: `dict(zip(col_names, r))`, under lower-cased column names. -/
abbrev SqlRow (κ : Type*) := List (String × Option κ)

/-- The value of a column of a row; a NULL and an absent column both give `none`. -/
def SqlRow.value {κ : Type*} (row : SqlRow κ) (column : String) : Option κ :=
  (List.lookup column row).join

/-- A table: every row has a value (or NULL) for each column of the table, in the
order of the columns. -/
structure SqlTable (κ : Type*) where
  columns : List String
  rows : List (SqlRow κ)
  columns_eq : ∀ r ∈ rows, r.map Prod.fst = columns

/-! ## The query of `open_partition` -/

section Query

variable [LinearOrder κ]

/-- A condition of the WHERE clause on the key column. -/
inductive SqlCondition (κ β : Type*) where
  /-- `pk >= lower AND pk < upper` -/
  | between (lower upper : β)
  /-- `pk IS NULL` -/
  | isNull
  /-- `pk > ?` -/
  | after (key : κ)

/-- What the database decides: `pk >= bound`, `pk < bound`, and whether NULL keys are
sorted first. -/
structure SqlDialect (κ β : Type*) where
  atLeast : κ → β → Bool
  below : κ → β → Bool
  nullsFirst : Bool

/-- The truth of a condition on a key value; comparisons with NULL are never true. -/
def SqlCondition.holds (d : SqlDialect κ β) : SqlCondition κ β → Option κ → Bool
  | .between lower upper, some k => d.atLeast k lower && d.below k upper
  | .isNull, none => true
  | .after key, some k => decide (key < k)
  | _, _ => false

/-- The column `open_partition` compares and orders by: the first key column. -/
def pkColumn (partition : TransportPartition β) : String :=
  partition.pkColumns.head?.getD "id"

/-- The conditions of the WHERE clause `open_partition` builds. -/
def whereClause (partition : TransportPartition β) (lastCommittedKey : Option κ) :
    List (SqlCondition κ β) :=
  (match partition.lowerBound, partition.upperBound with
    | some lower, some upper => [.between lower upper]
    | _, _ => if partition.isNullPartition then [.isNull] else []) ++
  (match lastCommittedKey with
    | some key => [.after key]
    | none => [])

/-- The key value of a row: its value in the column the query compares. -/
def rowKey (partition : TransportPartition β) (row : SqlRow κ) : Option κ :=
  SqlRow.value row (lower (pkColumn partition))

/-- Whether the WHERE clause selects a row. -/
def selects (d : SqlDialect κ β) (partition : TransportPartition β)
    (lastCommittedKey : Option κ) (row : SqlRow κ) : Bool :=
  (whereClause partition lastCommittedKey).all fun c => c.holds d (rowKey partition row)

/-- The rows the query selects, in table order. -/
def selectedRows (d : SqlDialect κ β) (table : SqlTable κ) (partition : TransportPartition β)
    (lastCommittedKey : Option κ) : List (SqlRow κ) :=
  table.rows.filter (selects d partition lastCommittedKey)

/-- `ORDER BY pk`: the order of two key values, NULLs at one end. -/
def keyLe (nullsFirst : Bool) : Option κ → Option κ → Prop
  | some a, some b => a ≤ b
  | none, some _ => nullsFirst = true
  | some _, none => nullsFirst = false
  | none, none => True

/-- The rows are in the order `ORDER BY pk` asks for. -/
def KeyOrdered (d : SqlDialect κ β) (partition : TransportPartition β)
    (rows : List (SqlRow κ)) : Prop :=
  rows.Pairwise fun r s => keyLe d.nullsFirst (rowKey partition r) (rowKey partition s)

/-- A possible answer of the database to the query of `open_partition`. -/
structure IsQueryResult (d : SqlDialect κ β) (table : SqlTable κ)
    (partition : TransportPartition β) (lastCommittedKey : Option κ)
    (rows : List (SqlRow κ)) : Prop where
  perm : rows.Perm (selectedRows d table partition lastCommittedKey)
  ordered : KeyOrdered d partition rows

/-- Resuming only adds the comparison with the resume key to the partition's own
conditions. -/
theorem selects_some_eq (d : SqlDialect κ β) (partition : TransportPartition β) (key : κ)
    (row : SqlRow κ) :
    selects d partition (some key) row =
      (selects d partition none row && (SqlCondition.after key).holds d (rowKey partition row)) := by
  unfold selects whereClause
  simp [List.all_append]

/-- The rows a resumed query selects are those of the partition whose key is above the
resume key. -/
theorem selectedRows_some_eq (d : SqlDialect κ β) (table : SqlTable κ)
    (partition : TransportPartition β) (key : κ) :
    selectedRows d table partition (some key) = (selectedRows d table partition none).filter
        fun row => (SqlCondition.after key).holds d (rowKey partition row) := by
  unfold selectedRows
  rw [List.filter_filter]
  congr 1
  funext row
  rw [selects_some_eq, Bool.and_comm]

/-- A row of an answer is a row of the table. -/
theorem IsQueryResult.mem_rows {d : SqlDialect κ β} {table : SqlTable κ}
    {partition : TransportPartition β} {last : Option κ} {rows : List (SqlRow κ)}
    (h : IsQueryResult d table partition last rows) {row : SqlRow κ} (hrow : row ∈ rows) :
    row ∈ table.rows :=
  List.mem_of_mem_filter (h.perm.subset hrow)

end Query

/-! ## The reader -/

/-- `GenericSQLSourceReader` on an open partition.  `cursor` holds the rows the query
has still to deliver; it is `none` when no connection could be made. -/
structure GenericSqlReader (κ β : Type*) where
  partition : TransportPartition β
  columnNames : List String
  cursor : Option (List (SqlRow κ))
  sequenceNumber : ℕ
  lastKey : Option κ

/-- `open_partition`, given the answer of the database to its query. -/
def openPartition (partition : TransportPartition β) (columnNames : List String)
    (lastCommittedKey : Option κ) (answer : Option (List (SqlRow κ))) :
    GenericSqlReader κ β where
  partition := partition
  columnNames := columnNames
  cursor := answer
  sequenceNumber := 0
  lastKey := lastCommittedKey

/-- The resume position after a fetch: the key of the last row, if the row has the key
column at all. -/
def nextLastKey (reader : GenericSqlReader κ β) (rows : List (SqlRow κ)) : Option κ :=
  match rows.getLast? with
  | none => reader.lastKey
  | some row =>
    match List.lookup (lower (pkColumn reader.partition)) row with
    | some value => value
    | none => reader.lastKey

/-- The metadata `read_batch` gives to the batch with number `seq`; `strLen` is the
length of a row's text. -/
def batchMetadata (strLen : SqlRow κ → ℕ) (partition : TransportPartition β) (seq : ℕ)
    (rows : List (SqlRow κ)) : TransportBatchMetadata where
  batchId := s!"sql-batch-{seq}"
  partitionId := partition.partitionId
  tableName := partition.tableName
  schemaName := partition.schemaName
  sequenceNumber := seq
  rowCount := rows.length
  sizeBytes := (rows.map strLen).sum

/-- `read_batch`: fetch the next `batchSize` rows of the cursor. -/
def readBatch (strLen : SqlRow κ → ℕ) (batchSize : ℕ) (reader : GenericSqlReader κ β) :
    GenericSqlReader κ β × Option (TransportBatch (SqlRow κ)) :=
  match reader.cursor with
  | none => (reader, none)
  | some pending =>
    let rows := pending.take batchSize
    if rows = [] then (reader, none)
    else
      let seq := reader.sequenceNumber + 1
      ({ reader with
          cursor := some (pending.drop batchSize)
          sequenceNumber := seq
          lastKey := nextLastKey reader rows },
        some
          { metadata := batchMetadata strLen reader.partition seq rows
            rows := rows
            columnNames := reader.columnNames })

/-- `resume_position`. -/
def resumePosition (reader : GenericSqlReader κ β) : Option κ := reader.lastKey

/-- What a `read_batch` that returns a batch does: it takes the batch's rows off the
cursor, and leaves the key of the last of them as the resume position. -/
theorem readBatch_eq_some {strLen : SqlRow κ → ℕ} {batchSize : ℕ}
    {reader reader' : GenericSqlReader κ β} {batch : TransportBatch (SqlRow κ)}
    (h : readBatch strLen batchSize reader = (reader', some batch)) :
    ∃ rest, reader.cursor = some (batch.rows ++ rest) ∧ batch.rows ≠ [] ∧
      batch.rows.length ≤ batchSize ∧
      reader' = { reader with
          cursor := some rest
          sequenceNumber := reader.sequenceNumber + 1
          lastKey := nextLastKey reader batch.rows } := by
  unfold readBatch at h
  cases hc : reader.cursor with
  | none => simp [hc] at h
  | some pending =>
    simp only [hc] at h
    split_ifs at h with hrows
    · simp at h
    · simp only [Prod.mk.injEq, Option.some.injEq] at h
      obtain ⟨rfl, rfl⟩ := h
      exact ⟨pending.drop batchSize, by rw [List.take_append_drop], hrows,
        List.length_take_le batchSize pending, rfl⟩

/-- A `read_batch` that returns nothing leaves the reader as it was. -/
theorem readBatch_eq_none {strLen : SqlRow κ → ℕ} {batchSize : ℕ}
    {reader reader' : GenericSqlReader κ β}
    (h : readBatch strLen batchSize reader = (reader', none)) :
    reader' = reader ∧ (batchSize = 0 ∨ reader.cursor = none ∨ reader.cursor = some []) := by
  unfold readBatch at h
  cases hc : reader.cursor with
  | none =>
    simp only [hc, Prod.mk.injEq, and_true] at h
    exact ⟨h.symm, .inr (.inl rfl)⟩
  | some pending =>
    simp only [hc] at h
    split_ifs at h with hrows
    · simp only [Prod.mk.injEq, and_true] at h
      refine ⟨h.symm, ?_⟩
      rcases List.take_eq_nil_iff.mp hrows with h0 | hnil
      · exact .inl h0
      · exact .inr (.inr (by rw [hnil]))
    · simp at h

end Transport

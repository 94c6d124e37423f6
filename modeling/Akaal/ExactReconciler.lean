/-
# Exact reconciliation of rows

`ExactRowReconciler.reconcile_exact` of `validation/reconciliation/exact.py` and the renaming
of columns by `TransformationAwareReconciler.compute_expected_row` of
`validation/reconciliation/transformation.py`.  Rows are looked up by the tuple of their key
columns, under Python's equality and hashing of values.
-/
import Akaal.CanonicalRow

namespace Validation

/-! ## Keys -/

/-- What `==` and `hash` see of a value: numbers of all kinds are compared by value. -/
inductive HashKey where
  | none
  | text (s : String)
  | number (q : ℚ)
  | infinite (negative : Bool)
  | nan
  | naive (moment : ℕ)
  | aware (instant : ℤ)
  | date (day : ℕ)
  | time (moment : ℕ)
  | bytes (b : List UInt8)
  | other (typeName text : String)
  deriving DecidableEq

/-- The key of a value; lists and dictionaries cannot be hashed, nor can a signaling nan. -/
def hashKey : PyValue → Except PyException HashKey
  | .none => .ok .none
  | .str s => .ok (.text s)
  | .bool b => .ok (.number (if b then 1 else 0))
  | .int z => .ok (.number z)
  | .float (.finite q) => .ok (.number q)
  | .float .negativeZero => .ok (.number 0)
  | .float (.infinite negative) => .ok (.infinite negative)
  | .float .nan => .ok .nan
  | .decimal (.finite negative coefficient exponent) =>
    .ok (.number ((if negative then -1 else 1) * coefficient * (10 : ℚ) ^ exponent))
  | .decimal (.infinite negative) => .ok (.infinite negative)
  | .decimal (.nan false) => .ok .nan
  | .decimal (.nan true) => .error .signalingNanHash
  | .datetime d =>
    match d.utcoffset with
    | none => .ok (.naive d.moment)
    | some offset => .ok (.aware (d.moment - offset))
  | .date d => .ok (.date d.day)
  | .time t => .ok (.time t.moment)
  | .bytes b => .ok (.bytes b)
  | .list _ => .error (.unhashable "list")
  | .dict _ => .error (.unhashable "dict")
  | .other typeName text => .ok (.other typeName text)

/-- Equality of keys; a nan equals nothing. -/
def HashKey.eq (a b : HashKey) : Bool := a != .nan && a == b

/-- Equality of key tuples. -/
def tupleEq : List HashKey → List HashKey → Bool
  | [], [] => true
  | a :: as, b :: bs => a.eq b && tupleEq as bs
  | _, _ => false

/-! ## Renaming -/

/-- `column_mapping.get(col, col)`. -/
def mappedColumn (columnMapping : PyDict String) (col : String) : String :=
  (columnMapping.get? col).getD col

/-- The row under its renamed columns; of columns renamed to one name the last value stays. -/
def renameColumns (columnMapping : PyDict String) (row : PyRow) : PyRow :=
  row.items.foldl (fun mapped item => mapped.set (mappedColumn columnMapping item.1) item.2) .empty

/-- `compute_expected_row`: the renamed row, transformed when the data-processing authority is
attached and marked as unprovable when that fails. -/
def computeExpectedRow (dataProcessing : Option (String → List PyRow → Except String (List PyRow)))
    (columnMapping : PyDict String) (tableName : String) (row : PyRow) : PyRow :=
  let mappedRow := renameColumns columnMapping row
  match dataProcessing with
  | none => mappedRow
  | some transformBatch =>
    match transformBatch tableName [mappedRow] with
    | .ok (transformed :: _) => transformed
    | .ok [] => mappedRow
    | .error ex =>
      mappedRow.set "__UNPROVABLE_TRANSFORMATION__"
        (.str ("UNRECONSTRUCTABLE_AUTHORITY_8: " ++ ex))

/-! ## Reconciliation -/

/-- `DisputedRecord`. -/
structure DisputedRecord where
  keyValues : List (String × PyValue)
  reason : String
  sourceValue : Option PyRow
  targetValue : Option PyRow

/-- What `reconcile_exact` returns. -/
structure Reconciliation where
  matched : ℕ
  mismatched : ℕ
  missing : ℕ
  extra : ℕ
  disputed : List DisputedRecord

section Reconcile

variable (pkColumns : List String) (columnMapping : PyDict String)

/-- `pk_columns or ["id"]`. -/
def pkCols : List String := if pkColumns = [] then ["id"] else pkColumns

/-- `get_pk_dict`: the key columns with their values, those of a target row under the renamed
columns. -/
def pkDict (isTarget : Bool) (row : PyRow) : List (String × PyValue) :=
  (pkCols pkColumns).eraseDups.map fun col =>
    (col, (row.get? (if isTarget then mappedColumn columnMapping col else col)).getD .none)

/-- `get_pk_tuple`, hashed. -/
def pkTuple (isTarget : Bool) (row : PyRow) : Except PyException (List HashKey) :=
  (pkDict pkColumns columnMapping isTarget row).mapM fun item => hashKey item.2

/-- A dictionary from key tuples to rows. -/
abbrev PkMap := List (List HashKey × PyRow)

/-- The row under a key. -/
def PkMap.find? (m : PkMap) (pk : List HashKey) : Option PyRow :=
  (List.find? (fun entry => tupleEq entry.1 pk) m).map Prod.snd

/-- Replace the row of a key in place, or add the entry at the end. -/
def PkMap.set (pk : List HashKey) (row : PyRow) : PkMap → PkMap
  | [] => [(pk, row)]
  | entry :: m =>
    if tupleEq entry.1 pk then (entry.1, row) :: m else entry :: PkMap.set pk row m

/-- The rows by their key tuples; the last row of a key stays. -/
def pkMap (isTarget : Bool) (rows : List PyRow) : Except PyException PkMap :=
  rows.foldlM (fun m row => do
    let pk ← pkTuple pkColumns columnMapping isTarget row
    return m.set pk row) []

/-- Compare a source row with its target row column by column, up to the first difference. -/
def rowMatched (tgtRow : PyRow) : List (String × PyValue) → Except PyException Bool
  | [] => .ok true
  | (srcCol, srcVal) :: items =>
    match tgtRow.get? (mappedColumn columnMapping srcCol) with
    | none => .ok false
    | some tgtVal => do
        let src ← canonicalize false srcVal
        let tgt ← canonicalize false tgtVal
        if src = tgt then rowMatched tgtRow items else return false

/-- The outcome for one source key. -/
def reconcileSourceRow (tgtMap : PkMap) (r : Reconciliation) (entry : List HashKey × PyRow) :
    Except PyException Reconciliation :=
  match tgtMap.find? entry.1 with
  | none =>
    .ok { r with
      missing := r.missing + 1
      disputed := r.disputed ++ [⟨pkDict pkColumns columnMapping false entry.2,
        "MISSING_RECORD", some entry.2, none⟩] }
  | some tgtRow => do
      let same ← rowMatched columnMapping tgtRow entry.2.items
      if same then return { r with matched := r.matched + 1 }
      else return { r with
        mismatched := r.mismatched + 1
        disputed := r.disputed ++ [⟨pkDict pkColumns columnMapping false entry.2,
          "VALUE_MISMATCH", some entry.2, some tgtRow⟩] }

/-- The outcome for one target key. -/
def reconcileTargetRow (srcMap : PkMap) (r : Reconciliation) (entry : List HashKey × PyRow) :
    Reconciliation :=
  match srcMap.find? entry.1 with
  | none =>
    { r with
      extra := r.extra + 1
      disputed := r.disputed ++ [⟨pkDict pkColumns columnMapping true entry.2,
        "EXTRA_RECORD", none, some entry.2⟩] }
  | some _ => r

/-- `reconcile_exact`. -/
def reconcileExact (sourceRows targetRows : List PyRow) : Except PyException Reconciliation := do
  -- the keys of the target are hashed first, to count its duplicates
  let tgtMap ← pkMap pkColumns columnMapping true targetRows
  let srcMap ← pkMap pkColumns columnMapping false sourceRows
  let compared ← srcMap.foldlM (reconcileSourceRow pkColumns columnMapping tgtMap) ⟨0, 0, 0, 0, []⟩
  return tgtMap.foldl (reconcileTargetRow pkColumns columnMapping srcMap) compared

end Reconcile

end Validation

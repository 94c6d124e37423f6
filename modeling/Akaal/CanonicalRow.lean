/-
# Canonical rows and their framing

`CanonicalValueFormatter.canonicalize` of `validation/models/canonical.py` gives a value a type
tag and a text; `DeterministicRowFingerprinter.compute_fingerprint` of
`validation/fingerprint/row.py` frames the column, the tag and the text of each value with
their lengths in bytes and hashes the frames of a row.
-/
import Akaal.FramedBytes
import Akaal.PythonValue

open FramedBytes

namespace Validation

/-! ## Canonical values -/

/-- The text that stands for a field a row does not have. -/
def missingText : String := "__CANONICAL_MISSING__"

/-- `canonicalize`: the type tag and the canonical text of a value. -/
def canonicalize (preserveDecimalScale : Bool) : PyValue → Except PyException (String × String)
  | .none => .ok ("NULL", "__CANONICAL_NULL__")
  | .str s => .ok (if s = missingText then ("MISSING", missingText) else ("STR", s))
  | .bool b => .ok ("BOOL", if b then "TRUE" else "FALSE")
  | .int z => .ok ("INT", intText z)
  | .float x => .ok ("FLOAT", x.format12g)
  | .decimal d =>
    if preserveDecimalScale then .ok ("DECIMAL_EXACT", d.str)
    else d.normalize.map fun normalized => ("DECIMAL_NORM", normalized.str)
  | .datetime d => d.astimezoneUtc.map fun moment => ("DATETIME", datetimeText moment)
  | .date d => .ok ("DATE", String.ofList (dateText d.day))
  | .time t => .ok ("TIME", String.ofList (timeText t.moment))
  | .bytes b => .ok ("BYTES", hexText b)
  | .dict items => (PyValue.dict items).jsonDumps.map fun json => ("JSON", json)
  | .list elements => (PyValue.list elements).jsonDumps.map fun json => ("JSON", json)
  | .other _ text => .ok ("STR", text)

/-! ## Canonical rows -/

/-- A row: its columns with their values. -/
abbrev PyRow := PyDict PyValue

/-- What is hashed of a column of a row. -/
structure CanonicalField where
  column : String
  typeTag : String
  text : String
  deriving DecidableEq

/-- `column_names or sorted(row.keys())`. -/
def fingerprintColumns (row : PyRow) (columnNames : List String) : List String :=
  if columnNames = [] then row.keys.insertionSort (· ≤ ·) else columnNames

/-- The canonical field of a column; a column the row does not have is marked as missing. -/
def canonicalField (preserveDecimalScale : Bool) (row : PyRow) (col : String) :
    Except PyException CanonicalField :=
  match row.get? col with
  | none => (canonicalize false (.str missingText)).map fun c => ⟨col, c.1, c.2⟩
  | some value => (canonicalize preserveDecimalScale value).map fun c => ⟨col, c.1, c.2⟩

/-- The canonical fields of a row, in the order in which they are hashed. -/
def canonicalRow (columnNames : List String) (preserveDecimalScale : Bool) (row : PyRow) :
    Except PyException (List CanonicalField) :=
  (fingerprintColumns row columnNames).mapM (canonicalField preserveDecimalScale row)

/-! ## The frames -/

/-- The byte `:`. -/
def colon : UInt8 := 58

/-- The byte `;`. -/
def semicolon : UInt8 := 59

/-- The frame of a field: the column after its length, the tag, the text after its length. -/
def frameBytes (f : CanonicalField) : List UInt8 :=
  numeral (utf8 f.column).length ++ colon :: (utf8 f.column ++ colon :: (utf8 f.typeTag ++
    colon :: (numeral (utf8 f.text).length ++ colon :: (utf8 f.text ++ [semicolon]))))

/-- The bytes hashed for a row. -/
def rowBytes (fields : List CanonicalField) : List UInt8 := fields.flatMap frameBytes

/-! ## Fingerprints of rows -/

/-- The digest of a canonical row, as the number its hexadecimal digits write. -/
def digest (sha256 : List UInt8 → ℕ) (fields : List CanonicalField) : ℕ := sha256 (rowBytes fields)

/-- `compute_fingerprint`. -/
def computeFingerprint (sha256 : List UInt8 → ℕ) (columnNames : List String)
    (preserveDecimalScale : Bool) (row : PyRow) : Except PyException ℕ :=
  (canonicalRow columnNames preserveDecimalScale row).map (digest sha256)

end Validation

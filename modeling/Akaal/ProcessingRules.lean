/-
# The rules of a processing plan

The rule loop of `ProcessingEngine.transform_row` of
`data_processing/engine/processing_engine.py`, with `ExpressionCompiler`, `CleansingEngine`,
`LookupResolver`, `MaskingEngine` and `LOBMaterializationGuard`.  A rule transforms the row or
raises, and its policy decides what a raised exception does to the record.

What the language and its libraries compute on values (`str`, comparisons, `float`, hashes,
regular expressions) is a parameter, `PyRuntime`.
-/
import Akaal.PythonValue

namespace DataProcessing

/-- A row: its columns with their values. -/
abbrev PyRow := PyDict PyValue

/-! ## The runtime -/

/-- A raised exception: its text, and whether it is a `ValueError` or a `TypeError`. -/
structure PyRaise where
  isValueOrTypeError : Bool
  message : String
  deriving DecidableEq

/-- The operations of the language and its libraries. -/
structure PyRuntime where
  /-- `str(v)` -/
  str : PyValue → String
  /-- `a == b` -/
  equal : PyValue → PyValue → Bool
  /-- `a < b` -/
  less : PyValue → PyValue → Except PyRaise Bool
  /-- `float(v)` -/
  float : PyValue → Except PyRaise PyFloat
  /-- `bool(v)` -/
  truth : PyValue → Bool
  /-- `hash(v)` succeeds -/
  hashable : PyValue → Except PyRaise Unit
  /-- `s.upper()` -/
  upper : String → String
  /-- `s.lower()` -/
  lower : String → String
  /-- `s.strip()` -/
  strip : String → String
  /-- `s.split()` -/
  split : String → List String
  /-- `ch.isdigit()` -/
  isDigit : Char → Bool
  /-- `re.match(pattern, s)` finds a match -/
  regexMatch : String → String → Except PyRaise Bool
  /-- `hashlib.sha256(s.encode("utf-8")).hexdigest()` -/
  sha256 : String → String
  /-- `hmac.new(key, s.encode("utf-8"), hashlib.sha256).hexdigest()` -/
  hmac : List UInt8 → String → String
  /-- `json.dumps(row, default=str, sort_keys=True)` -/
  jsonDumps : PyRow → String

variable (rt : PyRuntime)

/-- A `ValueError`. -/
def valueError (message : String) : PyRaise := ⟨true, message⟩

/-- `a < b` of floats; a nan is never less. -/
def PyFloat.less : PyFloat → PyFloat → Bool
  | .nan, _ => false
  | _, .nan => false
  | .infinite true, .infinite true => false
  | .infinite true, _ => true
  | _, .infinite true => false
  | .infinite false, _ => false
  | _, .infinite false => true
  | .negativeZero, .finite q => 0 < q
  | .finite q, .negativeZero => q < 0
  | .negativeZero, .negativeZero => false
  | .finite p, .finite q => p < q

/-- `s[:n]`. -/
def sliceTo (n : ℤ) (s : List Char) : List Char :=
  if 0 ≤ n then s.take n.toNat else s.take (s.length - n.natAbs)

/-- `s[-n:]`; for `n = 0` this is the whole text. -/
def sliceFromEnd (n : ℤ) (s : List Char) : List Char :=
  if 0 < n then s.drop (s.length - n.toNat) else s.drop n.natAbs

/-! ## Expressions -/

/-- `ASTNode`. -/
inductive AstNode where
  | columnRef (columnName : String)
  | constant (value : PyValue)
  | functionCall (functionName : String) (args : List AstNode)
  | conditional (condition trueBranch falseBranch : AstNode)

/-- Whether a value is `None`. -/
def isNone : PyValue → Bool
  | .none => true
  | _ => false

/-- A function of an expression, on its evaluated arguments. -/
def callFunction (fn : String) (args : List PyValue) : Except PyRaise PyValue :=
  if fn = "CONCAT" then
    .ok (.str (String.join ((args.filter fun a => !isNone a).map rt.str)))
  else if fn = "COALESCE" then .ok ((args.find? fun a => !isNone a).getD .none)
  else if fn = "UPPER" then
    .ok (match args with
      | .none :: _ | [] => .none
      | a :: _ => .str (rt.upper (rt.str a)))
  else if fn = "LOWER" then
    .ok (match args with
      | .none :: _ | [] => .none
      | a :: _ => .str (rt.lower (rt.str a)))
  else if fn = "EQUALS" then
    .ok (match args with
      | a :: b :: _ => .bool (rt.equal a b)
      | _ => .bool false)
  else if fn = "GREATER_THAN" then
    match args with
    | a :: b :: _ => if isNone a || isNone b then .ok (.bool false) else (rt.less b a).map .bool
    | _ => .ok (.bool false)
  else if fn = "LESS_THAN" then
    match args with
    | a :: b :: _ => if isNone a || isNone b then .ok (.bool false) else (rt.less a b).map .bool
    | _ => .ok (.bool false)
  else .error ⟨false, "[EXPRESSION_EXECUTION_ERROR] Expression evaluation failed for '" ++ fn ++
    "': Unsupported function name '" ++ fn ++ "'"⟩

mutual

/-- `ExpressionCompiler.evaluate`. -/
def evaluate (row : PyRow) : AstNode → Except PyRaise PyValue
  | .columnRef columnName => .ok ((row.get? columnName).getD .none)
  | .constant value => .ok value
  | .conditional condition trueBranch falseBranch => do
      let value ← evaluate row condition
      if rt.truth value then evaluate row trueBranch else evaluate row falseBranch
  | .functionCall functionName args => do
      let values ← evaluateArgs row args
      callFunction rt (rt.upper functionName) values

/-- The arguments of a function, from the left. -/
def evaluateArgs (row : PyRow) : List AstNode → Except PyRaise (List PyValue)
  | [] => .ok []
  | arg :: args => do
      let value ← evaluate row arg
      let values ← evaluateArgs row args
      return value :: values

end

/-! ## Cleansing, lookups, masking and LOB safety -/

/-- `CleansingEngine.apply_cleansing`. -/
def applyCleansing (operation : String) (value defaultVal : PyValue) : PyValue :=
  match value with
  | .none => defaultVal
  | value =>
    let op := rt.upper operation
    if op = "TRIM" then .str (rt.strip (rt.str value))
    else if op = "UPPER" then .str (rt.upper (rt.str value))
    else if op = "LOWER" then .str (rt.lower (rt.str value))
    else value

/-- `LookupDefinition`. -/
structure LookupDefinition where
  lookupName : String
  mappingData : List (PyValue × PyValue)
  missingKeyPolicy : String

/-- `LookupResolver.resolve` of the definition just registered: the value, or `none` to
quarantine the record. -/
def resolveLookup (lookup : LookupDefinition) (key : PyValue) :
    Except PyRaise (Option PyValue) := do
  let _ ← rt.hashable key
  match lookup.mappingData.find? fun entry => rt.equal entry.1 key with
  | some entry => return some entry.2
  | none =>
    if lookup.missingKeyPolicy = "USE_NULL" ∨ lookup.missingKeyPolicy = "USE_DEFAULT" then
      return some .none
    else return none

/-- `PrivacyStrategy`. -/
inductive PrivacyStrategy where
  | staticRedact
  | partialMask
  | nullify
  | hash
  | keyedPseudonym
  | formatPreservingMask
  deriving DecidableEq

/-- A text repeated, as `s * n` does. -/
def repeatText (s : String) (n : ℤ) : List Char := (List.replicate n.toNat s.toList).flatten

/-- The first character of a name and a mask for the others. -/
def maskName (maskChar : String) (name : List Char) : List Char :=
  match name with
  | c :: rest =>
    if rest = [] then maskChar.toList else c :: repeatText maskChar rest.length
  | [] => maskChar.toList

/-- The format-preserving mask: names of an address around `@` and `.`, digits elsewhere. -/
def formatPreservingMask (maskChar : String) (val : List Char) : Except PyRaise (List Char) :=
  if '@' ∈ val ∧ '.' ∈ val then
    let name := val.takeWhile (· != '@')
    let domain := (val.dropWhile (· != '@')).drop 1
    if '.' ∈ domain then
      .ok (maskName maskChar name ++ '@' :: maskName maskChar (domain.takeWhile (· != '.')) ++
        '.' :: (domain.dropWhile (· != '.')).drop 1)
    else .error ⟨false, "list index out of range"⟩
  else .ok (val.flatMap fun ch => if rt.isDigit ch then maskChar.toList else [ch])

/-- `MaskingEngine.apply_mask`. -/
def applyMask (secretResolver : Option (String → Except PyRaise (List UInt8)))
    (strategy : PrivacyStrategy) (value : PyValue) (maskChar : String) (unmaskedLength : ℤ)
    (keyRef : Option String) : Except PyRaise PyValue :=
  match value with
  | .none => .ok .none
  | value =>
    let val := (rt.str value).toList
    match strategy with
    | .nullify => .ok .none
    | .staticRedact => .ok (.str "[REDACTED]")
    | .partialMask =>
      if val.length ≤ unmaskedLength then
        .ok (.str (String.ofList (repeatText maskChar val.length)))
      else .ok (.str (String.ofList
        (repeatText maskChar (val.length - unmaskedLength) ++ sliceFromEnd unmaskedLength val)))
    | .hash => .ok (.str (rt.sha256 (rt.str value)))
    | .keyedPseudonym => do
        let hmacKey ← match secretResolver, keyRef with
          | some resolve, some ref =>
            if ref = "" then .ok "AKAAL-DEFAULT-PSEUDONYM-HMAC-KEY".toUTF8.toList
            else resolve ref
          | _, _ => .ok "AKAAL-DEFAULT-PSEUDONYM-HMAC-KEY".toUTF8.toList
        let digest := rt.hmac hmacKey (rt.str value)
        return .str ("PSEUDO-" ++ rt.upper (String.ofList (digest.toList.take 16)))
    | .formatPreservingMask =>
      (formatPreservingMask rt maskChar val).map fun masked => .str (String.ofList masked)

/-- The largest value a rule may hold in memory. -/
def maxMaterializationBytes : ℕ := 10 * 1024 * 1024

/-- `LOBMaterializationGuard.check_value_safety`. -/
def checkValueSafety (columnName : String) (value : PyValue) : Except PyRaise Unit :=
  let size := match value with
    | .bytes b => b.length
    | .str s => s.length
    | _ => 0
  if size > maxMaterializationBytes then
    .error ⟨false, "[LOB_MATERIALIZATION_UNSAFE] Unsafe LOB materialization attempted on column '" ++
      columnName ++ "' (" ++ size.repr ++ " bytes > max " ++ maxMaterializationBytes.repr ++
      " bytes)."⟩
  else .ok ()

/-! ## Rules -/

/-- `MalformedDataPolicy`. -/
inductive MalformedDataPolicy where
  | failJob
  | rejectRecord
  | quarantineRecord
  | useDefault
  | useNull
  | explicitTruncate
  deriving DecidableEq

/-- `RuleType` with what a rule of the type needs; a rule that lacks it does nothing. -/
inductive RuleAction where
  | mapping
  | cleansing (operation : Option String)
  | expression (ast : Option AstNode)
  | lookup (definition : Option LookupDefinition)
  | privacy (strategy : Option PrivacyStrategy)
  | default
  | quality (qualityRuleType : Option String)
  | customHook

/-- `TransformationRule`. -/
structure TransformationRule where
  ruleId : String
  columnName : String
  targetColumnName : Option String
  action : RuleAction
  defaultValue : PyValue
  privacyKeyRef : Option String
  maskChar : String
  unmaskedLength : ℤ
  malformedPolicy : MalformedDataPolicy
  minValue : Option PyValue
  maxValue : Option PyValue
  regexPattern : Option String
  allowedValues : Option (List PyValue)
  maxLength : Option ℤ
  allowTruncation : Bool
  targetDatatype : Option String

/-- `target_column_name or column_name`. -/
def TransformationRule.targetCol (rule : TransformationRule) : String :=
  match rule.targetColumnName with
  | some target => if target = "" then rule.columnName else target
  | none => rule.columnName

/-- `TransformationDiagnostic`. -/
structure TransformationDiagnostic where
  level : String
  code : String
  message : String
  columnName : String
  ruleId : String
  deriving DecidableEq

/-- What is kept of a quarantined record. -/
structure QuarantineMetadata where
  ruleId : String
  columnName : String
  originalValue : PyValue
  reason : String

/-- `ProcessingResult`. -/
inductive ProcessingResult where
  | success (transformedRow : PyRow) (diagnostics : List TransformationDiagnostic)
  | filtered
  | rejected (diagnostics : List TransformationDiagnostic)
  | quarantined (diagnostics : List TransformationDiagnostic) (metadata : QuarantineMetadata)

/-- The transformed row of a successful result. -/
def ProcessingResult.transformedRow? : ProcessingResult → Option PyRow
  | .success row _ => some row
  | _ => none

/-- `dict.pop(key, None)`. -/
def popColumn (row : PyRow) (col : String) : PyRow where
  items := row.items.filter fun item => item.1 != col
  nodup := row.nodup.sublist (List.filter_sublist.map Prod.fst)

/-! ## Quality rules -/

/-- The bounds of the integer types. -/
def datatypeBounds (datatype : String) : Option (ℤ × ℤ) :=
  if datatype = "SMALLINT" then some (-32768, 32767)
  else if datatype = "INT" ∨ datatype = "INTEGER" then some (-2147483648, 2147483647)
  else if datatype = "BIGINT" then some (-9223372036854775808, 9223372036854775807)
  else if datatype = "TINYINT" then some (0, 255)
  else none

/-- A value is not below the minimum of a rule, nor above its maximum. -/
def checkRange (rule : TransformationRule) (num : PyFloat) : Except PyRaise Unit := do
  let text := rt.str (.float num)
  match rule.minValue with
  | some minValue =>
    let low ← rt.float minValue
    if PyFloat.less num low then throw (valueError ("Quality rule violation: Column '" ++
      rule.columnName ++ "' value " ++ text ++ " is below minimum " ++ rt.str minValue ++ "."))
  | none => pure ()
  match rule.maxValue with
  | some maxValue =>
    let high ← rt.float maxValue
    if PyFloat.less high num then throw (valueError ("Quality rule violation: Column '" ++
      rule.columnName ++ "' value " ++ text ++ " exceeds maximum " ++ rt.str maxValue ++ "."))
  | none => pure ()

/-- The `NUMERIC_OVERFLOW` check. -/
def checkNumericOverflow (rule : TransformationRule) (val : PyValue) : Except PyRaise Unit := do
  let num ← match rt.float val with
    | .ok num => .ok num
    | .error e =>
      if e.isValueOrTypeError then .error (valueError ("Quality rule violation: Column '" ++
        rule.columnName ++ "' value '" ++ rt.str val ++ "' is not numeric."))
      else .error e
  let datatype := rt.upper (match rule.targetDatatype with
    | some datatype => if datatype = "" then "INT" else datatype
    | none => "INT")
  match datatypeBounds datatype with
  | some (low, high) =>
    if PyFloat.less num (.finite low) || PyFloat.less (.finite high) num then
      throw (valueError ("Quality rule violation: Column '" ++ rule.columnName ++ "' value " ++
        rt.str (.float num) ++ " overflows target " ++ datatype ++ " bounds [" ++ intText low ++
        ", " ++ intText high ++ "]."))
  | none => pure ()
  checkRange rt rule num

/-- The `VALUE_RANGE` check. -/
def checkValueRange (rule : TransformationRule) (val : PyValue) : Except PyRaise Unit :=
  match (rt.float val >>= checkRange rt rule) with
  | .ok () => .ok ()
  | .error e =>
    if e.isValueOrTypeError then .error (valueError ("Quality rule range check failed on column '" ++
      rule.columnName ++ "': " ++ e.message))
    else .error e

/-- The `ENUM_VALUES` check. -/
def checkEnumValues (rule : TransformationRule) (val : PyValue) : Except PyRaise Unit :=
  let allowed := rule.allowedValues.getD []
  if allowed ≠ [] ∧ ¬ (allowed.any (rt.equal val) ∨ rt.str val ∈ allowed.map rt.str) then
    .error (valueError ("Quality rule violation: Column '" ++ rule.columnName ++ "' value '" ++
      rt.str val ++ "' not in allowed enum values."))
  else .ok ()

/-- The `REGEX_MATCH` check. -/
def checkRegexMatch (rule : TransformationRule) (val : PyValue) : Except PyRaise Unit := do
  let pattern := rule.regexPattern.getD ""
  if pattern ≠ "" then
    let found ← rt.regexMatch pattern (rt.str val)
    if !found then throw (valueError ("Quality rule violation: Column '" ++ rule.columnName ++
      "' value does not match regex pattern."))

/-- The `MAX_LENGTH` check: the value to truncate to, when the rule truncates. -/
def checkMaxLength (rule : TransformationRule) (val : PyValue) : Except PyRaise (Option PyValue) :=
  match rule.maxLength with
  | none => .ok none
  | some maxLength =>
    let text := (rt.str val).toList
    if text.length ≤ maxLength then .ok none
    else if rule.allowTruncation ∨ rule.malformedPolicy = .explicitTruncate then
      .ok (some (.str (String.ofList (sliceTo maxLength text))))
    else .error (valueError ("Quality rule violation: Column '" ++ rule.columnName ++
      "' length " ++ text.length.repr ++ " exceeds maximum allowed " ++ intText maxLength ++ "."))

/-- A quality rule: the value it truncates its column to, if it does. -/
def checkQuality (rule : TransformationRule) (qualityRuleType : Option String) (val : PyValue) :
    Except PyRaise (Option PyValue) :=
  let qtype := rt.upper (match qualityRuleType with
    | some qtype => if qtype = "" then "NOT_NULL" else qtype
    | none => "NOT_NULL")
  match val with
  | .none =>
    if qtype = "NOT_NULL" then .error (valueError ("Quality rule violation: Column '" ++
      rule.columnName ++ "' is NULL, but NOT_NULL rule '" ++ rule.ruleId ++ "' is configured."))
    else .ok none
  | val =>
    if qtype = "MAX_LENGTH" then checkMaxLength rt rule val
    else if qtype = "NUMERIC_OVERFLOW" then (checkNumericOverflow rt rule val).map fun _ => none
    else if qtype = "VALUE_RANGE" then (checkValueRange rt rule val).map fun _ => none
    else if qtype = "REGEX_MATCH" then (checkRegexMatch rt rule val).map fun _ => none
    else if qtype = "ENUM_VALUES" then (checkEnumValues rt rule val).map fun _ => none
    else .ok none

/-! ## The rule loop -/

/-- What a rule that does not raise leaves: the row with the diagnostics so far, or a record that
is quarantined at once. -/
inductive RuleOutcome where
  | continue (row : PyRow) (diagnostics : List TransformationDiagnostic)
  | quarantine (result : ProcessingResult)

section Loop

variable (secretResolver : Option (String → Except PyRaise (List UInt8)))

/-- The body of the loop for one rule, in its `try` block. -/
def applyRule (rule : TransformationRule) (row : PyRow)
    (diagnostics : List TransformationDiagnostic) : Except PyRaise RuleOutcome := do
  let col := rule.columnName
  match row.get? col with
  | some value => checkValueSafety col value
  | none => pure ()
  let val := (row.get? col).getD .none
  match rule.action with
  | .mapping =>
    if rule.targetCol ≠ col then
      return .continue (popColumn (row.set rule.targetCol val) col) diagnostics
    else return .continue row diagnostics
  | .cleansing (some operation) =>
    let cleansed := applyCleansing rt operation val rule.defaultValue
    if operation = "" then return .continue row diagnostics
    else return .continue (row.set rule.targetCol cleansed) diagnostics
  | .expression (some ast) =>
    let value ← evaluate rt row ast
    return .continue (row.set rule.targetCol value) diagnostics
  | .lookup (some definition) =>
    let resolved ← resolveLookup rt definition val
    match resolved with
    | some value => return .continue (row.set rule.targetCol value) diagnostics
    | none =>
      let message := "Key '" ++ rt.str val ++ "' missing in lookup '" ++
        definition.lookupName ++ "'"
      return .quarantine (.quarantined
        [⟨"WARNING", "LOOKUP_KEY_QUARANTINED", message, col, rule.ruleId⟩]
        ⟨rule.ruleId, col, val, message⟩)
  | .privacy (some strategy) =>
    let masked ← applyMask rt secretResolver strategy val rule.maskChar rule.unmaskedLength
      rule.privacyKeyRef
    return .continue (row.set rule.targetCol masked) diagnostics
  | .default =>
    if isNone val then return .continue (row.set rule.targetCol rule.defaultValue) diagnostics
    else return .continue row diagnostics
  | .quality qualityRuleType =>
    let truncated ← checkQuality rt rule qualityRuleType val
    match truncated with
    | none => return .continue row diagnostics
    | some value =>
      return .continue (row.set rule.targetCol value) (diagnostics ++
        [⟨"WARNING", "EXPLICIT_TRUNCATION", "Column '" ++ col ++
          "' explicitly truncated to max length " ++ intText (rule.maxLength.getD 0) ++ ".",
          col, rule.ruleId⟩])
  | _ => return .continue row diagnostics

/-- `MalformedDataException`. -/
def malformedData (rule : TransformationRule) (e : PyRaise) : PyRaise :=
  ⟨false, "[MALFORMED_DATA_FAILURE] Malformed data policy FAIL_JOB triggered on column '" ++
    rule.columnName ++ "' (rule '" ++ rule.ruleId ++ "'): " ++ e.message⟩

/-- The compiled rules in order, on the row a record starts with. -/
def applyRules : List TransformationRule → PyRow → List TransformationDiagnostic →
    Except PyRaise ProcessingResult
  | [], row, diagnostics => .ok (.success row diagnostics)
  | rule :: rules, row, diagnostics =>
    match applyRule rt secretResolver rule row diagnostics with
    | .ok (.continue row diagnostics) => applyRules rules row diagnostics
    | .ok (.quarantine result) => .ok result
    | .error e =>
      let message := "Rule '" ++ rule.ruleId ++ "' failed on column '" ++ rule.columnName ++
        "': " ++ e.message
      let diagnostics := diagnostics ++
        [⟨"BLOCKER", "PROCESSING_FAILURE", message, rule.columnName, rule.ruleId⟩]
      match rule.malformedPolicy with
      | .failJob => .error (malformedData rule e)
      | .rejectRecord => .ok (.rejected diagnostics)
      | .quarantineRecord =>
        .ok (.quarantined diagnostics ⟨rule.ruleId, rule.columnName,
          (row.get? rule.columnName).getD .none, message⟩)
      | .useDefault =>
        applyRules rules (row.set rule.targetCol rule.defaultValue) diagnostics
      | .useNull => applyRules rules (row.set rule.targetCol .none) diagnostics
      -- a rule that could not truncate leaves the row to the rules after it
      | .explicitTruncate => applyRules rules row diagnostics

end Loop

end DataProcessing

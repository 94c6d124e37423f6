/-
# The target types of exact numbers

`ProviderTypeEmitters` of `akaalEngine/schema/types/emitters.py` and `TypeSafetyEvaluator` of `safety.py`,
for types of the category `EXACT_NUMERIC`: an emitter chooses a type of its engine by precision, scale and
width, and the evaluator takes what the emitter says of precision and scale to find a loss.

* `safety_evaluateConversion_eq_exact_iff` : when no loss is found.
-/
import Akaal.PythonText

open PythonText

namespace TypeEmission

/-! ## Types -/

/-- `ConversionSafety`. -/
inductive ConversionSafety where
  | exact
  | semanticallyEquivalent
  | compatibleWithTransformation
  | compatibilityLayerRequired
  | lossy
  | unsupported
  | userDecisionRequired
  deriving DecidableEq

/-- `CanonicalType` of the category `EXACT_NUMERIC`, with the entries of `extra` that are read. -/
structure CanonicalType where
  rawVendorType : String
  precision : Option ℕ := none
  scale : Option ℕ := none
  bits : Option ℕ := none
  isSigned : Bool := true
  oracleUnconstrained : Bool := false
  oracleNegativeScale : Bool := false
  nullable : Bool := false
  deriving DecidableEq

/-- `target_native_type`, before its text is put together. -/
inductive NativeType where
  | word (name : String)
  | whole (name : String) (precision : ℕ)
  | sized (name : String) (precision scale : ℕ)
  | nullable (native : NativeType)
  deriving DecidableEq

/-- `TargetTypeEmission`, with the entries of `extra` that are read. -/
structure TargetTypeEmission where
  targetEngine : String
  targetNativeType : NativeType
  safety : ConversionSafety := .exact
  warningMessage : Option String := none
  lossinessReasons : List String := []
  targetPrecision : Option ℕ := none
  targetScale : Option ℕ := none
  deriving DecidableEq

namespace CanonicalType

/-- The precision and the scale of a type with digits after the point. -/
def fraction? (c : CanonicalType) : Option (ℕ × ℕ) :=
  match c.precision, c.scale with
  | some p, some s => if s > 0 then some (p, s) else none
  | _, _ => none

/-- The precision is known and above a bound. -/
def precisionOver (c : CanonicalType) (n : ℕ) : Bool := c.precision.any (n < ·)

end CanonicalType

/-! ## The emitters -/

/-- A type that is a word. -/
def wordType (engine name : String) : TargetTypeEmission where
  targetEngine := engine
  targetNativeType := .word name

/-- A decimal type, whose precision and scale are told. -/
def decimalType (engine name : String) (p s : ℕ) : TargetTypeEmission where
  targetEngine := engine
  targetNativeType := .sized name p s
  targetPrecision := some p
  targetScale := some s

/-- `_emit_postgresql`. -/
def emitPostgresql (c : CanonicalType) : TargetTypeEmission :=
  if c.oracleUnconstrained then wordType "POSTGRESQL" "NUMERIC"
  else match c.fraction? with
    | some (p, s) => decimalType "POSTGRESQL" "NUMERIC" (min p 1000) (min s (min p 1000))
    | none =>
      if c.bits = some 16 then wordType "POSTGRESQL" "SMALLINT"
      else if c.bits = some 64 then wordType "POSTGRESQL" "BIGINT"
      else if c.precisionOver 18 then
        decimalType "POSTGRESQL" "NUMERIC" (min (c.precision.getD 0) 1000) 0
      else if c.precisionOver 9 then wordType "POSTGRESQL" "BIGINT"
      else wordType "POSTGRESQL" "INTEGER"

/-- `_emit_oracle`. -/
def emitOracle (c : CanonicalType) : TargetTypeEmission :=
  match c.precision, c.scale with
  | some p, some s => decimalType "ORACLE" "NUMBER" (min p 38) (min s (min p 38))
  | some p, none =>
    { targetEngine := "ORACLE"
      targetNativeType := .whole "NUMBER" (min p 38)
      targetPrecision := some (min p 38)
      targetScale := some 0 }
  | none, _ => { targetEngine := "ORACLE", targetNativeType := .whole "NUMBER" 38 }

/-- `_emit_mysql`. -/
def emitMysql (c : CanonicalType) : TargetTypeEmission :=
  match c.fraction? with
  | some (p, s) => decimalType "MYSQL" "DECIMAL" (min p 65) (min s 30)
  | none =>
    if c.bits = some 8 then wordType "MYSQL" "TINYINT"
    else if c.bits = some 16 then wordType "MYSQL" "SMALLINT"
    else if c.bits = some 64 ∨ c.precisionOver 9 then wordType "MYSQL" "BIGINT"
    else wordType "MYSQL" "INT"

/-- `_emit_mssql`. -/
def emitMssql (c : CanonicalType) : TargetTypeEmission :=
  match c.fraction? with
  | some (p, s) => decimalType "MSSQL" "DECIMAL" (min p 38) (min s (min p 38))
  | none =>
    if c.bits = some 8 then wordType "MSSQL" "TINYINT"
    else if c.bits = some 16 then wordType "MSSQL" "SMALLINT"
    else if c.bits = some 64 ∨ c.precisionOver 9 then wordType "MSSQL" "BIGINT"
    else wordType "MSSQL" "INT"

/-- `_emit_db2`. -/
def emitDb2 (c : CanonicalType) : TargetTypeEmission :=
  match c.fraction? with
  | some (p, s) => decimalType "IBM_DB2" "DECIMAL" (min p 31) (min s (min p 31))
  | none =>
    if c.bits = some 16 then wordType "IBM_DB2" "SMALLINT"
    else if c.bits = some 64 then wordType "IBM_DB2" "BIGINT"
    else wordType "IBM_DB2" "INTEGER"

/-- `_emit_sqlite`. -/
def emitSqlite (_ : CanonicalType) : TargetTypeEmission := wordType "SQLITE" "INTEGER"

/-- `_emit_snowflake`. -/
def emitSnowflake (c : CanonicalType) : TargetTypeEmission :=
  match c.precision, c.scale with
  | some p, some s => decimalType "SNOWFLAKE" "NUMBER" (min p 38) (min s (min p 38))
  | _, _ => { targetEngine := "SNOWFLAKE", targetNativeType := .sized "NUMBER" 38 0 }

/-- `_emit_bigquery`. -/
def emitBigquery (c : CanonicalType) : TargetTypeEmission :=
  if c.scale.any (9 < ·) then wordType "BIGQUERY" "BIGNUMERIC"
  else if c.precisionOver 18 then wordType "BIGQUERY" "NUMERIC"
  else wordType "BIGQUERY" "INT64"

/-- `_emit_redshift`. -/
def emitRedshift (c : CanonicalType) : TargetTypeEmission :=
  match c.fraction? with
  | some (p, s) => decimalType "REDSHIFT" "DECIMAL" (min p 38) (min s (min p 38))
  | none =>
    if c.bits = some 16 then wordType "REDSHIFT" "SMALLINT"
    else if c.bits = some 64 ∨ c.precisionOver 9 then wordType "REDSHIFT" "BIGINT"
    else wordType "REDSHIFT" "INTEGER"

/-- `_emit_databricks`. -/
def emitDatabricks (c : CanonicalType) : TargetTypeEmission :=
  match c.fraction? with
  | some (p, s) => decimalType "DATABRICKS" "DECIMAL" (min p 38) (min s (min p 38))
  | none =>
    if c.bits = some 8 then wordType "DATABRICKS" "BYTE"
    else if c.bits = some 16 then wordType "DATABRICKS" "SHORT"
    else if c.bits = some 64 then wordType "DATABRICKS" "LONG"
    else wordType "DATABRICKS" "INT"

/-- `_wrap` of the ClickHouse emitter. -/
def wrap (c : CanonicalType) (native : NativeType) : NativeType :=
  if c.nullable then .nullable native else native

/-- A word of ClickHouse for a signed or an unsigned type. -/
def clickhouseWord (c : CanonicalType) (signedName unsignedName : String) : TargetTypeEmission where
  targetEngine := "CLICKHOUSE"
  targetNativeType := wrap c (.word (if c.isSigned then signedName else unsignedName))

/-- `_emit_clickhouse`. -/
def emitClickhouse (c : CanonicalType) : TargetTypeEmission :=
  match c.fraction? with
  | some (p, s) =>
    { targetEngine := "CLICKHOUSE"
      targetNativeType := wrap c (.sized "Decimal" (min p 76) (min s (min p 76)))
      targetPrecision := some (min p 76)
      targetScale := some (min s (min p 76)) }
  | none =>
    if c.bits = some 8 then clickhouseWord c "Int8" "UInt8"
    else if c.bits = some 16 then clickhouseWord c "Int16" "UInt16"
    else if c.bits = some 64 then clickhouseWord c "Int64" "UInt64"
    else clickhouseWord c "Int32" "UInt32"

/-- `_emit_cql`. -/
def emitCql (c : CanonicalType) : TargetTypeEmission :=
  if c.scale.any (0 < ·) then wordType "CASSANDRA" "decimal"
  else if c.bits = some 8 then wordType "CASSANDRA" "tinyint"
  else if c.bits = some 16 then wordType "CASSANDRA" "smallint"
  else if c.bits = some 64 then wordType "CASSANDRA" "bigint"
  else wordType "CASSANDRA" "int"

/-- The relational and warehouse engines. -/
inductive Engine where
  | postgresql
  | oracle
  | mysql
  | mssql
  | db2
  | sqlite
  | snowflake
  | bigquery
  | redshift
  | databricks
  | clickhouse
  deriving DecidableEq

/-- The emission of an engine. -/
def Engine.emit : Engine → CanonicalType → TargetTypeEmission
  | postgresql => emitPostgresql
  | oracle => emitOracle
  | mysql => emitMysql
  | mssql => emitMssql
  | db2 => emitDb2
  | sqlite => emitSqlite
  | snowflake => emitSnowflake
  | bigquery => emitBigquery
  | redshift => emitRedshift
  | databricks => emitDatabricks
  | clickhouse => emitClickhouse

/-- The names of the engines. -/
def engineNames : List (String × Engine) :=
  [("postgresql", .postgresql), ("postgres", .postgresql), ("cockroachdb", .postgresql),
    ("yugabytedb", .postgresql), ("oracle", .oracle), ("mysql", .mysql), ("mariadb", .mysql),
    ("tidb", .mysql), ("singlestore", .mysql), ("mssql", .mssql), ("sqlserver", .mssql),
    ("ibm_db2", .db2), ("db2", .db2), ("sqlite", .sqlite), ("snowflake", .snowflake),
    ("bigquery", .bigquery), ("redshift", .redshift), ("databricks", .databricks),
    ("clickhouse", .clickhouse)]

/-- The names of targets with structural contracts. -/
def structuralNames : List String :=
  ["mongodb", "elasticsearch", "opensearch", "kafka", "kinesis", "eventhubs", "event_hubs", "pubsub",
    "pub_sub", "rabbitmq", "pulsar", "dynamodb", "couchbase", "influxdb", "s3", "gcs", "azureblob",
    "azure_blob", "minio", "hdfs", "oci_object_storage", "redis", "keydb", "neo4j"]

/-- `emit`. -/
def emit (targetProvider : String) (c : CanonicalType) : TargetTypeEmission :=
  let tgt := lower (strip targetProvider)
  match engineNames.lookup tgt with
  | some engine => engine.emit c
  | none =>
    if tgt ∈ ["cassandra", "scylladb"] then emitCql c
    else if tgt ∈ structuralNames then
      { targetEngine := targetProvider
        targetNativeType := .word "STRUCTURAL_ONLY"
        safety := .semanticallyEquivalent
        warningMessage := some ("Target engine '" ++ targetProvider ++
          "' uses structural schema contracts rather than relational DDL types") }
    else
      { targetEngine := targetProvider
        targetNativeType := .word "TEXT"
        safety := .unsupported
        warningMessage := some ("Unsupported target engine: " ++ targetProvider) }

/-! ## The evaluator -/

/-- What an evaluation has found: the safety, the reasons and the warnings. -/
structure Findings where
  safety : ConversionSafety
  reasons : List String
  warnings : List String

/-- A loss is found. -/
def Findings.loss (f : Findings) (reason warning : String) : Findings :=
  ⟨.lossy, f.reasons ++ [reason], f.warnings ++ [warning]⟩

/-- The target has fewer digits than the source, where both are known. -/
def insufficient (target source : Option ℕ) : Bool :=
  match source, target with
  | some src, some tgt => tgt < src
  | _, _ => false

/-- `evaluate_conversion`. -/
def evaluateConversion (c : CanonicalType) (em : TargetTypeEmission) : TargetTypeEmission :=
  let f : Findings := ⟨em.safety, em.lossinessReasons, (em.warningMessage.filter (· ≠ "")).toList⟩
  let f := if insufficient em.targetPrecision c.precision then
      f.loss "TARGET_PRECISION_INSUFFICIENT" ("Target precision " ++ (em.targetPrecision.getD 0).repr ++
        " is less than source precision " ++ (c.precision.getD 0).repr)
    else f
  let f := if insufficient em.targetScale c.scale then
      f.loss "SCALE_REDUCTION_LOSSY" ("Target scale " ++ (em.targetScale.getD 0).repr ++
        " is less than source scale " ++ (c.scale.getD 0).repr)
    else f
  let f := if c.oracleNegativeScale then
      f.loss "SCALE_REDUCTION_LOSSY" "Oracle negative scale rounded to 0 on target"
    else f
  { em with
    safety := f.safety
    warningMessage := if f.warnings ≠ [] then some ("; ".intercalate f.warnings) else none
    lossinessReasons := f.reasons }

/-- **No loss is found** when the target has the digits it says and the scale was not negative. -/
theorem safety_evaluateConversion_eq_exact_iff {c : CanonicalType} {em : TargetTypeEmission} :
    (evaluateConversion c em).safety = .exact ↔
      em.safety = .exact ∧ insufficient em.targetPrecision c.precision = false ∧
        insufficient em.targetScale c.scale = false ∧ c.oracleNegativeScale = false := by
  rw [evaluateConversion]
  cases insufficient em.targetPrecision c.precision <;>
  cases insufficient em.targetScale c.scale <;>
  cases c.oracleNegativeScale <;> simp [Findings.loss]

end TypeEmission

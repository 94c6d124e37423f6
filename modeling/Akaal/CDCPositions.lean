/-
# Source positions

The position classes of `cdc/domain/positions.py`, one for each kind of source engine: their
constructors with the checks they make, `to_string`, `to_dict`, the comparisons, and
`parse_source_position`.

* `parse_toDict_iff` : which positions are read back from their dictionaries;
* `parse_toDict_isOk_iff` : and which dictionaries are read at all;
* `returns_same_iff` : which constructor calls make a position that is read back.
-/
import Akaal.CDCErrors
import Akaal.PythonText

open PythonText

namespace CDC

/-! ## The classes -/

/-- `_lsn_to_int`. -/
def lsnToInt (lsn : String) : Except PyRaised ℤ :=
  match lsn.toList.splitOn '/' with
  | [high, low] =>
    match hexInt (String.ofList high), hexInt (String.ofList low) with
    | some h, some l => .ok (h * 2 ^ 32 + l)
    | _, _ => .error (.valueError "invalid literal for int() with base 16")
  | _ => .error (.valueError s!"Malformed LSN '{lsn}'")

/-- `PostgresLSNPosition`. -/
structure PostgresLSNPosition where
  lsn : String
  flushedLsn : String
  numericVal : ℤ
  lsn_upper : upper lsn = lsn
  flushed_upper : upper flushedLsn = flushedLsn
  flushed_ne : flushedLsn ≠ ""
  numeric_eq : lsnToInt lsn = .ok numericVal
  deriving DecidableEq

/-- `MySQLGTIDPosition`. -/
structure MySQLGTIDPosition where
  binlogFile : String
  binlogPos : ℤ
  gtidSet : Option String
  file_ne : binlogFile ≠ ""
  pos_nonneg : 0 ≤ binlogPos
  deriving DecidableEq

/-- `OracleSCNPosition`. -/
structure OracleSCNPosition where
  scn : ℤ
  sequenceNumber : ℤ
  redoThread : ℤ
  scn_nonneg : 0 ≤ scn
  deriving DecidableEq

/-- `MSSQLChangePosition`. -/
structure MSSQLChangePosition where
  lsnHex : String
  seqvalHex : String
  lsn_upper : upper lsnHex = lsnHex
  seqval_upper : upper seqvalHex = seqvalHex
  lsn_ne : lsnHex ≠ ""
  seqval_ne : seqvalHex ≠ ""
  deriving DecidableEq

/-- `MongoDBOpLogPosition`. -/
structure MongoDBOpLogPosition where
  timestampSec : ℤ
  inc : ℤ
  timestamp_nonneg : 0 ≤ timestampSec
  inc_nonneg : 0 ≤ inc
  deriving DecidableEq

/-- `MariaDBGTIDPosition`. -/
structure MariaDBGTIDPosition where
  domainId : ℤ
  serverId : ℤ
  sequenceNo : ℤ
  binlogFile : String
  binlogPos : ℤ
  domain_nonneg : 0 ≤ domainId
  server_nonneg : 0 ≤ serverId
  sequence_nonneg : 0 ≤ sequenceNo
  file_ne : binlogFile ≠ ""
  deriving DecidableEq

/-- `DeltaTableVersionPosition`. -/
structure DeltaTableVersionPosition where
  tableVersion : ℤ
  tableName : String
  timestampMs : Option ℤ
  commitId : Option String
  version_nonneg : 0 ≤ tableVersion
  deriving DecidableEq

/-- `WarehouseQueryPosition`; the engine is what its caller names. -/
structure WarehouseQueryPosition where
  engine : String
  queryId : String
  chunkIndex : ℤ
  rowOffset : ℤ
  engine_upper : upper engine = engine
  query_stripped : strip queryId = queryId
  chunk_nonneg : 0 ≤ chunkIndex
  offset_nonneg : 0 ≤ rowOffset
  deriving DecidableEq

/-- `CDCSourcePosition`. -/
inductive CDCSourcePosition where
  | postgres (p : PostgresLSNPosition)
  | mysql (p : MySQLGTIDPosition)
  | oracle (p : OracleSCNPosition)
  | mssql (p : MSSQLChangePosition)
  | mongodb (p : MongoDBOpLogPosition)
  | mariadb (p : MariaDBGTIDPosition)
  | delta (p : DeltaTableVersionPosition)
  | warehouse (p : WarehouseQueryPosition)
  deriving DecidableEq

/-! ## Constructors -/

/-- `PostgresLSNPosition(lsn, flushed_lsn)`. -/
def PostgresLSNPosition.new (lsn : String) (flushedLsn : Option String) :
    Except PyRaised PostgresLSNPosition :=
  if hlsn : lsn = "" ∨ '/' ∉ lsn.toList then
    .error (.valueError s!"Invalid PostgreSQL LSN format: '{lsn}'")
  else
    match hval : lsnToInt (upper lsn) with
    | .error e => .error e
    | .ok numericVal => .ok {
        lsn := upper lsn
        flushedLsn := upper (orDefault flushedLsn lsn)
        numericVal := numericVal
        lsn_upper := upper_upper lsn
        flushed_upper := upper_upper _
        flushed_ne := fun h => orDefault_ne_empty (fun h' => hlsn (.inl h')) (upper_eq_empty_iff.mp h)
        numeric_eq := hval }

/-- `MySQLGTIDPosition(binlog_file, binlog_pos, gtid_set)`. -/
def MySQLGTIDPosition.new (binlogFile : String) (binlogPos : ℤ) (gtidSet : Option String) :
    Except PyRaised MySQLGTIDPosition :=
  if h : binlogPos < 0 ∨ binlogFile = "" then
    .error (.valueError
      s!"Invalid MySQL binlog file or position: '{binlogFile}':{intText binlogPos}")
  else .ok {
    binlogFile := binlogFile
    binlogPos := binlogPos
    gtidSet := gtidSet
    file_ne := fun hfile => h (.inr hfile)
    pos_nonneg := not_lt.mp fun hpos => h (.inl hpos) }

/-- `OracleSCNPosition(scn, sequence_number, redo_thread)`. -/
def OracleSCNPosition.new (scn sequenceNumber redoThread : ℤ) : Except PyRaised OracleSCNPosition :=
  if h : scn < 0 then .error (.valueError s!"Invalid Oracle SCN: {intText scn}")
  else .ok {
    scn := scn
    sequenceNumber := sequenceNumber
    redoThread := redoThread
    scn_nonneg := not_lt.mp h }

/-- `MSSQLChangePosition(lsn_hex, seqval_hex)`. -/
def MSSQLChangePosition.new (lsnHex : String) (seqvalHex : Option String) :
    Except PyRaised MSSQLChangePosition :=
  if h : lsnHex = "" then .error (.valueError "SQL Server LSN cannot be empty")
  else .ok {
    lsnHex := upper lsnHex
    seqvalHex := upper (orDefault seqvalHex "00000000")
    lsn_upper := upper_upper _
    seqval_upper := upper_upper _
    lsn_ne := fun h' => h (upper_eq_empty_iff.mp h')
    seqval_ne := fun h' => orDefault_ne_empty (by decide) (upper_eq_empty_iff.mp h') }

/-- `MongoDBOpLogPosition(timestamp_sec, inc)`. -/
def MongoDBOpLogPosition.new (timestampSec inc : ℤ) : Except PyRaised MongoDBOpLogPosition :=
  if h : timestampSec < 0 ∨ inc < 0 then
    .error (.valueError "MongoDB OpLog timestamp and inc must be non-negative")
  else .ok {
    timestampSec := timestampSec
    inc := inc
    timestamp_nonneg := not_lt.mp fun h' => h (.inl h')
    inc_nonneg := not_lt.mp fun h' => h (.inr h') }

/-- `MariaDBGTIDPosition(domain_id, server_id, sequence_no, binlog_file, binlog_pos)`. -/
def MariaDBGTIDPosition.new (domainId serverId sequenceNo : ℤ) (binlogFile : Option String)
    (binlogPos : ℤ) : Except PyRaised MariaDBGTIDPosition :=
  if h : domainId < 0 ∨ serverId < 0 ∨ sequenceNo < 0 then
    .error (.valueError
      "MariaDB GTID domain_id, server_id, and sequence_no must be non-negative")
  else .ok {
    domainId := domainId
    serverId := serverId
    sequenceNo := sequenceNo
    binlogFile := orDefault binlogFile "mariadb-bin.000001"
    binlogPos := binlogPos
    domain_nonneg := not_lt.mp fun h' => h (.inl h')
    server_nonneg := not_lt.mp fun h' => h (.inr (.inl h'))
    sequence_nonneg := not_lt.mp fun h' => h (.inr (.inr h'))
    file_ne := orDefault_ne_empty (by decide) }

/-- `DeltaTableVersionPosition(table_version, table_name, timestamp_ms, commit_id)`. -/
def DeltaTableVersionPosition.new (tableVersion : ℤ) (tableName : String)
    (timestampMs : Option ℤ) (commitId : Option String) :
    Except PyRaised DeltaTableVersionPosition :=
  if h : tableVersion < 0 then
    .error (.valueError "Delta table version must be non-negative")
  else .ok {
    tableVersion := tableVersion
    tableName := tableName
    timestampMs := timestampMs
    commitId := commitId
    version_nonneg := not_lt.mp h }

/-- `WarehouseQueryPosition(engine, query_id, chunk_index, row_offset)`. -/
def WarehouseQueryPosition.new (engine queryId : String) (chunkIndex rowOffset : ℤ) :
    Except PyRaised WarehouseQueryPosition :=
  if h : chunkIndex < 0 ∨ rowOffset < 0 then
    .error (.valueError "WarehouseQueryPosition chunk_index and row_offset must be non-negative")
  else .ok {
    engine := upper engine
    queryId := strip queryId
    chunkIndex := chunkIndex
    rowOffset := rowOffset
    engine_upper := upper_upper _
    query_stripped := strip_strip _
    chunk_nonneg := not_lt.mp fun h' => h (.inl h')
    offset_nonneg := not_lt.mp fun h' => h (.inr h') }

namespace CDCSourcePosition

/-! ## Texts and dictionaries -/

/-- `self.engine`. -/
def engine : CDCSourcePosition → String
  | postgres _ => "POSTGRESQL"
  | mysql _ => "MYSQL"
  | oracle _ => "ORACLE"
  | mssql _ => "MSSQL"
  | mongodb _ => "MONGODB"
  | mariadb _ => "MARIADB"
  | delta _ => "DATABRICKS"
  | warehouse p => p.engine

/-- `type(self).__name__`. -/
def className : CDCSourcePosition → String
  | postgres _ => "PostgresLSNPosition"
  | mysql _ => "MySQLGTIDPosition"
  | oracle _ => "OracleSCNPosition"
  | mssql _ => "MSSQLChangePosition"
  | mongodb _ => "MongoDBOpLogPosition"
  | mariadb _ => "MariaDBGTIDPosition"
  | delta _ => "DeltaTableVersionPosition"
  | warehouse _ => "WarehouseQueryPosition"

/-- `to_string`. -/
def toText : CDCSourcePosition → String
  | postgres p => p.lsn
  | mysql p =>
    match p.gtidSet with
    | some gtidSet =>
      if gtidSet = "" then p.binlogFile ++ ":" ++ intText p.binlogPos
      else gtidSet ++ "@" ++ p.binlogFile ++ ":" ++ intText p.binlogPos
    | none => p.binlogFile ++ ":" ++ intText p.binlogPos
  | oracle p => "SCN:" ++ intText p.scn ++ "#SEQ:" ++ intText p.sequenceNumber
  | mssql p => p.lsnHex ++ ":" ++ p.seqvalHex
  | mongodb p => "TS:" ++ intText p.timestampSec ++ ":" ++ intText p.inc
  | mariadb p =>
    intText p.domainId ++ "-" ++ intText p.serverId ++ "-" ++ intText p.sequenceNo ++ "@" ++
      p.binlogFile ++ ":" ++ intText p.binlogPos
  | delta p => (if p.tableName = "" then "" else p.tableName ++ "@") ++ "v" ++ intText p.tableVersion
  | warehouse p =>
    p.queryId ++ ":chunk" ++ intText p.chunkIndex ++ ":offset" ++ intText p.rowOffset

/-- `str(self)`. -/
def str (p : CDCSourcePosition) : String := p.engine ++ ":" ++ p.toText

/-- `to_dict`. -/
def toDict : CDCSourcePosition → PyItems
  | postgres p => [("engine", .str "POSTGRESQL"), ("lsn", .str p.lsn),
      ("flushed_lsn", .str p.flushedLsn), ("numeric_val", .int p.numericVal)]
  | mysql p => [("engine", .str "MYSQL"), ("binlog_file", .str p.binlogFile),
      ("binlog_pos", .int p.binlogPos), ("gtid_set", optStr p.gtidSet)]
  | oracle p => [("engine", .str "ORACLE"), ("scn", .int p.scn),
      ("sequence_number", .int p.sequenceNumber), ("redo_thread", .int p.redoThread)]
  | mssql p => [("engine", .str "MSSQL"), ("lsn_hex", .str p.lsnHex),
      ("seqval_hex", .str p.seqvalHex)]
  | mongodb p => [("engine", .str "MONGODB"), ("timestamp_sec", .int p.timestampSec),
      ("inc", .int p.inc)]
  | mariadb p => [("engine", .str "MARIADB"), ("domain_id", .int p.domainId),
      ("server_id", .int p.serverId), ("sequence_no", .int p.sequenceNo),
      ("binlog_file", .str p.binlogFile), ("binlog_pos", .int p.binlogPos)]
  | delta p => [("engine", .str "DATABRICKS"), ("table_version", .int p.tableVersion),
      ("table_name", .str p.tableName), ("timestamp_ms", optInt p.timestampMs),
      ("commit_id", optStr p.commitId)]
  | warehouse p => [("engine", .str p.engine), ("query_id", .str p.queryId),
      ("chunk_index", .int p.chunkIndex), ("row_offset", .int p.rowOffset)]

/-! ## Comparisons -/

/-- The exception of a comparison with a position of another class or engine. -/
def cannotCompare (a b : CDCSourcePosition) : PyRaised :=
  .typeError ("Cannot compare " ++ a.className ++ " with <class 'akaal.cdc.domain.positions." ++
    b.className ++ "'> (engine=" ++ b.engine ++ ")")

/-- `is_after`. -/
def isAfter : CDCSourcePosition → CDCSourcePosition → Except PyRaised Bool
  | postgres a, postgres b => .ok (decide (b.numericVal < a.numericVal))
  | mysql a, mysql b =>
    .ok (if a.binlogFile = b.binlogFile then decide (b.binlogPos < a.binlogPos)
      else decide (b.binlogFile < a.binlogFile))
  | oracle a, oracle b =>
    .ok (if a.scn = b.scn then decide (b.sequenceNumber < a.sequenceNumber)
      else decide (b.scn < a.scn))
  | mssql a, mssql b =>
    .ok (if a.lsnHex = b.lsnHex then decide (b.seqvalHex < a.seqvalHex)
      else decide (b.lsnHex < a.lsnHex))
  | mongodb a, mongodb b =>
    .ok (if a.timestampSec = b.timestampSec then decide (b.inc < a.inc)
      else decide (b.timestampSec < a.timestampSec))
  | mariadb a, mariadb b =>
    .ok (if a.domainId = b.domainId ∧ a.serverId = b.serverId then
        decide (b.sequenceNo < a.sequenceNo)
      else if a.sequenceNo = b.sequenceNo then decide (b.binlogPos < a.binlogPos)
      else decide (b.sequenceNo < a.sequenceNo))
  | delta a, delta b =>
    if a.tableName ≠ "" ∧ b.tableName ≠ "" ∧ a.tableName ≠ b.tableName then
      .error (.typeError ("Cannot compare Delta positions across disparate tables: '" ++
        a.tableName ++ "' vs '" ++ b.tableName ++ "'"))
    else .ok (decide (b.tableVersion < a.tableVersion))
  | warehouse a, warehouse b =>
    if a.engine ≠ b.engine then .error (cannotCompare (warehouse a) (warehouse b))
    else if a.queryId ≠ b.queryId then
      .error (.typeError ("Cannot compare positions across different query IDs: '" ++
        a.queryId ++ "' vs '" ++ b.queryId ++ "'"))
    else .ok (if a.chunkIndex = b.chunkIndex then decide (b.rowOffset < a.rowOffset)
      else decide (b.chunkIndex < a.chunkIndex))
  | a, b => .error (cannotCompare a b)

/-- `self < other`; positions with a `numeric_val` compare by it. -/
def lt : CDCSourcePosition → CDCSourcePosition → Except PyRaised Bool
  | postgres a, postgres b => .ok (decide (a.numericVal < b.numericVal))
  | a, b => do
      let after ← a.isAfter b
      return !after && decide (a.toText ≠ b.toText)

/-- `self <= other`. -/
def le (a b : CDCSourcePosition) : Except PyRaised Bool := do
  let less ← a.lt b
  return less || decide (a.toText = b.toText)

/-- `self > other`. -/
def gt (a b : CDCSourcePosition) : Except PyRaised Bool := a.isAfter b

/-- `self == other`. -/
def eq (a b : CDCSourcePosition) : Bool :=
  decide (a.engine = b.engine) && decide (a.toText = b.toText)

end CDCSourcePosition

/-! ## Parsing -/

/-- `parse_source_position`. -/
def parseSourcePosition (value : PyValue) : Except PyRaised CDCSourcePosition :=
  match value with
  | .dict data => do
      let engine := upper (← getStrD data "engine" "")
      if engine = "POSTGRESQL" ∨ engine = "POSTGRES" then
        return .postgres (← PostgresLSNPosition.new (← getStr data "lsn")
          (← getOptStr data "flushed_lsn"))
      else if engine = "MYSQL" then
        return .mysql (← MySQLGTIDPosition.new (← getStr data "binlog_file")
          (← getInt data "binlog_pos") (← getOptStr data "gtid_set"))
      else if engine = "MARIADB" then
        return .mariadb (← MariaDBGTIDPosition.new (← getIntD data "domain_id" 0)
          (← getIntD data "server_id" 1)
          (← getIntD data "sequence_no" (← getIntD data "binlog_pos" 0))
          (← getOptStr data "binlog_file") (← getIntD data "binlog_pos" 0))
      else if engine = "ORACLE" then
        return .oracle (← OracleSCNPosition.new (← getInt data "scn")
          (← getIntD data "sequence_number" 0) (← getIntD data "redo_thread" 1))
      else if engine = "MSSQL" then
        return .mssql (← MSSQLChangePosition.new (← getStr data "lsn_hex")
          (← getOptStr data "seqval_hex"))
      else if engine = "MONGODB" then
        return .mongodb (← MongoDBOpLogPosition.new (← getInt data "timestamp_sec")
          (← getInt data "inc"))
      else if engine = "DATABRICKS" ∨ engine = "DELTA" ∨ engine = "DELTA_LAKE" then
        return .delta (← DeltaTableVersionPosition.new
          (← getIntD data "table_version" (← getIntD data "version" 0))
          (← getStrD data "table_name" "") (← getOptInt data "timestamp_ms")
          (← getOptStr data "commit_id"))
      else if engine = "SNOWFLAKE" ∨ engine = "BIGQUERY" ∨ engine = "REDSHIFT" ∨
          engine = "WAREHOUSE" then
        return .warehouse (← WarehouseQueryPosition.new engine
          (← getStrD data "query_id" "q-default") (← getIntD data "chunk_index" 0)
          (← getIntD data "row_offset" 0))
      else
        .error (.valueError s!"Unsupported or missing engine for CDC position: '{engine}'")
  | _ => .error (.valueError "Position data must be a dictionary.")

/-! ## Reading a position back -/

section Rebuild

theorem slash_mem_of_lsnToInt {lsn : String} {n : ℤ} (h : lsnToInt lsn = .ok n) :
    '/' ∈ lsn.toList := by
  by_contra hslash
  have hsplit : lsn.toList.splitOn '/' = [lsn.toList] := List.splitOn_eq_singleton hslash
  rw [lsnToInt, hsplit] at h
  cases h

theorem PostgresLSNPosition.new_self (p : PostgresLSNPosition) :
    PostgresLSNPosition.new p.lsn (some p.flushedLsn) = .ok p := by
  have hslash : '/' ∈ p.lsn.toList := slash_mem_of_lsnToInt p.numeric_eq
  have hcond : ¬ (p.lsn = "" ∨ '/' ∉ p.lsn.toList) := by
    rintro (h | h)
    · rw [h] at hslash
      simp at hslash
    · exact h hslash
  have hval : lsnToInt (upper p.lsn) = .ok p.numericVal := by
    rw [p.lsn_upper, p.numeric_eq]
  rw [PostgresLSNPosition.new, dif_neg hcond]
  split
  · next e he => simp [hval] at he
  · next n hn =>
      rw [hval] at hn
      cases hn
      simp [p.lsn_upper, p.flushed_upper, p.flushed_ne]

theorem MySQLGTIDPosition.new_self (p : MySQLGTIDPosition) :
    MySQLGTIDPosition.new p.binlogFile p.binlogPos p.gtidSet = .ok p := by
  rw [MySQLGTIDPosition.new, dif_neg]
  rintro (h | h)
  · exact absurd p.pos_nonneg (not_le.mpr h)
  · exact p.file_ne h

theorem OracleSCNPosition.new_self (p : OracleSCNPosition) :
    OracleSCNPosition.new p.scn p.sequenceNumber p.redoThread = .ok p := by
  rw [OracleSCNPosition.new, dif_neg (not_lt.mpr p.scn_nonneg)]

theorem MSSQLChangePosition.new_self (p : MSSQLChangePosition) :
    MSSQLChangePosition.new p.lsnHex (some p.seqvalHex) = .ok p := by
  rw [MSSQLChangePosition.new, dif_neg p.lsn_ne]
  simp [p.seqval_ne, p.lsn_upper, p.seqval_upper]

theorem MongoDBOpLogPosition.new_self (p : MongoDBOpLogPosition) :
    MongoDBOpLogPosition.new p.timestampSec p.inc = .ok p := by
  rw [MongoDBOpLogPosition.new, dif_neg]
  rintro (h | h)
  · exact absurd p.timestamp_nonneg (not_le.mpr h)
  · exact absurd p.inc_nonneg (not_le.mpr h)

theorem MariaDBGTIDPosition.new_self (p : MariaDBGTIDPosition) :
    MariaDBGTIDPosition.new p.domainId p.serverId p.sequenceNo (some p.binlogFile) p.binlogPos =
      .ok p := by
  rw [MariaDBGTIDPosition.new, dif_neg]
  · simp [p.file_ne]
  · rintro (h | h | h)
    · exact absurd p.domain_nonneg (not_le.mpr h)
    · exact absurd p.server_nonneg (not_le.mpr h)
    · exact absurd p.sequence_nonneg (not_le.mpr h)

theorem DeltaTableVersionPosition.new_self (p : DeltaTableVersionPosition) :
    DeltaTableVersionPosition.new p.tableVersion p.tableName p.timestampMs p.commitId = .ok p := by
  rw [DeltaTableVersionPosition.new, dif_neg (not_lt.mpr p.version_nonneg)]

theorem WarehouseQueryPosition.new_self (p : WarehouseQueryPosition) :
    WarehouseQueryPosition.new p.engine p.queryId p.chunkIndex p.rowOffset = .ok p := by
  rw [WarehouseQueryPosition.new, dif_neg]
  · simp [p.engine_upper, p.query_stripped]
  · rintro (h | h)
    · exact absurd p.chunk_nonneg (not_le.mpr h)
    · exact absurd p.offset_nonneg (not_le.mpr h)

end Rebuild

/-- The engines `parse_source_position` takes for those of a warehouse. -/
def warehouseEngines : List String := ["SNOWFLAKE", "BIGQUERY", "REDSHIFT", "WAREHOUSE"]

/-- The engines whose positions `parse_source_position` reads with defaults for every field. -/
def defaultedEngines : List String := ["MARIADB", "DATABRICKS", "DELTA", "DELTA_LAKE"]

/-- The positions that are read back: those of a warehouse under one of four engine names, and
all those of the other classes. -/
def CDCSourcePosition.IsReadBack : CDCSourcePosition → Prop
  | .warehouse p => p.engine ∈ warehouseEngines
  | _ => True

/-- The positions whose dictionary is read at all. -/
def CDCSourcePosition.IsRead : CDCSourcePosition → Prop
  | .warehouse p => p.engine ∈ warehouseEngines ∨ p.engine ∈ defaultedEngines
  | _ => True

/-- What becomes of the dictionary of a warehouse position, by its engine. -/
theorem parse_warehouse (p : WarehouseQueryPosition) :
    parseSourcePosition (.dict (CDCSourcePosition.warehouse p).toDict) =
      if p.engine = "POSTGRESQL" ∨ p.engine = "POSTGRES" then .error (.keyError "lsn")
      else if p.engine = "MYSQL" then .error (.keyError "binlog_file")
      else if p.engine = "MARIADB" then .mariadb <$> MariaDBGTIDPosition.new 0 1 0 none 0
      else if p.engine = "ORACLE" then .error (.keyError "scn")
      else if p.engine = "MSSQL" then .error (.keyError "lsn_hex")
      else if p.engine = "MONGODB" then .error (.keyError "timestamp_sec")
      else if p.engine = "DATABRICKS" ∨ p.engine = "DELTA" ∨ p.engine = "DELTA_LAKE" then
        .delta <$> DeltaTableVersionPosition.new 0 "" none none
      else if p.engine = "SNOWFLAKE" ∨ p.engine = "BIGQUERY" ∨ p.engine = "REDSHIFT" ∨
          p.engine = "WAREHOUSE" then .ok (.warehouse p)
      else .error (.valueError
        ("Unsupported or missing engine for CDC position: '" ++ p.engine ++ "'")) := by
  simp [parseSourcePosition, CDCSourcePosition.toDict, getStrD, getIntD, getStr, getInt, getItem,
    getOptStr, getOptInt, getValue, asStr, asInt, asOptStr, asOptInt, List.lookup,
    p.engine_upper, p.new_self]
  rfl

theorem upper_engines : upper "POSTGRESQL" = "POSTGRESQL" ∧ upper "MYSQL" = "MYSQL" ∧
    upper "ORACLE" = "ORACLE" ∧ upper "MSSQL" = "MSSQL" ∧ upper "MONGODB" = "MONGODB" ∧
    upper "MARIADB" = "MARIADB" ∧ upper "DATABRICKS" = "DATABRICKS" := by decide

theorem parse_toDict_of_isReadBack {p : CDCSourcePosition} (h : p.IsReadBack) :
    parseSourcePosition (.dict p.toDict) = .ok p := by
  obtain ⟨hpostgres, hmysql, horacle, hmssql, hmongodb, hmariadb, hdelta⟩ := upper_engines
  cases p with
  | postgres p =>
    simp [parseSourcePosition, CDCSourcePosition.toDict, getStrD, getStr, getItem, getOptStr,
      getValue, asStr, asOptStr, List.lookup, hpostgres, p.new_self]
  | mysql p =>
    simp [parseSourcePosition, CDCSourcePosition.toDict, getStrD, getStr, getInt, getItem,
      getOptStr, getValue, asStr, asInt, List.lookup, hmysql, p.new_self]
  | oracle p =>
    simp [parseSourcePosition, CDCSourcePosition.toDict, getStrD, getInt, getItem, getIntD,
      asStr, asInt, List.lookup, horacle, p.new_self]
  | mssql p =>
    simp [parseSourcePosition, CDCSourcePosition.toDict, getStrD, getStr, getItem, getOptStr,
      getValue, asStr, asOptStr, List.lookup, hmssql, p.new_self]
  | mongodb p =>
    simp [parseSourcePosition, CDCSourcePosition.toDict, getStrD, getInt, getItem, asStr, asInt,
      List.lookup, hmongodb, p.new_self]
  | mariadb p =>
    simp [parseSourcePosition, CDCSourcePosition.toDict, getStrD, getIntD, getOptStr, getValue,
      asStr, asInt, asOptStr, List.lookup, hmariadb, p.new_self]
  | delta p =>
    simp [parseSourcePosition, CDCSourcePosition.toDict, getStrD, getIntD, getOptStr, getOptInt,
      getValue, asStr, asInt, List.lookup, hdelta, p.new_self]
  | warehouse p =>
    have hengine : p.engine = "SNOWFLAKE" ∨ p.engine = "BIGQUERY" ∨ p.engine = "REDSHIFT" ∨
        p.engine = "WAREHOUSE" := by
      simpa [CDCSourcePosition.IsReadBack, warehouseEngines] using h
    rw [parse_warehouse]
    rcases hengine with h | h | h | h <;> simp [h]

/-- **The positions that are read back.** -/
theorem parse_toDict_iff (p : CDCSourcePosition) :
    parseSourcePosition (.dict p.toDict) = .ok p ↔ p.IsReadBack := by
  refine ⟨fun h => ?_, parse_toDict_of_isReadBack⟩
  cases p with
  | warehouse p =>
    rw [parse_warehouse] at h
    by_cases hengine : p.engine = "SNOWFLAKE" ∨ p.engine = "BIGQUERY" ∨ p.engine = "REDSHIFT" ∨
        p.engine = "WAREHOUSE"
    · simpa [CDCSourcePosition.IsReadBack, warehouseEngines] using hengine
    · -- Under another name the result is an exception or a position of another class.
      rw [if_neg hengine] at h
      split_ifs at h <;> simp [MariaDBGTIDPosition.new, DeltaTableVersionPosition.new] at h
  | _ => trivial

/-- **The positions whose dictionary is read at all.** -/
theorem parse_toDict_isOk_iff (p : CDCSourcePosition) :
    (∃ q, parseSourcePosition (.dict p.toDict) = .ok q) ↔ p.IsRead := by
  cases p with
  | warehouse p =>
    rw [parse_warehouse]
    constructor
    · rintro ⟨q, h⟩
      show p.engine ∈ warehouseEngines ∨ p.engine ∈ defaultedEngines
      simp only [warehouseEngines, defaultedEngines, List.mem_cons, List.not_mem_nil, or_false]
      split_ifs at h <;> tauto
    · intro h
      have hengine : p.engine ∈ warehouseEngines ∨ p.engine ∈ defaultedEngines := h
      simp only [warehouseEngines, defaultedEngines, List.mem_cons, List.not_mem_nil,
        or_false] at hengine
      rcases hengine with (h | h | h | h) | h | h | h | h <;>
        simp [h, MariaDBGTIDPosition.new, DeltaTableVersionPosition.new]
  | _ => exact ⟨fun _ => trivial, fun _ => ⟨_, parse_toDict_of_isReadBack trivial⟩⟩

/-! ## Constructor calls -/

/-- A call of a position class, with its arguments. -/
inductive PositionCall where
  | postgres (lsn : String) (flushedLsn : Option String)
  | mysql (binlogFile : String) (binlogPos : ℤ) (gtidSet : Option String)
  | oracle (scn sequenceNumber redoThread : ℤ)
  | mssql (lsnHex : String) (seqvalHex : Option String)
  | mongodb (timestampSec inc : ℤ)
  | mariadb (domainId serverId sequenceNo : ℤ) (binlogFile : Option String) (binlogPos : ℤ)
  | delta (tableVersion : ℤ) (tableName : String) (timestampMs : Option ℤ)
      (commitId : Option String)
  | warehouse (engine queryId : String) (chunkIndex rowOffset : ℤ)
  deriving DecidableEq

/-- What the call makes. -/
def PositionCall.construct : PositionCall → Except PyRaised CDCSourcePosition
  | postgres lsn flushedLsn => .postgres <$> PostgresLSNPosition.new lsn flushedLsn
  | mysql binlogFile binlogPos gtidSet =>
    .mysql <$> MySQLGTIDPosition.new binlogFile binlogPos gtidSet
  | oracle scn sequenceNumber redoThread =>
    .oracle <$> OracleSCNPosition.new scn sequenceNumber redoThread
  | mssql lsnHex seqvalHex => .mssql <$> MSSQLChangePosition.new lsnHex seqvalHex
  | mongodb timestampSec inc => .mongodb <$> MongoDBOpLogPosition.new timestampSec inc
  | mariadb domainId serverId sequenceNo binlogFile binlogPos =>
    .mariadb <$> MariaDBGTIDPosition.new domainId serverId sequenceNo binlogFile binlogPos
  | delta tableVersion tableName timestampMs commitId =>
    .delta <$> DeltaTableVersionPosition.new tableVersion tableName timestampMs commitId
  | warehouse engine queryId chunkIndex rowOffset =>
    .warehouse <$> WarehouseQueryPosition.new engine queryId chunkIndex rowOffset

/-- The call names an engine that the parser takes for a warehouse's, when it has to name one. -/
def PositionCall.NamesReadEngine : PositionCall → Prop
  | warehouse engine _ _ _ => upper engine ∈ warehouseEngines
  | _ => True

theorem map_eq_ok {α β : Type} {f : α → β} {x : Except PyRaised α} {b : β}
    (h : f <$> x = .ok b) : ∃ a, x = .ok a ∧ b = f a := by
  cases x with
  | error e => cases h
  | ok a => exact ⟨a, rfl, (Except.ok.inj h).symm⟩

/-- The engine of a warehouse position is the upper case of the engine that its call names. -/
theorem engine_of_new {engine queryId : String} {chunkIndex rowOffset : ℤ}
    {p : WarehouseQueryPosition}
    (h : WarehouseQueryPosition.new engine queryId chunkIndex rowOffset = .ok p) :
    p.engine = upper engine := by
  rw [WarehouseQueryPosition.new] at h
  split_ifs at h
  cases h
  rfl

theorem isReadBack_iff_of_construct {call : PositionCall} {p : CDCSourcePosition}
    (h : call.construct = .ok p) : p.IsReadBack ↔ call.NamesReadEngine := by
  cases call with
  | warehouse engine queryId chunkIndex rowOffset =>
    obtain ⟨q, hq, rfl⟩ := map_eq_ok h
    show q.engine ∈ warehouseEngines ↔ upper engine ∈ warehouseEngines
    rw [engine_of_new hq]
  | _ =>
    obtain ⟨q, -, rfl⟩ := map_eq_ok h
    exact Iff.rfl

/-- **The constructor calls whose position comes back from its dictionary**, of the same class and
equal in every field. -/
theorem returns_same_iff {call : PositionCall} {p : CDCSourcePosition}
    (h : call.construct = .ok p) :
    (∃ q, parseSourcePosition (.dict p.toDict) = .ok q ∧ q.className = p.className ∧ q = p) ↔
      call.NamesReadEngine := by
  rw [← isReadBack_iff_of_construct h, ← parse_toDict_iff]
  constructor
  · rintro ⟨q, hq, -, rfl⟩
    exact hq
  · intro hp
    exact ⟨p, hp, rfl, rfl⟩

/-- A Snowflake position comes back. -/
theorem returns_same_snowflake :
    ∃ p, (PositionCall.warehouse "Snowflake" " q1 " 2 50).construct = .ok p ∧
      ∃ q, parseSourcePosition (.dict p.toDict) = .ok q ∧ q.className = p.className ∧ q = p :=
  have hmake : (PositionCall.warehouse "Snowflake" " q1 " 2 50).construct = .ok (.warehouse {
        engine := "SNOWFLAKE", queryId := "q1", chunkIndex := 2, rowOffset := 50
        engine_upper := by decide, query_stripped := by decide
        chunk_nonneg := by decide, offset_nonneg := by decide }) := by rfl
  ⟨_, hmake, (returns_same_iff hmake).mpr (by
    show upper "Snowflake" ∈ warehouseEngines
    decide)⟩

/-- A position of another warehouse does not come back: its dictionary is refused. -/
theorem not_returns_same : ∃ p, (PositionCall.warehouse "SYNAPSE" "q1" 2 50).construct = .ok p ∧
      ¬ ∃ q, parseSourcePosition (.dict p.toDict) = .ok q ∧ q.className = p.className ∧ q = p := by
  refine ⟨.warehouse {
    engine := "SYNAPSE", queryId := "q1", chunkIndex := 2, rowOffset := 50
    engine_upper := by decide, query_stripped := by decide
    chunk_nonneg := by decide, offset_nonneg := by decide }, by rfl, ?_⟩
  rintro ⟨q, hq, -, rfl⟩
  have hengine : "SYNAPSE" ∈ warehouseEngines := (parse_toDict_iff _).mp hq
  revert hengine
  decide

end CDC

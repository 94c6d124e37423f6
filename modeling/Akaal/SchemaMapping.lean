/-
# Applying a schema mapping

`CompiledSchemaMapping` of `schema/models/mapping.py`, the checks of `MappingValidator.validate` in
`schema/mapping/validator.py`, and what `MappingEngine.apply_mapping` of `schema/mapping/engine.py` makes of
the tables of a model: tables and columns are renamed or left out, and primary keys, foreign keys, unique and
check constraints, indexes and the partitioning are carried over by name.  Names are looked up without regard
to case.

* `validate` : the diagnostics of a mapping;
* `applyMapping` : the mapped model.

Data types, the texts of expressions, views, routines, triggers, sequences and synonyms are left out, and so
are the fields of a constraint that name no column.
-/
import Akaal.PythonText

open PythonText

namespace SchemaMapping

/-! ## Models -/

/-- `CanonicalColumn`. -/
structure CanonicalColumn where
  name : String
  ordinalPosition : ℤ
  deriving DecidableEq

/-- `CanonicalPrimaryKey`. -/
structure CanonicalPrimaryKey where
  name : Option String
  columns : List String
  deriving DecidableEq

/-- `CanonicalForeignKey`. -/
structure CanonicalForeignKey where
  name : Option String
  columns : List String
  referencedSchema : String
  referencedTable : String
  referencedColumns : List String
  deriving DecidableEq

/-- `CanonicalUniqueConstraint`. -/
structure CanonicalUniqueConstraint where
  name : Option String
  columns : List String
  deriving DecidableEq

/-- `CanonicalCheckConstraint`. -/
structure CanonicalCheckConstraint where
  name : Option String
  isNotNull : Bool
  notNullColumn : Option String
  deriving DecidableEq

/-- `CanonicalIndex`. -/
structure CanonicalIndex where
  name : String
  columns : List String
  includedColumns : List String
  deriving DecidableEq

/-- `CanonicalPartitioning`. -/
structure CanonicalPartitioning where
  partitionColumns : List String
  subpartitionColumns : List String
  shardKeyColumns : List String
  deriving DecidableEq

/-- `CanonicalTable`. -/
structure CanonicalTable where
  tableName : String
  schemaName : String
  columns : List CanonicalColumn
  primaryKey : Option CanonicalPrimaryKey
  foreignKeys : List CanonicalForeignKey
  uniqueConstraints : List CanonicalUniqueConstraint
  checkConstraints : List CanonicalCheckConstraint
  indexes : List CanonicalIndex
  partitioning : CanonicalPartitioning
  deriving DecidableEq

/-- `CanonicalSchemaModel`. -/
structure CanonicalSchemaModel where
  tables : List CanonicalTable
  deriving DecidableEq

/-- Two names are the same up to case. -/
def sameName (a b : String) : Bool := lower a == lower b

/-- `get_column`. -/
def CanonicalTable.getColumn (tbl : CanonicalTable) (colName : String) : Option CanonicalColumn :=
  tbl.columns.find? fun col => sameName col.name colName

/-- `get_table`. -/
def CanonicalSchemaModel.getTable (model : CanonicalSchemaModel) (schemaName tableName : String) :
    Option CanonicalTable :=
  model.tables.find? fun tbl => sameName tbl.schemaName schemaName && sameName tbl.tableName tableName

/-! ## Mappings -/

/-- `ColumnMapping`. -/
structure ColumnMapping where
  sourceColumn : String
  targetColumn : String
  isIncluded : Bool := true
  ordinalPosition : Option ℤ := none
  isGenerated : Bool := false
  deriving DecidableEq

/-- `TableMapping`. -/
structure TableMapping where
  sourceSchema : String
  sourceTable : String
  targetSchema : String := ""
  targetTable : String := ""
  isIncluded : Bool := true
  columnMappings : List ColumnMapping := []
  deriving DecidableEq

/-- `SchemaMappingRule`. -/
structure SchemaMappingRule where
  sourceSchema : String
  targetSchema : String
  deriving DecidableEq

/-- `CompiledSchemaMapping`; the mapping of a chunk carries that of the whole estate. -/
inductive CompiledSchemaMapping where
  | mk (schemaRoutes : List SchemaMappingRule) (tableMappings : List TableMapping)
      (globalTablePrefix globalTableSuffix : Option String)
      (estateMapping : Option CompiledSchemaMapping)

namespace CompiledSchemaMapping

/-- `schema_routes`. -/
def schemaRoutes : CompiledSchemaMapping → List SchemaMappingRule
  | .mk schemaRoutes _ _ _ _ => schemaRoutes

/-- `table_mappings`. -/
def tableMappings : CompiledSchemaMapping → List TableMapping
  | .mk _ tableMappings _ _ _ => tableMappings

/-- `global_table_prefix`, or the empty text. -/
def globalTablePrefix : CompiledSchemaMapping → String
  | .mk _ _ tablePrefix _ _ => tablePrefix.getD ""

/-- `global_table_suffix`, or the empty text. -/
def globalTableSuffix : CompiledSchemaMapping → String
  | .mk _ _ _ tableSuffix _ => tableSuffix.getD ""

/-- `get_table_mapping`. -/
def getTableMapping : CompiledSchemaMapping → String → String → Option TableMapping
  | .mk _ tableMappings _ _ estateMapping, srcSchema, srcTable =>
    match tableMappings.find? fun tm =>
        sameName tm.sourceSchema srcSchema && sameName tm.sourceTable srcTable with
    | some tm => some tm
    | none =>
      match estateMapping with
      | some estate => estate.getTableMapping srcSchema srcTable
      | none => none

/-- `resolve_target_schema`. -/
def resolveTargetSchema (mapping : CompiledSchemaMapping) (srcSchema : String) : String :=
  match mapping.schemaRoutes.find? fun r => sameName r.sourceSchema srcSchema with
  | some r => r.targetSchema
  | none => srcSchema

end CompiledSchemaMapping

/-- `get_column_mapping`. -/
def TableMapping.getColumnMapping (tm : TableMapping) (srcCol : String) : Option ColumnMapping :=
  tm.columnMappings.find? fun cm => sameName cm.sourceColumn srcCol

/-- The mapping of a column of a table that may have no mapping. -/
def columnMapping (tm : Option TableMapping) (srcCol : String) : Option ColumnMapping :=
  tm.bind fun tm => tm.getColumnMapping srcCol

/-! ## The validator -/

/-- The severities of a diagnostic. -/
inductive Severity where
  | error
  | warning
  deriving DecidableEq

/-- `MappingDiagnostic`. -/
structure MappingDiagnostic where
  severity : Severity
  rule : String
  message : String
  sourcePath : String
  targetPath : Option String
  deriving DecidableEq

/-- `source_qualified_name`. -/
def TableMapping.sourceQualifiedName (tm : TableMapping) : String := tm.sourceSchema ++ "." ++ tm.sourceTable

/-- `target_qualified_name`. -/
def TableMapping.targetQualifiedName (tm : TableMapping) : String := tm.targetSchema ++ "." ++ tm.targetTable

/-- The diagnostics of the column mappings of a table, after the target names seen so far. -/
def validateColumns (tm : TableMapping) (srcTbl : CanonicalTable) :
    List String → List ColumnMapping → List MappingDiagnostic
  | _, [] => []
  | seen, cm :: cms =>
    if cm.isIncluded = false then validateColumns tm srcTbl seen cms
    else
      let sourcePath := tm.sourceQualifiedName ++ "." ++ cm.sourceColumn
      let targetPath := tm.targetQualifiedName ++ "." ++ cm.targetColumn
      (if srcTbl.getColumn cm.sourceColumn = none ∧ cm.isGenerated = false then
        [⟨.error, "SOURCE_COLUMN_NOT_FOUND", "Column mapping references non-existent source column '" ++
          cm.sourceColumn ++ "' in '" ++ tm.sourceQualifiedName ++ "'", sourcePath, some targetPath⟩]
      else []) ++
      (if lower cm.targetColumn ∈ seen then
        [⟨.error, "DUPLICATE_TARGET_COLUMN", "Multiple columns mapped to identical target column name '" ++
          cm.targetColumn ++ "' in table '" ++ tm.targetQualifiedName ++ "'", sourcePath, some targetPath⟩]
      else []) ++
      validateColumns tm srcTbl (lower cm.targetColumn :: seen) cms

/-- The diagnostics of the table mappings, after the target names seen so far. -/
def validateTables (sourceModel : CanonicalSchemaModel) :
    List String → List TableMapping → List MappingDiagnostic
  | _, [] => []
  | seen, tm :: tms =>
    if tm.isIncluded = false then validateTables sourceModel seen tms
    else
      match sourceModel.getTable tm.sourceSchema tm.sourceTable with
      | none =>
        ⟨.error, "SOURCE_TABLE_NOT_FOUND", "Table mapping references non-existent source table '" ++
          tm.sourceQualifiedName ++ "'", tm.sourceQualifiedName, some tm.targetQualifiedName⟩ ::
          validateTables sourceModel seen tms
      | some srcTbl =>
        let tgtKey := lower tm.targetSchema ++ "." ++ lower tm.targetTable
        (if tgtKey ∈ seen then
          [⟨.error, "DUPLICATE_TARGET_TABLE", "Multiple source tables mapped to identical target table '" ++
            tm.targetQualifiedName ++ "'", tm.sourceQualifiedName, some tm.targetQualifiedName⟩]
        else []) ++
        validateColumns tm srcTbl [] tm.columnMappings ++
        validateTables sourceModel (tgtKey :: seen) tms

/-- Whether a mapping leaves a table out. -/
def leavesOut (tm : Option TableMapping) : Bool := tm.any fun tm => !tm.isIncluded

/-- `qualified_name` of a table. -/
def CanonicalTable.qualifiedName (tbl : CanonicalTable) : String :=
  if tbl.schemaName ≠ "" then tbl.schemaName ++ "." ++ tbl.tableName else tbl.tableName

/-- The warnings about foreign keys that reference a table that is left out. -/
def validateForeignKeys (mapping : CompiledSchemaMapping) (tbl : CanonicalTable) :
    List MappingDiagnostic :=
  if leavesOut (mapping.getTableMapping tbl.schemaName tbl.tableName) then []
  else
    (tbl.foreignKeys.filter fun fk =>
      leavesOut (mapping.getTableMapping fk.referencedSchema fk.referencedTable)).map fun fk =>
        ⟨.warning, "FK_TARGET_TABLE_EXCLUDED", "Foreign key '" ++ fk.name.getD "None" ++
          "' references excluded target table '" ++ fk.referencedSchema ++ "." ++ fk.referencedTable ++ "'",
          tbl.qualifiedName ++ "." ++ fk.name.getD "None", none⟩

/-- `validate`. -/
def validate (sourceModel : CanonicalSchemaModel) (mapping : CompiledSchemaMapping) :
    List MappingDiagnostic :=
  validateTables sourceModel [] mapping.tableMappings ++
    sourceModel.tables.flatMap (validateForeignKeys mapping)

/-- The errors of a validation. -/
def getErrors (diagnostics : List MappingDiagnostic) : List MappingDiagnostic :=
  diagnostics.filter fun d => d.severity = .error

/-! ## The engine -/

/-- The key of a table. -/
def tableKey (schemaName tableName : String) : String × String := (lower schemaName, lower tableName)

/-- The key of a table of a model. -/
def CanonicalTable.key (tbl : CanonicalTable) : String × String := tableKey tbl.schemaName tbl.tableName

/-- The mapping of a table of a model. -/
def mappingOf (mapping : CompiledSchemaMapping) (tbl : CanonicalTable) : Option TableMapping :=
  mapping.getTableMapping tbl.schemaName tbl.tableName

/-- The name a table gets: the one its mapping gives, or its own in the schema the routes lead to, between
the prefix and the suffix of all tables unless its mapping renames it. -/
def targetTable (mapping : CompiledSchemaMapping) (srcSchema srcTable : String) : String × String :=
  let tm := mapping.getTableMapping srcSchema srcTable
  let tgtSchema := match tm with
    | some tm => tm.targetSchema
    | none => mapping.resolveTargetSchema srcSchema
  let tgtTable := match tm with
    | some tm => tm.targetTable
    | none => srcTable
  let renamed := tm.any fun tm => tm.targetTable != srcTable
  let tgtTable := if renamed then tgtTable else mapping.globalTablePrefix ++ tgtTable
  let tgtTable := if renamed then tgtTable else tgtTable ++ mapping.globalTableSuffix
  (tgtSchema, tgtTable)

/-- `excluded_tables`: the keys of the tables that are left out. -/
def excludedTables (sourceModel : CanonicalSchemaModel) (mapping : CompiledSchemaMapping) :
    List (String × String) :=
  (mapping.tableMappings.filter fun tm => !tm.isIncluded).map
      (fun tm => tableKey tm.sourceSchema tm.sourceTable) ++
    (sourceModel.tables.filter fun tbl => leavesOut (mappingOf mapping tbl)).map CanonicalTable.key

/-- `table_rename_map`: the name under the key of a table; of tables with one key the last gives it. -/
def tableRenameMap (sourceModel : CanonicalSchemaModel) (mapping : CompiledSchemaMapping)
    (key : String × String) : Option (String × String) :=
  (sourceModel.tables.reverse.find? fun tbl => !leavesOut (mappingOf mapping tbl) && tbl.key == key).map
    fun tbl => targetTable mapping tbl.schemaName tbl.tableName

/-- `column_rename_map`: the name under the keys of a table and a column. -/
abbrev ColumnRenameMap := (String × String) × String → Option String

/-- The columns of a table that are included, in the order of their positions. -/
def includedColumns (tm : Option TableMapping) (tbl : CanonicalTable) : List CanonicalColumn :=
  (tbl.columns.insertionSort fun a b => a.ordinalPosition ≤ b.ordinalPosition).filter fun col =>
    !(columnMapping tm col.name).any fun cm => !cm.isIncluded

/-- The name of a column under its mapping. -/
def targetColumn (tm : Option TableMapping) (srcCol : String) : String :=
  match columnMapping tm srcCol with
  | some cm => cm.targetColumn
  | none => srcCol

/-- A mapped column. -/
def mapColumn (tm : Option TableMapping) (col : CanonicalColumn) : CanonicalColumn where
  name := targetColumn tm col.name
  ordinalPosition :=
    match (columnMapping tm col.name).bind ColumnMapping.ordinalPosition with
    | some position => if position = 0 then col.ordinalPosition else position
    | none => col.ordinalPosition

/-- Record the names of the columns of a table. -/
def recordColumns (tm : Option TableMapping) (tbl : CanonicalTable) (renames : ColumnRenameMap) :
    ColumnRenameMap :=
  (includedColumns tm tbl).foldl (fun renames col =>
    Function.update renames (tbl.key, lower col.name) (some (targetColumn tm col.name))) renames

section Table

variable (sourceModel : CanonicalSchemaModel) (mapping : CompiledSchemaMapping)
  (renames : ColumnRenameMap) (tbl : CanonicalTable)

/-- The name of a column of the table, its own when none is recorded. -/
def newColumn (c : String) : String := (renames (tbl.key, lower c)).getD c

/-- The names of columns of the table. -/
def newColumns (columns : List String) : List String := columns.map (newColumn renames tbl)

/-- Whether names are names of included columns. -/
def allIncluded (columns : List String) : Bool :=
  columns.all fun c => ((includedColumns (mappingOf mapping tbl) tbl).map fun col =>
    lower (targetColumn (mappingOf mapping tbl) col.name)).contains (lower c)

/-- A mapped primary key, when its columns are included. -/
def mapPrimaryKey (pk : CanonicalPrimaryKey) : Option CanonicalPrimaryKey :=
  if allIncluded mapping tbl (newColumns renames tbl pk.columns) then
    some { pk with columns := newColumns renames tbl pk.columns }
  else none

/-- A mapped unique constraint, when its columns are included. -/
def mapUniqueConstraint (uc : CanonicalUniqueConstraint) : Option CanonicalUniqueConstraint :=
  if allIncluded mapping tbl (newColumns renames tbl uc.columns) then
    some { uc with columns := newColumns renames tbl uc.columns }
  else none

/-- A mapped check constraint. -/
def mapCheckConstraint (ck : CanonicalCheckConstraint) : CanonicalCheckConstraint :=
  { ck with notNullColumn := (ck.notNullColumn.filter (· ≠ "")).map (newColumn renames tbl) }

/-- A mapped index, when its columns are included. -/
def mapIndex (idx : CanonicalIndex) : Option CanonicalIndex :=
  if allIncluded mapping tbl (newColumns renames tbl idx.columns) then
    some { idx with
      columns := newColumns renames tbl idx.columns
      includedColumns := newColumns renames tbl idx.includedColumns }
  else none

/-- A mapped partitioning. -/
def mapPartitioning (partitioning : CanonicalPartitioning) : CanonicalPartitioning where
  partitionColumns := newColumns renames tbl partitioning.partitionColumns
  subpartitionColumns := newColumns renames tbl partitioning.subpartitionColumns
  shardKeyColumns := newColumns renames tbl partitioning.shardKeyColumns

/-- The table a foreign key references after the mapping; none when it is left out.  A table that is not in
the model may be in another chunk. -/
def referencedTarget (fk : CanonicalForeignKey) : Option (String × String) :=
  let key := tableKey fk.referencedSchema fk.referencedTable
  if key ∈ excludedTables sourceModel mapping then none
  else
    match tableRenameMap sourceModel mapping key with
    | some target => some target
    | none =>
      if leavesOut (mapping.getTableMapping fk.referencedSchema fk.referencedTable) then none
      else some (targetTable mapping fk.referencedSchema fk.referencedTable)

/-- The name of a referenced column: the recorded one, or the one its mapping gives. -/
def referencedColumn (fk : CanonicalForeignKey) (c : String) : String :=
  match renames (tableKey fk.referencedSchema fk.referencedTable, lower c) with
  | some name => name
  | none => targetColumn (mapping.getTableMapping fk.referencedSchema fk.referencedTable) c

/-- A mapped foreign key, when the referenced table is not left out and its columns are included. -/
def mapForeignKey (fk : CanonicalForeignKey) : Option CanonicalForeignKey :=
  match referencedTarget sourceModel mapping fk with
  | none => none
  | some (tgtSchema, tgtTable) =>
    if allIncluded mapping tbl (newColumns renames tbl fk.columns) then
      some { fk with
        columns := newColumns renames tbl fk.columns
        referencedSchema := tgtSchema
        referencedTable := tgtTable
        referencedColumns := fk.referencedColumns.map (referencedColumn mapping renames fk) }
    else none

/-- A mapped table, after the names of its columns are recorded. -/
def mapTable : CanonicalTable :=
  let target := (tableRenameMap sourceModel mapping tbl.key).getD (tbl.schemaName, tbl.tableName)
  { tableName := target.2
    schemaName := target.1
    columns := (includedColumns (mappingOf mapping tbl) tbl).map (mapColumn (mappingOf mapping tbl))
    primaryKey := tbl.primaryKey.bind (mapPrimaryKey mapping renames tbl)
    foreignKeys := tbl.foreignKeys.filterMap (mapForeignKey sourceModel mapping renames tbl)
    uniqueConstraints := tbl.uniqueConstraints.filterMap (mapUniqueConstraint mapping renames tbl)
    checkConstraints := tbl.checkConstraints.map (mapCheckConstraint renames tbl)
    indexes := tbl.indexes.filterMap (mapIndex mapping renames tbl)
    partitioning := mapPartitioning renames tbl tbl.partitioning }

end Table

/-- The mapped tables, in the order of the model: each records the names of its columns first. -/
def mapTables (sourceModel : CanonicalSchemaModel) (mapping : CompiledSchemaMapping) :
    ColumnRenameMap → List CanonicalTable → List CanonicalTable
  | _, [] => []
  | renames, tbl :: tbls =>
    if tbl.key ∈ excludedTables sourceModel mapping then mapTables sourceModel mapping renames tbls
    else
      let renames := recordColumns (mappingOf mapping tbl) tbl renames
      mapTable sourceModel mapping renames tbl :: mapTables sourceModel mapping renames tbls

/-- `apply_mapping`, or the message of the exception it raises. -/
def applyMapping (sourceModel : CanonicalSchemaModel) (mapping : CompiledSchemaMapping) :
    Except String CanonicalSchemaModel :=
  let errors := getErrors (validate sourceModel mapping)
  if errors ≠ [] then
    .error ("Mapping validation failed with errors: " ++
      "; ".intercalate (errors.map MappingDiagnostic.message))
  else .ok ⟨mapTables sourceModel mapping (fun _ => none) sourceModel.tables⟩

end SchemaMapping

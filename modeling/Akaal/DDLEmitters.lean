/-
# The statements of the emitters

The emitters of `akaalEngine/schema/ddl`: `BaseTargetDDLEmitter` of `emitter.py` and the eleven of
`providers`, each of which makes the artifacts of an object, with the stage they belong to.  An artifact
has, in place of its text, what its statement does: the object it creates and the objects it names.

* `Statement.creates`, `Statement.refers` : what a statement creates, and what it names;
* `emitTableArtifacts_spec` : the artifacts of a table create it, and name it in later stages;
* `isProcedural_of_routine`, `isProcedural_of_trigger` : what is emitted for routines and triggers.
-/
import Akaal.PythonText
import Akaal.SchemaModel

open SchemaModel PythonText

namespace DDL

/-! ## Stages and objects -/

/-- `DDLStage`. -/
inductive DDLStage where
  | schemas
  | types
  | sequences
  | tables
  | primaryKeys
  | indexes
  | foreignKeys
  | views
  | routines
  | triggers

/-- The place of a stage. -/
def DDLStage.rank : DDLStage → ℕ
  | .schemas => 0
  | .types => 1
  | .sequences => 2
  | .tables => 3
  | .primaryKeys => 4
  | .indexes => 5
  | .foreignKeys => 6
  | .views => 7
  | .routines => 8
  | .triggers => 9

theorem DDLStage.rank_injective : Function.Injective DDLStage.rank := by
  intro s t h
  cases s <;> cases t <;> first | rfl | exact absurd h (by decide)

/-- Stages in the order of their places. -/
instance : LinearOrder DDLStage := LinearOrder.lift' DDLStage.rank DDLStage.rank_injective

/-- An object of a schema, by its kind and its qualified name. -/
inductive ObjectId where
  | schema (name : String)
  | type (name : String)
  | sequence (name : String)
  | table (name : String)
  | view (name : String)
  | routine (name : String)
  | trigger (name : String)
  deriving DecidableEq

/-- The stage in which objects of a kind are created. -/
def ObjectId.stage : ObjectId → DDLStage
  | .schema _ => .schemas
  | .type _ => .types
  | .sequence _ => .sequences
  | .table _ => .tables
  | .view _ => .views
  | .routine _ => .routines
  | .trigger _ => .triggers

/-- The object a declared dependency names: a table, unless it starts with another kind. -/
def dependencyTarget (dep : String) : Option ObjectId :=
  match dep.toList.span (· ≠ ':') with
  | (_, []) => some (.table dep)
  | (kind, _ :: name) =>
    match String.ofList kind with
    | "schema" => some (.schema (String.ofList name))
    | "type" => some (.type (String.ofList name))
    | "sequence" => some (.sequence (String.ofList name))
    | "table" => some (.table (String.ofList name))
    | "view" => some (.view (String.ofList name))
    | "routine" => some (.routine (String.ofList name))
    | "trigger" => some (.trigger (String.ofList name))
    | _ => none

/-- The table a foreign key names. -/
def referencedId (fk : CanonicalForeignKey) : ObjectId :=
  .table (qualify fk.referencedSchema fk.referencedTable)

/-! ## Statements -/

/-- What a statement does. -/
inductive Statement where
  | createSchema (schemaName : String)
  | createType (udt : CanonicalUDT)
  | createSequence (sequence : CanonicalSequence)
  /-- With the foreign keys that are part of it. -/
  | createTable (table : CanonicalTable) (inlineKeys : List CanonicalForeignKey)
  | addPrimaryKey (table : CanonicalTable) (key : CanonicalPrimaryKey)
  | createIndex (table : CanonicalTable) (index : CanonicalIndex)
  | addForeignKey (table : CanonicalTable) (key : CanonicalForeignKey)
  | createView (view : CanonicalView)
  | routine (routine : CanonicalRoutine) (sql : String)
  | trigger (trigger : CanonicalTrigger) (sql : String)
  /-- Only comments. -/
  | note
  deriving DecidableEq

namespace Statement

/-- The object a statement creates. -/
def creates : Statement → Option ObjectId
  | createSchema schemaName => some (.schema schemaName)
  | createType udt => some (.type udt.qualifiedName)
  | createSequence sequence => some (.sequence sequence.qualifiedName)
  | createTable table _ => some (.table table.qualifiedName)
  | addPrimaryKey _ _ => none
  | createIndex _ _ => none
  | addForeignKey _ _ => none
  | createView view => some (.view view.qualifiedName)
  | routine r _ => some (.routine r.qualifiedName)
  | trigger tr _ => some (.trigger tr.qualifiedName)
  | note => none

/-- The objects a statement names, where the columns and clauses of tables and the attributes of types
use some. -/
def refers (tableUses : CanonicalTable → List ObjectId) (typeUses : CanonicalUDT → List ObjectId) :
    Statement → List ObjectId
  | createSchema _ => []
  | createType udt => .schema udt.schemaName :: typeUses udt
  | createSequence sequence => [.schema sequence.schemaName]
  | createTable table inlineKeys =>
    .schema table.schemaName :: tableUses table ++ inlineKeys.map referencedId
  | addPrimaryKey table _ => [.table table.qualifiedName]
  | createIndex table _ => [.table table.qualifiedName]
  | addForeignKey table key => [.table table.qualifiedName, referencedId key]
  | createView view => .schema view.schemaName :: view.dependencies.filterMap dependencyTarget
  | routine r _ => .schema r.schemaName :: r.dependencies.filterMap dependencyTarget
  | trigger tr _ => [.schema tr.schemaName, .table (qualify tr.schemaName tr.tableName)]
  | note => []

end Statement

/-! ## Artifacts -/

/-- `StructuredDDLArtifact`, with its statement in place of the text. -/
structure StructuredDDLArtifact where
  objectType : String
  objectName : String
  schemaName : String
  statement : Statement
  targetEngine : String
  stage : DDLStage := .tables
  dependencies : List String := []
  deriving DecidableEq

/-- The truth of an optional text. -/
def truthy (text : Option String) : Bool := text.getD "" ≠ ""

/-- A text, or another one when it is empty. -/
def orElse (text other : String) : String := if text ≠ "" then text else other

/-- The artifact of a schema. -/
def schemaArtifact (engine schemaName : String) (statement : Statement) : StructuredDDLArtifact where
  objectType := "SCHEMA"
  objectName := schemaName
  schemaName := schemaName
  statement := statement
  targetEngine := engine
  stage := .schemas

/-- The artifact of a sequence. -/
def sequenceArtifact (engine : String) (sequence : CanonicalSequence) : StructuredDDLArtifact where
  objectType := "SEQUENCE"
  objectName := sequence.name
  schemaName := sequence.schemaName
  statement := .createSequence sequence
  targetEngine := engine
  stage := .sequences

/-- The artifact of a type. -/
def udtArtifact (engine : String) (udt : CanonicalUDT) : StructuredDDLArtifact where
  objectType := "UDT"
  objectName := udt.name
  schemaName := udt.schemaName
  statement := .createType udt
  targetEngine := engine
  stage := .types

/-- The artifact of a table. -/
def tableArtifact (engine schemaName : String) (table : CanonicalTable)
    (inlineKeys : List CanonicalForeignKey := []) : StructuredDDLArtifact where
  objectType := "TABLE"
  objectName := table.tableName
  schemaName := schemaName
  statement := .createTable table inlineKeys
  targetEngine := engine
  stage := .tables

/-- The artifact of an index. -/
def indexArtifact (engine schemaName tableName : String) (table : CanonicalTable)
    (idx : CanonicalIndex) : StructuredDDLArtifact where
  objectType := "INDEX"
  objectName := idx.name
  schemaName := schemaName
  statement := .createIndex table idx
  targetEngine := engine
  stage := .indexes
  dependencies := [tableName]

/-- The artifact of a foreign key. -/
def foreignKeyArtifact (engine schemaName name tableName refName : String) (table : CanonicalTable)
    (fk : CanonicalForeignKey) : StructuredDDLArtifact where
  objectType := "FOREIGN_KEY"
  objectName := name
  schemaName := schemaName
  statement := .addForeignKey table fk
  targetEngine := engine
  stage := .foreignKeys
  dependencies := [tableName, refName]

/-- The artifact of a view. -/
def viewArtifact (engine objectType schemaName : String) (view : CanonicalView)
    (dependencies : List String) : StructuredDDLArtifact where
  objectType := objectType
  objectName := view.viewName
  schemaName := schemaName
  statement := .createView view
  targetEngine := engine
  stage := .views
  dependencies := dependencies

/-- The artifacts of a table whose indexes and foreign keys have stages of their own. -/
def stagedTable (engine defaultSchema : String) (isIndexed : CanonicalIndex → Bool)
    (table : CanonicalTable) : List StructuredDDLArtifact :=
  let sName := orElse table.schemaName defaultSchema
  let tName := sName ++ "." ++ table.tableName
  tableArtifact engine sName table ::
    (table.indexes.filter isIndexed).map (indexArtifact engine sName tName table) ++
    (table.foreignKeys.filter fun fk => fk.columns ≠ [] ∧ fk.referencedColumns ≠ []).map fun fk =>
      foreignKeyArtifact engine sName
        (orElse (fk.name.getD "") ("fk_" ++ table.tableName ++ "_" ++ "_".intercalate fk.columns))
        tName (fk.referencedSchema ++ "." ++ fk.referencedTable) table fk

/-- The artifacts of a table that has no others. -/
def singleTable (engine defaultSchema : String) (table : CanonicalTable) :
    List StructuredDDLArtifact :=
  [tableArtifact engine (orElse table.schemaName defaultSchema) table]

/-! ## The providers -/

/-- The classes of emitters. -/
inductive Provider where
  | postgresql
  | mysql
  | oracle
  | mssql
  | snowflake
  | bigquery
  | redshift
  | cql
  | sqlite
  | db2
  | databricks
  deriving DecidableEq

/-- An emitter, with the engine it is made for. -/
structure Emitter where
  provider : Provider
  targetEngine : String
  deriving DecidableEq

/-- `emit_schema_artifacts`: a comment for Oracle, whose schemas are users, and none for SQLite. -/
def Emitter.emitSchemaArtifacts (e : Emitter) (schemaName : String) : List StructuredDDLArtifact :=
  match e.provider with
  | .oracle => [schemaArtifact e.targetEngine schemaName .note]
  | .sqlite => []
  | _ => [schemaArtifact e.targetEngine schemaName (.createSchema schemaName)]

/-- The targets that have sequences. -/
def Emitter.hasSequences (e : Emitter) : Bool :=
  match e.provider with
  | .mysql => e.targetEngine = "MARIADB"
  | .cql | .sqlite | .databricks => false
  | _ => true

/-- `emit_sequence_artifacts`. -/
def Emitter.emitSequenceArtifacts (e : Emitter) (sequence : CanonicalSequence) :
    List StructuredDDLArtifact :=
  if e.hasSequences then [sequenceArtifact e.targetEngine sequence] else []

/-- Which types a target has. -/
def Emitter.hasUdt (e : Emitter) (udt : CanonicalUDT) : Bool :=
  match e.provider with
  | .postgresql =>
    if upper udt.udtType = "ENUM" ∧ udt.enumValues ≠ [] then true
    else if upper udt.udtType = "COMPOSITE" ∧ udt.attributes ≠ [] then true
    else upper udt.udtType = "DOMAIN" ∧ truthy udt.underlyingType
  | .oracle => upper udt.udtType = "COMPOSITE" ∧ udt.attributes ≠ []
  | .mssql | .db2 => truthy udt.underlyingType
  | .cql => udt.attributes ≠ []
  | .mysql | .snowflake | .bigquery | .redshift | .sqlite | .databricks => false

/-- `emit_udt_artifacts`. -/
def Emitter.emitUdtArtifacts (e : Emitter) (udt : CanonicalUDT) : List StructuredDDLArtifact :=
  if e.hasUdt udt then [udtArtifact e.targetEngine udt] else []

/-- `emit_table_artifacts` of SQLite: the foreign keys are part of the table. -/
def sqliteTable (table : CanonicalTable) : List StructuredDDLArtifact :=
  let sName := orElse table.schemaName "main"
  tableArtifact "SQLITE" sName table table.foreignKeys ::
    table.indexes.map (indexArtifact "SQLITE" sName table.qualifiedName table)

/-- `emit_table_artifacts` of Db2: the primary key has a stage of its own. -/
def db2Table (table : CanonicalTable) : List StructuredDDLArtifact :=
  tableArtifact "DB2" table.schemaName table ::
    (table.primaryKey.toList.filter fun key => key.columns ≠ []).map (fun key =>
      { objectType := "PRIMARY_KEY"
        objectName := orElse (key.name.getD "") ("PK_" ++ table.tableName)
        schemaName := table.schemaName
        statement := .addPrimaryKey table key
        targetEngine := "DB2"
        stage := .primaryKeys
        dependencies := [table.qualifiedName] }) ++
    table.indexes.map (indexArtifact "DB2" table.schemaName table.qualifiedName table) ++
    table.foreignKeys.map fun fk =>
      foreignKeyArtifact "DB2" table.schemaName
        (orElse (fk.name.getD "") ("FK_" ++ table.tableName ++ "_" ++ fk.referencedTable))
        table.qualifiedName (qualify fk.referencedSchema fk.referencedTable) table fk

/-- `emit_table_artifacts`. -/
def Emitter.emitTableArtifacts (e : Emitter) (table : CanonicalTable) : List StructuredDDLArtifact :=
  match e.provider with
  | .postgresql =>
    stagedTable "POSTGRESQL" "public" (fun idx => idx.columns ≠ [] || truthy idx.expression) table
  | .mysql => stagedTable e.targetEngine "public" (fun idx => idx.columns ≠ []) table
  | .oracle => stagedTable "ORACLE" "public" (fun idx => idx.columns ≠ []) table
  | .mssql => stagedTable "MSSQL" "dbo" (fun idx => idx.columns ≠ []) table
  | .snowflake => singleTable "SNOWFLAKE" "PUBLIC" table
  | .bigquery => singleTable "BIGQUERY" "default" table
  | .redshift => singleTable "REDSHIFT" "public" table
  | .cql => singleTable e.targetEngine "system_data" table
  | .sqlite => sqliteTable table
  | .db2 => db2Table table
  | .databricks => [tableArtifact "DATABRICKS" table.schemaName table]

/-- Which views a target has: those of Cassandra are materialized ones of known tables. -/
def Emitter.hasView (e : Emitter) (view : CanonicalView) : Bool :=
  match e.provider with
  | .cql => view.isMaterialized ∧ view.dependencies ≠ []
  | _ => true

/-- The artifact of a view by its target. -/
def Emitter.viewOf (e : Emitter) (view : CanonicalView) : StructuredDDLArtifact :=
  match e.provider with
  | .postgresql =>
    viewArtifact "POSTGRESQL" (if view.isMaterialized then "MATERIALIZED_VIEW" else "VIEW")
      (orElse view.schemaName "public") view view.dependencies
  | .cql => viewArtifact e.targetEngine "MATERIALIZED_VIEW" view.schemaName view view.dependencies
  | .sqlite => viewArtifact "SQLITE" "VIEW" (orElse view.schemaName "main") view []
  | .db2 | .databricks => viewArtifact e.targetEngine "VIEW" view.schemaName view []
  | _ => viewArtifact e.targetEngine "VIEW" view.schemaName view view.dependencies

/-- `emit_view_artifacts`. -/
def Emitter.emitViewArtifacts (e : Emitter) (view : CanonicalView) : List StructuredDDLArtifact :=
  if e.hasView view then [e.viewOf view] else []

/-! ## Routines and triggers -/

/-- The states in which converted text is valid. -/
def validStates : List String :=
  ["TRANSPILED", "CONVERTED", "SYNTACTICALLY_CHECKED", "COMPATIBILITY_WRAPPED"]

/-- What is emitted for a routine or a trigger: the text that was converted, the one it is defined by
when the engine is the same, or comments. -/
def procedural (targetEngine sourceEngine : String) (definitionSql convertedSql conversionState :
    Option String) (emitted : String → StructuredDDLArtifact) (stub : StructuredDDLArtifact) :
    List StructuredDDLArtifact :=
  if truthy convertedSql ∧ (conversionState = none ∨ conversionState.getD "" ∈ validStates) then
    [emitted (convertedSql.getD "")]
  else if upper (strip sourceEngine) = upper (strip targetEngine) ∧ truthy definitionSql then
    [emitted (definitionSql.getD "")]
  else if truthy definitionSql then [stub]
  else []

/-- The artifact of a routine. -/
def routineArtifact (engine : String) (r : CanonicalRoutine) (statement : Statement) :
    StructuredDDLArtifact where
  objectType := "ROUTINE"
  objectName := r.name
  schemaName := r.schemaName
  statement := statement
  targetEngine := engine
  stage := .routines

/-- The artifact of a trigger. -/
def triggerArtifact (engine : String) (tr : CanonicalTrigger) (statement : Statement) :
    StructuredDDLArtifact where
  objectType := "TRIGGER"
  objectName := tr.name
  schemaName := tr.schemaName
  statement := statement
  targetEngine := engine
  stage := .triggers

/-- `emit_routine_artifacts`. -/
def Emitter.emitRoutineArtifacts (e : Emitter) (r : CanonicalRoutine)
    (convertedSql : Option String := none) (conversionState : Option String := none)
    (sourceEngine : String := "GENERIC") : List StructuredDDLArtifact :=
  procedural e.targetEngine sourceEngine r.definitionSql convertedSql conversionState
    (fun sql => routineArtifact e.targetEngine r (.routine r sql))
    (routineArtifact e.targetEngine r .note)

/-- `emit_trigger_artifacts`. -/
def Emitter.emitTriggerArtifacts (e : Emitter) (tr : CanonicalTrigger)
    (convertedSql : Option String := none) (conversionState : Option String := none)
    (sourceEngine : String := "GENERIC") : List StructuredDDLArtifact :=
  procedural e.targetEngine sourceEngine tr.definitionSql convertedSql conversionState
    (fun sql => triggerArtifact e.targetEngine tr (.trigger tr sql))
    (triggerArtifact e.targetEngine tr .note)

/-! ## What the emitters make -/

/-- The object an artifact creates. -/
def StructuredDDLArtifact.creates (a : StructuredDDLArtifact) : Option ObjectId := a.statement.creates

/-- The foreign keys that are part of a table. -/
def Emitter.inlineKeys (e : Emitter) (table : CanonicalTable) : List CanonicalForeignKey :=
  if e.provider = .sqlite then table.foreignKeys else []

section Specifications

variable (e : Emitter)

variable {a : StructuredDDLArtifact} {convertedSql : Option String} {sourceEngine : String}

theorem mem_emitSchemaArtifacts {schemaName : String} (h : a ∈ e.emitSchemaArtifacts schemaName) :
    a.stage = .schemas ∧ (a.statement = .createSchema schemaName ∨ a.statement = .note) := by
  unfold Emitter.emitSchemaArtifacts at h
  split at h
  · rw [List.mem_singleton.mp h]
    exact ⟨rfl, Or.inr rfl⟩
  · exact absurd h List.not_mem_nil
  · rw [List.mem_singleton.mp h]
    exact ⟨rfl, Or.inl rfl⟩

theorem viewOf_spec (view : CanonicalView) :
    (e.viewOf view).stage = .views ∧ (e.viewOf view).statement = .createView view := by
  unfold Emitter.viewOf
  split <;> exact ⟨rfl, rfl⟩

/-- An artifact that names a table in a later stage. -/
def NamesTable (table : CanonicalTable) (a : StructuredDDLArtifact) : Prop :=
  DDLStage.tables < a.stage ∧ a.stage ≤ .foreignKeys ∧
    ((∃ key, a.statement = .addPrimaryKey table key) ∨ (∃ idx, a.statement = .createIndex table idx) ∨
      ∃ fk, a.statement = .addForeignKey table fk)

theorem namesTable_indexArtifact (engine schemaName tableName : String) (table : CanonicalTable)
    (idx : CanonicalIndex) : NamesTable table (indexArtifact engine schemaName tableName table idx) :=
  ⟨(by decide : DDLStage.tables < .indexes), (by decide : DDLStage.indexes ≤ .foreignKeys),
    Or.inr (Or.inl ⟨idx, rfl⟩)⟩

theorem namesTable_foreignKeyArtifact (engine schemaName name tableName refName : String)
    (table : CanonicalTable) (fk : CanonicalForeignKey) :
    NamesTable table (foreignKeyArtifact engine schemaName name tableName refName table fk) :=
  ⟨(by decide : DDLStage.tables < .foreignKeys), le_refl DDLStage.foreignKeys,
    Or.inr (Or.inr ⟨fk, rfl⟩)⟩

/-- **The artifacts of a table** create it first, and name it in later stages. -/
theorem emitTableArtifacts_spec (table : CanonicalTable) :
    ∃ a rest, e.emitTableArtifacts table = a :: rest ∧ a.stage = .tables ∧
      a.statement = .createTable table (e.inlineKeys table) ∧ ∀ b ∈ rest, NamesTable table b := by
  have hstaged : ∀ engine defaultSchema isIndexed, ∃ a rest,
      stagedTable engine defaultSchema isIndexed table = a :: rest ∧ a.stage = .tables ∧
        a.statement = .createTable table [] ∧ ∀ b ∈ rest, NamesTable table b := by
    intro engine defaultSchema isIndexed
    refine ⟨_, _, rfl, rfl, rfl, fun b hb => ?_⟩
    rcases List.mem_append.mp hb with hb | hb
    · obtain ⟨idx, -, rfl⟩ := List.mem_map.mp hb
      exact namesTable_indexArtifact _ _ _ table idx
    · obtain ⟨fk, -, rfl⟩ := List.mem_map.mp hb
      exact namesTable_foreignKeyArtifact _ _ _ _ _ table fk
  have hsingle : ∀ engine schemaName, ∃ a rest,
      [tableArtifact engine schemaName table] = a :: rest ∧ a.stage = .tables ∧
        a.statement = .createTable table [] ∧ ∀ b ∈ rest, NamesTable table b :=
    fun engine schemaName => ⟨_, [], rfl, rfl, rfl, fun b hb => absurd hb List.not_mem_nil⟩
  obtain ⟨provider, targetEngine⟩ := e
  cases provider with
  | postgresql | mysql | oracle | mssql => exact hstaged _ _ _
  | snowflake | bigquery | redshift | cql | databricks => exact hsingle _ _
  | sqlite =>
    refine ⟨_, _, rfl, rfl, rfl, fun b hb => ?_⟩
    obtain ⟨idx, -, rfl⟩ := List.mem_map.mp hb
    exact namesTable_indexArtifact _ _ _ table idx
  | db2 =>
    refine ⟨_, _, rfl, rfl, rfl, fun b hb => ?_⟩
    rcases List.mem_append.mp hb with hb | hb
    · rcases List.mem_append.mp hb with hb | hb
      · obtain ⟨key, -, rfl⟩ := List.mem_map.mp hb
        exact ⟨(by decide : DDLStage.tables < .primaryKeys),
          (by decide : DDLStage.primaryKeys ≤ .foreignKeys), Or.inl ⟨key, rfl⟩⟩
      · obtain ⟨idx, -, rfl⟩ := List.mem_map.mp hb
        exact namesTable_indexArtifact _ _ _ table idx
    · obtain ⟨fk, -, rfl⟩ := List.mem_map.mp hb
      exact namesTable_foreignKeyArtifact _ _ _ _ _ table fk

/-- An artifact for a routine or a trigger, or comments for one. -/
def IsProcedural (a : StructuredDDLArtifact) : Prop :=
  (a.stage = .routines ∧ ((∃ r sql, a.statement = .routine r sql) ∨ a.statement = .note)) ∨
    (a.stage = .triggers ∧ ((∃ tr sql, a.statement = .trigger tr sql) ∨ a.statement = .note))

/-- What is emitted for a routine or a trigger is one of the two artifacts. -/
theorem mem_procedural {targetEngine : String} {definitionSql conversionState : Option String} {emitted : String → StructuredDDLArtifact}
    {stub : StructuredDDLArtifact} (h : a ∈ procedural targetEngine sourceEngine definitionSql
      convertedSql conversionState emitted stub) : (∃ sql, a = emitted sql) ∨ a = stub := by
  unfold procedural at h
  split_ifs at h
  · exact Or.inl ⟨_, List.mem_singleton.mp h⟩
  · exact Or.inl ⟨_, List.mem_singleton.mp h⟩
  · exact Or.inr (List.mem_singleton.mp h)
  · exact absurd h List.not_mem_nil

/-- The artifacts of a routine. -/
theorem isProcedural_of_routine {r : CanonicalRoutine} {conversionState : Option String}
    (h : a ∈ e.emitRoutineArtifacts r convertedSql conversionState sourceEngine) :
    IsProcedural a := by
  rcases mem_procedural h with ⟨sql, rfl⟩ | rfl
  · exact Or.inl ⟨rfl, Or.inl ⟨r, sql, rfl⟩⟩
  · exact Or.inl ⟨rfl, Or.inr rfl⟩

/-- The artifacts of a trigger. -/
theorem isProcedural_of_trigger {tr : CanonicalTrigger} {conversionState : Option String}
    (h : a ∈ e.emitTriggerArtifacts tr convertedSql conversionState sourceEngine) :
    IsProcedural a := by
  rcases mem_procedural h with ⟨sql, rfl⟩ | rfl
  · exact Or.inr ⟨rfl, Or.inl ⟨tr, sql, rfl⟩⟩
  · exact Or.inr ⟨rfl, Or.inr rfl⟩

/-- An artifact that an emitter makes for a routine or a trigger, converted or not. -/
def Emitter.MakesProcedural (a : StructuredDDLArtifact) : Prop :=
  (∃ r convertedSql conversionState sourceEngine,
      a ∈ e.emitRoutineArtifacts r convertedSql conversionState sourceEngine) ∨
    ∃ tr convertedSql conversionState sourceEngine,
      a ∈ e.emitTriggerArtifacts tr convertedSql conversionState sourceEngine

theorem Emitter.MakesProcedural.isProcedural {e : Emitter}
    (h : e.MakesProcedural a) : IsProcedural a := by
  rcases h with ⟨r, _, _, _, h⟩ | ⟨tr, _, _, _, h⟩
  · exact isProcedural_of_routine e h
  · exact isProcedural_of_trigger e h

end Specifications

end DDL

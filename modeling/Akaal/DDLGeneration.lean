/-
# The statements of a schema

`DDLGenerator` of `akaalEngine/schema/ddl/generator.py` and `StagedDDLPackage` of `emitter.py`: the
artifacts of a model are generated kind by kind, each kind as the model lists it, and the statements are
then listed stage by stage.

* `statements_getAllSql` : the statements are the artifacts by stages;
* `createsFirst_iff` : when objects are created before they are referred to: the types, the tables, the
  views and the routines are each listed after those of their kind they depend on, and depend on no object
  of a later kind;
* `not_createsFirst_of_acyclic` : a view may be created before the view it selects from.
-/
import Akaal.DDLEmitters
import Akaal.SchemaDependency
import Akaal.StagedListing

open SchemaModel PythonText StagedListing

namespace DDL

/-! ## The generator -/

/-- `_EMITTER_MAP`. -/
def emitterMap : List (String × Provider) :=
  [("POSTGRESQL", .postgresql), ("POSTGRES", .postgresql), ("ORACLE", .oracle),
    ("ORACLE DATABASE", .oracle), ("MYSQL", .mysql), ("MARIADB", .mysql), ("MSSQL", .mssql),
    ("SQLSERVER", .mssql), ("SNOWFLAKE", .snowflake), ("BIGQUERY", .bigquery),
    ("REDSHIFT", .redshift), ("CASSANDRA", .cql), ("SCYLLADB", .cql), ("SQLITE", .sqlite),
    ("SQLITE3", .sqlite), ("DB2", .db2), ("IBM_DB2", .db2), ("DATABRICKS", .databricks),
    ("SPARK", .databricks), ("COCKROACHDB", .postgresql), ("YUGABYTEDB", .postgresql)]

/-- A text without the places where a word is found, some characters of one still to be skipped. -/
def removeWord (word : List Char) : ℕ → List Char → List Char
  | _, [] => []
  | skip + 1, _ :: cs => removeWord word skip cs
  | 0, c :: cs =>
    if word.isPrefixOf (c :: cs) then removeWord word (word.length - 1) cs
    else c :: removeWord word 0 cs

/-- The engine an emitter of a class is made for. -/
def engineOf (eng : String) : Provider → String
  | .postgresql => "POSTGRESQL"
  | .mysql => eng
  | .oracle => "ORACLE"
  | .mssql => "MSSQL"
  | .snowflake => "SNOWFLAKE"
  | .bigquery => "BIGQUERY"
  | .redshift => "REDSHIFT"
  | .cql => eng
  | .sqlite => "SQLITE"
  | .db2 => "DB2"
  | .databricks => "DATABRICKS"

/-- `UnsupportedTargetEngineError`. -/
structure UnsupportedTargetEngineError where
  message : String
  deriving DecidableEq

/-- `get_emitter`. -/
def getEmitter (targetEngine : String) : Except UnsupportedTargetEngineError Emitter :=
  let eng := String.ofList (removeWord " DATABASE".toList 0 (upper (strip targetEngine)).toList)
  match emitterMap.lookup eng with
  | some provider => .ok ⟨provider, engineOf eng provider⟩
  | none => .error ⟨"Target engine '" ++ targetEngine ++
      "' is not supported for relational DDL generation."⟩

/-- `StagedDDLPackage`. -/
structure StagedDDLPackage where
  targetEngine : String
  artifacts : List StructuredDDLArtifact
  deriving DecidableEq

/-- The artifacts of a schema that has a name, unless it was emitted. -/
def emitSchema (e : Emitter) (s : List StructuredDDLArtifact × List String) (schemaName : String) :
    List StructuredDDLArtifact × List String :=
  if schemaName ≠ "" ∧ schemaName ∉ s.2 then
    (s.1 ++ e.emitSchemaArtifacts schemaName, s.2 ++ [schemaName])
  else s

/-- The artifacts of the schemas, those of the tables included. -/
def emitSchemas (e : Emitter) (model : CanonicalSchemaModel) : List StructuredDDLArtifact :=
  (model.tables.foldl (fun s t => emitSchema e s t.schemaName)
    (model.schemas.foldl (fun s schema => emitSchema e s schema.schemaName) ([], []))).1

/-- The artifacts of routines and triggers: those that were converted, when there are any. -/
def emitProcedures (e : Emitter) (model : CanonicalSchemaModel)
    (proceduralArtifacts : List StructuredDDLArtifact) : List StructuredDDLArtifact :=
  if proceduralArtifacts ≠ [] then proceduralArtifacts
  else
    (model.routines.flatMap fun r => e.emitRoutineArtifacts r none none model.sourceVendor) ++
      model.triggers.flatMap fun tr => e.emitTriggerArtifacts tr none none model.sourceVendor

/-- The artifacts of a model. -/
def emitAll (e : Emitter) (model : CanonicalSchemaModel)
    (proceduralArtifacts : List StructuredDDLArtifact) : List StructuredDDLArtifact :=
  emitSchemas e model ++ (model.udts.flatMap e.emitUdtArtifacts ++
    (model.sequences.flatMap e.emitSequenceArtifacts ++ (model.tables.flatMap e.emitTableArtifacts ++
      (model.views.flatMap e.emitViewArtifacts ++ emitProcedures e model proceduralArtifacts))))

/-- `generate_ddl_package`. -/
def generateDdlPackage (model : CanonicalSchemaModel) (targetEngine : String)
    (proceduralArtifacts : List StructuredDDLArtifact := []) :
    Except UnsupportedTargetEngineError StagedDDLPackage := do
  let emitter ← getEmitter targetEngine
  return ⟨upper targetEngine, emitAll emitter model proceduralArtifacts⟩

/-! ## The statements by stages -/

/-- A line of the statements: the name of a stage in a comment, or a statement. -/
inductive Line where
  | banner (stage : DDLStage)
  | statement (s : Statement)
  deriving DecidableEq

/-- The statement of a line. -/
def Line.statement? : Line → Option Statement
  | .banner _ => none
  | .statement s => some s

namespace StagedDDLPackage

/-- `get_stage_artifacts`. -/
def getStageArtifacts (package : StagedDDLPackage) (stage : DDLStage) : List StructuredDDLArtifact :=
  package.artifacts.filter fun a => a.stage = stage

/-- The stages in the order of `get_all_sql`. -/
def order : List DDLStage :=
  [.schemas, .types, .sequences, .tables, .primaryKeys, .indexes, .foreignKeys, .views, .routines,
    .triggers]

/-- The lines of a stage, none when it has no artifacts. -/
def stageLines (st : DDLStage) (stageItems : List StructuredDDLArtifact) : List Line :=
  if stageItems ≠ [] then .banner st :: stageItems.map fun art => .statement art.statement else []

/-- `get_all_sql`. -/
def getAllSql (package : StagedDDLPackage) : List Line :=
  order.flatMap fun st => stageLines st (package.getStageArtifacts st)

/-- The statements among the lines. -/
def statements (lines : List Line) : List Statement := lines.filterMap Line.statement?

end StagedDDLPackage

open StagedDDLPackage

/-- **The statements** are those of the artifacts by stages. -/
theorem statements_getAllSql (package : StagedDDLPackage) : statements package.getAllSql =
      (arrange StructuredDDLArtifact.stage order package.artifacts).map
        StructuredDDLArtifact.statement := by
  have hstage : ∀ (st : DDLStage) (items : List StructuredDDLArtifact),
      (stageLines st items).filterMap Line.statement? =
        items.map StructuredDDLArtifact.statement := by
    intro st items
    rw [stageLines]
    by_cases hitems : items = []
    · subst hitems
      rfl
    · rw [if_pos hitems, List.filterMap_cons_none rfl, List.filterMap_map]
      exact congrFun List.filterMap_eq_map items
  rw [statements, getAllSql, List.filterMap_flatMap, arrange, List.map_flatMap]
  exact List.flatMap_congr fun st _ => hstage st (package.getStageArtifacts st)

theorem order_sorted : order.Pairwise (· < ·) := by decide

theorem mem_order (stage : DDLStage) : stage ∈ order := by
  cases stage <;> decide

section Order

variable (tableUses : CanonicalTable → List ObjectId) (typeUses : CanonicalUDT → List ObjectId)

/-- Every object a package creates is created before a statement that refers to it. -/
def CreatesFirst (package : StagedDDLPackage) : Prop :=
  CreatedFirst Statement.creates (Statement.refers tableUses typeUses) (statements package.getAllSql)

/-- A type. -/
def typeId (udt : CanonicalUDT) : ObjectId := .type udt.qualifiedName

/-- A table. -/
def tableId (table : CanonicalTable) : ObjectId := .table table.qualifiedName

/-- A view. -/
def viewId (view : CanonicalView) : ObjectId := .view view.qualifiedName

/-- A routine. -/
def routineId (r : CanonicalRoutine) : ObjectId := .routine r.qualifiedName

/-- The routine of a statement. -/
def Statement.routine? : Statement → Option CanonicalRoutine
  | .routine r _ => some r
  | _ => none

/-- The routines whose statements are among artifacts. -/
def routinesOf (artifacts : List StructuredDDLArtifact) : List CanonicalRoutine :=
  artifacts.filterMap fun a => a.statement.routine?

/-- The objects besides schemas that are created for a model. -/
def madeObjects (e : Emitter) (model : CanonicalSchemaModel)
    (proceduralArtifacts : List StructuredDDLArtifact) : List ObjectId :=
  (model.udts.filter e.hasUdt).map typeId ++
    (if e.hasSequences then model.sequences.map fun s => .sequence s.qualifiedName else []) ++
    model.tables.map tableId ++ (model.views.filter e.hasView).map viewId ++
    (emitProcedures e model proceduralArtifacts).filterMap StructuredDDLArtifact.creates

/-- The objects of a kind are listed after those of the kind they refer to, and refer to none of a later
kind. -/
def ListedFirst {α : Type} (made : List ObjectId) (id : α → ObjectId) (refs : α → List ObjectId)
    (objects : List α) : Prop :=
  Throughout (fun before x => ∀ o ∈ refs x, o ≠ id x → o ∈ made →
    o.stage < (id x).stage ∨ ∃ y ∈ before, id y = o) objects

/-- The model lists the objects that are created in the order of their dependencies, where the foreign
keys of tables count only when they are part of them. -/
structure InOrder (e : Emitter) (model : CanonicalSchemaModel)
    (proceduralArtifacts : List StructuredDDLArtifact) : Prop where
  types : ListedFirst (madeObjects e model proceduralArtifacts) typeId typeUses
    (model.udts.filter e.hasUdt)
  tables : ListedFirst (madeObjects e model proceduralArtifacts) tableId
    (fun t => tableUses t ++ (e.inlineKeys t).map referencedId) model.tables
  views : ListedFirst (madeObjects e model proceduralArtifacts) viewId
    (fun v => v.dependencies.filterMap dependencyTarget) (model.views.filter e.hasView)
  routines : ListedFirst (madeObjects e model proceduralArtifacts) routineId
    (fun r => r.dependencies.filterMap dependencyTarget)
    (routinesOf (emitProcedures e model proceduralArtifacts))

/-! ## The artifacts of a model -/

/-- What an artifact refers to. -/
def refersOf (a : StructuredDDLArtifact) : List ObjectId := a.statement.refers tableUses typeUses

variable {a : StructuredDDLArtifact} {e : Emitter} {o : ObjectId}

theorem stage_of_mem_emitSchemas {model : CanonicalSchemaModel} (h : a ∈ emitSchemas e model) :
    a.stage = .schemas ∧ ((∃ name, a.statement = .createSchema name) ∨ a.statement = .note) := by
  have hstep : ∀ (s : List StructuredDDLArtifact × List String) (name : String),
      (∀ b ∈ s.1, b.stage = .schemas ∧
        ((∃ name, b.statement = .createSchema name) ∨ b.statement = .note)) →
      ∀ b ∈ (emitSchema e s name).1, b.stage = .schemas ∧
        ((∃ name, b.statement = .createSchema name) ∨ b.statement = .note) := by
    intro s name hs b hb
    rw [emitSchema] at hb
    split_ifs at hb
    · rcases List.mem_append.mp hb with hb | hb
      · exact hs b hb
      · obtain ⟨hstage, hstatement⟩ := mem_emitSchemaArtifacts e hb
        exact ⟨hstage, hstatement.imp_left fun h => ⟨name, h⟩⟩
    · exact hs b hb
  have hschemas := List.foldlRecOn model.schemas (fun s schema => emitSchema e s schema.schemaName)
    (b := ([], [])) (motive := fun s => ∀ b ∈ s.1, b.stage = .schemas ∧
      ((∃ name, b.statement = .createSchema name) ∨ b.statement = .note))
    (fun b hb => absurd hb List.not_mem_nil) fun s hs schema _ => hstep s schema.schemaName hs
  exact List.foldlRecOn model.tables (fun s t => emitSchema e s t.schemaName)
    (motive := fun s => ∀ b ∈ s.1, b.stage = .schemas ∧
      ((∃ name, b.statement = .createSchema name) ∨ b.statement = .note))
    hschemas (fun s hs t _ => hstep s t.schemaName hs) a h

theorem flatMap_ite {α β : Type*} (p : α → Bool) (f : α → β) (l : List α) :
    (l.flatMap fun x => if p x then [f x] else []) = (l.filter p).map f := by
  induction l with
  | nil => rfl
  | cons x l ih =>
    rw [List.flatMap_cons, ih]
    cases hx : p x with
    | true => rw [if_pos rfl, List.filter_cons_of_pos hx, List.map_cons, List.singleton_append]
    | false =>
      rw [if_neg Bool.false_ne_true, List.filter_cons_of_neg (by simp [hx]), List.nil_append]

theorem emitUdts_eq (e : Emitter) (udts : List CanonicalUDT) :
    udts.flatMap e.emitUdtArtifacts = (udts.filter e.hasUdt).map (udtArtifact e.targetEngine) :=
  flatMap_ite e.hasUdt (udtArtifact e.targetEngine) udts

theorem emitViews_eq (e : Emitter) (views : List CanonicalView) :
    views.flatMap e.emitViewArtifacts = (views.filter e.hasView).map e.viewOf :=
  flatMap_ite e.hasView e.viewOf views

theorem emitSequences_eq (e : Emitter) (sequences : List CanonicalSequence) :
    sequences.flatMap e.emitSequenceArtifacts =
      if e.hasSequences then sequences.map (sequenceArtifact e.targetEngine) else [] := by
  have hall := flatMap_ite (fun _ => e.hasSequences) (sequenceArtifact e.targetEngine) sequences
  refine hall.trans ?_
  cases e.hasSequences <;> simp

theorem creates_emitTables_iff (e : Emitter) (tables : List CanonicalTable) :
    (∃ b ∈ tables.flatMap e.emitTableArtifacts, b.creates = some o) ↔ ∃ t ∈ tables, tableId t = o := by
  constructor
  · rintro ⟨b, hb, hcreates⟩
    obtain ⟨t, ht, hb⟩ := List.mem_flatMap.mp hb
    obtain ⟨a, rest, hemit, -, hstatement, hrest⟩ := emitTableArtifacts_spec e t
    rw [hemit] at hb
    rcases List.mem_cons.mp hb with rfl | hb
    · rw [StructuredDDLArtifact.creates, hstatement] at hcreates
      exact ⟨t, ht, Option.some.inj hcreates⟩
    · obtain ⟨-, -, ⟨key, hb⟩ | ⟨idx, hb⟩ | ⟨fk, hb⟩⟩ := hrest b hb <;>
      · rw [StructuredDDLArtifact.creates, hb] at hcreates
        exact absurd hcreates (by simp [Statement.creates])
  · rintro ⟨t, ht, rfl⟩
    obtain ⟨a, rest, hemit, -, hstatement, -⟩ := emitTableArtifacts_spec e t
    refine ⟨a, List.mem_flatMap.mpr ⟨t, ht, hemit ▸ List.mem_cons_self⟩, ?_⟩
    rw [StructuredDDLArtifact.creates, hstatement]
    rfl

/-- The stages of the artifacts of tables. -/
theorem stage_of_mem_emitTables {tables : List CanonicalTable}
    (h : a ∈ tables.flatMap e.emitTableArtifacts) :
    .tables ≤ a.stage ∧ a.stage ≤ .foreignKeys ∧ ∀ o, a.creates = some o → a.stage = o.stage := by
  obtain ⟨t, -, h⟩ := List.mem_flatMap.mp h
  obtain ⟨b, rest, hemit, hstage, hstatement, hrest⟩ := emitTableArtifacts_spec e t
  rw [hemit] at h
  rcases List.mem_cons.mp h with rfl | h
  · refine ⟨hstage ▸ le_refl _, hstage ▸ (by decide : DDLStage.tables ≤ .foreignKeys), fun o ho => ?_⟩
    rw [StructuredDDLArtifact.creates, hstatement] at ho
    rw [hstage, ← Option.some.inj ho]
    rfl
  · obtain ⟨hlt, hle, hstatement⟩ := hrest a h
    refine ⟨hlt.le, hle, fun o ho => ?_⟩
    rcases hstatement with ⟨key, hstatement⟩ | ⟨idx, hstatement⟩ | ⟨fk, hstatement⟩ <;>
    · rw [StructuredDDLArtifact.creates, hstatement] at ho
      exact absurd ho (by simp [Statement.creates])

theorem IsProcedural.stage (h : IsProcedural a) :
    .routines ≤ a.stage ∧ ∀ o, a.creates = some o → a.stage = o.stage := by
  rcases h with ⟨hstage, ⟨r, sql, hstatement⟩ | hstatement⟩ |
      ⟨hstage, ⟨tr, sql, hstatement⟩ | hstatement⟩ <;>
  · rw [hstage, StructuredDDLArtifact.creates, hstatement]
    refine ⟨by decide, fun o ho => ?_⟩
    cases ho
    try rfl

theorem creates_iff_of_routines {artifacts : List StructuredDDLArtifact}
    (h : ∀ a ∈ artifacts, IsProcedural a) (ho : o.stage = .routines) :
    (∃ a ∈ artifacts, a.creates = some o) ↔ ∃ r ∈ routinesOf artifacts, routineId r = o := by
  simp only [routinesOf, List.mem_filterMap]
  constructor
  · rintro ⟨a, ha, hcreates⟩
    rw [StructuredDDLArtifact.creates] at hcreates
    rcases h a ha with ⟨-, ⟨r, sql, hstatement⟩ | hstatement⟩ |
        ⟨-, ⟨tr, sql, hstatement⟩ | hstatement⟩ <;> rw [hstatement] at hcreates
    · exact ⟨r, ⟨a, ha, by rw [hstatement, Statement.routine?]⟩, Option.some.inj hcreates⟩
    · exact absurd hcreates (by simp [Statement.creates])
    · rw [← Option.some.inj hcreates] at ho
      exact absurd (show DDLStage.triggers = .routines from ho) (by decide)
    · exact absurd hcreates (by simp [Statement.creates])
  · rintro ⟨r, ⟨a, ha, hr⟩, rfl⟩
    refine ⟨a, ha, ?_⟩
    rw [StructuredDDLArtifact.creates]
    rcases h a ha with ⟨-, ⟨r', sql, hstatement⟩ | hstatement⟩ |
        ⟨-, ⟨tr, sql, hstatement⟩ | hstatement⟩ <;> rw [hstatement] at hr ⊢
    · rw [← Option.some.inj hr]
      rfl
    · exact absurd hr (by simp [Statement.routine?])
    · exact absurd hr (by simp [Statement.routine?])
    · exact absurd hr (by simp [Statement.routine?])

/-- The artifacts of a model's own routines and triggers. -/
theorem isProcedural_of_mem {model : CanonicalSchemaModel}
    {proceduralArtifacts : List StructuredDDLArtifact}
    (hprocedural : ∀ a ∈ proceduralArtifacts, IsProcedural a)
    (h : a ∈ emitProcedures e model proceduralArtifacts) : IsProcedural a := by
  rw [emitProcedures] at h
  split_ifs at h
  · exact hprocedural a h
  · rcases List.mem_append.mp h with h | h
    · obtain ⟨r, -, h⟩ := List.mem_flatMap.mp h
      exact isProcedural_of_routine e h
    · obtain ⟨tr, -, h⟩ := List.mem_flatMap.mp h
      exact isProcedural_of_trigger e h

variable {e : Emitter} {model : CanonicalSchemaModel}
  {proceduralArtifacts : List StructuredDDLArtifact}

theorem stage_of_mem_emitAll (hprocedural : ∀ a ∈ proceduralArtifacts, IsProcedural a)
    (h : a ∈ emitAll e model proceduralArtifacts)
    (ho : a.creates = some o) : a.stage = o.stage := by
  simp only [emitAll, List.mem_append] at h
  rcases h with h | h | h | h | h | h
  · obtain ⟨hstage, ⟨name, hstatement⟩ | hstatement⟩ := stage_of_mem_emitSchemas h
    · rw [StructuredDDLArtifact.creates, hstatement] at ho
      rw [hstage, ← Option.some.inj ho]
      rfl
    · rw [StructuredDDLArtifact.creates, hstatement] at ho
      exact absurd ho (by simp [Statement.creates])
  · rw [emitUdts_eq] at h
    obtain ⟨udt, -, rfl⟩ := List.mem_map.mp h
    rw [← Option.some.inj ho]
    rfl
  · rw [emitSequences_eq] at h
    split_ifs at h
    · obtain ⟨sequence, -, rfl⟩ := List.mem_map.mp h
      rw [← Option.some.inj ho]
      rfl
    · exact absurd h List.not_mem_nil
  · exact (stage_of_mem_emitTables h).2.2 o ho
  · rw [emitViews_eq] at h
    obtain ⟨view, -, rfl⟩ := List.mem_map.mp h
    obtain ⟨hstage, hstatement⟩ := viewOf_spec e view
    rw [StructuredDDLArtifact.creates, hstatement] at ho
    rw [hstage, ← Option.some.inj ho]
    rfl
  · exact (isProcedural_of_mem hprocedural h).stage.2 o ho

theorem exists_creates_iff (ho : .schemas < o.stage) :
    (∃ b ∈ emitAll e model proceduralArtifacts, b.creates = some o) ↔
      o ∈ madeObjects e model proceduralArtifacts := by
  have hschemas : ¬ ∃ b ∈ emitSchemas e model, b.creates = some o := by
    rintro ⟨b, hb, hcreates⟩
    obtain ⟨-, ⟨name, hstatement⟩ | hstatement⟩ := stage_of_mem_emitSchemas hb
    · rw [StructuredDDLArtifact.creates, hstatement] at hcreates
      rw [← Option.some.inj hcreates] at ho
      exact absurd ho (lt_irrefl _)
    · rw [StructuredDDLArtifact.creates, hstatement] at hcreates
      exact absurd hcreates (by simp [Statement.creates])
  have hviews : ∀ view, (e.viewOf view).creates = some (viewId view) := by
    intro view
    rw [StructuredDDLArtifact.creates, (viewOf_spec e view).2]
    rfl
  have hsequences : (∃ b ∈ model.sequences.flatMap e.emitSequenceArtifacts, b.creates = some o) ↔
      o ∈ if e.hasSequences then
        model.sequences.map fun s => ObjectId.sequence s.qualifiedName else [] := by
    rw [emitSequences_eq]
    split_ifs
    · simp only [List.mem_map, exists_exists_and_eq_and]
      exact exists_congr fun s => and_congr_right fun _ => Option.some_inj
    · simp
  simp only [emitAll, madeObjects, List.mem_append, or_and_right, exists_or, hschemas, false_or,
    hsequences, creates_emitTables_iff, or_assoc]
  refine or_congr ?_ (or_congr Iff.rfl (or_congr ?_ (or_congr ?_ ?_)))
  · rw [emitUdts_eq]
    simp only [List.mem_map, exists_exists_and_eq_and]
    exact exists_congr fun udt => and_congr_right fun _ => Option.some_inj
  · rw [List.mem_map]
  · rw [emitViews_eq]
    simp only [List.mem_map, exists_exists_and_eq_and, hviews, Option.some_inj]
  · rw [List.mem_filterMap]

/-! ## When objects are created first -/

/-- An artifact stands after what it refers to: that is of an earlier stage, or given before. -/
def Placed (made : ObjectId → Prop) (before : List StructuredDDLArtifact) (a : StructuredDDLArtifact) :
    Prop :=
  ∀ o ∈ refersOf tableUses typeUses a, a.creates ≠ some o → made o →
    o.stage < a.stage ∨ o.stage = a.stage ∧ ∃ b ∈ before, b.creates = some o

variable {tableUses typeUses} {made : ObjectId → Prop}

/-- Artifacts of earlier stages do not matter to those given after them. -/
theorem throughout_placed_append {context artifacts : List StructuredDDLArtifact}
    (hstage : ∀ b ∈ context, ∀ o, b.creates = some o → b.stage = o.stage)
    (hearlier : ∀ b ∈ context, ∀ a ∈ artifacts, b.stage < a.stage) :
    Throughout (fun before => Placed tableUses typeUses made (context ++ before)) artifacts ↔
      Throughout (Placed tableUses typeUses made) artifacts := by
  refine throughout_congr fun before a after hsplit => ?_
  have ha : a ∈ artifacts := by simp [hsplit]
  refine forall₄_congr fun o _ _ _ => or_congr_right (and_congr_right fun ho => ?_)
  constructor
  · rintro ⟨b, hb, hcreates⟩
    rcases List.mem_append.mp hb with hb | hb
    · have hlt := hearlier b hb a ha
      rw [hstage b hb o hcreates, ho] at hlt
      exact absurd hlt (lt_irrefl _)
    · exact ⟨b, hb, hcreates⟩
  · rintro ⟨b, hb, hcreates⟩
    exact ⟨b, List.mem_append_right _ hb, hcreates⟩

theorem placed_of_lt {before : List StructuredDDLArtifact}
    (h : ∀ o ∈ refersOf tableUses typeUses a, o.stage < a.stage) :
    Placed tableUses typeUses made before a := fun o ho _ _ => Or.inl (h o ho)

/-- **An object** stands after what it refers to when the objects of its kind do. -/
theorem placed_iff {α : Type} {madeIds : List ObjectId} {id : α → ObjectId} {x : α}
    {schemaName : String} {refs : List ObjectId} {before : List StructuredDDLArtifact} {earlier : List α}
    (hmade : ∀ o : ObjectId, .schemas < o.stage → (made o ↔ o ∈ madeIds))
    (hcreates : a.creates = some (id x)) (hstage : a.stage = (id x).stage)
    (hlate : .schemas < (id x).stage) (hkind : ∀ y, (id y).stage = (id x).stage)
    (hrefers : refersOf tableUses typeUses a = .schema schemaName :: refs)
    (hearlier : ∀ o, o.stage = (id x).stage →
      ((∃ b ∈ before, b.creates = some o) ↔ ∃ y ∈ earlier, id y = o)) :
    Placed tableUses typeUses made before a ↔ ∀ o ∈ refs, o ≠ id x → o ∈ madeIds →
        o.stage < (id x).stage ∨ ∃ y ∈ earlier, id y = o := by
  have hsame : ∀ o, (o.stage < (id x).stage ∨
      o.stage = (id x).stage ∧ ∃ b ∈ before, b.creates = some o) ↔
        (o.stage < (id x).stage ∨ ∃ y ∈ earlier, id y = o) := by
    refine fun o => or_congr_right ⟨fun ⟨ho, h⟩ => (hearlier o ho).mp h, fun h => ?_⟩
    have ho : o.stage = (id x).stage := by
      obtain ⟨y, -, rfl⟩ := h
      exact hkind y
    exact ⟨ho, (hearlier o ho).mpr h⟩
  simp only [Placed, hrefers, hcreates, hstage, hsame, List.forall_mem_cons, ne_eq, Option.some_inj]
  constructor
  · rintro ⟨-, h⟩ o ho hne hin
    by_cases hschema : .schemas < o.stage
    · exact h o ho (Ne.symm hne) ((hmade o hschema).mpr hin)
    · exact Or.inl (lt_of_le_of_lt (not_lt.mp hschema) hlate)
  · intro h
    refine ⟨fun _ _ => Or.inl hlate, fun o ho hne hin => ?_⟩
    by_cases hschema : .schemas < o.stage
    · exact h o ho (Ne.symm hne) ((hmade o hschema).mp hin)
    · exact Or.inl (lt_of_le_of_lt (not_lt.mp hschema) hlate)

section Kinds

variable {madeIds : List ObjectId} (hmade : ∀ o : ObjectId, .schemas < o.stage → (made o ↔ o ∈ madeIds))
include hmade

/-- **The types** stand after what they refer to when they are listed so. -/
theorem throughout_udts_iff (udts : List CanonicalUDT) :
    Throughout (Placed tableUses typeUses made) (udts.flatMap e.emitUdtArtifacts) ↔
      ListedFirst madeIds typeId typeUses (udts.filter e.hasUdt) := by
  rw [emitUdts_eq, throughout_map]
  refine throughout_congr fun before udt after _ => ?_
  refine placed_iff hmade rfl rfl (by decide : DDLStage.schemas < .types) (fun _ => rfl) rfl
    fun o _ => ?_
  simp only [List.mem_map, exists_exists_and_eq_and]
  exact exists_congr fun y => and_congr_right fun _ => Option.some_inj

/-- **The tables** stand after what they refer to when they are listed so. -/
theorem throughout_tables_iff (tables : List CanonicalTable) :
    Throughout (Placed tableUses typeUses made) (tables.flatMap e.emitTableArtifacts) ↔
      ListedFirst madeIds tableId (fun t => tableUses t ++ (e.inlineKeys t).map referencedId)
        tables := by
  rw [throughout_flatMap]
  refine throughout_congr fun before t after _ => ?_
  obtain ⟨a, rest, hemit, hstage, hstatement, hrest⟩ := emitTableArtifacts_spec e t
  -- the other artifacts of a table name tables only, in later stages
  have hlater : Throughout (fun inner => Placed tableUses typeUses made
      (before.flatMap e.emitTableArtifacts ++ a :: inner)) rest := by
    intro inner b after hsplit
    obtain ⟨hlt, -, hb⟩ := hrest b (by simp [hsplit])
    refine placed_of_lt fun o ho => ?_
    have htable : o.stage = .tables := by
      rcases hb with ⟨key, hb⟩ | ⟨idx, hb⟩ | ⟨fk, hb⟩ <;>
      · rw [refersOf, hb] at ho
        simp only [Statement.refers, List.mem_cons, List.not_mem_nil, or_false] at ho
        rcases ho with rfl | rfl <;> rfl
    exact htable ▸ hlt
  rw [hemit, throughout_cons, List.append_nil, and_iff_left hlater]
  have hcreates : a.creates = some (tableId t) := by
    rw [StructuredDDLArtifact.creates, hstatement]
    rfl
  have hrefers : refersOf tableUses typeUses a = .schema t.schemaName ::
      (tableUses t ++ (e.inlineKeys t).map referencedId) := by
    rw [refersOf, hstatement]
    rfl
  exact placed_iff hmade hcreates hstage (by decide : DDLStage.schemas < .tables) (fun _ => rfl)
    hrefers fun o _ => creates_emitTables_iff e before

/-- **The views** stand after what they refer to when they are listed so. -/
theorem throughout_views_iff (views : List CanonicalView) :
    Throughout (Placed tableUses typeUses made) (views.flatMap e.emitViewArtifacts) ↔
      ListedFirst madeIds viewId (fun v => v.dependencies.filterMap dependencyTarget)
        (views.filter e.hasView) := by
  rw [emitViews_eq, throughout_map]
  refine throughout_congr fun before view after _ => ?_
  have hcreates : ∀ view, (e.viewOf view).creates = some (viewId view) := by
    intro view
    rw [StructuredDDLArtifact.creates, (viewOf_spec e view).2]
    rfl
  have hrefers : refersOf tableUses typeUses (e.viewOf view) = .schema view.schemaName ::
      view.dependencies.filterMap dependencyTarget := by
    rw [refersOf, (viewOf_spec e view).2]
    rfl
  refine placed_iff hmade (hcreates view) (viewOf_spec e view).1
    (by decide : DDLStage.schemas < .views) (fun _ => rfl) hrefers fun o _ => ?_
  simp only [List.mem_map, exists_exists_and_eq_and, hcreates, Option.some_inj]

/-- **The routines** stand after what they refer to when they are given so; the triggers always do. -/
theorem throughout_procedures_iff {artifacts : List StructuredDDLArtifact}
    (hprocedural : ∀ a ∈ artifacts, IsProcedural a) :
    Throughout (Placed tableUses typeUses made) artifacts ↔
      ListedFirst madeIds routineId (fun r => r.dependencies.filterMap dependencyTarget)
        (routinesOf artifacts) := by
  rw [ListedFirst, routinesOf, throughout_filterMap]
  refine throughout_congr fun before a after hsplit => ?_
  have hbefore : ∀ b ∈ before, IsProcedural b := fun b hb =>
    hprocedural b (by simp [hsplit, hb])
  rcases hprocedural a (by simp [hsplit]) with ⟨hstage, ⟨r, sql, hstatement⟩ | hstatement⟩ |
      ⟨hstage, ⟨tr, sql, hstatement⟩ | hstatement⟩
  · simp only [hstatement, Statement.routine?, Option.some.injEq, forall_eq']
    have hcreates : a.creates = some (routineId r) := by
      rw [StructuredDDLArtifact.creates, hstatement]
      rfl
    have hrefers : refersOf tableUses typeUses a = .schema r.schemaName ::
        r.dependencies.filterMap dependencyTarget := by
      rw [refersOf, hstatement]
      rfl
    refine placed_iff hmade hcreates hstage (by decide : DDLStage.schemas < .routines)
      (fun _ => rfl) hrefers fun o ho => ?_
    exact creates_iff_of_routines hbefore ho
  · refine iff_of_true (placed_of_lt fun o ho => ?_) (by simp [hstatement, Statement.routine?])
    rw [refersOf, hstatement] at ho
    exact absurd ho List.not_mem_nil
  · refine iff_of_true (placed_of_lt fun o ho => ?_) (by simp [hstatement, Statement.routine?])
    rw [refersOf, hstatement] at ho
    simp only [Statement.refers, List.mem_cons, List.not_mem_nil, or_false] at ho
    rw [hstage]
    rcases ho with rfl | rfl
    · exact (by decide : DDLStage.schemas < .triggers)
    · exact (by decide : DDLStage.tables < .triggers)
  · refine iff_of_true (placed_of_lt fun o ho => ?_) (by simp [hstatement, Statement.routine?])
    rw [refersOf, hstatement] at ho
    exact absurd ho List.not_mem_nil

end Kinds

theorem le_stage_append {s t : DDLStage} {l l' : List StructuredDDLArtifact}
    (hl : ∀ a ∈ l, s ≤ a.stage) (hl' : ∀ a ∈ l', t ≤ a.stage) (hst : s ≤ t) :
    ∀ a ∈ l ++ l', s ≤ a.stage := by
  intro a ha
  rcases List.mem_append.mp ha with ha | ha
  · exact hl a ha
  · exact hst.trans (hl' a ha)

/-- **The artifacts** stand after what they refer to when the kinds are listed so. -/
theorem throughout_emitAll_iff (hprocedural : ∀ a ∈ proceduralArtifacts, IsProcedural a)
    (hmade : ∀ o : ObjectId, .schemas < o.stage →
      (made o ↔ o ∈ madeObjects e model proceduralArtifacts)) :
    Throughout (Placed tableUses typeUses made) (emitAll e model proceduralArtifacts) ↔
      InOrder tableUses typeUses e model proceduralArtifacts := by
  have hcreates : ∀ a ∈ emitAll e model proceduralArtifacts, ∀ o, a.creates = some o →
      a.stage = o.stage := fun _ ha _ ho => stage_of_mem_emitAll hprocedural ha ho
  -- the stages of the kinds
  have hschemas : ∀ a ∈ emitSchemas e model, a.stage = .schemas :=
    fun a ha => (stage_of_mem_emitSchemas ha).1
  have hudts : ∀ a ∈ model.udts.flatMap e.emitUdtArtifacts, a.stage = .types := by
    rw [emitUdts_eq]
    exact List.forall_mem_map.mpr fun _ _ => rfl
  have hsequences : ∀ a ∈ model.sequences.flatMap e.emitSequenceArtifacts,
      a.stage = .sequences ∧ ∃ s, a.statement = .createSequence s := by
    rw [emitSequences_eq]
    split_ifs
    · exact List.forall_mem_map.mpr fun s _ => ⟨rfl, s, rfl⟩
    · exact fun a ha => absurd ha List.not_mem_nil
  have htables := fun a (ha : a ∈ model.tables.flatMap e.emitTableArtifacts) =>
    stage_of_mem_emitTables ha
  have hviews : ∀ a ∈ model.views.flatMap e.emitViewArtifacts, a.stage = .views := by
    rw [emitViews_eq]
    exact List.forall_mem_map.mpr fun v _ => (viewOf_spec e v).1
  have hprocedures : ∀ a ∈ emitProcedures e model proceduralArtifacts, IsProcedural a :=
    fun a ha => isProcedural_of_mem hprocedural ha
  have hfromRoutines := fun a ha => (hprocedures a ha).stage.1
  have hfromViews := le_stage_append (fun a ha => (hviews a ha).ge) hfromRoutines (by decide)
  have hfromTables := le_stage_append (fun a ha => (htables a ha).1) hfromViews (by decide)
  have hfromSequences := le_stage_append (fun a ha => (hsequences a ha).1.ge) hfromTables (by decide)
  have hfromTypes := le_stage_append (fun a ha => (hudts a ha).ge) hfromSequences (by decide)
  -- schemas and sequences refer to schemas at most
  have hplacedSchemas : Throughout (Placed tableUses typeUses made) (emitSchemas e model) := by
    intro before a after hsplit
    refine placed_of_lt fun o ho => ?_
    have hmem : a ∈ emitSchemas e model := by simp [hsplit]
    obtain ⟨-, ⟨name, hstatement⟩ | hstatement⟩ := stage_of_mem_emitSchemas hmem <;>
    · rw [refersOf, hstatement] at ho
      exact absurd ho List.not_mem_nil
  have hplacedSequences : Throughout (Placed tableUses typeUses made)
      (model.sequences.flatMap e.emitSequenceArtifacts) := by
    intro before a after hsplit
    obtain ⟨hstage, s, hstatement⟩ := hsequences a (by simp [hsplit])
    refine placed_of_lt fun o ho => ?_
    rw [refersOf, hstatement, Statement.refers, List.mem_singleton] at ho
    rw [ho, hstage]
    exact (by decide : DDLStage.schemas < .sequences)
  simp only [emitAll, List.mem_append] at hcreates
  rw [emitAll, throughout_append, and_iff_right hplacedSchemas,
    throughout_placed_append (fun b hb o ho => hcreates b (.inl hb) o ho)
      (fun b hb a ha => (hschemas b hb).trans_lt ((by decide : DDLStage.schemas < .types).trans_le
        (hfromTypes a ha))),
    throughout_append, throughout_udts_iff hmade,
    throughout_placed_append (fun b hb o ho => hcreates b (.inr (.inl hb)) o ho)
      (fun b hb a ha => (hudts b hb).trans_lt ((by decide : DDLStage.types < .sequences).trans_le
        (hfromSequences a ha))),
    throughout_append, and_iff_right hplacedSequences,
    throughout_placed_append (fun b hb o ho => hcreates b (.inr (.inr (.inl hb))) o ho)
      (fun b hb a ha => (hsequences b hb).1.trans_lt
        ((by decide : DDLStage.sequences < .tables).trans_le (hfromTables a ha))),
    throughout_append, throughout_tables_iff hmade,
    throughout_placed_append (fun b hb o ho => hcreates b (.inr (.inr (.inr (.inl hb)))) o ho)
      (fun b hb a ha => (htables b hb).2.1.trans_lt
        ((by decide : DDLStage.foreignKeys < .views).trans_le (hfromViews a ha))),
    throughout_append, throughout_views_iff hmade,
    throughout_placed_append (fun b hb o ho => hcreates b (.inr (.inr (.inr (.inr (.inl hb))))) o ho)
      (fun b hb a ha => (hviews b hb).trans_lt
        ((by decide : DDLStage.views < .routines).trans_le (hfromRoutines a ha))),
    throughout_procedures_iff hmade hprocedures]
  exact ⟨fun ⟨htypes, htables, hviews, hroutines⟩ => ⟨htypes, htables, hviews, hroutines⟩,
    fun ⟨htypes, htables, hviews, hroutines⟩ => ⟨htypes, htables, hviews, hroutines⟩⟩

/-- **Objects are created first** just when the types, the tables, the views and the routines are listed
after those of their kind they depend on, and depend on no object of a later kind. -/
theorem createsFirst_iff (tableUses : CanonicalTable → List ObjectId)
    (typeUses : CanonicalUDT → List ObjectId) (model : CanonicalSchemaModel) {targetEngine : String}
    {e : Emitter} (h : getEmitter targetEngine = .ok e)
    {proceduralArtifacts : List StructuredDDLArtifact}
    (hprocedural : ∀ a ∈ proceduralArtifacts, e.MakesProcedural a) :
    ∃ package, generateDdlPackage model targetEngine proceduralArtifacts = .ok package ∧
      (CreatesFirst tableUses typeUses package ↔
        InOrder tableUses typeUses e model proceduralArtifacts) := by
  have hkinds := fun a ha => (hprocedural a ha).isProcedural
  refine ⟨⟨upper targetEngine, emitAll e model proceduralArtifacts⟩, ?_, ?_⟩
  · rw [generateDdlPackage, h]
    rfl
  rw [CreatesFirst, statements_getAllSql, createdFirst_map,
    ← throughout_emitAll_iff hkinds fun o ho => exists_creates_iff ho]
  exact createdFirst_arrange_iff order_sorted (fun a _ => mem_order a.stage)
    (fun a ha o ho => stage_of_mem_emitAll hkinds ha ho)

end Order

/-! ## A view of a view -/

/-- A table, a view of it, and a view of that view, which is listed first. -/
def viewModel : CanonicalSchemaModel where
  sourceVendor := "ORACLE"
  tables := [{ tableName := "orders" }]
  views := [{ viewName := "totals", dependencies := ["view:public.orders_by_day"] },
    { viewName := "orders_by_day", dependencies := ["public.orders"] }]

/-- A routine that was converted. -/
def convertedRoutine : List StructuredDDLArtifact :=
  Emitter.emitRoutineArtifacts ⟨.postgresql, "POSTGRESQL"⟩
    { name := "close_day", dependencies := ["view:public.totals"] } (some "CREATE PROCEDURE ...")
    (some "CONVERTED") "ORACLE"

theorem getEmitter_postgresql : getEmitter "POSTGRESQL" = .ok ⟨.postgresql, "POSTGRESQL"⟩ := by
  decide

/-- The views for PostgreSQL, with a routine that was converted. -/
theorem createsFirst_viewModel :
    ∃ package, generateDdlPackage viewModel "POSTGRESQL" convertedRoutine = .ok package ∧
      (CreatesFirst (fun _ => []) (fun _ => []) package ↔
        InOrder (fun _ => []) (fun _ => []) ⟨.postgresql, "POSTGRESQL"⟩ viewModel convertedRoutine) :=
  createsFirst_iff (fun _ => []) (fun _ => []) viewModel getEmitter_postgresql
    fun _ ha => Or.inl ⟨_, _, _, _, ha⟩

theorem acyclic_viewModel : SchemaDependency.Acyclic viewModel := by
  refine SchemaDependency.acyclic_of_subrelation (r := fun n p => p < n)
    (fun _ _ _ hab hbc => lt_trans hbc hab) lt_irrefl fun n p h => ?_
  obtain ⟨⟨o, ho, rfl, htarget⟩, hp, hne⟩ := h
  have hall : ∀ o ∈ SchemaDependency.listing viewModel, ∀ p ∈ o.targets,
      p ∈ SchemaDependency.ids (SchemaDependency.listing viewModel) → p ≠ o.id → p < o.id := by
    decide
  exact hall o ho p htarget hp hne

/-- **An acyclic model** may have a view created before the view it selects from. -/
theorem not_createsFirst_of_acyclic :
    ¬ ∀ model targetEngine package, SchemaDependency.Acyclic model →
      generateDdlPackage model targetEngine = .ok package →
        CreatesFirst (fun _ => []) (fun _ => []) package := by
  intro hall
  have hfirst := hall viewModel "POSTGRESQL" _ acyclic_viewModel rfl
  have hplace := hfirst [.createSchema "public", .createTable { tableName := "orders" } []]
    (.createView { viewName := "totals", dependencies := ["view:public.orders_by_day"] })
    [.createView { viewName := "orders_by_day", dependencies := ["public.orders"] }] (by decide)
  obtain ⟨b, hb, hcreates⟩ := hplace (.view "public.orders_by_day") (by decide) (by decide)
    ⟨.createView { viewName := "orders_by_day", dependencies := ["public.orders"] }, by decide, rfl⟩
  have hnone : ∀ b ∈ [Statement.createSchema "public", .createTable { tableName := "orders" } []],
      b.creates ≠ some (.view "public.orders_by_day") := by decide
  exact hnone b hb hcreates

end DDL

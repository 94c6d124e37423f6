/-
# The schema model

`CanonicalSchemaModel` of `akaalEngine/schema/models/schema.py` and what it is made of, in
`akaalEngine/schema/models/table.py`, `constraints.py`, `indexes.py` and `programmables.py`: the parts the
dependency graph and the statements are made from.

* `CanonicalSchemaModel` : schemas, types, sequences, tables, views, routines and triggers as listed;
* `qualifiedName` : the names of objects.
-/
import Mathlib

namespace SchemaModel

/-! ## Constraints and indexes -/

/-- `CanonicalPrimaryKey`. -/
structure CanonicalPrimaryKey where
  name : Option String := none
  columns : List String
  deriving DecidableEq

/-- `CanonicalForeignKey`. -/
structure CanonicalForeignKey where
  name : Option String := none
  columns : List String
  referencedSchema : String
  referencedTable : String
  referencedColumns : List String
  deriving DecidableEq

/-- `CanonicalIndex`. -/
structure CanonicalIndex where
  name : String
  columns : List String
  expression : Option String := none
  deriving DecidableEq

/-! ## Objects -/

/-- `CanonicalSchema`. -/
structure CanonicalSchema where
  schemaName : String
  deriving DecidableEq

/-- `CanonicalUDT`. -/
structure CanonicalUDT where
  name : String
  schemaName : String := "public"
  udtType : String := "ENUM"
  enumValues : List String := []
  attributes : List (String × String) := []
  underlyingType : Option String := none
  deriving DecidableEq

/-- `CanonicalSequence`. -/
structure CanonicalSequence where
  name : String
  schemaName : String := "public"
  deriving DecidableEq

/-- `CanonicalColumn`. -/
structure CanonicalColumn where
  name : String
  sourceNativeType : String
  defaultExpression : Option String := none
  deriving DecidableEq

/-- `CanonicalTable`. -/
structure CanonicalTable where
  tableName : String
  schemaName : String := "public"
  columns : List CanonicalColumn := []
  primaryKey : Option CanonicalPrimaryKey := none
  foreignKeys : List CanonicalForeignKey := []
  indexes : List CanonicalIndex := []
  deriving DecidableEq

/-- `CanonicalView`. -/
structure CanonicalView where
  viewName : String
  schemaName : String := "public"
  isMaterialized : Bool := false
  dependencies : List String := []
  deriving DecidableEq

/-- `CanonicalRoutine`. -/
structure CanonicalRoutine where
  name : String
  schemaName : String := "public"
  definitionSql : Option String := none
  packageName : Option String := none
  dependencies : List String := []
  deriving DecidableEq

/-- `CanonicalTrigger`. -/
structure CanonicalTrigger where
  name : String
  tableName : String
  schemaName : String := "public"
  definitionSql : Option String := none
  deriving DecidableEq

/-- `CanonicalSchemaModel`. -/
structure CanonicalSchemaModel where
  sourceVendor : String
  schemas : List CanonicalSchema := []
  tables : List CanonicalTable := []
  views : List CanonicalView := []
  routines : List CanonicalRoutine := []
  triggers : List CanonicalTrigger := []
  sequences : List CanonicalSequence := []
  udts : List CanonicalUDT := []
  deriving DecidableEq

/-! ## Names -/

/-- A name under a schema, unless that has no name. -/
def qualify (schemaName name : String) : String :=
  if schemaName ≠ "" then schemaName ++ "." ++ name else name

/-- `qualified_name` of a table. -/
def CanonicalTable.qualifiedName (t : CanonicalTable) : String := qualify t.schemaName t.tableName

/-- `qualified_name` of a view. -/
def CanonicalView.qualifiedName (v : CanonicalView) : String := qualify v.schemaName v.viewName

/-- `qualified_name` of a type. -/
def CanonicalUDT.qualifiedName (u : CanonicalUDT) : String := u.schemaName ++ "." ++ u.name

/-- `qualified_name` of a sequence. -/
def CanonicalSequence.qualifiedName (s : CanonicalSequence) : String := s.schemaName ++ "." ++ s.name

/-- `qualified_name` of a trigger. -/
def CanonicalTrigger.qualifiedName (t : CanonicalTrigger) : String := t.schemaName ++ "." ++ t.name

/-- `qualified_name` of a routine, in its package when that has a name. -/
def CanonicalRoutine.qualifiedName (r : CanonicalRoutine) : String :=
  match r.packageName with
  | none | some "" => r.schemaName ++ "." ++ r.name
  | some packageName => r.schemaName ++ "." ++ packageName ++ "." ++ r.name

end SchemaModel

/-
# The names a mapping gives

What `get_table_mapping`, `get_column_mapping` and the two dictionaries of `apply_mapping` in
`schema/mapping/engine.py` answer, up to the case of names.

* `recordColumns_spec` : the names recorded before a table is mapped;
* `lower_newColumn`, `newColumn_of_leftOut` : the name a constraint gets for a column of its table;
* `lower_referencedColumn` : the name a foreign key gets for a column it references;
* `mapTables_spec` : every table that is not left out is mapped after its own names are recorded.
-/
import Akaal.PairedLists
import Akaal.SchemaMapping

open PythonText

namespace SchemaMapping

/-! ## Names up to case -/

variable {a b s t : String} {col : CanonicalColumn} {tbl : CanonicalTable}

theorem sameName_iff : sameName a b = true ↔ lower a = lower b := by
  rw [sameName, beq_iff_eq]

theorem sameName_congr (c : String) (h : lower a = lower b) : sameName c a = sameName c b := by
  rw [sameName, sameName, h]

theorem tableKey_eq_iff {s' t' : String} :
    tableKey s t = tableKey s' t' ↔ lower s = lower s' ∧ lower t = lower t' := Prod.mk_inj

theorem getColumn_spec {c : String}
    (h : tbl.getColumn c = some col) : col ∈ tbl.columns ∧ lower col.name = lower c := by
  rw [CanonicalTable.getColumn] at h
  have hname := List.find?_some h
  exact ⟨List.mem_of_find?_eq_some h, sameName_iff.mp hname⟩

theorem getTable_spec {model : CanonicalSchemaModel}
    (h : model.getTable s t = some tbl) : tbl ∈ model.tables ∧ tbl.key = tableKey s t := by
  rw [CanonicalSchemaModel.getTable] at h
  have hname := List.find?_some h
  obtain ⟨hs, ht⟩ := Bool.and_eq_true_iff.mp hname
  exact ⟨List.mem_of_find?_eq_some h, tableKey_eq_iff.mpr ⟨sameName_iff.mp hs, sameName_iff.mp ht⟩⟩

theorem getTableMapping_congr {s' t' : String} (h : tableKey s t = tableKey s' t') :
    (mapping : CompiledSchemaMapping) → mapping.getTableMapping s t = mapping.getTableMapping s' t'
  | .mk _ _ _ _ none => by
    obtain ⟨hs, ht⟩ := tableKey_eq_iff.mp h
    simp only [CompiledSchemaMapping.getTableMapping, sameName_congr _ hs, sameName_congr _ ht]
  | .mk _ _ _ _ (some estate) => by
    obtain ⟨hs, ht⟩ := tableKey_eq_iff.mp h
    simp only [CompiledSchemaMapping.getTableMapping, sameName_congr _ hs, sameName_congr _ ht,
      getTableMapping_congr h estate]

theorem columnMapping_congr (tm : Option TableMapping) (h : lower a = lower b) :
    columnMapping tm a = columnMapping tm b := by
  cases tm with
  | none => rfl
  | some tm =>
    show tm.getColumnMapping a = tm.getColumnMapping b
    rw [TableMapping.getColumnMapping, TableMapping.getColumnMapping]
    simp only [sameName_congr _ h]

theorem lower_targetColumn_congr (tm : Option TableMapping) (h : lower a = lower b) :
    lower (targetColumn tm a) = lower (targetColumn tm b) := by
  rw [targetColumn, targetColumn, columnMapping_congr tm h]
  cases columnMapping tm b with
  | none => exact h
  | some cm => rfl

/-! ## Columns that are left out -/

/-- A mapping leaves a column out. -/
def LeavesOutColumn (tm : Option TableMapping) (c : String) : Prop :=
  ∃ cm, columnMapping tm c = some cm ∧ cm.isIncluded = false

theorem leavesOutColumn_congr (tm : Option TableMapping) (h : lower a = lower b) :
    LeavesOutColumn tm a ↔ LeavesOutColumn tm b := by
  rw [LeavesOutColumn, LeavesOutColumn, columnMapping_congr tm h]

theorem mem_includedColumns_iff {tm : Option TableMapping} :
    col ∈ includedColumns tm tbl ↔ col ∈ tbl.columns ∧ ¬ LeavesOutColumn tm col.name := by
  rw [includedColumns, List.mem_filter, (List.perm_insertionSort _ _).mem_iff, LeavesOutColumn]
  cases columnMapping tm col.name <;> simp

theorem mem_includedColumns_of_getColumn {tm : Option TableMapping} {c : String}
    (hcol : tbl.getColumn c = some col) :
    col ∈ includedColumns tm tbl ↔ ¬ LeavesOutColumn tm c := by
  obtain ⟨hmem, hname⟩ := getColumn_spec hcol
  rw [mem_includedColumns_iff, leavesOutColumn_congr tm hname]
  exact and_iff_right hmem

/-! ## The recorded names -/

section Recorded

variable {mapping : CompiledSchemaMapping}

/-- Every recorded name is the one the mapping gives to a column that it does not leave out. -/
def Sound (mapping : CompiledSchemaMapping) (renames : ColumnRenameMap) : Prop :=
  ∀ s t c n, renames (tableKey s t, lower c) = some n →
    ¬ LeavesOutColumn (mapping.getTableMapping s t) c ∧
      lower n = lower (targetColumn (mapping.getTableMapping s t) c)

/-- The names of the included columns of a table are recorded. -/
def HasOwn (mapping : CompiledSchemaMapping) (tbl : CanonicalTable) (renames : ColumnRenameMap) : Prop :=
  ∀ col ∈ includedColumns (mappingOf mapping tbl) tbl, (renames (tbl.key, lower col.name)).isSome

theorem sound_empty : Sound mapping fun _ => none := by
  intro s t c n h
  cases h

/-- Recording the name of an included column. -/
theorem sound_update {renames : ColumnRenameMap} {tbl : CanonicalTable} {col : CanonicalColumn}
    (hrenames : Sound mapping renames) (hcol : col ∈ includedColumns (mappingOf mapping tbl) tbl) :
    Sound mapping (Function.update renames (tbl.key, lower col.name)
      (some (targetColumn (mappingOf mapping tbl) col.name))) := by
  intro s t c n h
  by_cases heq : (tableKey s t, lower c) = (tbl.key, lower col.name)
  · rw [heq, Function.update_self] at h
    obtain ⟨hkey, hc⟩ := Prod.mk_inj.mp heq
    rw [← Option.some.inj h, getTableMapping_congr hkey mapping]
    exact ⟨(leavesOutColumn_congr _ hc).not.mpr (mem_includedColumns_iff.mp hcol).2,
      (lower_targetColumn_congr _ hc).symm⟩
  · rw [Function.update_of_ne heq] at h
    exact hrenames s t c n h

theorem foldl_record_spec {tbl : CanonicalTable} (cols : List CanonicalColumn) (renames : ColumnRenameMap)
    (hcols : ∀ col ∈ cols, col ∈ includedColumns (mappingOf mapping tbl) tbl) (hrenames : Sound mapping renames) :
    let recorded := cols.foldl (fun renames col => Function.update renames (tbl.key, lower col.name)
      (some (targetColumn (mappingOf mapping tbl) col.name))) renames
    Sound mapping recorded ∧ (∀ key, (renames key).isSome → (recorded key).isSome) ∧
      ∀ col ∈ cols, (recorded (tbl.key, lower col.name)).isSome := by
  induction cols generalizing renames with
  | nil => exact ⟨hrenames, fun _ h => h, fun col hcol => absurd hcol List.not_mem_nil⟩
  | cons col cols ih =>
    obtain ⟨hcol, hrest⟩ := List.forall_mem_cons.mp hcols
    obtain ⟨hsound, hkept, hown⟩ := ih _ hrest (sound_update hrenames hcol)
    refine ⟨hsound, fun key hkey => hkept key ?_, fun col' hcol' => ?_⟩
    · by_cases heq : key = (tbl.key, lower col.name)
      · rw [heq, Function.update_self, Option.isSome_some]
      · rwa [Function.update_of_ne heq]
    · rcases List.mem_cons.mp hcol' with rfl | hcol'
      · refine hkept _ ?_
        rw [Function.update_self, Option.isSome_some]
      · exact hown col' hcol'

/-- The names of the columns of a table are recorded. -/
theorem recordColumns_spec {renames : ColumnRenameMap} (tbl : CanonicalTable) (hrenames : Sound mapping renames) :
    Sound mapping (recordColumns (mappingOf mapping tbl) tbl renames) ∧
      HasOwn mapping tbl (recordColumns (mappingOf mapping tbl) tbl renames) := by
  obtain ⟨hsound, -, hown⟩ := foldl_record_spec _ renames (fun _ hcol => hcol) hrenames
  exact ⟨hsound, hown⟩

variable {renames : ColumnRenameMap} {tbl : CanonicalTable} {c : String}

/-- A column of the table that is not left out gets the name of its mapping. -/
theorem lower_newColumn (hsound : Sound mapping renames) (hown : HasOwn mapping tbl renames)
    {col : CanonicalColumn} (hcol : tbl.getColumn c = some col)
    (hincluded : ¬ LeavesOutColumn (mappingOf mapping tbl) c) :
    lower (newColumn renames tbl c) = lower (targetColumn (mappingOf mapping tbl) c) := by
  have hrecorded := hown col ((mem_includedColumns_of_getColumn hcol).mpr hincluded)
  rw [(getColumn_spec hcol).2] at hrecorded
  obtain ⟨n, hn⟩ := Option.isSome_iff_exists.mp hrecorded
  rw [newColumn, hn, Option.getD_some]
  exact (hsound _ _ _ _ hn).2

/-- A column that is left out keeps its name. -/
theorem newColumn_of_leftOut (hsound : Sound mapping renames)
    (hout : LeavesOutColumn (mappingOf mapping tbl) c) : newColumn renames tbl c = c := by
  rw [newColumn]
  cases hn : renames (tbl.key, lower c) with
  | none => rfl
  | some n => exact absurd hout (hsound _ _ _ _ hn).1

/-- A referenced column gets the name of its mapping, whether or not it is left out. -/
theorem lower_referencedColumn (hsound : Sound mapping renames) (fk : CanonicalForeignKey) :
    lower (referencedColumn mapping renames fk c) =
      lower (targetColumn (mapping.getTableMapping fk.referencedSchema fk.referencedTable) c) := by
  rw [referencedColumn]
  split
  · rename_i n hn
    exact (hsound _ _ _ _ hn).2
  · rfl

end Recorded

/-! ## The tables -/

section Tables

variable {model : CanonicalSchemaModel} {mapping : CompiledSchemaMapping}

/-- The tables that are not left out. -/
def includedTables (model : CanonicalSchemaModel) (mapping : CompiledSchemaMapping) : List CanonicalTable :=
  model.tables.filter fun tbl => !(excludedTables model mapping).contains tbl.key

variable {tbl : CanonicalTable}

theorem mem_includedTables_iff :
    tbl ∈ includedTables model mapping ↔ tbl ∈ model.tables ∧ tbl.key ∉ excludedTables model mapping := by
  rw [includedTables, List.mem_filter, Bool.not_eq_true', List.contains_eq_mem, decide_eq_false_iff_not]

theorem leavesOut_of_mem_includedTables (h : tbl ∈ includedTables model mapping) :
    leavesOut (mappingOf mapping tbl) = false := by
  obtain ⟨hmem, hkey⟩ := mem_includedTables_iff.mp h
  by_contra hout
  rw [Bool.not_eq_false] at hout
  refine hkey (List.mem_append_right _ (List.mem_map_of_mem ?_))
  exact List.mem_filter.mpr ⟨hmem, hout⟩

/-- The name a table of the model gets. -/
def newTable (model : CanonicalSchemaModel) (mapping : CompiledSchemaMapping) (tbl : CanonicalTable) :
    String × String :=
  (tableRenameMap model mapping tbl.key).getD (tbl.schemaName, tbl.tableName)

theorem tableRenameMap_of_mem (h : tbl ∈ includedTables model mapping) :
    tableRenameMap model mapping tbl.key = some (newTable model mapping tbl) := by
  have hfound : (model.tables.reverse.find? fun tbl' =>
      !leavesOut (mappingOf mapping tbl') && tbl'.key == tbl.key).isSome := by
    rw [List.find?_isSome]
    refine ⟨tbl, List.mem_reverse.mpr (mem_includedTables_iff.mp h).1, ?_⟩
    rw [leavesOut_of_mem_includedTables h, beq_self_eq_true]
    rfl
  obtain ⟨last, hlast⟩ := Option.isSome_iff_exists.mp hfound
  have hmap : tableRenameMap model mapping tbl.key =
      some (targetTable mapping last.schemaName last.tableName) := by
    rw [tableRenameMap, hlast, Option.map_some]
  rw [newTable, hmap, Option.getD_some]

/-- A foreign key to an included table references it under its new name. -/
theorem referencedTarget_of_mem {fk : CanonicalForeignKey} {ref : CanonicalTable}
    (h : ref ∈ includedTables model mapping)
    (hkey : ref.key = tableKey fk.referencedSchema fk.referencedTable) :
    referencedTarget model mapping fk = some (newTable model mapping ref) := by
  rw [referencedTarget, ← hkey, if_neg (mem_includedTables_iff.mp h).2, tableRenameMap_of_mem h]

theorem referencedTarget_of_excluded {fk : CanonicalForeignKey}
    (h : tableKey fk.referencedSchema fk.referencedTable ∈ excludedTables model mapping) :
    referencedTarget model mapping fk = none := if_pos h

/-- **The mapped tables.**  Every included table is mapped, in the order of the model, when its own names
and no wrong names are recorded. -/
theorem mapTables_spec (renames : ColumnRenameMap) (hrenames : Sound mapping renames) (tables : List CanonicalTable) :
    List.Forall₂ (fun tbl tbl' => ∃ recorded, Sound mapping recorded ∧ HasOwn mapping tbl recorded ∧
        tbl' = mapTable model mapping recorded tbl)
      (tables.filter fun tbl => !(excludedTables model mapping).contains tbl.key)
      (mapTables model mapping renames tables) := by
  induction tables generalizing renames with
  | nil => exact .nil
  | cons tbl tables ih =>
    rw [mapTables]
    split
    · rename_i hkey
      rw [List.filter_cons_of_neg (by simpa using hkey)]
      exact ih renames hrenames
    · rename_i hkey
      rw [List.filter_cons_of_pos (by simpa using hkey)]
      obtain ⟨hsound, hown⟩ := recordColumns_spec tbl hrenames
      exact .cons ⟨_, hsound, hown, rfl⟩ (ih _ hsound)

end Tables

end SchemaMapping

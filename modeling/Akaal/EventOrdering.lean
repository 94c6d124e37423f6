/-
# The order in which events are applied

`_get_table_dependency_depth` and the ordering of `apply_events`, `akaalEngine/cdc/api.py`: the
events are grouped by their commit position; in a group the inserts and updates come first, the
referenced tables before the referencing ones, and then the deletes, the other way round.

* `sameContents_iff` : the lists of events that leave the same rows in both orders;
* `not_sameContents_of_reinsert` : a row that is deleted and inserted again.

A write replaces the whole row.
-/
import Akaal.ChangeEvents
import Akaal.KeyedContents
import Akaal.PythonText
import Akaal.StableGrouping

open CDC KeyedContents StableGrouping

namespace EngineCDC

/-! ## Depths -/

/-- `image or default`, of an image. -/
def orItems (image : Option PyItems) (default : PyItems) : PyItems :=
  match image with
  | some (item :: items) => item :: items
  | _ => default

/-- `text.endswith(ending)`. -/
def endsWith (text ending : String) : Bool := ending.toList.isSuffixOf text.toList

/-- `text.startswith(beginning)`. -/
def startsWith (text beginning : String) : Bool := beginning.toList.isPrefixOf text.toList

/-- `tbl_clean`. -/
def tableClean (tableName : String) : String := PythonText.strip (PythonText.lower tableName)

/-- `tbl_stem`: the name without the `s` of its plural. -/
def tableStem (clean : String) : String :=
  if endsWith clean "s" && 3 < clean.length then String.ofList clean.toList.dropLast else clean

/-- Whether a column counts as a foreign key: by its ending, unless it starts with the name of the
table. -/
def isForeignKey (stem column : String) : Bool :=
  let lowered := PythonText.lower column
  (endsWith lowered "_id" || endsWith lowered "_fk" || endsWith lowered "_code") &&
    !startsWith lowered stem

/-- `fk_count`; the columns of the primary key do not count. -/
def foreignKeyCount (stem : String) (e : ChangeEvent) (image : PyItems) : ℕ :=
  (image.filter fun item =>
    !((e.keyColumns.map PythonText.upper).contains (PythonText.upper item.1)) &&
      isForeignKey stem item.1).length

/-- The endings of the names of tables of items. -/
def itemEndings : List String := ["_item", "_items", "_line", "_lines", "_detail"]

/-- The depth that is read off the image of an event. -/
def imageDepth (tableName : String) (e : ChangeEvent) : ℤ :=
  let clean := tableClean tableName
  let count := foreignKeyCount (tableStem clean) e (orItems e.afterImage (orItems e.beforeImage []))
  if itemEndings.any (endsWith clean) then max 3 (count + 1) else count

-- `get_table_dependency_depth` of the schema authority; `none` when there is none or it raises
variable (schemaDepth : String → Option ℤ)

/-- `_get_table_dependency_depth`. -/
def getTableDependencyDepth (tableName : String) (e : ChangeEvent) : ℤ :=
  (schemaDepth tableName).getD (imageDepth tableName e)

/-- The depth of an event. -/
def eventDepth (e : ChangeEvent) : ℤ := getTableDependencyDepth schemaDepth e.logicalObject e

/-! ## The order -/

/-- `str(tx_key)`. -/
def txKey (e : ChangeEvent) : String :=
  orDefault (some e.commitPosition) (orDefault (some e.sourcePosition) "global")

/-- Whether an event is a delete. -/
def isDelete (e : ChangeEvent) : Bool := e.operation = .delete

/-- `ordered_events`. -/
def orderedEvents (events : List ChangeEvent) : List ChangeEvent :=
  (groupsOf txKey events).flatMap fun group =>
    let deletes := group.2.filter isDelete
    let insertsUpdates := group.2.filter fun e => !isDelete e
    insertsUpdates.insertionSort (fun a b => eventDepth schemaDepth a ≤ eventDepth schemaDepth b) ++
      deletes.insertionSort fun a b => eventDepth schemaDepth b ≤ eventDepth schemaDepth a

theorem orderedEvents_eq (events : List ChangeEvent) :
    orderedEvents schemaDepth events = reorder txKey isDelete (eventDepth schemaDepth) events := rfl

/-- The place of an event in the order it is applied in: the group of its commit position, deletes
behind the others, its depth, and its place in the list. -/
def applyRank (events : List ChangeEvent) : ChangeEvent × ℕ → ℕ ×ₗ Bool ×ₗ ℤ ×ₗ ℕ :=
  rank (txKey ∘ Prod.fst) (isDelete ∘ Prod.fst) (eventDepth schemaDepth ∘ Prod.fst) events.zipIdx
    Prod.snd

theorem zipIdx_pairwise (events : List ChangeEvent) :
    events.zipIdx.Pairwise fun p q => p.2 < q.2 := by
  rw [← List.pairwise_map (f := Prod.snd), List.zipIdx_map_snd]
  exact List.pairwise_lt_range'

/-- **The order of the events** is the one of their ranks. -/
theorem exists_ranked (events : List ChangeEvent) :
    ∃ numbered : List (ChangeEvent × ℕ), numbered.Perm events.zipIdx ∧
      numbered.map Prod.fst = orderedEvents schemaDepth events ∧
      numbered.Pairwise fun p q => applyRank schemaDepth events p < applyRank schemaDepth events q := by
  refine ⟨reorder (txKey ∘ Prod.fst) (isDelete ∘ Prod.fst) (eventDepth schemaDepth ∘ Prod.fst)
    events.zipIdx, reorder_perm _ _ _ _, ?_, reorder_pairwise _ _ _ (zipIdx_pairwise events)⟩
  rw [map_reorder, List.zipIdx_map_fst, orderedEvents_eq]

/-! ## The rows that are left -/

section Rows

-- the row an event is about: its table and key
variable {κ : Type*} [DecidableEq κ] (rowOf : ChangeEvent → κ)

/-- `row_data`. -/
def rowData (e : ChangeEvent) : PyItems := orItems e.afterImage (orItems e.beforeImage e.keyValues)

/-- Whether an event changes its row: a write without data does nothing. -/
def changesRow (e : ChangeEvent) : Bool := isDelete e || !(rowData e).isEmpty

/-- What an event does to its row. -/
def rowWrite (e : ChangeEvent) : Write κ PyItems where
  key := rowOf e
  value := if isDelete e then none else some (rowData e)

/-- The rows after events. -/
def applyAll (contents : Contents κ PyItems) (events : List ChangeEvent) : Contents κ PyItems :=
  writeAll contents ((events.filter changesRow).map (rowWrite rowOf))

omit [DecidableEq κ] in
theorem writes_numbered (items : List (ChangeEvent × ℕ)) :
    ((items.map Prod.fst).filter changesRow).map (rowWrite rowOf) =
      (items.filter fun p => changesRow p.1).map (rowWrite rowOf ∘ Prod.fst) := by
  rw [List.filter_map, List.map_map]
  rfl

/-- From all rows, both orders lead to the same rows. -/
def SameContents (events : List ChangeEvent) : Prop :=
  ∀ contents, applyAll rowOf contents (orderedEvents schemaDepth events) =
    applyAll rowOf contents events

/-- The events that change rows, with their places. -/
def numbered (events : List ChangeEvent) : List (ChangeEvent × ℕ) :=
  events.zipIdx.filter fun p => changesRow p.1

/-- The event of a row with the highest rank and the one with the highest place do the same to the
row. -/
def LastWritesAgree (events : List ChangeEvent) : Prop :=
  ∀ p q, IsLast (rowWrite rowOf ∘ Prod.fst) (applyRank schemaDepth events) (numbered events) p →
    IsLast (rowWrite rowOf ∘ Prod.fst) Prod.snd (numbered events) q →
    rowOf p.1 = rowOf q.1 → (rowWrite rowOf p.1).value = (rowWrite rowOf q.1).value

/-- **The events that leave the same rows in both orders.** -/
theorem sameContents_iff (events : List ChangeEvent) :
    SameContents schemaDepth rowOf events ↔ LastWritesAgree schemaDepth rowOf events := by
  obtain ⟨ranked, hperm, hmap, hpairwise⟩ := exists_ranked schemaDepth events
  have hplaces : (numbered events).Pairwise fun p q => p.2 < q.2 :=
    (zipIdx_pairwise events).filter _
  have hranks := hpairwise.filter fun p => changesRow p.1
  have hperm' : (numbered events).Perm (ranked.filter fun p => changesRow p.1) :=
    hperm.symm.filter _
  have horiginal : ∀ contents, applyAll rowOf contents events =
      writeAll contents ((numbered events).map (rowWrite rowOf ∘ Prod.fst)) := by
    intro contents
    rw [numbered, ← writes_numbered, List.zipIdx_map_fst]
    rfl
  have hordered : ∀ contents, applyAll rowOf contents (orderedEvents schemaDepth events) =
      writeAll contents ((ranked.filter fun p => changesRow p.1).map (rowWrite rowOf ∘ Prod.fst)) := by
    intro contents
    rw [← writes_numbered, hmap]
    rfl
  simp only [SameContents, horiginal, hordered]
  exact reordered_iff (rowWrite rowOf ∘ Prod.fst) hplaces hranks hperm'

end Rows

open Classical in
/-- **A row that is deleted and inserted again** in one transaction is gone. -/
theorem not_sameContents_of_reinsert :
    ¬ SameContents (fun _ => none) (fun e => (e.logicalObject, e.keyValues))
      [sampleEvent "e1" "0/1" .delete none,
        sampleEvent "e2" "0/1" .insert (some [("id", .int 1)])] := by
  intro h
  have hordered : orderedEvents (fun _ => none)
      [sampleEvent "e1" "0/1" .delete none,
        sampleEvent "e2" "0/1" .insert (some [("id", .int 1)])] =
      [sampleEvent "e2" "0/1" .insert (some [("id", .int 1)]),
        sampleEvent "e1" "0/1" .delete none] := rfl
  have hrow := congrFun (h fun _ => none) ("orders", [("id", .int 1)])
  rw [applyAll, applyAll, writeAll_apply, writeAll_apply, hordered] at hrow
  simp [lastAt, changesRow, isDelete, rowData, orItems, rowWrite, sampleEvent] at hrow

end EngineCDC

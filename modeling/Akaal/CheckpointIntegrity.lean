/-
# The checksums of checkpoints

All operations of `DurabilityAuthority` that write checkpoints: two of them write a new text under its
digest, and the rollback operations set the status in the text and leave the digest as it is.

* `writtenInOrder_textDict`, `writtenInOrder_ofValue` : dictionaries that are read as they are written;
* `reproduced_checkpoint`, `reproduced_advance` : the new texts have their digest again;
* `checksums_match` : the runs in which all checkpoints match their checksums;
* `not_match_of_rollback` : a checkpoint that is rolled back.

That `json_set` sets a member of a JSON text is an assumption; SQLite has no text for NaN.
-/
import Akaal.RollbackAtomicity

open CDC JsonText TransitionRun

namespace Durability

/-! ## Dictionaries in order -/

/-- The value that is written has its dictionaries in the order of the texts of their keys. -/
def WrittenInOrder (v : PyInput) : Prop := ∀ w, ordered v = .ok w → InTextOrder w

/-- A dictionary under texts is in order when its values are. -/
theorem writtenInOrder_textDict {items : List (String × PyInput)}
    (h : ∀ item ∈ items, WrittenInOrder item.2) : WrittenInOrder (textDict items) := by
  intro w hw
  refine inTextOrder_of_textKeys ?_ ?_ hw
  · intro item hitem
    obtain ⟨_, -, rfl⟩ := List.mem_map.mp hitem
    rfl
  · intro item hitem
    obtain ⟨item', hitem', rfl⟩ := List.mem_map.mp hitem
    exact h item' hitem'

theorem writtenInOrder_list {vs : List PyInput} (h : ∀ v ∈ vs, WrittenInOrder v) :
    WrittenInOrder (.list vs) := by
  intro w hw
  obtain ⟨ws, hws, rfl⟩ := (ordered_list_eq_ok_iff vs w).mp hw
  rw [InTextOrder, allInTextOrder_iff]
  exact forall_orderedElements hws h

theorem writtenInOrder_str (s : String) : WrittenInOrder (.str s) := by
  rintro _ ⟨⟩
  exact trivial

theorem writtenInOrder_int (z : ℤ) : WrittenInOrder (.int z) := by
  rintro _ ⟨⟩
  exact trivial

theorem writtenInOrder_bool (b : Bool) : WrittenInOrder (.bool b) := by
  rintro _ ⟨⟩
  exact trivial

theorem writtenInOrder_none : WrittenInOrder .none := by
  rintro _ ⟨⟩
  exact trivial

theorem writtenInOrder_optionText (text : Option String) : WrittenInOrder (optionText text) := by
  cases text with
  | none => exact writtenInOrder_none
  | some s => exact writtenInOrder_str s

theorem ofElements_eq_map (vs : List PyValue) : ofElements vs = vs.map ofValue := by
  induction vs with
  | nil => rfl
  | cons v vs ih => rw [ofElements, ih, List.map_cons]

theorem ofValue_dict (items : List (String × PyValue)) :
    ofValue (.dict items) = textDict (readItems items) := by
  rw [ofValue, textDict, readItems, List.map_map]
  congr 1
  induction items with
  | nil => rfl
  | cons item items ih => rw [ofItems, ih, List.map_cons]; rfl

/-- What was read is in order. -/
theorem writtenInOrder_ofValue (v : PyValue) : WrittenInOrder (ofValue v) := by
  induction v using value_induction with
  | hlist vs ih =>
    rw [ofValue, ofElements_eq_map]
    refine writtenInOrder_list fun u hu => ?_
    obtain ⟨v, hv, rfl⟩ := List.mem_map.mp hu
    exact ih v hv
  | hdict items ih =>
    rw [ofValue_dict]
    refine writtenInOrder_textDict fun item hitem => ?_
    obtain ⟨item', hitem', rfl⟩ := List.mem_map.mp hitem
    exact ih item' hitem'
  | hother v hlist hdict =>
    cases v with
    | list vs => exact absurd rfl (hlist vs)
    | dict items => exact absurd rfl (hdict items)
    | none => exact writtenInOrder_none
    | str s => exact writtenInOrder_str s
    | int z => exact writtenInOrder_int z
    | bool b => exact writtenInOrder_bool b
    | float x =>
      rintro _ ⟨⟩
      exact trivial
    | _ => exact nofun

/-! ## Values as there can be -/

theorem isInput_textDict {items : List (String × PyInput)} (hnodup : (items.map Prod.fst).Nodup)
    (h : ∀ item ∈ items, IsInput item.2) : IsInput (textDict items) := by
  unfold textDict
  refine ⟨?_, ?_⟩
  · rw [List.map_map]
    have hkeys : (items.map Prod.fst).map PyKey.str =
        items.map (Prod.fst ∘ fun item : String × PyInput => (PyKey.str item.1, item.2)) := by
      rw [List.map_map]
      rfl
    rw [← hkeys]
    exact hnodup.map fun _ _ heq => PyKey.str.inj heq
  · clear hnodup
    induction items with
    | nil => exact trivial
    | cons item items ih =>
      obtain ⟨hitem, hrest⟩ := List.forall_mem_cons.mp h
      exact ⟨hitem, ih hrest⟩

theorem isInput_list {vs : List PyInput} (h : ∀ v ∈ vs, IsInput v) : IsInput (.list vs) := by
  rw [IsInput]
  induction vs with
  | nil => exact trivial
  | cons v vs ih =>
    obtain ⟨hv, hrest⟩ := List.forall_mem_cons.mp h
    exact ⟨hv, ih hrest⟩

theorem isInput_ofValue (v : PyValue) (hv : IsValue v) : IsInput (ofValue v) := by
  induction v using value_induction with
  | hlist vs ih =>
    rw [ofValue, ofElements_eq_map]
    rw [IsValue, areValues_iff] at hv
    refine isInput_list fun u hu => ?_
    obtain ⟨v, hmem, rfl⟩ := List.mem_map.mp hu
    exact ih v hmem (hv v hmem)
  | hdict items ih =>
    rw [IsValue, areItems_iff] at hv
    rw [ofValue_dict]
    refine isInput_textDict ?_ fun item hitem => ?_
    · rw [readItems, List.map_map]
      exact hv.1
    · obtain ⟨item', hitem', rfl⟩ := List.mem_map.mp hitem
      exact ih item' hitem' (hv.2 item' hitem')
  | hother v hlist hdict =>
    cases v with
    | list vs => exact absurd rfl (hlist vs)
    | dict items => exact absurd rfl (hdict items)
    | float x => exact hv
    | _ => exact trivial

theorem areInputItems_iff (items : List (PyKey × PyInput)) :
    AreInputItems items ↔ ∀ item ∈ items, IsInput item.2 := by
  induction items with
  | nil => simp [AreInputItems]
  | cons item items ih => rw [AreInputItems, ih, List.forall_mem_cons]

theorem exists_member {items : List (PyKey × PyInput)} {w : PyValue}
    (h : ordered (.dict items) = .ok w) {item : PyKey × PyInput} (hitem : item ∈ items) :
    ∃ members u, w = .dict members ∧ (item.1.text, u) ∈ members ∧ ordered item.2 = .ok u := by
  obtain ⟨out, hout, -, rfl⟩ := (ordered_dict_eq_ok_iff items w).mp h
  have hforall := (orderedItems_eq_ok_iff items out).mp hout
  obtain ⟨o, ho, hkey, hu⟩ : ∃ o ∈ out, o.1 = item.1 ∧ ordered item.2 = .ok o.2 := by
    clear h hout
    induction hforall with
    | nil => cases hitem
    | cons hfirst _ ih =>
      rcases List.mem_cons.mp hitem with rfl | hmem
      · exact ⟨_, List.mem_cons_self, hfirst⟩
      · obtain ⟨o, ho, hspec⟩ := ih hmem
        exact ⟨o, List.mem_cons_of_mem _ ho, hspec⟩
  refine ⟨_, o.2, rfl, ?_, hu⟩
  rw [← hkey]
  exact List.mem_map_of_mem (f := fun item : PyKey × PyValue => (item.1.text, item.2))
    ((List.mem_insertionSort _).mpr ho)

theorem writtenInOrder_of_item {items : List (PyKey × PyInput)} {w : PyValue}
    (h : ordered (.dict items) = .ok w) (hw : InTextOrder w) {item : PyKey × PyInput}
    (hitem : item ∈ items) : WrittenInOrder item.2 := by
  intro u hu
  obtain ⟨members, u', rfl, hmem, hu'⟩ := exists_member h hitem
  obtain rfl : u' = u := Except.ok.inj (hu'.symm.trans hu)
  rw [InTextOrder, itemsInTextOrder_iff] at hw
  exact hw.2 _ hmem

/-! ## The dictionaries of checkpoints -/

section Dictionaries

/-- A position in order: the dictionary of its value is. -/
def RowPosition.InOrder (pos : RowPosition) : Prop := WrittenInOrder (.dict pos.value)

/-- A checkpoint in order: its metadata and its positions are. -/
structure MigrationCheckpoint.InOrder (checkpoint : MigrationCheckpoint) : Prop where
  metadata : WrittenInOrder (.dict checkpoint.metadata)
  positions : ∀ item ∈ checkpoint.tableCheckpoints.items, ∀ pos, item.2.lastPosition = some pos →
    pos.InOrder

theorem isInput_optionText (text : Option String) : IsInput (optionText text) := by
  cases text <;> exact trivial

theorem RowPosition.writtenInOrder {pos : RowPosition} (h : pos.InOrder) :
    WrittenInOrder pos.toDict := by
  refine writtenInOrder_textDict ?_
  simp only [List.forall_mem_cons]
  refine ⟨writtenInOrder_str _, h, writtenInOrder_bool _, writtenInOrder_list ?_,
    writtenInOrder_optionText _, List.forall_mem_nil _⟩
  intro v hv
  obtain ⟨s, -, rfl⟩ := List.mem_map.mp hv
  exact writtenInOrder_str s

theorem RowPosition.isInput_toDict (pos : RowPosition) : IsInput pos.toDict := by
  refine isInput_textDict (by simp) ?_
  simp only [List.forall_mem_cons]
  refine ⟨trivial, pos.isInput, trivial, isInput_list ?_, isInput_optionText _, List.forall_mem_nil _⟩
  intro v hv
  obtain ⟨s, -, rfl⟩ := List.mem_map.mp hv
  exact trivial

theorem TableCheckpoint.writtenInOrder {tbl : TableCheckpoint} (now : String)
    (h : ∀ pos, tbl.lastPosition = some pos → pos.InOrder) : WrittenInOrder (tbl.toDict now) := by
  refine writtenInOrder_textDict ?_
  simp only [List.forall_mem_cons]
  refine ⟨writtenInOrder_str _, writtenInOrder_str _, writtenInOrder_str _, writtenInOrder_int _,
    writtenInOrder_int _, ?_, writtenInOrder_optionText _, writtenInOrder_str _, List.forall_mem_nil _⟩
  cases hpos : tbl.lastPosition with
  | none => exact writtenInOrder_none
  | some pos => exact RowPosition.writtenInOrder (h pos hpos)

theorem TableCheckpoint.isInput_toDict (tbl : TableCheckpoint) (now : String) :
    IsInput (tbl.toDict now) := by
  refine isInput_textDict (by simp) ?_
  simp only [List.forall_mem_cons]
  refine ⟨trivial, trivial, trivial, trivial, trivial, ?_, isInput_optionText _, trivial,
    List.forall_mem_nil _⟩
  cases tbl.lastPosition with
  | none => exact trivial
  | some pos => exact pos.isInput_toDict

theorem MigrationCheckpoint.endpoint_cases (checkpoint : MigrationCheckpoint) :
    (∃ s, checkpoint.endpoint = .str s) ∨ checkpoint.endpoint = .none ∨
      (.str "endpoint_identity", checkpoint.endpoint) ∈ checkpoint.metadata := by
  unfold MigrationCheckpoint.endpoint
  split_ifs
  · cases hitem : checkpoint.metadata.lookup (.str "endpoint_identity") with
    | none => exact .inr (.inl rfl)
    | some v =>
      obtain ⟨before, after, hsplit, -⟩ := List.lookup_eq_some_iff.mp hitem
      refine .inr (.inr ?_)
      simp [hsplit]
  · exact .inl ⟨_, rfl⟩

theorem MigrationCheckpoint.isInput_toDict (checkpoint : MigrationCheckpoint) (now : String) :
    IsInput (checkpoint.toDict now) := by
  refine isInput_textDict (by simp) ?_
  simp only [List.forall_mem_cons]
  refine ⟨trivial, trivial, trivial, trivial, ?_, isInput_textDict ?_ ?_, checkpoint.isInput, trivial,
    List.forall_mem_nil _⟩
  · rcases checkpoint.endpoint_cases with ⟨s, hs⟩ | hnone | hmem
    · rw [hs]
      exact trivial
    · rw [hnone]
      exact trivial
    · exact (areInputItems_iff _).mp checkpoint.isInput.2 _ hmem
  · rw [List.map_map]
    exact checkpoint.tableCheckpoints.nodup
  · intro item hitem
    obtain ⟨item', -, rfl⟩ := List.mem_map.mp hitem
    exact item'.2.isInput_toDict now

theorem MigrationCheckpoint.writtenInOrder {checkpoint : MigrationCheckpoint} (h : checkpoint.InOrder)
    (now : String) : WrittenInOrder (checkpoint.toDict now) := by
  intro w hw
  -- the metadata are written with the rest, so that the endpoint they have is in order too
  obtain ⟨-, metadata, -, -, hmetadata⟩ :=
    @exists_member _ w hw (.str "metadata", .dict checkpoint.metadata) (by simp)
  have hendpoint : WrittenInOrder checkpoint.endpoint := by
    rcases checkpoint.endpoint_cases with ⟨s, hs⟩ | hnone | hmem
    · rw [hs]
      exact writtenInOrder_str s
    · rw [hnone]
      exact writtenInOrder_none
    · exact writtenInOrder_of_item hmetadata (h.metadata metadata hmetadata) hmem
  have hdict : WrittenInOrder (checkpoint.toDict now) := by
    refine writtenInOrder_textDict ?_
    simp only [List.forall_mem_cons]
    refine ⟨writtenInOrder_str _, writtenInOrder_str _, writtenInOrder_int _, writtenInOrder_str _,
      hendpoint, writtenInOrder_textDict ?_, h.metadata, writtenInOrder_str _, List.forall_mem_nil _⟩
    intro item hitem
    obtain ⟨item', hitem', rfl⟩ := List.mem_map.mp hitem
    exact TableCheckpoint.writtenInOrder now (h.positions item' hitem')
  exact hdict w hw

end Dictionaries

/-! ## Items that are set -/

/-- Items that are written as a value and in order: their keys are distinct and so are their values. -/
structure Writable (items : List (String × PyInput)) : Prop where
  nodup : (items.map Prod.fst).Nodup
  isInput : ∀ item ∈ items, IsInput item.2
  inOrder : ∀ item ∈ items, WrittenInOrder item.2

theorem forall_setItem {α : Type*} {P : α → Prop} {key : String} {value : α}
    {items : List (String × α)} (hvalue : P value) (h : ∀ item ∈ items, P item.2) :
    ∀ item ∈ PyDict.setItem key value items, P item.2 := by
  induction items with
  | nil => exact List.forall_mem_singleton.mpr hvalue
  | cons item items ih =>
    obtain ⟨hitem, hrest⟩ := List.forall_mem_cons.mp h
    rw [PyDict.setItem]
    split_ifs
    · exact List.forall_mem_cons.mpr ⟨hvalue, hrest⟩
    · exact List.forall_mem_cons.mpr ⟨hitem, ih hrest⟩

/-- An item is set. -/
theorem Writable.setItem {items : List (String × PyInput)} (h : Writable items) (key : String)
    {value : PyInput} (hvalue : IsInput value) (horder : WrittenInOrder value) :
    Writable (PyDict.setItem key value items) where
  nodup := PyDict.nodup_setItem h.nodup
  isInput := forall_setItem hvalue h.isInput
  inOrder := forall_setItem horder h.inOrder

theorem Writable.setText {items : List (String × PyInput)} (h : Writable items) (key text : String) :
    Writable (PyDict.setItem key (.str text) items) :=
  h.setItem key trivial (writtenInOrder_str text)

theorem Writable.setInt {items : List (String × PyInput)} (h : Writable items) (key : String) (z : ℤ) :
    Writable (PyDict.setItem key (.int z) items) :=
  h.setItem key trivial (writtenInOrder_int z)

theorem Writable.isInput_textDict {items : List (String × PyInput)} (h : Writable items) :
    IsInput (textDict items) :=
  Durability.isInput_textDict h.nodup h.isInput

theorem Writable.writtenInOrder_textDict {items : List (String × PyInput)} (h : Writable items) :
    WrittenInOrder (textDict items) :=
  Durability.writtenInOrder_textDict h.inOrder

theorem Writable.setDict {items members : List (String × PyInput)} (h : Writable items) (key : String)
    (hmembers : Writable members) : Writable (PyDict.setItem key (textDict members) items) :=
  h.setItem key hmembers.isInput_textDict hmembers.writtenInOrder_textDict

theorem writable_readItems {items : List (String × PyValue)} (h : IsValue (.dict items)) :
    Writable (readItems items) := by
  rw [IsValue, areItems_iff] at h
  refine ⟨?_, ?_, ?_⟩
  · rw [readItems, List.map_map]
    exact h.1
  · intro item hitem
    obtain ⟨item', hitem', rfl⟩ := List.mem_map.mp hitem
    exact isInput_ofValue _ (h.2 item' hitem')
  · intro item hitem
    obtain ⟨item', -, rfl⟩ := List.mem_map.mp hitem
    exact writtenInOrder_ofValue _

theorem isValue_of_lookup {items : List (String × PyValue)} (h : IsValue (.dict items)) {key : String}
    {v : PyValue} (hv : items.lookup key = some v) : IsValue v := by
  rw [IsValue, areItems_iff] at h
  obtain ⟨before, after, hsplit, -⟩ := List.lookup_eq_some_iff.mp hv
  exact h.2 (key, v) (by simp [hsplit])

section Positions

variable {position : RowPosition} (hposition : position.InOrder) (now : String)
include hposition

theorem writable_advanceTable {tbl : List (String × PyValue)} (htbl : IsValue (.dict tbl))
    {tbl' : List (String × PyInput)} (h : advanceTable tbl position now = some tbl') :
    Writable tbl' := by
  unfold advanceTable at h
  split at h
  case h_1 rows _ =>
    cases h
    have hstatus := (writable_readItems htbl).setText "status" "IN_PROGRESS"
    have hrows := hstatus.setInt "rows_processed" (rows + 1)
    have hlast := hrows.setItem "last_position" position.isInput_toDict
      (RowPosition.writtenInOrder hposition)
    exact hlast.setText "updated_at" now
  case h_2 => cases h

theorem writable_firstTable (tableName : String) : Writable (firstTable tableName position now) := by
  unfold firstTable
  refine ⟨by simp, ?_, ?_⟩
  · simp only [List.forall_mem_cons]
    exact ⟨trivial, trivial, trivial, trivial, trivial, position.isInput_toDict, trivial, trivial,
      List.forall_mem_nil _⟩
  · simp only [List.forall_mem_cons]
    exact ⟨writtenInOrder_str _, writtenInOrder_str _, writtenInOrder_str _, writtenInOrder_int _,
      writtenInOrder_int _, RowPosition.writtenInOrder hposition, writtenInOrder_none,
      writtenInOrder_str _, List.forall_mem_nil _⟩

omit hposition in
/-- A checkpoint that was read, with a table that is set. -/
theorem writable_finish {items tables : List (String × PyValue)} (hitems : IsValue (.dict items))
    (htables : IsValue (.dict tables)) {tbl : List (String × PyInput)} (htbl : Writable tbl)
    (tableName : String) :
    Writable (PyDict.setItem "updated_at" (.str now) (PyDict.setItem "table_checkpoints"
      (textDict (PyDict.setItem tableName (textDict tbl) (readItems tables))) (readItems items))) := by
  have htables' := (writable_readItems htables).setDict tableName htbl
  exact ((writable_readItems hitems).setDict "table_checkpoints" htables').setText "updated_at" now

theorem writtenInOrder_advance {v : PyValue} (hv : IsValue v) {tableName : String}
    {advanced : PyInput} (h : advance v tableName position now = some advanced) :
    IsInput advanced ∧ WrittenInOrder advanced := by
  unfold advance at h
  split at h
  case h_2 => cases h
  case h_1 items =>
    have htables : ∀ tables, (items.lookup "table_checkpoints").getD (.dict []) = .dict tables →
        IsValue (.dict tables) := by
      intro tables heq
      cases hlookup : items.lookup "table_checkpoints" with
      | none =>
        rw [hlookup] at heq
        cases heq
        exact ⟨List.nodup_nil, trivial⟩
      | some u =>
        rw [hlookup] at heq
        cases heq
        exact isValue_of_lookup hv hlookup
    split at h
    case h_2 => cases h
    case h_1 tables heq =>
      dsimp only at h
      split at h
      case h_1 item tbl htbl =>
        obtain ⟨tbl', hadvance, rfl⟩ := Option.map_eq_some_iff.mp h
        have hlookup : tables.lookup tableName = some (.dict (item :: tbl)) := by
          cases hlookup : tables.lookup tableName with
          | none =>
            rw [hlookup] at htbl
            cases htbl
          | some u =>
            rw [hlookup] at htbl
            exact congrArg some htbl
        have hwritable := writable_finish now hv (htables tables heq)
          (writable_advanceTable hposition now (isValue_of_lookup (htables tables heq) hlookup)
            hadvance) tableName
        exact ⟨hwritable.isInput_textDict, hwritable.writtenInOrder_textDict⟩
      case h_2 =>
        split_ifs at h
        cases h
        have hwritable := writable_finish now hv (htables tables heq)
          (writable_firstTable hposition now tableName) tableName
        exact ⟨hwritable.isInput_textDict, hwritable.writtenInOrder_textDict⟩

end Positions

/-! ## Texts that are written -/

section Texts

variable (rt : DigestRuntime)

/-- The text of a checkpoint in order has its digest again. -/
theorem reproduced_checkpoint {checkpoint : MigrationCheckpoint} (h : checkpoint.InOrder) {now : String}
    {text : String} (htext : dumpsSorted (checkpoint.toDict now) = .ok text) :
    JournalTables.Reproduced rt text (rt.sha256Hex text) := by
  have hinput := checkpoint.isInput_toDict now
  obtain ⟨w, hw, -⟩ := loads_dumpsSorted hinput htext
  exact JournalTables.reproduced_of_inTextOrder rt hinput htext hw (MigrationCheckpoint.writtenInOrder h now w hw)

/-- The text of a checkpoint after a position in order has its digest again. -/
theorem reproduced_advance {position : RowPosition} (h : position.InOrder) {now tableName text : String}
    {v : PyValue} (hv : loads text = some v) {advanced : PyInput}
    (hadvance : advance v tableName position now = some advanced) {text' : String}
    (htext : dumpsSorted advanced = .ok text') :
    JournalTables.Reproduced rt text' (rt.sha256Hex text') := by
  obtain ⟨hinput, horder⟩ := writtenInOrder_advance h now (isValue_of_loads hv) hadvance
  obtain ⟨w, hw, -⟩ := loads_dumpsSorted hinput htext
  exact JournalTables.reproduced_of_inTextOrder rt hinput htext hw (horder w hw)

end Texts

/-! ## Setting a member of a text -/

mutual

/-- A value without NaN. -/
def WithoutNaN : PyValue → Prop
  | .float x => x ≠ .nan
  | .list elements => AllWithoutNaN elements
  | .dict items => ItemsWithoutNaN items
  | _ => True

/-- The elements of a list are without NaN. -/
def AllWithoutNaN : List PyValue → Prop
  | [] => True
  | v :: vs => WithoutNaN v ∧ AllWithoutNaN vs

/-- The values of a dictionary are without NaN. -/
def ItemsWithoutNaN : List (String × PyValue) → Prop
  | [] => True
  | (_, v) :: items => WithoutNaN v ∧ ItemsWithoutNaN items

end

/-- `json_set` sets a member of a text: among the texts of a class that has all those of `json.dumps`
and is kept by `json_set`. -/
structure SetsMembers (rb : RollbackRuntime) (plain : String → Prop) : Prop where
  dumps : ∀ v text, JsonText.dumps false v = .ok text → plain text
  keeps : ∀ text status text', plain text → rb.jsonSetStatus text status = some text' → plain text'
  sets : ∀ text status text' items, plain text → loads text = some (.dict items) →
    WithoutNaN (.dict items) → rb.jsonSetStatus text status = some text' →
    loads text' = some (.dict (PyDict.setItem "status" (.str status) items))

/-- A text that has this status already. -/
def HasStatus (status text : String) : Prop :=
  ∃ items, loads text = some (.dict items) ∧ WithoutNaN (.dict items) ∧
    items.lookup "status" = some (.str status)

/-- The status that a text has already is set without an effect on its digest. -/
theorem reproduced_jsonSetStatus {rt : DigestRuntime} {rb : RollbackRuntime} {plain : String → Prop}
    (hset : SetsMembers rb plain) {text status text' checksum : String} (hplain : plain text)
    (hstatus : HasStatus status text) (h : rb.jsonSetStatus text status = some text')
    (hchecksum : JournalTables.Reproduced rt text checksum) :
    JournalTables.Reproduced rt text' checksum := by
  obtain ⟨items, hitems, hnan, hlookup⟩ := hstatus
  obtain ⟨v, hv, hdigest⟩ := hchecksum
  obtain rfl : .dict items = v := Option.some.inj (hitems.symm.trans hv)
  have hafter := hset.sets text status text' items hplain hitems hnan h
  rw [PyDict.setItem_eq_self hlookup] at hafter
  exact ⟨_, hafter, hdigest⟩

/-! ## Steps -/

section Steps

variable (rt : DigestRuntime) (rb : RollbackRuntime) (signingKey anchorKey : List UInt8)

/-- The checksums of the checkpoints match their texts, and no checkpoint is found corrupt. -/
structure ChecksumsMatch (t : DurabilityTables) : Prop where
  stored : ∀ migrationId row, t.checkpoints.get? migrationId = some row →
    JournalTables.Reproduced rt row.checkpointJson row.checksum
  read : ∀ migrationId e, getLatestCheckpoint rt t.checkpoints migrationId = .error e →
    e.isStateCorrupt = false

/-- What a call writes is in order. -/
def AuthorityCall.InOrder (call : AuthorityCall) : Prop :=
  (∀ checkpoint, call.saved = some checkpoint → checkpoint.InOrder) ∧
    ∀ migrationId tableName position token now fits,
      call = .saveRowPosition migrationId tableName position token now fits → position.InOrder

/-- A call that is accepted writes in order; a status that is set is there already. -/
def KeepsChecksums (t : DurabilityTables) : AuthorityAction → Prop
  | .call call => ∀ t', perform rt signingKey anchorKey t call = .ok t' → call.InOrder
  | .statement (.setStatus status batchId now) fails =>
    ¬ SetStatusRaises rb (fun _ => fails) status batchId now t →
      ∀ item ∈ t.checkpoints.items, item.2.jobId = batchId → HasStatus status item.2.checkpointJson
  | .statement _ _ => True

variable {rt rb signingKey anchorKey} {t t' : DurabilityTables} {plain : String → Prop}

/-- All rows have a property. -/
def AllRows (P : CheckpointRow → Prop) (t : DurabilityTables) : Prop :=
  ∀ migrationId row, t.checkpoints.get? migrationId = some row → P row

variable {P : CheckpointRow → Prop} {e : ReadError}

/-- A row that is set. -/
theorem AllRows.set (h : AllRows P t) {key : String} {row : CheckpointRow}
    (hrow : P row) (ht' : t'.checkpoints = t.checkpoints.set key row) : AllRows P t' := by
  intro migrationId row' hget
  rw [ht'] at hget
  by_cases hkey : migrationId = key
  · subst hkey
    rw [PyDict.get?_set] at hget
    exact Option.some.inj hget ▸ hrow
  · rw [PyDict.get?_set_of_ne _ _ hkey] at hget
    exact h migrationId row' hget

variable (rt rb) in
/-- A property of rows that is kept by all writes: of a checkpoint in order, of a position in order, and
of a status that is there already. -/
structure KeptByWrites (P : CheckpointRow → Prop) : Prop where
  checkpoint : ∀ {checkpoint : MigrationCheckpoint} {now text : String}, checkpoint.InOrder →
    dumpsSorted (checkpoint.toDict now) = .ok text → P (checkpointRow rt checkpoint text now)
  position : ∀ {row : CheckpointRow} {v : PyValue} {position : RowPosition} {tableName now : String}
    {advanced : PyInput} {text : String}, position.InOrder → P row →
    loads row.checkpointJson = some v → advance v tableName position now = some advanced →
    dumpsSorted advanced = .ok text →
    P { row with checkpointJson := text, checksum := rt.sha256Hex text, updatedAt := now }
  status : ∀ {row : CheckpointRow} {status text now : String}, P row →
    HasStatus status row.checkpointJson → rb.jsonSetStatus row.checkpointJson status = some text →
    P { row with checkpointJson := text, updatedAt := now }

theorem AllRows.perform (hP : KeptByWrites rt rb P) (h : AllRows P t)
    {call : AuthorityCall} (hcall : Durability.perform rt signingKey anchorKey t call = .ok t')
    (horder : call.InOrder) : AllRows P t' := by
  rcases perform_checkpoints hcall with hsame | ⟨checkpoint, token, now, fits, hsaved, hsave⟩ |
    ⟨migrationId, tableName, position, token, now, fits, rfl, hsave⟩
  · intro migrationId row hget
    exact h migrationId row (hsame ▸ hget)
  · obtain ⟨-, -, -, text, htext, hwritten⟩ := saveCheckpoint_spec hsave
    exact h.set (hP.checkpoint (horder.1 checkpoint hsaved) htext) hwritten
  · obtain ⟨-, row, v, advanced, text, hrow, hv, hadvance, htext, hwritten⟩ := saveRowPosition_spec hsave
    have hposition := horder.2 migrationId tableName position token now fits rfl
    exact h.set (hP.position hposition (h migrationId row hrow) hv hadvance htext) hwritten

/-- A statement that is executed leaves the checkpoints as they are, or it sets a status. -/
theorem execute_checkpoints {statement : RollbackStatement} {fails : RollbackStatement → Bool}
    (h : statement.execute rt rb fails t = .ok t') : t'.checkpoints = t.checkpoints ∨
      ∃ status batchId now, statement = .setStatus status batchId now ∧
        ¬ SetStatusRaises rb fails status batchId now t ∧
        t'.checkpoints = t.checkpoints.mapValues (withStatus rb status batchId now) := by
  cases statement with
  | setStatus status batchId now =>
    obtain ⟨hraises, hwritten⟩ := @setStatus_statement_spec rt rb fails status batchId now t
    refine .inr ⟨status, batchId, now, rfl, ?_, congrArg _ (hwritten t' h)⟩
    rw [← hraises, h]
    exact nofun
  | abandon batchId now =>
    rw [abandon_statement_eq] at h
    split_ifs at h
    cases h
    exact .inl rfl
  | append call =>
    unfold RollbackStatement.execute at h
    split_ifs at h
    obtain rfl := appendRecordIn_eq_ok h
    exact .inl rfl

/-- A status that is there already keeps the property. -/
theorem AllRows.setStatus (hP : KeptByWrites rt rb P) (h : AllRows P t)
    {status batchId now : String} {fails : RollbackStatement → Bool}
    (hraises : ¬ SetStatusRaises rb fails status batchId now t)
    (hstatus : ∀ item ∈ t.checkpoints.items, item.2.jobId = batchId →
      HasStatus status item.2.checkpointJson)
    (ht' : t'.checkpoints = t.checkpoints.mapValues (withStatus rb status batchId now)) :
    AllRows P t' := by
  intro migrationId row' hget
  rw [ht', PyDict.get?_mapValues] at hget
  obtain ⟨row, hrow, rfl⟩ := Option.map_eq_some_iff.mp hget
  have hmem := (t.checkpoints.mem_items_iff).mpr hrow
  unfold withStatus
  by_cases hjob : row.jobId = batchId
  · rw [if_pos hjob]
    cases htext : rb.jsonSetStatus row.checkpointJson status with
    | none => exact absurd (.inr ⟨_, hmem, hjob, htext⟩) hraises
    | some text => exact hP.status (h migrationId row hrow) (hstatus _ hmem hjob) htext
  · rw [if_neg hjob]
    exact h migrationId row hrow

/-- **A step that meets the condition** keeps every property that the writes keep. -/
theorem AllRows.step (hP : KeptByWrites rt rb P) (h : AllRows P t)
    {action : AuthorityAction} (hkeeps : KeepsChecksums rt rb signingKey anchorKey t action)
    (hstep : authorityStep rt rb signingKey anchorKey t action = some t') : AllRows P t' := by
  cases action with
  | call call =>
    cases hstep
    cases hcall : Durability.perform rt signingKey anchorKey t call with
    | error e => exact h
    | ok u => exact h.perform hP hcall (hkeeps u hcall)
  | statement statement fails =>
    cases hstep
    cases hexecute : statement.execute rt rb (fun _ => fails) t with
    | error e => exact h
    | ok u =>
      rcases execute_checkpoints hexecute with hsame | ⟨status, batchId, now, rfl, hraises, hset⟩
      · intro migrationId row hget
        exact h migrationId row (hsame ▸ hget)
      · exact h.setStatus hP hraises (hkeeps hraises) hset

theorem SetsMembers.dumpsSorted (hset : SetsMembers rb plain) {v : PyInput} {text : String}
    (h : JsonText.dumpsSorted v = .ok text) : plain text := by
  obtain ⟨w, -, hw⟩ := Traversal.bind_eq_ok_iff.mp h
  cases htext : JsonText.dumps false w with
  | error e =>
    rw [htext] at hw
    cases hw
  | ok text' =>
    rw [htext] at hw
    cases hw
    exact hset.dumps w text htext

/-- A row whose text is of the class and has its digest. -/
def IntactRow (rt : DigestRuntime) (plain : String → Prop) (row : CheckpointRow) : Prop :=
  plain row.checkpointJson ∧ JournalTables.Reproduced rt row.checkpointJson row.checksum

/-- **All writes keep the rows intact.** -/
theorem keptByWrites_intactRow (hset : SetsMembers rb plain) :
    KeptByWrites rt rb (IntactRow rt plain) where
  checkpoint horder htext := ⟨hset.dumpsSorted htext, reproduced_checkpoint rt horder htext⟩
  position horder _ hv hadvance htext :=
    ⟨hset.dumpsSorted htext, reproduced_advance rt horder hv hadvance htext⟩
  status hrow hstatus htext :=
    ⟨hset.keeps _ _ _ hrow.1 htext, reproduced_jsonSetStatus hset hrow.1 hstatus htext hrow.2⟩

theorem isStateCorrupt_of_fromDict {v : PyValue}
    (h : RowPosition.fromDict v = .error e) : e.isStateCorrupt = false := by
  have hinvalid : e = .invalidPosition := by
    unfold RowPosition.fromDict at h
    dsimp only at h
    split at h
    case h_2 =>
      cases h
      rfl
    case h_1 data =>
      split at h
      case h_2 =>
        cases h
        rfl
      case h_1 text _ =>
        split at h
        case h_1 =>
          cases h
          rfl
        case h_2 positionType _ =>
          by_cases hstable : positionType = .unsafeUnavailable ∧ StateStore.truthy
              ((data.lookup "is_stable_resume_supported").getD (.bool true)) = true
          · rw [if_pos hstable] at h
            cases h
            rfl
          · rw [if_neg hstable] at h
            split at h
            · cases h
              rfl
            · cases h
  rw [hinvalid]
  rfl

theorem isStateCorrupt_of_readTable {v : PyValue} (h : readTable v = .error e) :
    e.isStateCorrupt = false := by
  unfold readTable at h
  split at h
  case h_2 =>
    cases h
    rfl
  case h_1 tbl =>
    cases hposition : readLastPosition tbl with
    | error e' =>
      rw [hposition] at h
      cases h
      unfold readLastPosition at hposition
      dsimp only at hposition
      split_ifs at hposition
      cases hread : RowPosition.fromDict ((tbl.lookup "last_position").getD .none) with
      | error e'' =>
        rw [hread] at hposition
        cases hposition
        exact isStateCorrupt_of_fromDict hread
      | ok pos =>
        rw [hread] at hposition
        cases hposition
    | ok position =>
      rw [hposition] at h
      dsimp only at h
      split at h
      · cases h
      · cases h
        rfl

theorem isStateCorrupt_of_readTables {tables : List (String × PyValue)}
    (h : readTables tables = .error e) : e.isStateCorrupt = false := by
  induction tables with
  | nil => cases h
  | cons item tables ih =>
    obtain ⟨name, tbl⟩ := item
    rw [readTables] at h
    cases hread : readTable tbl with
    | error e' =>
      rw [hread] at h
      cases h
      exact isStateCorrupt_of_readTable hread
    | ok read =>
      rw [hread] at h
      cases hrest : readTables tables with
      | error e' =>
        rw [hrest] at h
        cases h
        exact ih hrest
      | ok rest =>
        rw [hrest] at h
        cases h

theorem isStateCorrupt_of_readRow {row : CheckpointRow} {migrationId : String}
    (hrow : JournalTables.Reproduced rt row.checkpointJson row.checksum)
    (h : readRow rt migrationId row = .error e) : e.isStateCorrupt = false := by
  obtain ⟨v, hv, hchecksum⟩ := hrow
  unfold readRow verifyDictChecksum at h
  rw [hv] at h
  dsimp only at h
  rw [hchecksum] at h
  dsimp only at h
  rw [if_neg (not_not.mpr rfl)] at h
  dsimp only at h
  split at h
  case h_2 =>
    cases h
    rfl
  case h_1 items =>
    split at h
    case h_2 =>
      cases h
      rfl
    case h_1 tables _ =>
      cases hread : readTables tables with
      | error e' =>
        rw [hread] at h
        cases h
        exact isStateCorrupt_of_readTables hread
      | ok read =>
        rw [hread] at h
        cases h

theorem AllRows.checksumsMatch (h : AllRows (IntactRow rt plain) t) : ChecksumsMatch rt t where
  stored migrationId row hget := (h migrationId row hget).2
  read migrationId e he := by
    unfold getLatestCheckpoint at he
    cases hrow : t.checkpoints.get? migrationId with
    | none =>
      rw [hrow] at he
      cases he
    | some row =>
      rw [hrow] at he
      dsimp only at he
      cases hread : readRow rt migrationId row with
      | error e' =>
        rw [hread] at he
        cases he
        exact isStateCorrupt_of_readRow (h migrationId row hrow).2 hread
      | ok checkpoint =>
        rw [hread] at he
        cases he

/-- **When all checkpoints match their checksums.**  They do along every run from an empty database
whose calls write dictionaries in the order of the texts of their keys, and whose rollbacks set a
status that is there already. -/
theorem checksums_match (hset : SetsMembers rb plain) (actions : List AuthorityAction)
    (h : MeetsAlong (authorityStep rt rb signingKey anchorKey)
      (KeepsChecksums rt rb signingKey anchorKey) .empty actions) :
    HoldsAlong (authorityStep rt rb signingKey anchorKey) (ChecksumsMatch rt) .empty actions := by
  have hempty : AllRows (IntactRow rt plain) .empty := nofun
  have hintact := holdsAlong_of_meetsAlong (fun _ _ _ hintact hkeeps hstep =>
    AllRows.step (keptByWrites_intactRow hset) hintact hkeeps hstep) hempty h
  exact hintact.imp fun _ hintact => hintact.checksumsMatch

end Steps

/-! ## A checkpoint that is rolled back -/

/-- `json_set` that reads the text and writes it again. -/
def rewritingRuntime : RollbackRuntime where
  jsonSetStatus text status :=
    match loads text with
    | some (.dict items) =>
      (JsonText.dumps false (.dict (PyDict.setItem "status" (.str status) items))).toOption
    | _ => none
  sanitizeText := id

theorem setsMembers_rewritingRuntime : SetsMembers rewritingRuntime fun _ => True where
  dumps _ _ _ := trivial
  keeps _ _ _ _ _ := trivial
  sets text status text' items _ hitems _ h := by
    unfold rewritingRuntime at h
    dsimp only at h
    rw [hitems] at h
    dsimp only at h
    have hvalue : IsValue (.dict (PyDict.setItem "status" (.str status) items)) := by
      have hread := isValue_of_loads hitems
      have hstatus : IsValue (.str status) := trivial
      exact ⟨PyDict.nodup_setItem hread.1, areItems_setItem hstatus hread.2⟩
    cases hdumps : JsonText.dumps false (.dict (PyDict.setItem "status" (.str status) items)) with
    | error e =>
      rw [hdumps] at h
      cases h
    | ok written =>
      rw [hdumps] at h
      cases h
      exact loads_dumps hvalue hdumps

/-- A checkpoint of the job `b`. -/
def runningCheckpoint : MigrationCheckpoint where
  migrationId := "m"
  jobId := "b"
  fencingEpoch := 1
  status := "RUNNING"
  endpointIdentity := none
  tableCheckpoints := PyDict.empty
  metadata := []
  isInput := isInput_noMetadata

theorem runningCheckpoint_inOrder : runningCheckpoint.InOrder := by
  refine ⟨?_, List.forall_mem_nil _⟩
  rintro _ ⟨⟩
  exact ⟨List.Pairwise.nil, trivial⟩

/-- A token is issued, the checkpoint is saved under it, and a rollback of a job is staged. -/
def stagedAfterSave (batchId : String) : List AuthorityAction :=
  [.call (.issueFencingToken "m" "w" "2024-01-01"), .call (.saveCheckpoint runningCheckpoint
      (issueToken JournalRun.textRuntime [] PyDict.empty "m" "w" "2024-01-01").1 "2024-01-02" true),
    .statement (.setStatus "PENDING_ROLLBACK" batchId "2024-01-03") false]

/-- The rollback of another job. -/
theorem checksums_match_stagedAfterSave :
    HoldsAlong (authorityStep JournalRun.textRuntime rewritingRuntime [] [])
      (ChecksumsMatch JournalRun.textRuntime) .empty (stagedAfterSave "c") := by
  refine checksums_match setsMembers_rewritingRuntime _ ?_
  intro t₁ h₁
  refine ⟨fun _ _ => ⟨(fun _ h => by cases h), fun _ _ _ _ _ _ h => by cases h⟩, ?_⟩
  intro t₂ h₂
  refine ⟨fun _ _ => ⟨?_, fun _ _ _ _ _ _ h => by cases h⟩, ?_⟩
  · rintro _ ⟨⟩
    exact runningCheckpoint_inOrder
  -- the only checkpoint is one of the job `b`
  · have hjobs : (run (authorityStep JournalRun.textRuntime rewritingRuntime [] []) .empty
        ((stagedAfterSave "c").take 2)).map (fun t => t.checkpoints.items.map fun item => item.2.jobId) =
        some ["b"] := by
      decide +kernel
    have hrun : run (authorityStep JournalRun.textRuntime rewritingRuntime [] []) .empty
        ((stagedAfterSave "c").take 2) = some t₂ :=
      run_cons_eq_some.mpr ⟨t₁, h₁, run_cons_eq_some.mpr ⟨t₂, h₂, rfl⟩⟩
    rw [hrun, Option.map_some, Option.some.injEq] at hjobs
    intro t₃ _
    refine ⟨fun _ item hitem hjob => ?_, trivial⟩
    have hmem : item.2.jobId ∈ t₂.checkpoints.items.map fun item => item.2.jobId :=
      List.mem_map_of_mem hitem
    rw [hjobs, hjob] at hmem
    exact absurd hmem (by decide)

/-- **A rollback** leaves the digest of the checkpoint as it is. -/
theorem not_match_of_rollback :
    ¬ ∀ rt rb plain, SetsMembers rb plain → ∀ signingKey anchorKey actions,
      HoldsAlong (authorityStep rt rb signingKey anchorKey) (ChecksumsMatch rt) .empty actions := by
  intro h
  have hcorrupt : (run (authorityStep JournalRun.textRuntime rewritingRuntime [] []) .empty
      (stagedAfterSave "b")).map (fun t => match getLatestCheckpoint JournalRun.textRuntime
        t.checkpoints "m" with
      | .error e => e.isStateCorrupt
      | .ok _ => false) = some true := by
    decide +kernel
  obtain ⟨t, hrun, hread⟩ := Option.map_eq_some_iff.mp hcorrupt
  have hmatch := (h _ _ _ setsMembers_rewritingRuntime _ _ _).finish hrun
  cases hlatest : getLatestCheckpoint JournalRun.textRuntime t.checkpoints "m" with
  | error e =>
    rw [hlatest] at hread
    exact absurd ((hmatch.read "m" e hlatest).symm.trans hread) Bool.false_ne_true
  | ok checkpoint =>
    rw [hlatest] at hread
    cases hread

end Durability

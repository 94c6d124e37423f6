/-
# The form of stored checkpoints

What `save_checkpoint` and `save_row_position` of `akaalEngine/durability/checkpoint/registry.py` write has
the form that `get_latest_checkpoint` asks for.

* `CheckpointForm.ordered` : the form is kept when a checkpoint is written and read back;
* `checkpointForm_toDict`, `checkpointForm_advance` : what is written has it;
* `readRow_of_form` : a row of this form whose checksum matches is read.
-/
import Akaal.CheckpointIntegrity

open CDC JsonText

namespace Durability

/-! ## Members of what is written -/

theorem lookup_readItems (items : List (String × PyValue)) (key : String) :
    (readItems items).lookup key = (items.lookup key).map ofValue := by
  induction items with
  | nil => rfl
  | cons item items ih =>
    rw [readItems, List.map_cons, List.lookup_cons, List.lookup_cons, ← readItems, ih]
    cases key == item.1 <;> rfl

variable {v w : PyValue} {α : Type*}

theorem mem_of_lookup {items : List (String × α)} {key : String} {v : α}
    (h : items.lookup key = some v) : (key, v) ∈ items := by
  obtain ⟨before, after, hsplit, -⟩ := List.lookup_eq_some_iff.mp h
  simp [hsplit]

theorem lookup_of_mem {items : List (String × α)} (hnodup : (items.map Prod.fst).Nodup)
    {key : String} {v : α} (h : (key, v) ∈ items) : items.lookup key = some v :=
  ((⟨items, hnodup⟩ : PyDict α).mem_items_iff).mp h

/-- What is written and read back of a dictionary under texts. -/
structure Members (items : List (String × PyInput)) (members : List (String × PyValue)) : Prop where
  get : ∀ key v, items.lookup key = some v → ∃ u, ordered v = .ok u ∧ members.lookup key = some u
  from_item : ∀ member ∈ members, ∃ item ∈ items, ordered item.2 = .ok member.2

theorem members_of_ordered {items : List (String × PyInput)} (hinput : IsInput (textDict items))
    (h : ordered (textDict items) = .ok w) :
    ∃ members, w = .dict members ∧ Members items members := by
  have hvalue := isValue_ordered _ hinput h
  obtain ⟨out, hout, -, rfl⟩ := (ordered_dict_eq_ok_iff _ w).mp h
  refine ⟨_, rfl, ?_, ?_⟩
  · intro key v hv
    have hmem : (PyKey.str key, v) ∈ items.map fun item => (PyKey.str item.1, item.2) :=
      List.mem_map.mpr ⟨(key, v), mem_of_lookup hv, rfl⟩
    obtain ⟨members, u, heq, hu, hordered⟩ := exists_member h hmem
    cases heq
    exact ⟨u, hordered, lookup_of_mem hvalue.1 hu⟩
  · intro member hmember
    obtain ⟨o, ho, rfl⟩ := mem_textItems hmember
    refine forall_orderedItems (P := fun u => ∃ item ∈ items, ordered item.2 = .ok u) hout ?_ o ho
    intro item hitem u hu
    obtain ⟨item', hitem', rfl⟩ := List.mem_map.mp hitem
    exact ⟨item', hitem', hu⟩

theorem isInput_of_lookup {items : List (String × PyInput)} (hinput : IsInput (textDict items))
    {key : String} {v : PyInput} (h : items.lookup key = some v) : IsInput v :=
  (areInputItems_iff _).mp hinput.2 _ (List.mem_map.mpr ⟨(key, v), mem_of_lookup h, rfl⟩)

theorem isInput_of_mem {items : List (String × PyInput)} (hinput : IsInput (textDict items))
    {item : String × PyInput} (h : item ∈ items) : IsInput item.2 :=
  (areInputItems_iff _).mp hinput.2 _ (List.mem_map.mpr ⟨item, h, rfl⟩)

/-! ## Forms -/

/-- The form of a position. -/
def PositionForm (v : PyInput) : Prop :=
  ∃ items t isStable columnNames, v = textDict items ∧
    items.lookup "position_type" = some (.str (RowPositionType.value t)) ∧
    items.lookup "is_stable_resume_supported" = some (.bool isStable) ∧
    (t = .unsafeUnavailable → isStable = false) ∧
    items.lookup "column_names" = some (.list columnNames)

/-- The form of the checkpoint of a table. -/
def TableForm (v : PyInput) : Prop :=
  ∃ items, v = textDict items ∧
    (∀ key ∈ ["table_name", "schema_name", "status"], ∃ u, items.lookup key = some u) ∧
    ∃ pos, items.lookup "last_position" = some pos ∧ (pos = .none ∨ PositionForm pos)

/-- The form of a checkpoint. -/
def CheckpointForm (v : PyInput) : Prop :=
  ∃ items tables, v = textDict items ∧ items.lookup "table_checkpoints" = some (textDict tables) ∧
    ∀ tbl ∈ tables, TableForm tbl.2

/-- A position that is written and read back. -/
theorem PositionForm.ordered {v : PyInput} (h : PositionForm v) (hinput : IsInput v)
    (hw : JsonText.ordered v = .ok w) : PositionForm (ofValue w) := by
  obtain ⟨items, t, isStable, columnNames, rfl, htype, hstable, hsafe, hcolumns⟩ := h
  obtain ⟨members, rfl, hmembers⟩ := members_of_ordered hinput hw
  obtain ⟨type, htype', hlookup⟩ := hmembers.get _ _ htype
  cases htype'
  obtain ⟨stable, hstable', hlookup'⟩ := hmembers.get _ _ hstable
  cases hstable'
  obtain ⟨columns, hcolumns', hlookup''⟩ := hmembers.get _ _ hcolumns
  obtain ⟨vs, -, rfl⟩ := (ordered_list_eq_ok_iff columnNames columns).mp hcolumns'
  refine ⟨readItems members, t, isStable, ofElements vs, ofValue_dict members, ?_, ?_, hsafe, ?_⟩
  · rw [lookup_readItems, hlookup]
    rfl
  · rw [lookup_readItems, hlookup']
    rfl
  · rw [lookup_readItems, hlookup'']
    rfl

/-- The checkpoint of a table that is written and read back. -/
theorem TableForm.ordered {v : PyInput} (h : TableForm v) (hinput : IsInput v)
    (hw : JsonText.ordered v = .ok w) : TableForm (ofValue w) := by
  obtain ⟨items, rfl, hkeys, pos, hpos, hform⟩ := h
  obtain ⟨members, rfl, hmembers⟩ := members_of_ordered hinput hw
  obtain ⟨pos', hordered, hlookup⟩ := hmembers.get _ _ hpos
  refine ⟨readItems members, ofValue_dict members, ?_, ofValue pos', ?_, ?_⟩
  · intro key hkey
    obtain ⟨u, hu⟩ := hkeys key hkey
    obtain ⟨u', -, hu'⟩ := hmembers.get _ _ hu
    exact ⟨ofValue u', by rw [lookup_readItems, hu']; rfl⟩
  · rw [lookup_readItems, hlookup]
    rfl
  · rcases hform with rfl | hform
    · cases hordered
      exact .inl rfl
    · exact .inr (hform.ordered (isInput_of_lookup hinput hpos) hordered)

/-- **A checkpoint that is written and read back** keeps the form. -/
theorem CheckpointForm.ordered {v : PyInput} (h : CheckpointForm v) (hinput : IsInput v)
    (hw : JsonText.ordered v = .ok w) : CheckpointForm (ofValue w) := by
  obtain ⟨items, tables, rfl, htables, hforms⟩ := h
  obtain ⟨members, rfl, hmembers⟩ := members_of_ordered hinput hw
  have hinput' := isInput_of_lookup hinput htables
  obtain ⟨written, hordered, hlookup⟩ := hmembers.get _ _ htables
  obtain ⟨tables', rfl, htables'⟩ := members_of_ordered hinput' hordered
  refine ⟨readItems members, readItems tables', ofValue_dict members, ?_, ?_⟩
  · rw [lookup_readItems, hlookup, Option.map_some, ofValue_dict]
  · intro tbl htbl
    obtain ⟨member, hmember, rfl⟩ := List.mem_map.mp htbl
    obtain ⟨item, hitem, hitem'⟩ := htables'.from_item member hmember
    exact (hforms item hitem).ordered (isInput_of_mem hinput' hitem) hitem'

/-! ## What is written -/

theorem positionForm_toDict (pos : RowPosition) : PositionForm pos.toDict :=
  ⟨_, pos.positionType, pos.isStableResumeSupported, _, rfl, rfl, rfl, pos.declared, rfl⟩

theorem tableForm_toDict (tbl : TableCheckpoint) (now : String) : TableForm (tbl.toDict now) := by
  refine ⟨_, rfl, ?_, _, rfl, ?_⟩
  · simp only [List.forall_mem_cons]
    exact ⟨⟨_, rfl⟩, ⟨_, rfl⟩, ⟨_, rfl⟩, List.forall_mem_nil _⟩
  · cases tbl.lastPosition with
    | none => exact .inl rfl
    | some pos => exact .inr (positionForm_toDict pos)

/-- The dictionary of a checkpoint has the form. -/
theorem checkpointForm_toDict (checkpoint : MigrationCheckpoint) (now : String) :
    CheckpointForm (checkpoint.toDict now) := by
  refine ⟨_, _, rfl, rfl, ?_⟩
  intro tbl htbl
  obtain ⟨item, -, rfl⟩ := List.mem_map.mp htbl
  exact tableForm_toDict item.2 now

theorem eq_dict_of_ofValue {items : List (String × PyInput)}
    (h : ofValue v = textDict items) : ∃ members, v = .dict members ∧ readItems members = items := by
  have hinj : Function.Injective fun item : String × PyInput => (PyKey.str item.1, item.2) := by
    intro item item' heq
    obtain ⟨hkey, hvalue⟩ := Prod.mk.inj heq
    exact Prod.ext (PyKey.str.inj hkey) hvalue
  cases v with
  | dict members =>
    rw [ofValue_dict] at h
    exact ⟨members, rfl, List.map_injective_iff.mpr hinj (PyInput.dict.inj h)⟩
  | _ => cases h

theorem exists_lookup_setItem {items : List (String × α)} {key : String}
    (h : ∃ u, items.lookup key = some u) (key' : String) (value : α) :
    ∃ u, (PyDict.setItem key' value items).lookup key = some u := by
  by_cases heq : key = key'
  · subst heq
    exact ⟨value, PyDict.lookup_setItem key value items⟩
  · rw [PyDict.lookup_setItem_of_ne value items heq]
    exact h

theorem tableForm_advanceTable {tbl : List (String × PyValue)} (h : TableForm (ofValue (.dict tbl)))
    {position : RowPosition} {now : String} {tbl' : List (String × PyInput)}
    (hadvance : advanceTable tbl position now = some tbl') : TableForm (textDict tbl') := by
  obtain ⟨items, hitems, hkeys, -⟩ := h
  obtain ⟨_, heq, rfl⟩ := eq_dict_of_ofValue hitems
  cases heq
  unfold advanceTable at hadvance
  split at hadvance
  case h_2 => cases hadvance
  case h_1 rows _ =>
    cases hadvance
    refine ⟨_, rfl, fun key hkey => ?_, position.toDict, ?_, .inr (positionForm_toDict position)⟩
    · have hstatus := exists_lookup_setItem (hkeys key hkey) "status" (.str "IN_PROGRESS")
      have hrows := exists_lookup_setItem hstatus "rows_processed" (.int (rows + 1))
      exact exists_lookup_setItem (exists_lookup_setItem hrows "last_position" position.toDict)
        "updated_at" (.str now)
    · rw [PyDict.lookup_setItem_of_ne _ _ (by decide), PyDict.lookup_setItem]

theorem tableForm_firstTable (tableName : String) (position : RowPosition) (now : String) :
    TableForm (textDict (firstTable tableName position now)) := by
  refine ⟨_, rfl, ?_, position.toDict, rfl, .inr (positionForm_toDict position)⟩
  simp only [List.forall_mem_cons]
  exact ⟨⟨_, rfl⟩, ⟨_, rfl⟩, ⟨_, rfl⟩, List.forall_mem_nil _⟩

/-- A checkpoint with a table that is set. -/
theorem checkpointForm_finish {items tables : List (String × PyValue)}
    (htables : ∀ tbl ∈ readItems tables, TableForm tbl.2) {tbl : List (String × PyInput)}
    (htbl : TableForm (textDict tbl)) (tableName now : String) :
    CheckpointForm (textDict (PyDict.setItem "updated_at" (.str now)
      (PyDict.setItem "table_checkpoints"
        (textDict (PyDict.setItem tableName (textDict tbl) (readItems tables))) (readItems items)))) := by
  refine ⟨_, PyDict.setItem tableName (textDict tbl) (readItems tables), rfl, ?_,
    forall_setItem htbl htables⟩
  rw [PyDict.lookup_setItem_of_ne _ _ (by decide), PyDict.lookup_setItem]

/-- **A checkpoint after a position** has the form. -/
theorem checkpointForm_advance (h : CheckpointForm (ofValue v)) {tableName now : String}
    {position : RowPosition} {advanced : PyInput}
    (hadvance : advance v tableName position now = some advanced) : CheckpointForm advanced := by
  obtain ⟨items, _, hitems, htables, hforms⟩ := h
  obtain ⟨members, rfl, rfl⟩ := eq_dict_of_ofValue hitems
  rw [lookup_readItems] at htables
  obtain ⟨u, hu, htables⟩ := Option.map_eq_some_iff.mp htables
  obtain ⟨tables, rfl, rfl⟩ := eq_dict_of_ofValue htables
  unfold advance at hadvance
  dsimp only at hadvance
  rw [hu, Option.getD_some] at hadvance
  dsimp only at hadvance
  split at hadvance
  case h_1 item tbl htbl =>
    obtain ⟨tbl', htbl', rfl⟩ := Option.map_eq_some_iff.mp hadvance
    have hmem : (tableName, PyValue.dict (item :: tbl)) ∈ tables := by
      cases hlookup : tables.lookup tableName with
      | none =>
        rw [hlookup] at htbl
        cases htbl
      | some u =>
        rw [hlookup, Option.getD_some] at htbl
        exact htbl ▸ mem_of_lookup hlookup
    have hform := hforms (tableName, ofValue (.dict (item :: tbl))) (List.mem_map_of_mem hmem)
    exact checkpointForm_finish hforms (tableForm_advanceTable hform htbl') tableName now
  case h_2 =>
    split_ifs at hadvance
    cases hadvance
    exact checkpointForm_finish hforms (tableForm_firstTable tableName position now) tableName now

/-! ## What is read -/

theorem fromDict_of_form (h : PositionForm (ofValue v)) :
    ∃ pos, RowPosition.fromDict v = .ok pos := by
  obtain ⟨items, t, isStable, columnNames, hitems, htype, hstable, hsafe, hcolumns⟩ := h
  obtain ⟨members, rfl, rfl⟩ := eq_dict_of_ofValue hitems
  rw [lookup_readItems] at htype hstable hcolumns
  obtain ⟨type, htype, htype'⟩ := Option.map_eq_some_iff.mp htype
  obtain ⟨stable, hstable, hstable'⟩ := Option.map_eq_some_iff.mp hstable
  obtain ⟨columns, hcolumns, hcolumns'⟩ := Option.map_eq_some_iff.mp hcolumns
  obtain rfl : type = .str t.value := by
    cases type <;> cases htype'
    rfl
  obtain rfl : stable = .bool isStable := by
    cases stable <;> cases hstable'
    rfl
  obtain ⟨vs, rfl⟩ : ∃ vs, columns = .list vs := by
    cases columns <;> first | exact ⟨_, rfl⟩ | cases hcolumns'
  have hsafe' : ¬ (t = .unsafeUnavailable ∧ StateStore.truthy (.bool isStable) = true) := by
    rintro ⟨ht, htrue⟩
    rw [hsafe ht] at htrue
    cases htrue
  unfold RowPosition.fromDict
  dsimp only
  rw [htype]
  dsimp only
  rw [RowPositionType.ofValue_value]
  dsimp only
  rw [hstable, Option.getD_some, if_neg hsafe', hcolumns, Option.getD_some]
  exact ⟨_, rfl⟩

theorem truthy_of_form (h : PositionForm (ofValue v)) : StateStore.truthy v = true := by
  obtain ⟨items, _, _, _, hitems, htype, -⟩ := h
  obtain ⟨members, rfl, rfl⟩ := eq_dict_of_ofValue hitems
  cases members with
  | nil => cases htype
  | cons member members => rfl

theorem readTable_of_form (h : TableForm (ofValue v)) : ∃ tbl, readTable v = .ok tbl := by
  obtain ⟨items, hitems, hkeys, pos, hpos, hform⟩ := h
  obtain ⟨members, rfl, rfl⟩ := eq_dict_of_ofValue hitems
  simp only [List.forall_mem_cons] at hkeys
  obtain ⟨⟨_, hname⟩, ⟨_, hschema⟩, ⟨_, hstatus⟩, -⟩ := hkeys
  rw [lookup_readItems] at hname hschema hstatus hpos
  obtain ⟨name, hname, -⟩ := Option.map_eq_some_iff.mp hname
  obtain ⟨schema, hschema, -⟩ := Option.map_eq_some_iff.mp hschema
  obtain ⟨status, hstatus, -⟩ := Option.map_eq_some_iff.mp hstatus
  obtain ⟨u, hu, rfl⟩ := Option.map_eq_some_iff.mp hpos
  have hlast : ∃ lastPosition, readLastPosition members = .ok lastPosition := by
    unfold readLastPosition
    rw [hu, Option.getD_some]
    rcases hform with hnone | hform
    · obtain rfl : u = .none := by
        cases u <;> cases hnone
        rfl
      exact ⟨none, rfl⟩
    · obtain ⟨read, hread⟩ := fromDict_of_form hform
      dsimp only
      rw [if_pos (truthy_of_form hform), hread]
      exact ⟨some read, rfl⟩
  obtain ⟨lastPosition, hlast⟩ := hlast
  rw [readTable, hlast]
  dsimp only
  rw [hname, hschema, hstatus]
  exact ⟨_, rfl⟩

theorem readTables_of_form {tables : List (String × PyValue)}
    (h : ∀ tbl ∈ tables, TableForm (ofValue tbl.2)) : ∃ read, readTables tables = .ok read := by
  induction tables with
  | nil => exact ⟨[], rfl⟩
  | cons item tables ih =>
    obtain ⟨hitem, hrest⟩ := List.forall_mem_cons.mp h
    obtain ⟨tbl, htbl⟩ := readTable_of_form hitem
    obtain ⟨rest, hrest⟩ := ih hrest
    obtain ⟨name, v⟩ := item
    exact ⟨(name, tbl) :: rest, by rw [readTables, htbl, hrest]⟩

/-- **A checkpoint of this form** whose checksum matches is read. -/
theorem readRow_of_form {rt : DigestRuntime} {row : CheckpointRow}
    (hv : loads row.checkpointJson = some v) (hchecksum : checksumOf rt v = .ok row.checksum)
    (h : CheckpointForm (ofValue v)) (migrationId : String) :
    ∃ checkpoint, readRow rt migrationId row = .ok checkpoint ∧
      checkpoint.fencingEpoch = row.fencingEpoch := by
  obtain ⟨items, _, hitems, htables, hforms⟩ := h
  obtain ⟨members, rfl, rfl⟩ := eq_dict_of_ofValue hitems
  rw [lookup_readItems] at htables
  obtain ⟨u, hu, htables⟩ := Option.map_eq_some_iff.mp htables
  obtain ⟨tables, rfl, rfl⟩ := eq_dict_of_ofValue htables
  obtain ⟨read, hread⟩ := @readTables_of_form tables fun tbl htbl =>
    hforms (tbl.1, ofValue tbl.2) (List.mem_map_of_mem htbl)
  unfold readRow verifyDictChecksum
  rw [hv]
  dsimp only
  rw [hchecksum]
  dsimp only
  rw [if_neg (not_not.mpr rfl)]
  dsimp only
  rw [hu, Option.getD_some]
  dsimp only
  rw [hread]
  exact ⟨_, rfl, rfl⟩

end Durability

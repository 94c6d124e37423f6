/-
# Dictionaries with integer keys as JSON

`json.dumps(v, sort_keys=True)` sorts the items of a dictionary by their keys and writes the keys as
texts; `json.loads` gives a dictionary with texts as keys.  Integers are sorted as numbers before and
as texts after.

* `loads_dumpsSorted` : what is read back;
* `dumps_true_eq_iff` : when it is written as the same text again;
* `inTextOrder_of_textKeys` : for a dictionary under texts that depends on its values only.
-/
import Akaal.JsonRoundTrip
import Akaal.DelimitedText

open Traversal

namespace JsonText

/-! ## Values -/

/-- A key of a dictionary. -/
inductive PyKey where
  | str (s : String)
  | int (z : ℤ)
  deriving DecidableEq

/-- A value that may be written as JSON; one of another class is not serializable. -/
inductive PyInput where
  | none
  | bool (b : Bool)
  | int (z : ℤ)
  | float (x : PyFloat)
  | str (s : String)
  | list (elements : List PyInput)
  | dict (items : List (PyKey × PyInput))
  | other (typeName : String)

/-- The exceptions of `json.dumps`. -/
inductive DumpsError where
  | notSerializable (typeName : String)
  | keysNotComparable
  deriving DecidableEq

/-- A key as a text. -/
def PyKey.text : PyKey → String
  | .str s => s
  | .int z => intText z

/-- Whether a key is a text. -/
def PyKey.isText : PyKey → Bool
  | .str _ => true
  | .int _ => false

/-- `<=` between keys of one class. -/
def PyKey.le : PyKey → PyKey → Bool
  | .str s, .str t => s ≤ t
  | .int z, .int w => z ≤ w
  | _, _ => true

/-- Keys that can be sorted: a single one, texts only, or integers only. -/
def comparable (keys : List PyKey) : Bool :=
  keys.length ≤ 1 || keys.all PyKey.isText || keys.all fun k => !k.isText

/-- The items of a dictionary in the order of their keys. -/
def sortItems (items : List (PyKey × PyValue)) : List (PyKey × PyValue) :=
  items.insertionSort fun item item' => item.1.le item'.1

/-- The items with texts as keys. -/
def textItems (items : List (PyKey × PyValue)) : List (String × PyValue) :=
  items.map fun item => (item.1.text, item.2)

mutual

/-- A value with the items of its dictionaries in the order of their keys, and texts as keys. -/
def ordered : PyInput → Except DumpsError PyValue
  | .none => .ok .none
  | .bool b => .ok (.bool b)
  | .int z => .ok (.int z)
  | .float x => .ok (.float x)
  | .str s => .ok (.str s)
  | .other typeName => .error (.notSerializable typeName)
  | .list elements => do
      let elements ← orderedElements elements
      return .list elements
  | .dict items => do
      let items ← orderedItems items
      if comparable (items.map Prod.fst) then return .dict (textItems (sortItems items))
      else throw .keysNotComparable

/-- The elements of a list, each ordered. -/
def orderedElements : List PyInput → Except DumpsError (List PyValue)
  | [] => .ok []
  | v :: vs => do
      let v ← ordered v
      let vs ← orderedElements vs
      return v :: vs

/-- The items of a dictionary, each value ordered. -/
def orderedItems : List (PyKey × PyInput) → Except DumpsError (List (PyKey × PyValue))
  | [] => .ok []
  | (key, v) :: items => do
      let v ← ordered v
      let items ← orderedItems items
      return (key, v) :: items

end

/-- `json.dumps(v, sort_keys=True)`. -/
def dumpsSorted (v : PyInput) : Except DumpsError String := do
  let v ← ordered v
  match dumps false v with
  | .ok text => .ok text
  | .error e => .error (.notSerializable e.str)

mutual

/-- A value as there can be one: its floats are floats, and the keys of a dictionary are
distinct. -/
def IsInput : PyInput → Prop
  | .float x => IsFloat x
  | .list elements => AreInputs elements
  | .dict items => (items.map Prod.fst).Nodup ∧ AreInputItems items
  | _ => True

/-- The elements of a list are values. -/
def AreInputs : List PyInput → Prop
  | [] => True
  | v :: vs => IsInput v ∧ AreInputs vs

/-- The values of a dictionary are values. -/
def AreInputItems : List (PyKey × PyInput) → Prop
  | [] => True
  | (_, v) :: items => IsInput v ∧ AreInputItems items

end

mutual

/-- A value whose dictionaries have their items in the order of the texts that are their keys. -/
def InTextOrder : PyValue → Prop
  | .list elements => AllInTextOrder elements
  | .dict items => (items.map Prod.fst).Pairwise (· ≤ ·) ∧ ItemsInTextOrder items
  | _ => True

/-- The elements of a list are in order. -/
def AllInTextOrder : List PyValue → Prop
  | [] => True
  | v :: vs => InTextOrder v ∧ AllInTextOrder vs

/-- The values of a dictionary are in order. -/
def ItemsInTextOrder : List (String × PyValue) → Prop
  | [] => True
  | (_, v) :: items => InTextOrder v ∧ ItemsInTextOrder items

end

/-! ## Items, one by one -/

/-- The text of a value; empty when it is not serializable. -/
def textOf (sortKeys : Bool) (v : PyValue) : String := (dumps sortKeys v).toOption.getD ""

/-- A value that can be written. -/
def Dumps (sortKeys : Bool) (v : PyValue) : Prop := ∃ text, dumps sortKeys v = .ok text

theorem dumps_eq_textOf {sortKeys : Bool} {v : PyValue} (h : Dumps sortKeys v) :
    dumps sortKeys v = .ok (textOf sortKeys v) := by
  obtain ⟨text, htext⟩ := h
  rw [textOf, htext]
  rfl

theorem dumps_eq_ok_iff {sortKeys : Bool} {v : PyValue} {text : String} :
    dumps sortKeys v = .ok text ↔ Dumps sortKeys v ∧ text = textOf sortKeys v := by
  constructor
  · intro h
    refine ⟨⟨text, h⟩, ?_⟩
    rw [textOf, h]
    rfl
  · rintro ⟨h, rfl⟩
    exact dumps_eq_textOf h

/-- The members of a dictionary are the texts of its values, when all of them can be written. -/
theorem dumpsMembers_eq_ok_iff (sortKeys : Bool) (items : List (String × PyValue))
    (members : List (String × String)) :
    dumpsMembers sortKeys items = .ok members ↔ (∀ item ∈ items, Dumps sortKeys item.2) ∧
        members = items.map fun item => (item.1, textOf sortKeys item.2) := by
  induction items generalizing members with
  | nil =>
    rw [dumpsMembers, Except.ok.injEq]
    simp [eq_comm]
  | cons item items ih =>
    obtain ⟨key, v⟩ := item
    rw [dumpsMembers, List.forall_mem_cons, List.map_cons, map₂_eq_ok_iff]
    simp only [ih, dumps_eq_ok_iff]
    grind

theorem dumpsElements_eq_ok_iff (sortKeys : Bool) (vs : List PyValue) (texts : List String) :
    dumpsElements sortKeys vs = .ok texts ↔
      (∀ v ∈ vs, Dumps sortKeys v) ∧ texts = vs.map (textOf sortKeys) := by
  induction vs generalizing texts with
  | nil =>
    rw [dumpsElements, Except.ok.injEq]
    simp [eq_comm]
  | cons v vs ih =>
    rw [dumpsElements, List.forall_mem_cons, List.map_cons, map₂_eq_ok_iff]
    simp only [ih, dumps_eq_ok_iff]
    grind

/-- The text of a dictionary. -/
theorem dumps_dict_eq_ok_iff (sortKeys : Bool) (items : List (String × PyValue)) (text : String) :
    dumps sortKeys (.dict items) = .ok text ↔ (∀ item ∈ items, Dumps sortKeys item.2) ∧
      text = "\x7b" ++ ", ".intercalate (((if sortKeys then
        (items.map fun item => (item.1, textOf sortKeys item.2)).insertionSort fun a b => a.1 ≤ b.1
        else items.map fun item => (item.1, textOf sortKeys item.2))).map memberText) ++ "\x7d" := by
  rw [dumps]
  refine map_eq_ok_iff.trans ?_
  simp only [dumpsMembers_eq_ok_iff, and_assoc, exists_and_left, exists_eq_left]
  rfl

theorem dumps_list_eq_ok_iff (sortKeys : Bool) (vs : List PyValue) (text : String) :
    dumps sortKeys (.list vs) = .ok text ↔ (∀ v ∈ vs, Dumps sortKeys v) ∧
      text = "[" ++ ", ".intercalate (vs.map (textOf sortKeys)) ++ "]" := by
  rw [dumps, map_eq_ok_iff]
  simp only [dumpsElements_eq_ok_iff, and_assoc, exists_and_left, exists_eq_left]

theorem areItems_iff (items : List (String × PyValue)) :
    AreItems items ↔ ∀ item ∈ items, IsValue item.2 := by
  induction items with
  | nil => simp [AreItems]
  | cons item items ih => rw [AreItems, ih, List.forall_mem_cons]

theorem areValues_iff (vs : List PyValue) : AreValues vs ↔ ∀ v ∈ vs, IsValue v := by
  induction vs with
  | nil => simp [AreValues]
  | cons v vs ih => rw [AreValues, ih, List.forall_mem_cons]

theorem itemsInTextOrder_iff (items : List (String × PyValue)) :
    ItemsInTextOrder items ↔ ∀ item ∈ items, InTextOrder item.2 := by
  induction items with
  | nil => simp [ItemsInTextOrder]
  | cons item items ih => rw [ItemsInTextOrder, ih, List.forall_mem_cons]

theorem allInTextOrder_iff (vs : List PyValue) : AllInTextOrder vs ↔ ∀ v ∈ vs, InTextOrder v := by
  induction vs with
  | nil => simp [AllInTextOrder]
  | cons v vs ih => rw [AllInTextOrder, ih, List.forall_mem_cons]

/-! ## Values in the order of their keys -/

mutual

/-- A value with the items of its dictionaries in the order of their keys. -/
def sortValue : PyValue → PyValue
  | .list elements => .list (sortElements elements)
  | .dict items => .dict ((sortMembers items).insertionSort fun a b => a.1 ≤ b.1)
  | v => v

/-- The elements of a list, each in order. -/
def sortElements : List PyValue → List PyValue
  | [] => []
  | v :: vs => sortValue v :: sortElements vs

/-- The items of a dictionary, each value in order. -/
def sortMembers : List (String × PyValue) → List (String × PyValue)
  | [] => []
  | (key, v) :: items => (key, sortValue v) :: sortMembers items

end

theorem sortElements_eq_map (vs : List PyValue) : sortElements vs = vs.map sortValue := by
  induction vs with
  | nil => rfl
  | cons v vs ih => rw [sortElements, ih, List.map_cons]

theorem sortMembers_eq_map (items : List (String × PyValue)) :
    sortMembers items = items.map fun item => (item.1, sortValue item.2) := by
  induction items with
  | nil => rfl
  | cons item items ih => rw [sortMembers, ih, List.map_cons]

variable {P : PyValue → Prop} {out : List (PyKey × PyValue)}

/-- A property of all values, from the elements and items of a value to the value. -/
theorem value_induction (hlist : ∀ vs, (∀ v ∈ vs, P v) → P (.list vs))
    (hdict : ∀ items : List (String × PyValue), (∀ item ∈ items, P item.2) → P (.dict items))
    (hother : ∀ v, (∀ vs, v ≠ .list vs) → (∀ items, v ≠ .dict items) → P v) (v : PyValue) :
    P v := by
  refine @PyValue.rec P (fun vs => ∀ v ∈ vs, P v)
    (fun items => ∀ item ∈ items, P item.2) (fun item => P item.2)
    ?_ ?_ ?_ ?_ ?_ ?_ ?_ ?_ ?_ ?_ (fun vs ih => hlist vs ih) (fun items ih => hdict items ih) ?_
    (List.forall_mem_nil _) (fun v vs hv hvs => List.forall_mem_cons.mpr ⟨hv, hvs⟩)
    (List.forall_mem_nil _) (fun item items hitem hitems => List.forall_mem_cons.mpr ⟨hitem, hitems⟩)
    (fun key v hv => hv) v
  all_goals
    intros
    exact hother _ (fun _ h => PyValue.noConfusion h) (fun _ h => PyValue.noConfusion h)

theorem pairwise_insertionSort {α : Type*} (items : List (String × α)) :
    ((items.insertionSort fun a b => a.1 ≤ b.1).map Prod.fst).Pairwise (· ≤ ·) := by
  have hsorted : (items.insertionSort fun a b => a.1 ≤ b.1).Pairwise fun a b => a.1 ≤ b.1 :=
    List.pairwise_insertionSort _ _
  exact List.pairwise_map.mpr hsorted

theorem inTextOrder_sortValue (v : PyValue) : InTextOrder (sortValue v) := by
  induction v using value_induction with
  | hlist vs ih =>
    rw [sortValue, InTextOrder, sortElements_eq_map, allInTextOrder_iff]
    simpa using ih
  | hdict items ih =>
    rw [sortValue, InTextOrder, itemsInTextOrder_iff]
    refine ⟨pairwise_insertionSort _, ?_⟩
    intro item hitem
    rw [List.mem_insertionSort, sortMembers_eq_map] at hitem
    obtain ⟨item', hitem', rfl⟩ := List.mem_map.mp hitem
    exact ih item' hitem'
  | hother v hlist hdict =>
    cases v with
    | list vs => exact absurd rfl (hlist vs)
    | dict items => exact absurd rfl (hdict items)
    | _ => trivial

theorem isValue_sortValue (v : PyValue) (h : IsValue v) : IsValue (sortValue v) := by
  induction v using value_induction with
  | hlist vs ih =>
    rw [IsValue, areValues_iff] at h
    rw [sortValue, IsValue, sortElements_eq_map, areValues_iff]
    intro w hw
    obtain ⟨w', hw', rfl⟩ := List.mem_map.mp hw
    exact ih w' hw' (h w' hw')
  | hdict items ih =>
    rw [IsValue, areItems_iff] at h
    rw [sortValue, IsValue, areItems_iff]
    have hperm := List.perm_insertionSort (fun a b : String × PyValue => a.1 ≤ b.1)
      (sortMembers items)
    refine ⟨?_, ?_⟩
    · rw [(hperm.map Prod.fst).nodup_iff, sortMembers_eq_map, List.map_map]
      exact h.1
    · intro item hitem
      rw [hperm.mem_iff, sortMembers_eq_map] at hitem
      obtain ⟨item', hitem', rfl⟩ := List.mem_map.mp hitem
      exact ih item' hitem' (h.2 item' hitem')
  | hother v hlist hdict =>
    cases v with
    | list vs => exact absurd rfl (hlist vs)
    | dict items => exact absurd rfl (hdict items)
    | _ => exact h

/-- **Sorting before writing** is sorting while writing. -/
theorem dumps_sortValue (v : PyValue) {text : String} (h : dumps true v = .ok text) :
    dumps false (sortValue v) = .ok text := by
  induction v using value_induction generalizing text with
  | hlist vs ih =>
    obtain ⟨hall, rfl⟩ := (dumps_list_eq_ok_iff true vs text).mp h
    have heach : ∀ v ∈ vs, dumps false (sortValue v) = .ok (textOf true v) := fun v hv =>
      ih v hv (dumps_eq_textOf (hall v hv))
    rw [sortValue, sortElements_eq_map, dumps_list_eq_ok_iff]
    refine ⟨?_, ?_⟩
    · intro w hw
      obtain ⟨v, hv, rfl⟩ := List.mem_map.mp hw
      exact ⟨_, heach v hv⟩
    · rw [List.map_map]
      refine congrArg (fun texts => "[" ++ ", ".intercalate texts ++ "]") ?_
      refine List.map_congr_left fun v hv => ?_
      rw [Function.comp, textOf, textOf, heach v hv]
      rfl
  | hdict items ih =>
    obtain ⟨hall, rfl⟩ := (dumps_dict_eq_ok_iff true items text).mp h
    have heach : ∀ item ∈ items, dumps false (sortValue item.2) = .ok (textOf true item.2) :=
      fun item hitem => ih item hitem (dumps_eq_textOf (hall item hitem))
    rw [sortValue, dumps_dict_eq_ok_iff]
    refine ⟨?_, ?_⟩
    · intro item hitem
      rw [List.mem_insertionSort, sortMembers_eq_map] at hitem
      obtain ⟨item', hitem', rfl⟩ := List.mem_map.mp hitem
      exact ⟨_, heach item' hitem'⟩
    · rw [if_pos rfl, if_neg Bool.false_ne_true]
      refine congrArg (fun members => "\x7b" ++ ", ".intercalate
        (List.map memberText members) ++ "\x7d") ?_
      rw [List.map_insertionSort (fun a b : String × PyValue => a.1 ≤ b.1)
        (fun a b : String × String => a.1 ≤ b.1)
        (fun item : String × PyValue => (item.1, textOf false item.2)) _
        (fun _ _ _ _ => Iff.rfl)]
      refine congrArg _ ?_
      rw [sortMembers_eq_map, List.map_map]
      refine List.map_congr_left fun item hitem => ?_
      rw [Function.comp, textOf, textOf, heach item hitem]
      rfl
  | hother v hlist hdict =>
    cases v with
    | list vs => exact absurd rfl (hlist vs)
    | dict items => exact absurd rfl (hdict items)
    | _ => exact h

theorem sortValue_eq_self (v : PyValue) (h : InTextOrder v) : sortValue v = v := by
  induction v using value_induction with
  | hlist vs ih =>
    rw [InTextOrder, allInTextOrder_iff] at h
    rw [sortValue, sortElements_eq_map]
    refine congrArg PyValue.list ((List.map_congr_left ?_).trans (List.map_id vs))
    exact fun v hv => ih v hv (h v hv)
  | hdict items ih =>
    rw [InTextOrder, itemsInTextOrder_iff] at h
    have hsame : sortMembers items = items := by
      rw [sortMembers_eq_map]
      refine (List.map_congr_left ?_).trans (List.map_id items)
      exact fun item hitem => Prod.ext rfl (ih item hitem (h.2 item hitem))
    rw [sortValue, hsame]
    exact congrArg PyValue.dict ((List.pairwise_map.mp h.1).insertionSort_eq)
  | hother v hlist hdict =>
    cases v with
    | list vs => exact absurd rfl (hlist vs)
    | dict items => exact absurd rfl (hdict items)
    | _ => rfl

theorem dumps_true_of_false (v : PyValue) (h : Dumps false v) : Dumps true v := by
  induction v using value_induction with
  | hlist vs ih =>
    obtain ⟨text, htext⟩ := h
    have hall := ((dumps_list_eq_ok_iff false vs text).mp htext).1
    exact ⟨_, (dumps_list_eq_ok_iff true vs _).mpr ⟨fun v hv => ih v hv (hall v hv), rfl⟩⟩
  | hdict items ih =>
    obtain ⟨text, htext⟩ := h
    have hall := ((dumps_dict_eq_ok_iff false items text).mp htext).1
    exact ⟨_, (dumps_dict_eq_ok_iff true items _).mpr
      ⟨fun item hitem => ih item hitem (hall item hitem), rfl⟩⟩
  | hother v hlist hdict =>
    cases v with
    | list vs => exact absurd rfl (hlist vs)
    | dict items => exact absurd rfl (hdict items)
    | _ => exact h

/-- **When a text is written again.**  A value that was read from a text is written, with sorted
keys, as the same text precisely when it is in order. -/
theorem dumps_true_eq_iff {v : PyValue} (hv : IsValue v) {text : String}
    (h : dumps false v = .ok text) : dumps true v = .ok text ↔ InTextOrder v := by
  constructor
  · intro htrue
    -- both texts read as what they were written for
    have hsorted := loads_dumps (isValue_sortValue v hv) (dumps_sortValue v htrue)
    rw [loads_dumps hv h, Option.some.injEq] at hsorted
    rw [hsorted]
    exact inTextOrder_sortValue v
  · intro horder
    obtain ⟨text', htext'⟩ := dumps_true_of_false v ⟨text, h⟩
    have hsorted := dumps_sortValue v htext'
    rw [sortValue_eq_self v horder, h, Except.ok.injEq] at hsorted
    rw [htext', hsorted]

/-! ## What is read back -/

/-- A property of all values, from the elements and items of a value to the value. -/
theorem input_induction {P : PyInput → Prop} (hlist : ∀ vs, (∀ v ∈ vs, P v) → P (.list vs))
    (hdict : ∀ items : List (PyKey × PyInput), (∀ item ∈ items, P item.2) → P (.dict items))
    (hother : ∀ v, (∀ vs, v ≠ .list vs) → (∀ items, v ≠ .dict items) → P v) (v : PyInput) :
    P v := by
  refine @PyInput.rec P (fun vs => ∀ v ∈ vs, P v)
    (fun items => ∀ item ∈ items, P item.2) (fun item => P item.2)
    ?_ ?_ ?_ ?_ ?_ (fun vs ih => hlist vs ih) (fun items ih => hdict items ih) ?_
    (List.forall_mem_nil _) (fun v vs hv hvs => List.forall_mem_cons.mpr ⟨hv, hvs⟩)
    (List.forall_mem_nil _) (fun item items hitem hitems => List.forall_mem_cons.mpr ⟨hitem, hitems⟩)
    (fun key v hv => hv) v
  all_goals
    intros
    exact hother _ (fun _ h => PyInput.noConfusion h) (fun _ h => PyInput.noConfusion h)

theorem orderedElements_eq_ok_iff (vs : List PyInput) (ws : List PyValue) :
    orderedElements vs = .ok ws ↔ List.Forall₂ (fun v w => ordered v = .ok w) vs ws := by
  induction vs generalizing ws with
  | nil =>
    rw [orderedElements, Except.ok.injEq, List.forall₂_nil_left_iff, eq_comm]
  | cons v vs ih =>
    rw [orderedElements, List.forall₂_cons_left_iff, map₂_eq_ok_iff]
    simp only [ih]

theorem orderedItems_eq_ok_iff (items : List (PyKey × PyInput)) (out : List (PyKey × PyValue)) :
    orderedItems items = .ok out ↔
      List.Forall₂ (fun item o => o.1 = item.1 ∧ ordered item.2 = .ok o.2) items out := by
  induction items generalizing out with
  | nil =>
    rw [orderedItems, Except.ok.injEq, List.forall₂_nil_left_iff, eq_comm]
  | cons item items ih =>
    obtain ⟨key, v⟩ := item
    rw [orderedItems, List.forall₂_cons_left_iff, map₂_eq_ok_iff]
    simp only [ih, Prod.exists, and_assoc, exists_eq_left, exists_and_left]

theorem ordered_dict_eq_ok_iff (items : List (PyKey × PyInput)) (w : PyValue) :
    ordered (.dict items) = .ok w ↔ ∃ out, orderedItems items = .ok out ∧
      comparable (out.map Prod.fst) = true ∧ w = .dict (textItems (sortItems out)) := by
  rw [ordered]
  constructor
  · intro h
    obtain ⟨out, hout, h⟩ := bind_eq_ok_iff.mp h
    split_ifs at h with hkeys
    cases h
    exact ⟨out, hout, hkeys, rfl⟩
  · rintro ⟨out, hout, hkeys, rfl⟩
    rw [hout]
    exact if_pos hkeys

theorem ordered_list_eq_ok_iff (vs : List PyInput) (w : PyValue) :
    ordered (.list vs) = .ok w ↔ ∃ ws, orderedElements vs = .ok ws ∧ w = .list ws := by
  rw [ordered, map_eq_ok_iff]

theorem nodup_map_text {keys : List PyKey} (hkeys : comparable keys = true) (hnodup : keys.Nodup) :
    (keys.map PyKey.text).Nodup := by
  rw [comparable, Bool.or_eq_true, Bool.or_eq_true, decide_eq_true_iff, List.all_eq_true,
    List.all_eq_true] at hkeys
  rw [List.nodup_map_iff_inj_on hnodup]
  intro k hk k' hk' htext
  rcases hkeys with (hfew | htexts) | hints
  · match keys, hfew with
    | [key], _ => rw [List.mem_singleton.mp hk, List.mem_singleton.mp hk']
  · have hs := htexts k hk
    have hs' := htexts k' hk'
    cases k with
    | int z => cases hs
    | str s =>
      cases k' with
      | int z => cases hs'
      | str s' => exact congrArg PyKey.str htext
  · have hz := hints k hk
    have hz' := hints k' hk'
    cases k with
    | str s => cases hz
    | int z =>
      cases k' with
      | str s' => cases hz'
      | int z' => exact congrArg PyKey.int (DelimitedText.intText_injective htext)

theorem keys_of_orderedItems {items : List (PyKey × PyInput)}
    (h : orderedItems items = .ok out) : out.map Prod.fst = items.map Prod.fst := by
  have hforall := (orderedItems_eq_ok_iff items out).mp h
  clear h
  induction hforall with
  | nil => rfl
  | cons hitem _ ih => rw [List.map_cons, List.map_cons, ih, hitem.1]

theorem forall_orderedItems {items : List (PyKey × PyInput)} (h : orderedItems items = .ok out)
    (hP : ∀ item ∈ items, ∀ w, ordered item.2 = .ok w → P w) : ∀ o ∈ out, P o.2 := by
  have hforall := (orderedItems_eq_ok_iff items out).mp h
  clear h
  induction hforall with
  | nil => exact List.forall_mem_nil _
  | cons hitem _ ih =>
    obtain ⟨hfirst, hrest⟩ := List.forall_mem_cons.mp hP
    exact List.forall_mem_cons.mpr ⟨hfirst _ hitem.2, ih hrest⟩

theorem forall_orderedElements {vs : List PyInput} {ws : List PyValue}
    (h : orderedElements vs = .ok ws)
    (hP : ∀ v ∈ vs, ∀ w, ordered v = .ok w → P w) : ∀ w ∈ ws, P w := by
  have hforall := (orderedElements_eq_ok_iff vs ws).mp h
  clear h
  induction hforall with
  | nil => exact List.forall_mem_nil _
  | cons hv _ ih =>
    obtain ⟨hfirst, hrest⟩ := List.forall_mem_cons.mp hP
    exact List.forall_mem_cons.mpr ⟨hfirst _ hv, ih hrest⟩

theorem mem_textItems {item : String × PyValue}
    (h : item ∈ textItems (sortItems out)) : ∃ o ∈ out, item = (o.1.text, o.2) := by
  obtain ⟨o, ho, rfl⟩ := List.mem_map.mp h
  exact ⟨o, (List.mem_insertionSort _).mp ho, rfl⟩

theorem isValue_ordered (v : PyInput) (hv : IsInput v) {w : PyValue} (h : ordered v = .ok w) :
    IsValue w := by
  induction v using input_induction generalizing w with
  | hlist vs ih =>
    obtain ⟨ws, hws, rfl⟩ := (ordered_list_eq_ok_iff vs w).mp h
    have hall : ∀ v ∈ vs, IsInput v := by
      clear h hws ih
      induction vs with
      | nil => exact List.forall_mem_nil _
      | cons v vs ih => exact List.forall_mem_cons.mpr ⟨hv.1, ih hv.2⟩
    rw [IsValue, areValues_iff]
    exact forall_orderedElements hws fun v hmem w hw => ih v hmem (hall v hmem) hw
  | hdict items ih =>
    obtain ⟨out, hout, hkeys, rfl⟩ := (ordered_dict_eq_ok_iff items w).mp h
    have hall : ∀ item ∈ items, IsInput item.2 := by
      have hitems := hv.2
      clear h hout ih hv
      induction items with
      | nil => exact List.forall_mem_nil _
      | cons item items ih => exact List.forall_mem_cons.mpr ⟨hitems.1, ih hitems.2⟩
    rw [IsValue, areItems_iff]
    refine ⟨?_, ?_⟩
    · have hperm : ((textItems (sortItems out)).map Prod.fst).Perm
          ((out.map Prod.fst).map PyKey.text) := by
        rw [textItems, List.map_map, List.map_map]
        exact (List.perm_insertionSort _ out).map _
      rw [hperm.nodup_iff]
      refine nodup_map_text hkeys ?_
      rw [keys_of_orderedItems hout]
      exact hv.1
    · intro item hitem
      obtain ⟨o, ho, rfl⟩ := mem_textItems hitem
      exact forall_orderedItems hout (fun i hi w hw => ih i hi (hall i hi) hw) o ho
  | hother v hlist hdict =>
    cases v with
    | list vs => exact absurd rfl (hlist vs)
    | dict items => exact absurd rfl (hdict items)
    | float x =>
      cases h
      exact hv
    | other typeName => cases h
    | _ =>
      cases h
      trivial

/-- **What is written and read back.**  The text of a value reads as the value with its dictionaries
in the order of their keys, which are texts. -/
theorem loads_dumpsSorted {v : PyInput} (hv : IsInput v) {text : String}
    (h : dumpsSorted v = .ok text) :
    ∃ w, ordered v = .ok w ∧ IsValue w ∧ dumps false w = .ok text ∧ loads text = some w := by
  obtain ⟨w, hw, h⟩ := bind_eq_ok_iff.mp h
  have hvalue := isValue_ordered v hv hw
  cases htext : dumps false w with
  | error e =>
    rw [htext] at h
    cases h
  | ok text' =>
    rw [htext] at h
    cases h
    exact ⟨w, hw, hvalue, htext, loads_dumps hvalue htext⟩

/-- A dictionary under texts is in order when its values are. -/
theorem inTextOrder_of_textKeys {items : List (PyKey × PyInput)} {w : PyValue}
    (htexts : ∀ item ∈ items, item.1.isText = true)
    (hvalues : ∀ item ∈ items, ∀ w, ordered item.2 = .ok w → InTextOrder w)
    (h : ordered (.dict items) = .ok w) : InTextOrder w := by
  obtain ⟨out, hout, -, rfl⟩ := (ordered_dict_eq_ok_iff items w).mp h
  rw [InTextOrder, itemsInTextOrder_iff]
  refine ⟨?_, ?_⟩
  · have htext : ∀ o ∈ out, o.1.isText = true := by
      intro o ho
      have hkey : o.1 ∈ items.map Prod.fst := keys_of_orderedItems hout ▸ List.mem_map_of_mem ho
      obtain ⟨item, hitem, heq⟩ := List.mem_map.mp hkey
      exact heq ▸ htexts item hitem
    have hle : ∀ a ∈ out, ∀ b ∈ out, a.1.le b.1 = true ↔ a.1.text ≤ b.1.text := by
      intro a ha b hb
      have hta := htext a ha
      have htb := htext b hb
      cases hka : a.1 with
      | int z =>
        rw [hka] at hta
        cases hta
      | str s =>
        cases hkb : b.1 with
        | int z =>
          rw [hkb] at htb
          cases htb
        | str t => exact decide_eq_true_iff
    rw [textItems, List.map_map, sortItems]
    show (List.map (fun o : PyKey × PyValue => o.1.text) _).Pairwise (· ≤ ·)
    rw [List.map_insertionSort _ (fun s t : String => s ≤ t) _ _ hle]
    exact List.pairwise_insertionSort _ _
  · intro item hitem
    obtain ⟨o, ho, rfl⟩ := mem_textItems hitem
    exact forall_orderedItems hout hvalues o ho

end JsonText

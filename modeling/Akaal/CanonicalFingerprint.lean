/-
# What canonical texts tell apart

When two JSON-safe values have the same canonical text: when they are the same up to the order of
mappings, the normalisation of texts and the equality of integral floats with integers, as long as the
keys of every mapping stay distinct under normalisation.  Keys that become equal are merged, and pairs
are dropped.

* `pairs_normalizeNfc_eq_iff` : normalisation drops no pair precisely when keys stay distinct;
* `canon_eq_of_same`, `same_of_canon_eq` : then the normal forms of two values agree precisely when the
  values are the same;
* `faithful_iff` : the canonical texts of two values are faithful precisely when the keys of both stay
  distinct.

The normalisation of texts is any function.
-/
import Akaal.CanonicalSerialization

open JsonText

namespace CanonicalProfile

variable (nfc : String → String)

/-! ## The same value -/

/-- The number that a value is. -/
def numberValue : PyValue → Option ℚ
  | .int z => some z
  | .float (.finite q) => some q
  | .float .negativeZero => some 0
  | _ => none

mutual

/-- Two values are the same up to the order of mappings, the normalisation of texts and the equality of
integral floats with integers. -/
inductive Same : PyValue → PyValue → Prop
  | none : Same .none .none
  | bool (b : Bool) : Same (.bool b) (.bool b)
  | number {v w : PyValue} {r : ℚ} (hv : numberValue v = some r) (hw : numberValue w = some r) :
      Same v w
  | str {s t : String} (h : nfc s = nfc t) : Same (.str s) (.str t)
  | list {vs ws : List PyValue} (h : SameElements vs ws) : Same (.list vs) (.list ws)
  | dict {items others : List (String × PyValue)} (h : SameItems items others) :
      Same (.dict items) (.dict others)

/-- The elements of two lists are the same, one by one. -/
inductive SameElements : List PyValue → List PyValue → Prop
  | nil : SameElements [] []
  | cons {v w : PyValue} {vs ws : List PyValue} (h : Same v w) (hs : SameElements vs ws) :
      SameElements (v :: vs) (w :: ws)

/-- The pairs of two mappings are the same, each with one of the other mapping. -/
inductive SameItems : List (String × PyValue) → List (String × PyValue) → Prop
  | nil : SameItems [] []
  | cons {item other : String × PyValue} {items before after : List (String × PyValue)}
      (hkey : nfc item.1 = nfc other.1) (h : Same item.2 other.2)
      (hs : SameItems items (before ++ after)) :
      SameItems (item :: items) (before ++ other :: after)

end

/-! ## Pairs that are dropped -/

mutual

/-- The pairs of the mappings of a value, at every depth. -/
def pairs : PyValue → ℕ
  | .list elements => pairsElements elements
  | .dict items => pairsItems items
  | _ => 0

/-- The pairs of the elements of a list. -/
def pairsElements : List PyValue → ℕ
  | [] => 0
  | v :: vs => pairs v + pairsElements vs

/-- The items of a mapping and the pairs of their values. -/
def pairsItems : List (String × PyValue) → ℕ
  | [] => 0
  | (_, v) :: items => 1 + pairs v + pairsItems items

end

mutual

/-- The keys of every mapping of a value are distinct when they are normalised. -/
def KeysDistinct : PyValue → Prop
  | .list elements => AllKeysDistinct elements
  | .dict items => (items.map fun item => nfc item.1).Nodup ∧ ItemsKeysDistinct items
  | _ => True

/-- So they are in the elements of a list. -/
def AllKeysDistinct : List PyValue → Prop
  | [] => True
  | v :: vs => KeysDistinct v ∧ AllKeysDistinct vs

/-- And in the values of a mapping. -/
def ItemsKeysDistinct : List (String × PyValue) → Prop
  | [] => True
  | (_, v) :: items => KeysDistinct v ∧ ItemsKeysDistinct items

end

variable {nfc}

theorem allKeysDistinct_iff (vs : List PyValue) :
    AllKeysDistinct nfc vs ↔ ∀ v ∈ vs, KeysDistinct nfc v := by
  induction vs with
  | nil => simp [AllKeysDistinct]
  | cons v vs ih => rw [AllKeysDistinct, ih, List.forall_mem_cons]

theorem itemsKeysDistinct_iff (items : List (String × PyValue)) :
    ItemsKeysDistinct nfc items ↔ ∀ item ∈ items, KeysDistinct nfc item.2 := by
  induction items with
  | nil => simp [ItemsKeysDistinct]
  | cons item items ih => rw [ItemsKeysDistinct, ih, List.forall_mem_cons]

theorem normalizeElements_eq_map (vs : List PyValue) :
    normalizeElements nfc vs = vs.map (normalizeNfc nfc) := by
  induction vs with
  | nil => rfl
  | cons v vs ih => rw [normalizeElements, ih, List.map_cons]

theorem normalizeItems_eq_map (items : List (String × PyValue)) :
    normalizeItems nfc items = items.map fun item => (nfc item.1, normalizeNfc nfc item.2) := by
  induction items with
  | nil => rfl
  | cons item items ih => rw [normalizeItems, ih, List.map_cons]

/-- An assignment adds at most a pair and those of its value, and fewer when the key is there. -/
theorem pairsItems_setItem_le (key : String) (v : PyValue) (items : List (String × PyValue)) :
    pairsItems (PyDict.setItem key v items) ≤ pairsItems items + (1 + pairs v) ∧
      (key ∈ items.map Prod.fst →
        pairsItems (PyDict.setItem key v items) < pairsItems items + (1 + pairs v)) := by
  induction items with
  | nil =>
    refine ⟨?_, fun h => absurd h List.not_mem_nil⟩
    simp only [PyDict.setItem, pairsItems]
    omega
  | cons item items ih =>
    rw [PyDict.setItem]
    split_ifs with hkey
    · rw [pairsItems, pairsItems]
      exact ⟨by omega, fun _ => by omega⟩
    · rw [pairsItems, pairsItems]
      refine ⟨by omega, fun hmem => ?_⟩
      rw [List.map_cons, List.mem_cons] at hmem
      have hlt := ih.2 (hmem.resolve_left fun h => hkey h.symm)
      omega

/-- Assignments in a row add at most the pairs they bring; when they add all of them, their keys are
new and distinct. -/
theorem pairsItems_foldl_setItem (added : List (String × PyValue))
    {items : List (String × PyValue)} (hnodup : (items.map Prod.fst).Nodup) :
    pairsItems (added.foldl (fun items m => PyDict.setItem m.1 m.2 items) items) ≤
        pairsItems items + pairsItems added ∧
      (pairsItems (added.foldl (fun items m => PyDict.setItem m.1 m.2 items) items) =
        pairsItems items + pairsItems added → (items.map Prod.fst ++ added.map Prod.fst).Nodup) := by
  induction added generalizing items with
  | nil =>
    refine ⟨le_rfl, fun _ => ?_⟩
    rw [List.map_nil, List.append_nil]
    exact hnodup
  | cons member added ih =>
    obtain ⟨hle, hlt⟩ := pairsItems_setItem_le member.1 member.2 items
    have hset : ((PyDict.setItem member.1 member.2 items).map Prod.fst).Nodup :=
      PyDict.nodup_setItem hnodup
    obtain ⟨hrest, heq⟩ := ih hset
    rw [List.foldl_cons, pairsItems]
    refine ⟨by omega, fun h => ?_⟩
    have hnew : member.1 ∉ items.map Prod.fst := fun hmem => by
      have := hlt hmem
      omega
    have hkeys := heq (by omega)
    rw [PyDict.setItem_of_not_mem hnew, List.map_append, List.append_assoc] at hkeys
    exact hkeys

theorem pairs_dictOf (members : List (String × PyValue)) :
    pairs (dictOf members) ≤ pairsItems members ∧
      (pairs (dictOf members) = pairsItems members → (members.map Prod.fst).Nodup) := by
  have hnil : (([] : List (String × PyValue)).map Prod.fst).Nodup := List.nodup_nil
  have h := pairsItems_foldl_setItem members hnil
  rw [pairsItems, Nat.zero_add, List.map_nil, List.nil_append] at h
  exact h

variable (nfc) in
theorem pairs_normalizeNfc_le (v : PyValue) : pairs (normalizeNfc nfc v) ≤ pairs v := by
  induction v using value_induction with
  | hlist vs ih =>
    rw [normalizeNfc, pairs, pairs]
    induction vs with
    | nil => exact le_rfl
    | cons v vs ihvs =>
      obtain ⟨hv, hvs⟩ := List.forall_mem_cons.mp ih
      rw [normalizeElements, pairsElements, pairsElements]
      exact Nat.add_le_add hv (ihvs hvs)
  | hdict items ih =>
    rw [normalizeNfc, pairs]
    refine le_trans (pairs_dictOf (normalizeItems nfc items)).1 ?_
    induction items with
    | nil => exact le_rfl
    | cons item items ihitems =>
      obtain ⟨hitem, hitems⟩ := List.forall_mem_cons.mp ih
      have hrest := ihitems hitems
      rw [normalizeItems, pairsItems, pairsItems]
      omega
  | hother v hlist hdict =>
    cases v with
    | list vs => exact absurd rfl (hlist vs)
    | dict items => exact absurd rfl (hdict items)
    | _ => exact le_rfl

/-- **No pair is dropped** precisely when keys stay distinct. -/
theorem pairs_normalizeNfc_eq_iff (v : PyValue) :
    pairs (normalizeNfc nfc v) = pairs v ↔ KeysDistinct nfc v := by
  induction v using value_induction with
  | hlist vs ih =>
    rw [normalizeNfc, pairs, pairs, KeysDistinct]
    induction vs with
    | nil => exact iff_of_true rfl trivial
    | cons v vs ihvs =>
      obtain ⟨hv, hvs⟩ := List.forall_mem_cons.mp ih
      have hle := pairs_normalizeNfc_le nfc v
      have hles := pairs_normalizeNfc_le nfc (.list vs)
      rw [normalizeNfc, pairs, pairs] at hles
      rw [normalizeElements, pairsElements, pairsElements, AllKeysDistinct, ← hv, ← ihvs hvs]
      omega
  | hdict items ih =>
    have hitems : pairsItems (normalizeItems nfc items) ≤ pairsItems items ∧
        (pairsItems (normalizeItems nfc items) = pairsItems items ↔
          ItemsKeysDistinct nfc items) := by
      induction items with
      | nil => exact ⟨le_rfl, iff_of_true rfl trivial⟩
      | cons item items ihitems =>
        obtain ⟨hitem, hrest⟩ := List.forall_mem_cons.mp ih
        obtain ⟨hle, hiff⟩ := ihitems hrest
        have hvalue := pairs_normalizeNfc_le nfc item.2
        rw [normalizeItems, pairsItems, pairsItems, ItemsKeysDistinct, ← hitem, ← hiff]
        exact ⟨by omega, by omega⟩
    obtain ⟨hle, hiff⟩ := hitems
    obtain ⟨hdict, hnodup⟩ := pairs_dictOf (normalizeItems nfc items)
    have hkeys : (normalizeItems nfc items).map Prod.fst = items.map fun item => nfc item.1 := by
      rw [normalizeItems_eq_map, List.map_map]
      rfl
    rw [hkeys] at hnodup
    rw [normalizeNfc, pairs, KeysDistinct, ← hiff]
    constructor
    · intro h
      exact ⟨hnodup (by omega), by omega⟩
    · rintro ⟨hdistinct, hsame⟩
      rw [dictOf_of_nodup (by rw [hkeys]; exact hdistinct), pairs, hsame]
  | hother v hlist hdict =>
    cases v with
    | list vs => exact absurd rfl (hlist vs)
    | dict items => exact absurd rfl (hdict items)
    | _ => exact iff_of_true rfl trivial

/-! ## Normal forms -/

variable (nfc) in
/-- The form of a value with normalised texts. -/
def canon (v : PyValue) : PyValue := form (normalizeNfc nfc v)

/-- The form of a number. -/
def numberForm (r : ℚ) : PyValue := if r.den = 1 then .int r.num else .float (.finite r)

theorem numberForm_injective : Function.Injective numberForm := by
  intro r q h
  rw [numberForm, numberForm] at h
  split_ifs at h with hr hq hq
  · exact Rat.ext (PyValue.int.inj h) (by rw [hr, hq])
  · exact PyFloat.finite.inj (PyValue.float.inj h)

variable {v w : PyValue}

theorem canon_of_number {r : ℚ} (h : numberValue v = some r) : canon nfc v = numberForm r := by
  cases v with
  | int z =>
    rw [← Option.some.inj h]
    exact (if_pos (Rat.den_intCast z)).symm
  | float x =>
    cases x with
    | finite q =>
      obtain rfl := Option.some.inj h
      show form (.float (.finite q)) = _
      rw [form, integralFloat, numberForm]
      split_ifs <;> rfl
    | negativeZero =>
      rw [← Option.some.inj h]
      rfl
    | infinite negative => cases h
    | nan => cases h
  | _ => cases h

theorem canon_list (vs : List PyValue) : canon nfc (.list vs) = .list (vs.map (canon nfc)) := by
  rw [canon, normalizeNfc, form, formElements_eq_map, normalizeElements_eq_map, List.map_map]
  rfl

/-- The normal form of a mapping whose keys stay distinct. -/
theorem canon_dict {items : List (String × PyValue)}
    (h : (items.map fun item => nfc item.1).Nodup) :
    canon nfc (.dict items) =
      .dict ((items.map fun item => (nfc item.1, canon nfc item.2)).insertionSort keyLe) := by
  have hkeys : ((normalizeItems nfc items).map Prod.fst).Nodup := by
    rw [normalizeItems_eq_map, List.map_map]
    exact h
  rw [canon, normalizeNfc, dictOf_of_nodup hkeys, form, formItems_eq_map, normalizeItems_eq_map,
    List.map_map]
  rfl

/-! ## Normal forms and sameness -/

theorem insertionSort_eq_iff {items others : List (String × PyValue)}
    (h : (items.map Prod.fst).Nodup) :
    items.insertionSort keyLe = others.insertionSort keyLe ↔ items.Perm others := by
  constructor
  · intro hsame
    exact (List.perm_insertionSort keyLe items).symm.trans
      (hsame ▸ List.perm_insertionSort keyLe others)
  · intro hperm
    have hsorted := ((List.perm_insertionSort keyLe items).trans hperm).trans
      (List.perm_insertionSort keyLe others).symm
    refine List.Perm.eq_of_pairwise (fun a b ha hb hab hba => ?_)
      (List.pairwise_insertionSort keyLe items) (List.pairwise_insertionSort keyLe others) hsorted
    have hkey : a.1 = b.1 := jcsKeySort_injective (le_antisymm hab hba)
    have ha' : a ∈ items := (List.perm_insertionSort keyLe items).mem_iff.mp ha
    have hb' : b ∈ items :=
      hperm.mem_iff.mpr ((List.perm_insertionSort keyLe others).mem_iff.mp hb)
    exact List.inj_on_of_nodup_map h ha' hb' hkey

/-- The same pairs, up to their order, from pairs that are matched. -/
theorem perm_of_sameItems {f : String × PyValue → String × PyValue}
    {items others : List (String × PyValue)}
    (hf : ∀ item ∈ items, ∀ other ∈ others, nfc item.1 = nfc other.1 → Same nfc item.2 other.2 →
      f item = f other)
    (h : SameItems nfc items others) : (items.map f).Perm (others.map f) := by
  induction items generalizing others with
  | nil =>
    cases h with
    | nil => exact List.Perm.nil
  | cons item items ih =>
    cases h with
    | @cons _ other _ before after hkey hsame hs =>
      have hother : other ∈ before ++ other :: after :=
        List.mem_append_right _ List.mem_cons_self
      rw [List.map_cons, List.map_append, List.map_cons,
        hf item List.mem_cons_self other hother hkey hsame]
      refine (List.Perm.cons _ (ih (fun i hi o ho => ?_) hs)).trans ?_
      · refine hf i (List.mem_cons_of_mem _ hi) o ?_
        rcases List.mem_append.mp ho with ho | ho
        · exact List.mem_append_left _ ho
        · exact List.mem_append_right _ (List.mem_cons_of_mem _ ho)
      · rw [List.map_append]
        exact List.perm_middle.symm

theorem length_eq_of_sameItems {items others : List (String × PyValue)}
    (h : SameItems nfc items others) : items.length = others.length := by
  have hperm := perm_of_sameItems (f := fun _ => ("", .none)) (fun _ _ _ _ _ _ => rfl) h
  rw [← List.length_map, hperm.length_eq, List.length_map]

/-- And pairs that are matched, from the same pairs up to their order. -/
theorem sameItems_of_perm {f : String × PyValue → String × PyValue}
    {items others : List (String × PyValue)}
    (hf : ∀ item ∈ items, ∀ other ∈ others, f item = f other →
      nfc item.1 = nfc other.1 ∧ Same nfc item.2 other.2)
    (h : (items.map f).Perm (others.map f)) : SameItems nfc items others := by
  induction items generalizing others with
  | nil =>
    obtain rfl : others = [] := List.map_eq_nil_iff.mp (List.nil_perm.mp h)
    exact SameItems.nil
  | cons item items ih =>
    have hmem : f item ∈ others.map f := h.mem_iff.mp List.mem_cons_self
    obtain ⟨other, hother, hsame⟩ := List.mem_map.mp hmem
    obtain ⟨before, after, rfl⟩ := List.append_of_mem hother
    obtain ⟨hkey, hvalue⟩ := hf item List.mem_cons_self other hother hsame.symm
    refine SameItems.cons hkey hvalue (ih (fun i hi o ho => ?_) ?_)
    · refine hf i (List.mem_cons_of_mem _ hi) o ?_
      rcases List.mem_append.mp ho with ho | ho
      · exact List.mem_append_left _ ho
      · exact List.mem_append_right _ (List.mem_cons_of_mem _ ho)
    · rw [List.map_cons, List.map_append, List.map_cons, hsame] at h
      rw [List.map_append]
      exact (h.trans List.perm_middle).cons_inv

/-- The kinds of values that sameness keeps apart. -/
inductive ValueKind where
  | null
  | truth
  | text
  | number
  | list
  | mapping
  | other

/-- The kind of a value. -/
def kindOf : PyValue → ValueKind
  | .none => .null
  | .bool _ => .truth
  | .str _ => .text
  | .int _ => .number
  | .float _ => .number
  | .list _ => .list
  | .dict _ => .mapping
  | _ => .other

variable (nfc) in
theorem kindOf_canon (v : PyValue) : kindOf (canon nfc v) = kindOf v := by
  cases v with
  | float x =>
    rw [canon, normalizeNfc, form]
    · cases integralFloat x <;> rfl
    all_goals intros; exact PyValue.noConfusion ‹_›
  | _ => rfl

theorem exists_numberValue (hv : JsonSafe v) (h : kindOf v = .number) :
    ∃ r, numberValue v = some r := by
  cases v with
  | int z => exact ⟨_, rfl⟩
  | float x =>
    cases x with
    | finite q => exact ⟨_, rfl⟩
    | negativeZero => exact ⟨_, rfl⟩
    | infinite negative => exact absurd hv id
    | nan => exact absurd hv id
  | _ => cases h

theorem sameElements_of_map_eq {vs ws : List PyValue}
    (ih : ∀ v ∈ vs, ∀ w ∈ ws, canon nfc v = canon nfc w → Same nfc v w)
    (h : vs.map (canon nfc) = ws.map (canon nfc)) : SameElements nfc vs ws := by
  induction vs generalizing ws with
  | nil =>
    rw [List.map_nil] at h
    obtain rfl := List.map_eq_nil_iff.mp h.symm
    exact SameElements.nil
  | cons v vs ihvs =>
    cases ws with
    | nil => cases h
    | cons w ws =>
      obtain ⟨hhead, htail⟩ := List.cons.inj h
      exact SameElements.cons (ih v List.mem_cons_self w List.mem_cons_self hhead)
        (ihvs (fun v hv w hw => ih v (List.mem_cons_of_mem _ hv) w (List.mem_cons_of_mem _ hw))
          htail)

theorem map_eq_of_sameElements {vs ws : List PyValue}
    (ih : ∀ v ∈ vs, ∀ w ∈ ws, Same nfc v w → canon nfc v = canon nfc w)
    (h : SameElements nfc vs ws) : vs.map (canon nfc) = ws.map (canon nfc) := by
  induction vs generalizing ws with
  | nil =>
    cases h with
    | nil => rfl
  | cons v vs ihvs =>
    cases h with
    | @cons _ w _ ws hsame hs =>
      rw [List.map_cons, List.map_cons, ih v List.mem_cons_self w List.mem_cons_self hsame,
        ihvs (fun v hv w hw => ih v (List.mem_cons_of_mem _ hv) w (List.mem_cons_of_mem _ hw)) hs]

/-- **The same values** have the same normal form. -/
theorem canon_eq_of_same (hv : KeysDistinct nfc v) (hw : KeysDistinct nfc w)
    (h : Same nfc v w) : canon nfc v = canon nfc w := by
  induction v using value_induction generalizing w with
  | hlist vs ih =>
    cases h with
    | number hv _ => cases hv
    | @list _ ws h =>
      rw [KeysDistinct, allKeysDistinct_iff] at hv hw
      rw [canon_list, canon_list]
      exact congrArg PyValue.list (map_eq_of_sameElements
        (fun v hmem w hmem' hsame => ih v hmem (hv v hmem) (hw w hmem') hsame) h)
  | hdict items ih =>
    cases h with
    | number hv _ => cases hv
    | @dict _ others h =>
      rw [KeysDistinct, itemsKeysDistinct_iff] at hv hw
      rw [canon_dict hv.1, canon_dict hw.1]
      refine congrArg PyValue.dict ((insertionSort_eq_iff ?_).mpr (perm_of_sameItems ?_ h))
      · rw [List.map_map]
        exact hv.1
      · intro item hitem other hother hkey hsame
        rw [hkey, ih item hitem (hv.2 item hitem) (hw.2 other hother) hsame]
  | hother v hlist hdict =>
    cases h with
    | none => rfl
    | bool b => rfl
    | number hv hw => rw [canon_of_number hv, canon_of_number hw]
    | str h => exact congrArg PyValue.str h
    | list h => exact absurd rfl (hlist _)
    | dict h => exact absurd rfl (hdict _)

/-- **Values with the same normal form** are the same. -/
theorem same_of_canon_eq (hv : JsonSafe v) (hw : JsonSafe w)
    (hdv : KeysDistinct nfc v) (hdw : KeysDistinct nfc w) (h : canon nfc v = canon nfc w) :
    Same nfc v w := by
  induction v using value_induction generalizing w with
  | hlist vs ih =>
    have hkind : kindOf w = .list := by
      rw [← kindOf_canon nfc w, ← h, kindOf_canon]
      rfl
    cases w with
    | list ws =>
      rw [canon_list, canon_list] at h
      rw [JsonSafe, allJsonSafe_iff] at hv hw
      rw [KeysDistinct, allKeysDistinct_iff] at hdv hdw
      exact Same.list (sameElements_of_map_eq (fun v hmem w hmem' hsame =>
        ih v hmem (hv v hmem) (hw w hmem') (hdv v hmem) (hdw w hmem') hsame)
        (PyValue.list.inj h))
    | _ => cases hkind
  | hdict items ih =>
    have hkind : kindOf w = .mapping := by
      rw [← kindOf_canon nfc w, ← h, kindOf_canon]
      rfl
    cases w with
    | dict others =>
      rw [JsonSafe, itemsJsonSafe_iff] at hv hw
      rw [KeysDistinct, itemsKeysDistinct_iff] at hdv hdw
      rw [canon_dict hdv.1, canon_dict hdw.1] at h
      refine Same.dict (sameItems_of_perm (fun item hitem other hother hsame => ?_)
        ((insertionSort_eq_iff ?_).mp (PyValue.dict.inj h)))
      · obtain ⟨hkey, hvalue⟩ := Prod.mk.inj hsame
        exact ⟨hkey, ih item hitem (hv.2 item hitem) (hw.2 other hother) (hdv.2 item hitem)
          (hdw.2 other hother) hvalue⟩
      · rw [List.map_map]
        exact hdv.1
    | _ => cases hkind
  | hother v hlist hdict =>
    have hkind : kindOf v = kindOf w := by
      rw [← kindOf_canon nfc v, h, kindOf_canon]
    have hnumber : kindOf v = .number → Same nfc v w := by
      intro hv'
      obtain ⟨r, hr⟩ := exists_numberValue hv hv'
      obtain ⟨q, hq⟩ := exists_numberValue hw (hkind.symm.trans hv')
      rw [canon_of_number hr, canon_of_number hq] at h
      rw [numberForm_injective h] at hr
      exact Same.number hr hq
    cases v with
    | list vs => exact absurd rfl (hlist vs)
    | dict items => exact absurd rfl (hdict items)
    | int z => exact hnumber rfl
    | float x => exact hnumber rfl
    | none =>
      cases w with
      | none => exact Same.none
      | _ => cases hkind
    | bool b =>
      cases w with
      | bool b' =>
        obtain rfl := PyValue.bool.inj h
        exact Same.bool b
      | _ => cases hkind
    | str s =>
      cases w with
      | str s' => exact Same.str (PyValue.str.inj h)
      | _ => cases hkind
    | _ => exact absurd hv id

/-! ## Canonical texts -/

theorem jsonSafe_normalizeNfc (hv : JsonSafe v) (hd : KeysDistinct nfc v) :
    JsonSafe (normalizeNfc nfc v) := by
  induction v using value_induction with
  | hlist vs ih =>
    rw [JsonSafe, allJsonSafe_iff] at hv
    rw [KeysDistinct, allKeysDistinct_iff] at hd
    rw [normalizeNfc, JsonSafe, allJsonSafe_iff, normalizeElements_eq_map]
    intro w hw
    obtain ⟨v, hmem, rfl⟩ := List.mem_map.mp hw
    exact ih v hmem (hv v hmem) (hd v hmem)
  | hdict items ih =>
    rw [JsonSafe, itemsJsonSafe_iff] at hv
    rw [KeysDistinct, itemsKeysDistinct_iff] at hd
    have hkeys : ((normalizeItems nfc items).map Prod.fst).Nodup := by
      rw [normalizeItems_eq_map, List.map_map]
      exact hd.1
    rw [normalizeNfc, dictOf_of_nodup hkeys, JsonSafe, itemsJsonSafe_iff]
    refine ⟨hkeys, fun item hitem => ?_⟩
    rw [normalizeItems_eq_map] at hitem
    obtain ⟨item', hmem, rfl⟩ := List.mem_map.mp hitem
    exact ih item' hmem (hv.2 item' hmem) (hd.2 item' hmem)
  | hother v hlist hdict =>
    cases v with
    | list vs => exact absurd rfl (hlist vs)
    | dict items => exact absurd rfl (hdict items)
    | str s => trivial
    | _ => exact hv

theorem jsonSafe_form (hv : JsonSafe v) : JsonSafe (form v) := by
  induction v using value_induction with
  | hlist vs ih =>
    rw [JsonSafe, allJsonSafe_iff] at hv
    rw [form, JsonSafe, allJsonSafe_iff, formElements_eq_map]
    intro w hw
    obtain ⟨v, hmem, rfl⟩ := List.mem_map.mp hw
    exact ih v hmem (hv v hmem)
  | hdict items ih =>
    rw [JsonSafe, itemsJsonSafe_iff] at hv
    rw [form, JsonSafe, itemsJsonSafe_iff]
    have hperm := List.perm_insertionSort keyLe (formItems items)
    refine ⟨?_, fun item hitem => ?_⟩
    · rw [(hperm.map Prod.fst).nodup_iff, formItems_eq_map, List.map_map]
      exact hv.1
    · rw [hperm.mem_iff, formItems_eq_map] at hitem
      obtain ⟨item', hmem, rfl⟩ := List.mem_map.mp hitem
      exact ih item' hmem (hv.2 item' hmem)
  | hother v hlist hdict =>
    cases v with
    | list vs => exact absurd rfl (hlist vs)
    | dict items => exact absurd rfl (hdict items)
    | float x =>
      rw [form]
      cases integralFloat x with
      | none => exact hv
      | some z => trivial
    | _ => exact hv

theorem canonicalSerialize_eq (hv : JsonSafe v) (hd : KeysDistinct nfc v) :
    canonicalSerialize nfc v = .ok (String.ofList (compact (canon nfc v))) := by
  rw [canonicalSerialize, assertJsonSafe_of_jsonSafe hv]
  exact canonicalJcs_eq (jsonSafe_normalizeNfc hv hd)

theorem canonicalSerialize_eq_iff (hv : JsonSafe v) (hw : JsonSafe w)
    (hdv : KeysDistinct nfc v) (hdw : KeysDistinct nfc w) :
    canonicalSerialize nfc v = canonicalSerialize nfc w ↔ canon nfc v = canon nfc w := by
  rw [canonicalSerialize_eq hv hdv, canonicalSerialize_eq hw hdw]
  constructor
  · intro h
    have htext : compact (canon nfc v) = compact (canon nfc w) := by
      have hlist := congrArg String.toList (Except.ok.inj h)
      rwa [String.toList_ofList, String.toList_ofList] at hlist
    have hends : EndsValue [] := by
      intro c hc
      cases hc
    exact (compact_inj (jsonSafe_form (jsonSafe_normalizeNfc hv hdv)).printable
      (jsonSafe_form (jsonSafe_normalizeNfc hw hdw)).printable hends hends
      (congrArg (· ++ []) htext)).1
  · intro h
    rw [h]

/-- A JSON-safe value. -/
structure SafeValue where
  value : PyValue
  safe : JsonSafe value

/-- The canonical texts of two values are faithful: they agree precisely when the values are the same,
and no pair of a mapping is dropped from them. -/
structure Faithful (nfc : String → String) (a b : SafeValue) : Prop where
  same_iff : canonicalSerialize nfc a.value = canonicalSerialize nfc b.value ↔
    Same nfc a.value b.value
  keepsLeft : pairs (normalizeNfc nfc a.value) = pairs a.value
  keepsRight : pairs (normalizeNfc nfc b.value) = pairs b.value

/-- **When canonical texts are faithful.**  The canonical texts of two JSON-safe values are faithful
precisely when the keys of their mappings stay distinct under normalisation. -/
theorem faithful_iff (nfc : String → String) (a b : SafeValue) :
    Faithful nfc a b ↔ KeysDistinct nfc a.value ∧ KeysDistinct nfc b.value := by
  constructor
  · intro h
    exact ⟨(pairs_normalizeNfc_eq_iff _).mp h.keepsLeft,
      (pairs_normalizeNfc_eq_iff _).mp h.keepsRight⟩
  · rintro ⟨ha, hb⟩
    refine ⟨(canonicalSerialize_eq_iff a.safe b.safe ha hb).trans ?_,
      (pairs_normalizeNfc_eq_iff _).mpr ha, (pairs_normalizeNfc_eq_iff _).mpr hb⟩
    exact ⟨same_of_canon_eq a.safe b.safe ha hb, canon_eq_of_same ha hb⟩

/-- Composition of the letter e with an acute accent, as the normalisation composes it. -/
def composeAcute (s : String) : String :=
  String.ofList (go s.toList)
where
  /-- The composition of a list of characters. -/
  go : List Char → List Char
    | 'e' :: '\u0301' :: cs => 'é' :: go cs
    | c :: cs => c :: go cs
    | [] => []

/-- A mapping with two spellings of one key, and the mapping with the second pair alone. -/
def twoSpellings : SafeValue where
  value := .dict [("e\u0301", .int 1), ("é", .int 2)]
  safe := by
    refine ⟨by decide, trivial, trivial, trivial⟩

/-- The mapping with one of the pairs. -/
def oneSpelling : SafeValue where
  value := .dict [("é", .int 2)]
  safe := by
    refine ⟨by decide, trivial, trivial⟩

/-- Two mappings with different numbers of pairs have one canonical text. -/
theorem spellings_are_merged : canonicalSerialize composeAcute twoSpellings.value =
        canonicalSerialize composeAcute oneSpelling.value ∧
      ¬ Same composeAcute twoSpellings.value oneSpelling.value ∧
      ¬ Faithful composeAcute twoSpellings oneSpelling := by
  refine ⟨rfl, ?_, ?_⟩
  · intro h
    cases h with
    | number hv _ => cases hv
    | dict h => exact absurd (length_eq_of_sameItems h) (by decide)
  · intro h
    exact absurd h.keepsLeft (by decide)

end CanonicalProfile

/-
# Canonical texts of JSON-safe values

`canonical_serialize` of `akaalPipeline/contracts/serialization.py`: a value is checked, its texts are
normalised, and it is printed with sorted keys and compact delimiters.

* `assertJsonSafe_of_jsonSafe` : the check passes on JSON-safe values;
* `canonicalJcs_eq` : a printed value is the compact text of its form, with integral floats as integers
  and the items of dictionaries in the order of their keys;
* `compact_inj` : different printable values have different compact texts, whatever ends them.

The normalisation of texts is a parameter.  Tuples, sets, keys that are no texts, surrogates that stand
alone and the limit on the digits of an integer are not treated.
-/
import Akaal.JsonPayload

open JsonText Traversal

namespace CanonicalProfile

/-! ## The check -/

/-- The exceptions of `canonical_serialize`. -/
inductive CanonicalError where
  /-- `ValueError`, with the `repr` of the float. -/
  | nonFiniteFloat (text path : String)
  /-- `TypeError` of the check. -/
  | notJsonSafe (typeName path : String)
  /-- `TypeError` of the printer. -/
  | notPrintable (typeName : String)
  deriving DecidableEq

/-- The name of the class of a value that is not JSON-safe. -/
def typeName : PyValue → String
  | .decimal _ => "Decimal"
  | .datetime _ => "datetime"
  | .date _ => "date"
  | .time _ => "time"
  | .bytes _ => "bytes"
  | .other name _ => name
  | _ => ""

mutual

/-- `assert_json_safe`. -/
def assertJsonSafe (path : String) : PyValue → Except CanonicalError Unit
  | .none => .ok ()
  | .bool _ => .ok ()
  | .int _ => .ok ()
  | .str _ => .ok ()
  | .float .nan => .error (.nonFiniteFloat "nan" path)
  | .float (.infinite negative) =>
    .error (.nonFiniteFloat (if negative then "-inf" else "inf") path)
  | .float _ => .ok ()
  | .list elements => assertElements path 0 elements
  | .dict items => assertItems path items
  | v => .error (.notJsonSafe (typeName v) path)

/-- The elements of a list, from an index on. -/
def assertElements (path : String) (idx : ℕ) : List PyValue → Except CanonicalError Unit
  | [] => .ok ()
  | v :: vs => do
      assertJsonSafe (path ++ "[" ++ idx.repr ++ "]") v
      assertElements path (idx + 1) vs

/-- The items of a mapping. -/
def assertItems (path : String) : List (String × PyValue) → Except CanonicalError Unit
  | [] => .ok ()
  | (key, v) :: items => do
      assertJsonSafe (path ++ "." ++ key) v
      assertItems path items

end

/-! ## Normalisation -/

section Normalisation

-- `unicodedata.normalize("NFC", text)`
variable (nfc : String → String)

mutual

/-- `normalize_nfc`; a dictionary is built again under the normalised keys. -/
def normalizeNfc : PyValue → PyValue
  | .str s => .str (nfc s)
  | .dict items => dictOf (normalizeItems items)
  | .list elements => .list (normalizeElements elements)
  | v => v

/-- The elements of a list. -/
def normalizeElements : List PyValue → List PyValue
  | [] => []
  | v :: vs => normalizeNfc v :: normalizeElements vs

/-- The items of a dictionary. -/
def normalizeItems : List (String × PyValue) → List (String × PyValue)
  | [] => []
  | (key, v) :: items => (nfc key, normalizeNfc v) :: normalizeItems items

end

end Normalisation

/-! ## The printer -/

/-- `_jcs_key_sort`: the bytes of a key in UTF-16, most significant first. -/
def jcsKeySort (key : String) : List ℕ :=
  (key.toList.flatMap unitsOf).flatMap fun unit => [unit / 256, unit % 256]

/-- A character of `json.dumps(text, ensure_ascii=False)`. -/
def rawChar (c : Char) : List Char :=
  let n := c.toNat
  if c = '"' then ['\\', '"']
  else if c = '\\' then ['\\', '\\']
  else if c = '\n' then ['\\', 'n']
  else if c = '\r' then ['\\', 'r']
  else if c = '\t' then ['\\', 't']
  else if n = 12 then ['\\', 'f']
  else if n = 8 then ['\\', 'b']
  else if n < 32 then unicodeEscape n
  else [c]

/-- `json.dumps(text, ensure_ascii=False)`. -/
def rawQuote (s : String) : String := String.ofList ('"' :: (s.toList.flatMap rawChar ++ ['"']))

/-- The integer that a float is, if any. -/
def integralFloat : PyFloat → Option ℤ
  | .finite q => if q.den = 1 then some q.num else none
  | .negativeZero => some 0
  | _ => none

mutual

/-- `_canonical_jcs`. -/
def canonicalJcs : PyValue → Except CanonicalError String
  | .none => .ok "null"
  | .bool b => .ok (if b then "true" else "false")
  | .int z => .ok (intText z)
  | .float x =>
    match integralFloat x with
    | some z => .ok (intText z)
    | none => .ok x.jsonText
  | .str s => .ok (rawQuote s)
  | .list elements => do
      let items ← canonicalElements elements
      return "[" ++ ",".intercalate items ++ "]"
  | .dict items => do
      let members ← canonicalMembers items
      let sorted := members.insertionSort fun a b => jcsKeySort a.1 ≤ jcsKeySort b.1
      return "\x7b" ++ ",".intercalate (sorted.map fun m => rawQuote m.1 ++ ":" ++ m.2) ++ "\x7d"
  | v => .error (.notPrintable (typeName v))

/-- The texts of the elements of a list. -/
def canonicalElements : List PyValue → Except CanonicalError (List String)
  | [] => .ok []
  | v :: vs => do
      let text ← canonicalJcs v
      let texts ← canonicalElements vs
      return text :: texts

/-- The keys of a dictionary with the texts of their values. -/
def canonicalMembers : List (String × PyValue) → Except CanonicalError (List (String × String))
  | [] => .ok []
  | (key, v) :: items => do
      let text ← canonicalJcs v
      let members ← canonicalMembers items
      return (key, text) :: members

end

/-- `canonical_serialize`. -/
def canonicalSerialize (nfc : String → String) (v : PyValue) : Except CanonicalError String := do
  assertJsonSafe "root" v
  canonicalJcs (normalizeNfc nfc v)

/-! ## JSON-safe values -/

mutual

/-- A value as JSON has them: `null`, a boolean, an integer, a finite float, a text, a list or a mapping
of such values under distinct keys. -/
def JsonSafe : PyValue → Prop
  | .none => True
  | .bool _ => True
  | .int _ => True
  | .str _ => True
  | .float (.finite q) => IsFloat (.finite q)
  | .float .negativeZero => True
  | .list elements => AllJsonSafe elements
  | .dict items => (items.map Prod.fst).Nodup ∧ ItemsJsonSafe items
  | _ => False

/-- The elements of a list are JSON-safe. -/
def AllJsonSafe : List PyValue → Prop
  | [] => True
  | v :: vs => JsonSafe v ∧ AllJsonSafe vs

/-- The values of a mapping are JSON-safe. -/
def ItemsJsonSafe : List (String × PyValue) → Prop
  | [] => True
  | (_, v) :: items => JsonSafe v ∧ ItemsJsonSafe items

end

theorem allJsonSafe_iff (vs : List PyValue) : AllJsonSafe vs ↔ ∀ v ∈ vs, JsonSafe v := by
  induction vs with
  | nil => simp [AllJsonSafe]
  | cons v vs ih => rw [AllJsonSafe, ih, List.forall_mem_cons]

theorem itemsJsonSafe_iff (items : List (String × PyValue)) :
    ItemsJsonSafe items ↔ ∀ item ∈ items, JsonSafe item.2 := by
  induction items with
  | nil => simp [ItemsJsonSafe]
  | cons item items ih => rw [ItemsJsonSafe, ih, List.forall_mem_cons]

theorem isFloat_of_jsonSafe {x : PyFloat} (h : JsonSafe (.float x)) : IsFloat x := by
  cases x with
  | finite q => exact h
  | negativeZero => trivial
  | infinite negative => exact absurd h id
  | nan => exact absurd h id

variable {s t : List Char} {v : PyValue}

/-- **The check passes** on JSON-safe values. -/
theorem assertJsonSafe_of_jsonSafe (h : JsonSafe v) (path : String) :
    assertJsonSafe path v = .ok () := by
  induction v using value_induction generalizing path with
  | hlist vs ih =>
    rw [JsonSafe, allJsonSafe_iff] at h
    rw [assertJsonSafe]
    have hall : ∀ ws : List PyValue, (∀ w ∈ ws, w ∈ vs) → ∀ idx,
        assertElements path idx ws = .ok () := by
      intro ws
      induction ws with
      | nil => exact fun _ _ => rfl
      | cons w ws ihws =>
        intro hmem idx
        obtain ⟨hw, hws⟩ := List.forall_mem_cons.mp hmem
        rw [assertElements, ih w hw (h w hw)]
        exact ihws hws (idx + 1)
    exact hall vs (fun _ hw => hw) 0
  | hdict items ih =>
    rw [JsonSafe, itemsJsonSafe_iff] at h
    rw [assertJsonSafe]
    have hall : ∀ ws : List (String × PyValue), (∀ w ∈ ws, w ∈ items) →
        assertItems path ws = .ok () := by
      intro ws
      induction ws with
      | nil => exact fun _ => rfl
      | cons w ws ihws =>
        intro hmem
        obtain ⟨hw, hws⟩ := List.forall_mem_cons.mp hmem
        rw [assertItems, ih w hw (h.2 w hw)]
        exact ihws hws
    exact hall items fun _ hw => hw
  | hother v hlist hdict =>
    cases v with
    | list vs => exact absurd rfl (hlist vs)
    | dict items => exact absurd rfl (hdict items)
    | float x =>
      cases x with
      | infinite negative => exact absurd h id
      | nan => exact absurd h id
      | _ => rfl
    | decimal d => exact absurd h id
    | datetime d => exact absurd h id
    | date d => exact absurd h id
    | time t => exact absurd h id
    | bytes b => exact absurd h id
    | other name text => exact absurd h id
    | _ => rfl

/-! ## Forms and their compact texts -/

/-- The order of the items of a printed dictionary. -/
def keyLe {α : Type*} (a b : String × α) : Prop := jcsKeySort a.1 ≤ jcsKeySort b.1

instance {α : Type*} : DecidableRel (keyLe (α := α)) := fun a b =>
  inferInstanceAs (Decidable (jcsKeySort a.1 ≤ jcsKeySort b.1))

instance {α : Type*} : Std.Total (keyLe (α := α)) := ⟨fun _ _ => le_total _ _⟩

instance {α : Type*} : IsTrans (String × α) keyLe := ⟨fun _ _ _ => le_trans⟩

mutual

/-- The form of a value: integral floats as integers, the items of dictionaries in the order of their
keys. -/
def form : PyValue → PyValue
  | .float x =>
    match integralFloat x with
    | some z => .int z
    | none => .float x
  | .list elements => .list (formElements elements)
  | .dict items => .dict ((formItems items).insertionSort keyLe)
  | v => v

/-- The forms of the elements of a list. -/
def formElements : List PyValue → List PyValue
  | [] => []
  | v :: vs => form v :: formElements vs

/-- The items of a dictionary with the forms of their values. -/
def formItems : List (String × PyValue) → List (String × PyValue)
  | [] => []
  | (key, v) :: items => (key, form v) :: formItems items

end

theorem formElements_eq_map (vs : List PyValue) : formElements vs = vs.map form := by
  induction vs with
  | nil => rfl
  | cons v vs ih => rw [formElements, ih, List.map_cons]

theorem formItems_eq_map (items : List (String × PyValue)) :
    formItems items = items.map fun item => (item.1, form item.2) := by
  induction items with
  | nil => rfl
  | cons item items ih => rw [formItems, ih, List.map_cons]

mutual

/-- The characters of a value that is printed in the order it has. -/
def compact : PyValue → List Char
  | .none => "null".toList
  | .bool b => (if b then "true" else "false").toList
  | .int z => (intText z).toList
  | .float x => x.jsonText.toList
  | .str s => (rawQuote s).toList
  | .list elements => '[' :: ((compactElements elements).tail ++ [']'])
  | .dict items => '\x7b' :: ((compactItems items).tail ++ ['\x7d'])
  | _ => []

/-- The characters of the elements of a list, each after a comma. -/
def compactElements : List PyValue → List Char
  | [] => []
  | v :: vs => ',' :: (compact v ++ compactElements vs)

/-- The characters of the items of a dictionary, each after a comma. -/
def compactItems : List (String × PyValue) → List Char
  | [] => []
  | (key, v) :: items => ',' :: ((rawQuote key).toList ++ ':' :: (compact v ++ compactItems items))

end

theorem compactElements_eq_flatMap (vs : List PyValue) :
    compactElements vs = vs.flatMap fun v => ',' :: compact v := by
  induction vs with
  | nil => rfl
  | cons v vs ih =>
    rw [compactElements, ih, List.flatMap_cons]
    rfl

theorem compactItems_eq_flatMap (items : List (String × PyValue)) : compactItems items =
      items.flatMap fun item => ',' :: ((rawQuote item.1).toList ++ ':' :: compact item.2) := by
  induction items with
  | nil => rfl
  | cons item items ih =>
    rw [compactItems, ih, List.flatMap_cons]
    simp

theorem toList_intercalate_comma (texts : List String) :
    (",".intercalate texts).toList = (texts.flatMap fun text => ',' :: text.toList).tail := by
  cases texts with
  | nil => rfl
  | cons text texts =>
    rw [List.flatMap_cons, List.cons_append, List.tail_cons]
    induction texts generalizing text with
    | nil => simp [String.intercalate_singleton]
    | cons other texts ih =>
      rw [String.intercalate_cons_cons, String.toList_append, String.toList_append, ih,
        List.flatMap_cons, List.append_assoc]
      rfl

theorem canonicalElements_of_forall {vs : List PyValue}
    (h : ∀ v ∈ vs, canonicalJcs v = .ok (String.ofList (compact (form v)))) :
    canonicalElements vs = .ok (vs.map fun v => String.ofList (compact (form v))) := by
  induction vs with
  | nil => rfl
  | cons v vs ih =>
    obtain ⟨hv, hvs⟩ := List.forall_mem_cons.mp h
    rw [canonicalElements, hv, ih hvs]
    rfl

/-- The members of a dictionary are the texts of its values. -/
theorem canonicalMembers_of_forall {items : List (String × PyValue)}
    (h : ∀ item ∈ items, canonicalJcs item.2 = .ok (String.ofList (compact (form item.2)))) :
    canonicalMembers items =
      .ok (items.map fun item => (item.1, String.ofList (compact (form item.2)))) := by
  induction items with
  | nil => rfl
  | cons item items ih =>
    obtain ⟨hv, hvs⟩ := List.forall_mem_cons.mp h
    rw [canonicalMembers, hv, ih hvs]
    rfl

/-- **The printed text** of a JSON-safe value is the compact text of its form. -/
theorem canonicalJcs_eq (h : JsonSafe v) :
    canonicalJcs v = .ok (String.ofList (compact (form v))) := by
  induction v using value_induction with
  | hlist vs ih =>
    rw [JsonSafe, allJsonSafe_iff] at h
    rw [canonicalJcs, canonicalElements_of_forall fun v hv => ih v hv (h v hv)]
    refine congrArg Except.ok (String.toList_injective ?_)
    rw [String.toList_append, String.toList_append, toList_intercalate_comma, form, compact,
      compactElements_eq_flatMap, formElements_eq_map, String.toList_ofList]
    simp [List.flatMap_map]
  | hdict items ih =>
    rw [JsonSafe, itemsJsonSafe_iff] at h
    rw [canonicalJcs, canonicalMembers_of_forall fun item hitem => ih item hitem (h.2 item hitem)]
    have hsort : (items.map fun item => (item.1, String.ofList (compact (form item.2)))).insertionSort
        (fun a b => jcsKeySort a.1 ≤ jcsKeySort b.1) =
        ((formItems items).insertionSort keyLe).map fun item =>
          (item.1, String.ofList (compact item.2)) := by
      rw [List.map_insertionSort keyLe
        (fun a b : String × String => jcsKeySort a.1 ≤ jcsKeySort b.1)
        (fun item : String × PyValue => (item.1, String.ofList (compact item.2))) _
        (fun _ _ _ _ => Iff.rfl), formItems_eq_map, List.map_map]
      rfl
    refine congrArg Except.ok (String.toList_injective ?_)
    rw [String.toList_append, String.toList_append, toList_intercalate_comma, hsort, form, compact,
      compactItems_eq_flatMap, String.toList_ofList]
    simp [List.flatMap_map]
  | hother v hlist hdict =>
    cases v with
    | list vs => exact absurd rfl (hlist vs)
    | dict items => exact absurd rfl (hdict items)
    | none => exact congrArg Except.ok String.ofList_toList.symm
    | bool b => exact congrArg Except.ok String.ofList_toList.symm
    | int z => exact congrArg Except.ok String.ofList_toList.symm
    | str s => exact congrArg Except.ok String.ofList_toList.symm
    | float x =>
      rw [canonicalJcs, form]
      cases integralFloat x with
      | none => exact congrArg Except.ok String.ofList_toList.symm
      | some z => exact congrArg Except.ok String.ofList_toList.symm
    | decimal d => exact absurd h id
    | datetime d => exact absurd h id
    | date d => exact absurd h id
    | time t => exact absurd h id
    | bytes b => exact absurd h id
    | other name text => exact absurd h id

/-! ## Texts -/

theorem readUnits_rawChar (c : Char) (rest : List Char) :
    readUnits (rawChar c ++ rest) = (readUnits rest).bind fun p => some (c.toNat :: p.1, p.2) := by
  have hletter : ∀ e n, unescape e = some n → e ≠ 'u' → c.toNat = n →
      readUnits ('\\' :: e :: rest) = (readUnits rest).bind fun p => some (c.toNat :: p.1, p.2) := by
    intro e n he hne hc
    rw [hc, readUnits]
    · rw [he]
      rfl
    · intro a b c' d rest' h
      exact absurd h hne
  simp only [rawChar]
  split_ifs with h1 h2 h3 h4 h5 h6 h7 h8
  · exact hletter '"' 34 rfl (by decide) (by rw [h1]; rfl)
  · exact hletter '\\' 92 rfl (by decide) (by rw [h2]; rfl)
  · exact hletter 'n' 10 rfl (by decide) (by rw [h3]; rfl)
  · exact hletter 'r' 13 rfl (by decide) (by rw [h4]; rfl)
  · exact hletter 't' 9 rfl (by decide) (by rw [h5]; rfl)
  · exact hletter 'f' 12 rfl (by decide) h6
  · exact hletter 'b' 8 rfl (by decide) h7
  · exact readUnits_unicodeEscape (by omega) rest
  · exact readUnits_cons h1 h2 (not_lt.mp h8) rest

theorem readUnits_flatMap_rawChar (cs rest : List Char) :
    readUnits (cs.flatMap rawChar ++ '"' :: rest) = some (cs.map Char.toNat, rest) := by
  induction cs with
  | nil => rfl
  | cons c cs ih =>
    rw [List.flatMap_cons, List.append_assoc, readUnits_rawChar, ih]
    rfl

theorem joinSurrogates_map_toNat (cs : List Char) :
    joinSurrogates (cs.map Char.toNat) = some cs := by
  induction cs with
  | nil => rfl
  | cons c cs ih =>
    have hto : c.toNat = c.val.toNat := rfl
    have hlow : ¬ (0xD800 ≤ c.toNat ∧ c.toNat < 0xDC00) := by
      rcases c.valid with hv | hv <;> omega
    have hhigh : ¬ (0xDC00 ≤ c.toNat ∧ c.toNat < 0xE000) := by
      rcases c.valid with hv | hv <;> omega
    rw [List.map_cons, joinSurrogates.eq_def]
    show (if _ then _ else _) = _
    rw [if_neg hlow, if_neg hhigh, ih, Char.ofNat_toNat]
    rfl

/-- **Printed texts end themselves**: what follows one and the text are given by the characters. -/
theorem rawQuote_inj {x y : String}
    (h : (rawQuote x).toList ++ s = (rawQuote y).toList ++ t) : x = y ∧ s = t := by
  have hread : ∀ (z : String) (u : List Char),
      readText (((rawQuote z).toList ++ u).tail) = some (z, u) := by
    intro z u
    rw [rawQuote, String.toList_ofList, List.cons_append, List.tail_cons, List.append_assoc,
      List.singleton_append, readText, readUnits_flatMap_rawChar]
    show (joinSurrogates _).bind _ = _
    rw [joinSurrogates_map_toNat]
    show some (String.ofList z.toList, u) = _
    rw [String.ofList_toList]
  have hsame := hread x s
  rw [h, hread y t] at hsame
  obtain ⟨hxy, hst⟩ := Prod.mk.inj (Option.some.inj hsame)
  exact ⟨hxy.symm, hst.symm⟩

theorem jcsKeySort_injective : Function.Injective jcsKeySort := by
  intro x y h
  have hbytes : ∀ us ws : List ℕ, (us.flatMap fun unit => [unit / 256, unit % 256]) =
      (ws.flatMap fun unit => [unit / 256, unit % 256]) → us = ws := by
    intro us
    induction us with
    | nil =>
      intro ws h
      cases ws with
      | nil => rfl
      | cons w ws => cases h
    | cons u us ih =>
      intro ws h
      cases ws with
      | nil => cases h
      | cons w ws =>
        obtain ⟨hhigh, hrest⟩ := List.cons.inj h
        obtain ⟨hlow, hrest⟩ := List.cons.inj hrest
        rw [ih ws hrest, show u = w by omega]
  have hunits := joinSurrogates_flatMap x.toList
  rw [hbytes _ _ h, joinSurrogates_flatMap] at hunits
  exact String.toList_injective (Option.some.inj hunits).symm

/-! ## Compact texts tell values apart -/

mutual

/-- A value with a compact text: `null`, a boolean, an integer, a float, a text, a list or a mapping of such
values. -/
def Printable : PyValue → Prop
  | .none => True
  | .bool _ => True
  | .int _ => True
  | .str _ => True
  | .float x => IsFloat x
  | .list elements => AllPrintable elements
  | .dict items => ItemsPrintable items
  | _ => False

/-- The elements of a list are printable. -/
def AllPrintable : List PyValue → Prop
  | [] => True
  | v :: vs => Printable v ∧ AllPrintable vs

/-- The values of a mapping are printable. -/
def ItemsPrintable : List (String × PyValue) → Prop
  | [] => True
  | (_, v) :: items => Printable v ∧ ItemsPrintable items

end

theorem allPrintable_iff (vs : List PyValue) : AllPrintable vs ↔ ∀ v ∈ vs, Printable v := by
  induction vs with
  | nil => simp [AllPrintable]
  | cons v vs ih => rw [AllPrintable, ih, List.forall_mem_cons]

theorem itemsPrintable_iff (items : List (String × PyValue)) :
    ItemsPrintable items ↔ ∀ item ∈ items, Printable item.2 := by
  induction items with
  | nil => simp [ItemsPrintable]
  | cons item items ih => rw [ItemsPrintable, ih, List.forall_mem_cons]

theorem JsonSafe.printable (h : JsonSafe v) : Printable v := by
  induction v using value_induction with
  | hlist vs ih =>
    rw [JsonSafe, allJsonSafe_iff] at h
    rw [Printable, allPrintable_iff]
    exact fun v hv => ih v hv (h v hv)
  | hdict items ih =>
    rw [JsonSafe, itemsJsonSafe_iff] at h
    rw [Printable, itemsPrintable_iff]
    exact fun item hitem => ih item hitem (h.2 item hitem)
  | hother v hlist hdict =>
    cases v with
    | list vs => exact absurd rfl (hlist vs)
    | dict items => exact absurd rfl (hdict items)
    | float x => exact isFloat_of_jsonSafe h
    | _ => exact h

/-- A value that is no text, list or dictionary. -/
def IsLiteral : PyValue → Prop
  | .none => True
  | .bool _ => True
  | .int _ => True
  | .float _ => True
  | _ => False

theorem readLiteral_compact (hv : Printable v) (hliteral : IsLiteral v)
    (hs : EndsValue s) : readLiteral (compact v ++ s) = some (v, s) := by
  cases v with
  | none => rfl
  | bool b => cases b <;> rfl
  | int z => exact readLiteral_intText z hs.endsNumber
  | float x => exact readLiteral_jsonText (hv) hs.endsNumber
  | _ => exact absurd hliteral id

/-- The first character of a printable value that is no literal. -/
theorem head_compact (hv : Printable v) (hliteral : ¬ IsLiteral v) (s : List Char) :
    ∃ c, (compact v ++ s).head? = some c ∧ (c = '"' ∨ c = '[' ∨ c = '\x7b') := by
  cases v with
  | str text =>
    refine ⟨'"', ?_, Or.inl rfl⟩
    rw [compact, rawQuote, String.toList_ofList]
    rfl
  | list vs => exact ⟨'[', rfl, Or.inr (Or.inl rfl)⟩
  | dict items => exact ⟨'\x7b', rfl, Or.inr (Or.inr rfl)⟩
  | none => exact absurd trivial hliteral
  | bool b => exact absurd trivial hliteral
  | int z => exact absurd trivial hliteral
  | float x => exact absurd trivial hliteral
  | _ => exact absurd hv id

theorem compact_inj_of_literal {w : PyValue} (hv : Printable v) (hw : Printable w)
    (hliteral : IsLiteral v) (hs : EndsValue s) (ht : EndsValue t)
    (h : compact v ++ s = compact w ++ t) : v = w ∧ s = t := by
  have hread := readLiteral_compact hv hliteral hs
  by_cases hother : IsLiteral w
  · rw [h, readLiteral_compact hw hother ht] at hread
    obtain ⟨hwv, hts⟩ := Prod.mk.inj (Option.some.inj hread)
    exact ⟨hwv.symm, hts.symm⟩
  · obtain ⟨c, hc, hclass⟩ := head_compact hw hother t
    rw [h] at hread
    obtain ⟨hquote, hbracket, hbrace⟩ := head_of_readLiteral hread c hc
    rcases hclass with rfl | rfl | rfl
    · exact absurd rfl hquote
    · exact absurd rfl hbracket
    · exact absurd rfl hbrace

/-- What follows an element of a list ends a value. -/
theorem endsValue_compactElements (vs : List PyValue) (s : List Char) :
    EndsValue (compactElements vs ++ ']' :: s) := by
  intro c hc
  cases vs with
  | nil => exact Or.inr (Or.inl (Option.some.inj hc).symm)
  | cons v vs => exact Or.inl (Option.some.inj hc).symm

theorem endsValue_compactItems (items : List (String × PyValue)) (s : List Char) :
    EndsValue (compactItems items ++ '\x7d' :: s) := by
  intro c hc
  cases items with
  | nil => exact Or.inr (Or.inr (Option.some.inj hc).symm)
  | cons item items => exact Or.inl (Option.some.inj hc).symm

/-- Elements with the same characters are the same when each element is told apart. -/
theorem compactElements_inj {vs : List PyValue}
    (ih : ∀ v ∈ vs, ∀ w s t, Printable w → EndsValue s → EndsValue t →
      compact v ++ s = compact w ++ t → v = w ∧ s = t)
    {ws : List PyValue} (hws : ∀ w ∈ ws, Printable w)
    (h : compactElements vs ++ ']' :: s = compactElements ws ++ ']' :: t) : vs = ws ∧ s = t := by
  induction vs generalizing ws with
  | nil =>
    cases ws with
    | nil => exact ⟨rfl, (List.cons.inj h).2⟩
    | cons w ws => exact absurd (List.cons.inj h).1 (by decide)
  | cons v vs ihvs =>
    obtain ⟨hv, hvs⟩ := List.forall_mem_cons.mp ih
    cases ws with
    | nil => exact absurd (List.cons.inj h).1 (by decide)
    | cons w ws =>
      obtain ⟨hw, hrestSafe⟩ := List.forall_mem_cons.mp hws
      rw [compactElements, compactElements, List.cons_append, List.cons_append,
        List.append_assoc, List.append_assoc] at h
      obtain ⟨rfl, hrest⟩ := hv w _ _ hw (endsValue_compactElements vs s)
        (endsValue_compactElements ws t) (List.cons.inj h).2
      obtain ⟨rfl, rfl⟩ := ihvs hvs hrestSafe hrest
      exact ⟨rfl, rfl⟩

/-- Items with the same characters are the same when each value is told apart. -/
theorem compactItems_inj {items : List (String × PyValue)}
    (ih : ∀ item ∈ items, ∀ w s t, Printable w → EndsValue s → EndsValue t →
      compact item.2 ++ s = compact w ++ t → item.2 = w ∧ s = t)
    {others : List (String × PyValue)} (hothers : ∀ item ∈ others, Printable item.2)
    (h : compactItems items ++ '\x7d' :: s = compactItems others ++ '\x7d' :: t) :
    items = others ∧ s = t := by
  induction items generalizing others with
  | nil =>
    cases others with
    | nil => exact ⟨rfl, (List.cons.inj h).2⟩
    | cons other others => exact absurd (List.cons.inj h).1 (by decide)
  | cons item items ihitems =>
    obtain ⟨hitem, hitems⟩ := List.forall_mem_cons.mp ih
    cases others with
    | nil => exact absurd (List.cons.inj h).1 (by decide)
    | cons other others =>
      obtain ⟨hother, hrestSafe⟩ := List.forall_mem_cons.mp hothers
      obtain ⟨key, v⟩ := item
      obtain ⟨key', w⟩ := other
      rw [compactItems, compactItems, List.cons_append, List.cons_append, List.append_assoc,
        List.append_assoc] at h
      obtain ⟨rfl, hvalue⟩ := rawQuote_inj (List.cons.inj h).2
      rw [List.cons_append, List.cons_append, List.append_assoc, List.append_assoc] at hvalue
      obtain ⟨hvw, hrest⟩ := hitem w _ _ hother (endsValue_compactItems items s)
        (endsValue_compactItems others t) (List.cons.inj hvalue).2
      replace hvw : v = w := hvw
      obtain ⟨rfl, rfl⟩ := ihitems hitems hrestSafe hrest
      exact ⟨by rw [hvw], rfl⟩

/-- No value starts with what closes a list or a dictionary. -/
theorem compact_ne_closing (hv : Printable v) {c : Char}
    (h : compact v ++ s = c :: t) : c ≠ ']' ∧ c ≠ '\x7d' := by
  by_cases hliteral : IsLiteral v
  · have hread := readLiteral_compact hv hliteral (s := []) fun c hc => by cases hc
    have hhead : (compact v).head? = some c := by
      cases hcompact : compact v with
      | nil =>
        rw [hcompact] at hread
        cases hread
      | cons d ds =>
        rw [hcompact] at h
        rw [(List.cons.inj h).1]
        rfl
    obtain ⟨ds, hds⟩ := List.head?_eq_some_iff.mp hhead
    rw [List.append_nil, hds] at hread
    constructor
    · rintro rfl
      cases hread
    · rintro rfl
      cases hread
  · obtain ⟨d, hd, hclass⟩ := head_compact hv hliteral s
    rw [h] at hd
    rw [Option.some.inj hd]
    rcases hclass with rfl | rfl | rfl <;> decide

/-- **Compact texts are unambiguous.**  Two printable values whose compact texts agree, up to what ends
a value, are the same, and so is what follows them. -/
theorem compact_inj {w : PyValue} (hv : Printable v) (hw : Printable w)
    (hs : EndsValue s) (ht : EndsValue t) (h : compact v ++ s = compact w ++ t) :
    v = w ∧ s = t := by
  -- a literal on either side settles it; what starts with a quotation mark, a bracket or a brace is of
  -- one kind
  induction v using value_induction generalizing w s t with
  | hlist vs ih =>
    have hsafe := hv
    rw [Printable, allPrintable_iff] at hv
    cases w with
    | list ws =>
      rw [Printable, allPrintable_iff] at hw
      rw [compact, compact, List.cons_append, List.cons_append, List.append_assoc,
        List.append_assoc] at h
      replace h := (List.cons.inj h).2
      have heach : ∀ v ∈ vs, ∀ w s t, Printable w → EndsValue s → EndsValue t →
          compact v ++ s = compact w ++ t → v = w ∧ s = t :=
        fun v hmem w s t hw hs ht h => ih v hmem (hv v hmem) hw hs ht h
      have hsame : compactElements vs ++ ']' :: s = compactElements ws ++ ']' :: t := by
        cases vs with
        | nil =>
          cases ws with
          | nil => exact h
          | cons w ws =>
            rw [compactElements, compactElements, List.tail_cons, List.append_assoc] at h
            exact absurd rfl (compact_ne_closing (hw w List.mem_cons_self) h.symm).1
        | cons v vs =>
          cases ws with
          | nil =>
            rw [compactElements, compactElements, List.tail_cons, List.append_assoc] at h
            exact absurd rfl (compact_ne_closing (hv v List.mem_cons_self) h).1
          | cons w ws => exact congrArg (',' :: ·) h
      obtain ⟨rfl, rfl⟩ := compactElements_inj heach hw hsame
      exact ⟨rfl, rfl⟩
    | str text =>
      rw [compact, compact, rawQuote, String.toList_ofList] at h
      exact absurd (List.cons.inj h).1 (by decide)
    | dict items => exact absurd (List.cons.inj h).1 (by decide)
    | _ =>
      first
      | exact absurd hw id
      | exact (compact_inj_of_literal hw hsafe trivial ht hs h.symm).imp Eq.symm Eq.symm
  | hdict items ih =>
    have hsafe := hv
    rw [Printable, itemsPrintable_iff] at hv
    cases w with
    | dict others =>
      rw [Printable, itemsPrintable_iff] at hw
      rw [compact, compact, List.cons_append, List.cons_append, List.append_assoc,
        List.append_assoc] at h
      replace h := (List.cons.inj h).2
      have heach : ∀ item ∈ items, ∀ w s t, Printable w → EndsValue s → EndsValue t →
          compact item.2 ++ s = compact w ++ t → item.2 = w ∧ s = t :=
        fun item hmem w s t hw hs ht h => ih item hmem (hv item hmem) hw hs ht h
      have hquote : ∀ (key : String) (u : List Char),
          ((rawQuote key).toList ++ u).head? = some '"' := by
        intro key u
        rw [rawQuote, String.toList_ofList]
        rfl
      have hsame : compactItems items ++ '\x7d' :: s = compactItems others ++ '\x7d' :: t := by
        cases items with
        | nil =>
          cases others with
          | nil => exact h
          | cons other others =>
            rw [compactItems, compactItems, List.tail_cons, List.append_assoc] at h
            have hhead := congrArg List.head? h
            rw [hquote] at hhead
            exact absurd (Option.some.inj hhead) (by decide)
        | cons item items =>
          cases others with
          | nil =>
            rw [compactItems, compactItems, List.tail_cons, List.append_assoc] at h
            have hhead := congrArg List.head? h
            rw [hquote] at hhead
            exact absurd (Option.some.inj hhead) (by decide)
          | cons other others => exact congrArg (',' :: ·) h
      obtain ⟨rfl, rfl⟩ := compactItems_inj heach hw hsame
      exact ⟨rfl, rfl⟩
    | str text =>
      rw [compact, compact, rawQuote, String.toList_ofList] at h
      exact absurd (List.cons.inj h).1 (by decide)
    | list vs => exact absurd (List.cons.inj h).1 (by decide)
    | _ =>
      first
      | exact absurd hw id
      | exact (compact_inj_of_literal hw hsafe trivial ht hs h.symm).imp Eq.symm Eq.symm
  | hother v hlist hdict =>
    by_cases hliteral : IsLiteral v
    · exact compact_inj_of_literal hv hw hliteral hs ht h
    · by_cases hother : IsLiteral w
      · exact (compact_inj_of_literal hw hv hother ht hs h.symm).imp Eq.symm Eq.symm
      · cases v with
        | list vs => exact absurd rfl (hlist vs)
        | dict items => exact absurd rfl (hdict items)
        | str text =>
          cases w with
          | str text' =>
            obtain ⟨rfl, rfl⟩ := rawQuote_inj h
            exact ⟨rfl, rfl⟩
          | list ws =>
            rw [compact, compact, rawQuote, String.toList_ofList] at h
            exact absurd (List.cons.inj h).1 (by decide)
          | dict items =>
            rw [compact, compact, rawQuote, String.toList_ofList] at h
            exact absurd (List.cons.inj h).1 (by decide)
          | _ => first | exact absurd hw id | exact absurd trivial hother
        | _ => first | exact absurd hv id | exact absurd trivial hliteral

end CanonicalProfile

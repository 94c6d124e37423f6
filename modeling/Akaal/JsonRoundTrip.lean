/-
# The round trip of JSON texts

`json.loads` reads what `json.dumps` writes.

* `readText_escaped` : a written text reads as itself;
* `readValue_dumps` : the text of a value, before anything that ends a value, reads as that value;
* `loads_dumps` : **the round trip**, for every value that can be written;
* `isValue_of_loads` : what is read at all is such a value.
-/
import Akaal.JsonText
import Akaal.JsonReader
import Akaal.Traversal

open Traversal

namespace JsonText

/-! ## The texts that are written -/

theorem hexDigit_digitChar {d : ℕ} (h : d < 16) : hexDigit (Nat.digitChar d) = some d := by
  have hall : ∀ d < 16, hexDigit (Nat.digitChar d) = some d := by decide
  exact hall d h

variable {n : ℕ} {negative : Bool} {s : List Char} {v : PyValue}

theorem hexFour_digits (h : n < 0x10000) :
    hexFour (Nat.digitChar (n / 4096 % 16)) (Nat.digitChar (n / 256 % 16))
      (Nat.digitChar (n / 16 % 16)) (Nat.digitChar (n % 16)) = some n := by
  unfold hexFour
  rw [hexDigit_digitChar (by omega), hexDigit_digitChar (by omega), hexDigit_digitChar (by omega),
    hexDigit_digitChar (by omega)]
  show some _ = some n
  congr 1
  omega

/-- The code units of a character. -/
def unitsOf (c : Char) : List ℕ :=
  if c.toNat < 0x10000 then [c.toNat]
  else [0xD800 + (c.toNat - 0x10000) / 1024, 0xDC00 + (c.toNat - 0x10000) % 1024]

theorem readUnits_unicodeEscape (h : n < 0x10000) (rest : List Char) :
    readUnits (unicodeEscape n ++ rest) = (readUnits rest).bind fun p => some (n :: p.1, p.2) := by
  show readUnits ('\\' :: 'u' :: _ :: _ :: _ :: _ :: rest) = _
  rw [readUnits, hexFour_digits h]
  rfl

theorem readUnits_cons {c : Char} (hquote : c ≠ '"') (hslash : c ≠ '\\') (h : 32 ≤ c.toNat)
    (rest : List Char) :
    readUnits (c :: rest) = (readUnits rest).bind fun p => some (c.toNat :: p.1, p.2) := by
  rw [readUnits.eq_def]
  split
  · next heq => cases heq
  · next heq => exact absurd (List.cons.inj heq).1 hquote
  · next heq => exact absurd (List.cons.inj heq).1 hslash
  · next heq => exact absurd (List.cons.inj heq).1 hslash
  · next heq =>
      obtain ⟨rfl, rfl⟩ := List.cons.inj heq
      rw [if_neg (by omega)]
      rfl

theorem readUnits_escapeChar (c : Char) (rest : List Char) : readUnits (escapeChar c ++ rest) =
      (readUnits rest).bind fun p => some (unitsOf c ++ p.1, p.2) := by
  have hletter : ∀ e n, unescape e = some n → e ≠ 'u' → n < 0x10000 → c.toNat = n →
      readUnits ('\\' :: e :: rest) =
        (readUnits rest).bind fun p => some (unitsOf c ++ p.1, p.2) := by
    intro e n he hne hn hc
    have hunits : unitsOf c = [n] := by rw [unitsOf, hc, if_pos hn]
    rw [hunits, readUnits]
    · rw [he]
      rfl
    · intro a b c' d rest' h
      exact absurd h hne
  simp only [escapeChar]
  split_ifs with h1 h2 h3 h4 h5 h6 h7 h8 h9
  · exact hletter '"' 34 rfl (by decide) (by decide) (by rw [h1]; rfl)
  · exact hletter '\\' 92 rfl (by decide) (by decide) (by rw [h2]; rfl)
  · exact hletter 'n' 10 rfl (by decide) (by decide) (by rw [h3]; rfl)
  · exact hletter 'r' 13 rfl (by decide) (by decide) (by rw [h4]; rfl)
  · exact hletter 't' 9 rfl (by decide) (by decide) (by rw [h5]; rfl)
  · exact hletter 'f' 12 rfl (by decide) (by decide) h6
  · exact hletter 'b' 8 rfl (by decide) (by decide) h7
  · have hunits : unitsOf c = [c.toNat] := by rw [unitsOf, if_pos (by omega)]
    rw [hunits]
    exact readUnits_cons h1 h2 h8.1 rest
  · have hunits : unitsOf c = [c.toNat] := by rw [unitsOf, if_pos h9]
    rw [hunits]
    exact readUnits_unicodeEscape h9 rest
  · have hvalid : c.toNat < 0x110000 := by
      have h := c.valid
      have hto : c.toNat = c.val.toNat := rfl
      rcases h with h | h <;> omega
    rw [List.append_assoc, readUnits_unicodeEscape (by omega), readUnits_unicodeEscape (by omega),
      unitsOf, if_neg h9]
    cases readUnits rest <;> rfl

theorem joinSurrogates_unitsOf (c : Char) (units : List ℕ) :
    joinSurrogates (unitsOf c ++ units) = (joinSurrogates units).bind fun cs => some (c :: cs) := by
  have hto : c.toNat = c.val.toNat := rfl
  unfold unitsOf
  split_ifs with h
  · have hlow : ¬ (0xD800 ≤ c.toNat ∧ c.toNat < 0xDC00) := by
      rcases c.valid with hv | hv <;> omega
    have hhigh : ¬ (0xDC00 ≤ c.toNat ∧ c.toNat < 0xE000) := by
      rcases c.valid with hv | hv <;> omega
    rw [List.singleton_append, joinSurrogates.eq_def]
    show (if _ then _ else _) = _
    rw [if_neg hlow, if_neg hhigh, Char.ofNat_toNat]
    rfl
  · have hbound : c.toNat < 0x110000 := by
      rcases c.valid with hv | hv <;> omega
    have hvalue : 0x10000 + (0xD800 + (c.toNat - 0x10000) / 1024 - 0xD800) * 1024 +
        (0xDC00 + (c.toNat - 0x10000) % 1024 - 0xDC00) = c.toNat := by omega
    show joinSurrogates (_ :: _ :: units) = _
    rw [joinSurrogates.eq_def]
    show (if _ then (if _ then _ else _) else _) = _
    rw [if_pos (by omega), if_pos (by omega), hvalue, Char.ofNat_toNat]
    rfl

theorem readUnits_flatMap (cs rest : List Char) :
    readUnits (cs.flatMap escapeChar ++ '"' :: rest) = some (cs.flatMap unitsOf, rest) := by
  induction cs with
  | nil => rfl
  | cons c cs ih =>
    rw [List.flatMap_cons, List.append_assoc, readUnits_escapeChar, ih]
    rfl

theorem joinSurrogates_flatMap (cs : List Char) :
    joinSurrogates (cs.flatMap unitsOf) = some cs := by
  induction cs with
  | nil => rfl
  | cons c cs ih =>
    rw [List.flatMap_cons, joinSurrogates_unitsOf, ih]
    rfl

/-- **A written text reads as itself.** -/
theorem readText_escaped (text : String) (rest : List Char) :
    readText (text.toList.flatMap escapeChar ++ '"' :: rest) = some (text, rest) := by
  unfold readText
  rw [readUnits_flatMap]
  show (joinSurrogates _).bind _ = _
  rw [joinSurrogates_flatMap]
  show some (String.ofList text.toList, rest) = _
  rw [String.ofList_toList]

theorem toList_quote (text : String) :
    (quote text).toList = '"' :: (text.toList.flatMap escapeChar ++ ['"']) := by
  rw [quote, String.toList_ofList]

/-! ## Literals -/

theorem readLiteral_of_digit (h : ∀ c ∈ s.head?, c.isDigit = true) :
    readLiteral s = readNumber false s := by
  rw [readLiteral.eq_def]
  split
  all_goals first
    | rfl
    | exact absurd (h _ rfl) (by decide)

theorem readLiteral_minus (h : ∀ c ∈ s.head?, c.isDigit = true) :
    readLiteral ('-' :: s) = readNumber true s := by
  rw [readLiteral.eq_def]
  split
  · next heq => cases heq
  · next heq => cases heq
  · next heq => cases heq
  · next heq => cases heq
  · next heq => cases heq
  · next heq =>
      rw [(List.cons.inj heq).2] at h
      exact absurd (h _ rfl) (by decide)
  · next heq => rw [(List.cons.inj heq).2]
  · next hminus => exact absurd rfl (hminus s)

theorem readLiteral_sign (h : ∀ c ∈ s.head?, c.isDigit = true) :
    readLiteral (signText negative ++ s) = readNumber negative s := by
  cases negative with
  | false => exact readLiteral_of_digit h
  | true => exact readLiteral_minus h

theorem isDigit_of_mem_head {rest : List Char} :
    ∀ c ∈ (Nat.toDigits 10 n ++ rest).head?, c.isDigit = true := by
  intro c hc
  rw [List.head?_append_of_ne_nil _ Nat.toDigits_ne_nil] at hc
  exact Nat.isDigit_of_mem_toDigits (by decide) (by decide) (List.mem_of_head? hc)

theorem readLiteral_intText (z : ℤ) {rest : List Char} (h : EndsNumber rest) :
    readLiteral ((intText z).toList ++ rest) = some (.int z, rest) := by
  rw [intText, String.toList_ofList, Nat.toList_repr, List.append_assoc,
    readLiteral_sign isDigit_of_mem_head, readNumber_toDigits _ _ h]
  congr 3
  unfold intOf
  split_ifs with hneg
  · have hlt : z < 0 := of_decide_eq_true hneg
    omega
  · have hge : ¬ z < 0 := fun hlt => hneg (decide_eq_true hlt)
    omega

theorem readLiteral_jsonText {x : PyFloat} (hx : IsFloat x) {rest : List Char}
    (h : EndsNumber rest) : readLiteral (x.jsonText.toList ++ rest) = some (.float x, rest) := by
  cases x with
  | finite q =>
    by_cases hq : q = 0
    · subst hq
      exact readNumber_zero false h
    · have hround := hx.resolve_left hq
      obtain ⟨text, htext, hdigit, hne, hread⟩ := readNumber_jsonText hq hround
      rw [htext, List.append_assoc, readLiteral_sign]
      · exact hread rest h
      · rw [List.head?_append_of_ne_nil _ hne]
        exact hdigit
  | negativeZero => exact readNumber_zero true h
  | infinite negative => cases negative <;> rfl
  | nan => rfl

/-! ## Values that can be written -/

mutual

/-- A value as there can be one: its floats are floats, and the keys of a dictionary are
distinct. -/
def IsValue : PyValue → Prop
  | .float x => IsFloat x
  | .list elements => AreValues elements
  | .dict items => (items.map Prod.fst).Nodup ∧ AreItems items
  | _ => True

/-- The elements of a list are values. -/
def AreValues : List PyValue → Prop
  | [] => True
  | v :: vs => IsValue v ∧ AreValues vs

/-- The values of a dictionary are values. -/
def AreItems : List (String × PyValue) → Prop
  | [] => True
  | (_, v) :: items => IsValue v ∧ AreItems items

end

/-- What follows a value: nothing, or what ends an element of a list or of a dictionary. -/
def EndsValue (s : List Char) : Prop := ∀ c ∈ s.head?, c = ',' ∨ c = ']' ∨ c = '\x7d'

theorem EndsValue.endsNumber (h : EndsValue s) : EndsNumber s := by
  intro c hc
  rcases h c hc with rfl | rfl | rfl <;> decide

@[simp] theorem skipSpace_space (s : List Char) : skipSpace (' ' :: s) = skipSpace s := rfl

theorem skipSpace_of_not {c : Char} (h : isSpace c = false) (s : List Char) :
    skipSpace (c :: s) = c :: s := by
  rw [skipSpace, List.dropWhile_cons_of_neg (by simp [h])]

/-- The start of a value: neither white space nor the end of a list or a dictionary. -/
def StartsValue (s : List Char) : Prop :=
  ∃ c rest, s = c :: rest ∧ isSpace c = false ∧ c ≠ ']' ∧ c ≠ '\x7d'

theorem startsValue_of_digit (hne : s ≠ [])
    (h : ∀ c ∈ s.head?, c.isDigit = true) (rest : List Char) :
    StartsValue (signText negative ++ s ++ rest) := by
  cases negative with
  | true => exact ⟨'-', s ++ rest, rfl, by decide, by decide, by decide⟩
  | false =>
    cases s with
    | nil => exact absurd rfl hne
    | cons c s =>
      refine ⟨c, s ++ rest, rfl, ?_⟩
      have hc : c.isDigit = true := h c rfl
      have hspace : c ≠ ' ' ∧ c ≠ '\t' ∧ c ≠ '\n' ∧ c ≠ '\r' ∧ c ≠ ']' ∧ c ≠ '\x7d' := by
        refine ⟨?_, ?_, ?_, ?_, ?_, ?_⟩ <;>
        · rintro rfl
          revert hc
          decide
      simp [isSpace, hspace]

theorem startsValue_dumps (hv : IsValue v) {text : String}
    (h : dumps false v = .ok text) (rest : List Char) : StartsValue (text.toList ++ rest) := by
  cases v with
  | none =>
    cases h
    exact ⟨'n', _, rfl, by decide, by decide, by decide⟩
  | str s =>
    cases h
    rw [toList_quote]
    exact ⟨'"', _, rfl, by decide, by decide, by decide⟩
  | bool b =>
    cases h
    cases b with
    | true => exact ⟨'t', _, rfl, by decide, by decide, by decide⟩
    | false => exact ⟨'f', _, rfl, by decide, by decide, by decide⟩
  | int z =>
    cases h
    rw [intText, String.toList_ofList, Nat.toList_repr]
    exact startsValue_of_digit Nat.toDigits_ne_nil
      (by simpa using @isDigit_of_mem_head z.natAbs []) rest
  | float x =>
    cases h
    cases x with
    | finite q =>
      by_cases hq : q = 0
      · subst hq
        exact ⟨'0', _, rfl, by decide, by decide, by decide⟩
      · obtain ⟨numeral, htext, hdigit, hne, -⟩ :=
          readNumber_jsonText hq (Or.resolve_left hv hq)
        rw [htext]
        exact startsValue_of_digit hne hdigit rest
    | negativeZero => exact ⟨'-', _, rfl, by decide, by decide, by decide⟩
    | infinite negative =>
      cases negative with
      | true => exact ⟨'-', _, rfl, by decide, by decide, by decide⟩
      | false => exact ⟨'I', _, rfl, by decide, by decide, by decide⟩
    | nan => exact ⟨'N', _, rfl, by decide, by decide, by decide⟩
  | decimal d => cases h
  | datetime d => cases h
  | date d => cases h
  | time t => cases h
  | bytes b => cases h
  | other typeName s => cases h
  | list elements =>
    rw [dumps] at h
    cases htexts : dumpsElements false elements with
    | error e =>
      rw [htexts] at h
      cases h
    | ok texts =>
      rw [htexts] at h
      cases h
      simp only [String.toList_append, List.append_assoc]
      exact ⟨'[', _, rfl, by decide, by decide, by decide⟩
  | dict items =>
    rw [dumps] at h
    cases hmembers : dumpsMembers false items with
    | error e =>
      rw [hmembers] at h
      cases h
    | ok members =>
      rw [hmembers] at h
      cases h
      simp only [String.toList_append, List.append_assoc]
      exact ⟨'\x7b', _, rfl, by decide, by decide, by decide⟩

/-! ## The round trip -/

theorem dictOf_of_nodup {members : List (String × PyValue)}
    (h : (members.map Prod.fst).Nodup) : dictOf members = .dict members := by
  rw [dictOf, PyDict.foldl_setItem_of_nodup (by simpa using h), List.nil_append]

theorem toList_intercalate_cons (text : String) (texts : List String) :
    (", ".intercalate (text :: texts)).toList =
      text.toList ++ texts.flatMap fun t => ',' :: ' ' :: t.toList := by
  induction texts generalizing text with
  | nil => simp [String.intercalate_singleton]
  | cons t texts ih =>
    rw [String.intercalate_cons_cons, String.toList_append, String.toList_append, ih,
      List.flatMap_cons, List.append_assoc]
    rfl

/-- The text of a member of a dictionary. -/
def memberText (member : String × String) : String := quote member.1 ++ ": " ++ member.2

theorem startsElements {vs : List PyValue} (hvs : AreValues vs) {text : String}
    {texts : List String} (h : dumpsElements false vs = .ok (text :: texts)) (rest : List Char) :
    StartsValue ((", ".intercalate (text :: texts)).toList ++ rest) := by
  cases vs with
  | nil => cases h
  | cons v vs =>
    obtain ⟨t, ts, ht, -, ⟨⟩⟩ := map₂_eq_ok_iff.mp h
    rw [toList_intercalate_cons, List.append_assoc]
    exact startsValue_dumps hvs.1 ht _

theorem startsMembers (member : String × String) (members : List (String × String))
    (rest : List Char) :
    ∃ cs, (", ".intercalate ((member :: members).map memberText)).toList ++ rest = '"' :: cs := by
  rw [List.map_cons, toList_intercalate_cons, memberText, String.toList_append,
    String.toList_append, toList_quote]
  exact ⟨_, rfl⟩

theorem dumpsElements_eq_nil {vs : List PyValue} (h : dumpsElements false vs = .ok []) : vs = [] := by
  cases vs with
  | nil => rfl
  | cons v vs =>
    obtain ⟨t, ts, -, -, h⟩ := map₂_eq_ok_iff.mp h
    cases h

theorem dumpsMembers_eq_nil {items : List (String × PyValue)} (h : dumpsMembers false items = .ok []) :
    items = [] := by
  cases items with
  | nil => rfl
  | cons item items =>
    obtain ⟨t, ts, -, -, h⟩ := map₂_eq_ok_iff.mp h
    cases h

/-- Texts behind a first one begin with a comma. -/
theorem flatMap_eq_comma (text : String) (texts : List String) :
    ((text :: texts).flatMap fun t => ',' :: ' ' :: t.toList) =
      ',' :: ' ' :: (", ".intercalate (text :: texts)).toList := by
  rw [toList_intercalate_cons, List.flatMap_cons]
  rfl

theorem endsValue_cons {c : Char} {cs : List Char} (h : c = ',' ∨ c = ']' ∨ c = '\x7d') : EndsValue (c :: cs) :=
  fun _ hc => Option.some.inj hc ▸ h

theorem readValue_number {v : PyValue} (hv : IsValue v) {text : String} (h : dumps false v = .ok text)
    {fuel : ℕ} (hfuel : text.toList.length ≤ fuel) {rest : List Char}
    (hread : readLiteral (text.toList ++ rest) = some (v, rest)) :
    readValue fuel (text.toList ++ rest) = some (v, rest) := by
  obtain ⟨c, cs, htext, -⟩ := startsValue_dumps hv h []
  rw [List.append_nil] at htext
  exact readValue_of_readLiteral (lt_of_lt_of_le (by rw [htext]; exact Nat.succ_pos _) hfuel) hread

mutual

/-- **The text of a value, before what ends a value, reads as that value.** -/
theorem readValue_dumps : ∀ (v : PyValue), IsValue v → ∀ {text : String},
    dumps false v = .ok text → ∀ {fuel : ℕ}, text.toList.length ≤ fuel →
    ∀ {rest : List Char}, EndsValue rest → readValue fuel (text.toList ++ rest) = some (v, rest)
  | .none, _, text, h, fuel, hfuel, rest, _ => by
    cases h
    obtain ⟨n, rfl⟩ := Nat.exists_eq_add_of_le' (lt_of_lt_of_le (by decide) hfuel : 0 < fuel)
    rfl
  | .str s, _, text, h, fuel, hfuel, rest, _ => by
    cases h
    rw [toList_quote] at hfuel ⊢
    obtain ⟨n, rfl⟩ := Nat.exists_eq_add_of_le'
      (lt_of_lt_of_le (Nat.succ_pos _) hfuel : 0 < fuel)
    show (readText (_ ++ ['"'] ++ rest)).bind _ = _
    rw [List.append_assoc, List.singleton_append, readText_escaped]
    rfl
  | .bool b, _, text, h, fuel, hfuel, rest, _ => by
    cases h
    have hpos : 0 < fuel := lt_of_lt_of_le (by cases b <;> decide) hfuel
    obtain ⟨n, rfl⟩ := Nat.exists_eq_add_of_le' hpos
    cases b <;> rfl
  | .int z, hv, text, h, fuel, hfuel, rest, hrest => by
    obtain rfl := Except.ok.inj h
    exact readValue_number hv h hfuel (readLiteral_intText z hrest.endsNumber)
  | .float x, hv, text, h, fuel, hfuel, rest, hrest => by
    obtain rfl := Except.ok.inj h
    exact readValue_number hv h hfuel (readLiteral_jsonText hv hrest.endsNumber)
  | .decimal d, _, text, h, _, _, _, _ => by cases h
  | .datetime d, _, text, h, _, _, _, _ => by cases h
  | .date d, _, text, h, _, _, _, _ => by cases h
  | .time t, _, text, h, _, _, _, _ => by cases h
  | .bytes b, _, text, h, _, _, _, _ => by cases h
  | .other typeName s, _, text, h, _, _, _, _ => by cases h
  | .list elements, hv, text, h, fuel, hfuel, rest, hrest => by
    obtain ⟨texts, htexts, h⟩ := bind_eq_ok_iff.mp h
    cases h
    simp only [String.toList_append, List.append_assoc, List.length_append] at hfuel ⊢
    obtain ⟨n, rfl⟩ := Nat.exists_eq_add_of_le' (lt_of_lt_of_le (by simp) hfuel : 0 < fuel)
    cases texts with
    | nil =>
      obtain rfl := dumpsElements_eq_nil htexts
      rfl
    | cons t texts =>
      have hopen : "[".toList.length = 1 := rfl
      have hclose : "]".toList.length = 1 := rfl
      have hread := readElements_dumps elements hv htexts
        (show (", ".intercalate (t :: texts)).toList.length < n by omega) rest
      have hstart := startsElements hv htexts (']' :: rest)
      obtain ⟨c, cs, hcs, hspace, hbracket, -⟩ := hstart
      show readValue (n + 1) ('[' :: ((", ".intercalate (t :: texts)).toList ++ ']' :: rest)) = _
      rw [hcs] at hread ⊢
      rw [readValue.eq_def]
      simp only [skipSpace_of_not hspace]
      split
      · next heq => exact absurd (List.cons.inj heq).1 hbracket
      · rw [hread]
        rfl
  | .dict items, hv, text, h, fuel, hfuel, rest, hrest => by
    obtain ⟨members, hmembers, h⟩ := bind_eq_ok_iff.mp h
    cases h
    simp only [String.toList_append, List.append_assoc, List.length_append] at hfuel ⊢
    obtain ⟨n, rfl⟩ := Nat.exists_eq_add_of_le' (lt_of_lt_of_le (by simp) hfuel : 0 < fuel)
    cases members with
    | nil =>
      obtain rfl := dumpsMembers_eq_nil hmembers
      rfl
    | cons member members =>
      have hopen : "\x7b".toList.length = 1 := rfl
      have hclose : "\x7d".toList.length = 1 := rfl
      change _ + ((", ".intercalate ((member :: members).map memberText)).toList.length + _) ≤ _
        at hfuel
      have hread := readMembers_dumps items hv.2 hmembers
        (show (", ".intercalate ((member :: members).map memberText)).toList.length < n by
          omega) rest
      show readValue (n + 1) ('\x7b' ::
        ((", ".intercalate ((member :: members).map memberText)).toList ++ '\x7d' :: rest)) = _
      obtain ⟨cs, hcs⟩ := startsMembers member members ('\x7d' :: rest)
      rw [hcs] at hread ⊢
      rw [readValue.eq_def]
      simp only [skipSpace_of_not (show isSpace '"' = false by decide)]
      show (readMembers n ('"' :: cs)).bind _ = _
      rw [hread]
      show some (dictOf items, rest) = _
      rw [dictOf_of_nodup hv.1]

/-- The texts of the elements of a list. -/
theorem readElements_dumps : ∀ (vs : List PyValue), AreValues vs → ∀ {text : String}
    {texts : List String}, dumpsElements false vs = .ok (text :: texts) → ∀ {fuel : ℕ},
    (", ".intercalate (text :: texts)).toList.length < fuel → ∀ (rest : List Char),
      readElements fuel ((", ".intercalate (text :: texts)).toList ++ ']' :: rest) = some (vs, rest)
  | [], _, text, texts, h, _, _, _ => by cases h
  | v :: vs, hvs, text, texts, h, fuel, hfuel, rest => by
    obtain ⟨t, ts, ht, hts, ⟨⟩⟩ := map₂_eq_ok_iff.mp h
    obtain ⟨n, rfl⟩ := Nat.exists_eq_add_of_le' (Nat.zero_lt_of_lt hfuel)
    rw [toList_intercalate_cons] at hfuel ⊢
    rw [List.length_append] at hfuel
    have hle : text.toList.length ≤ n := by omega
    rw [List.append_assoc, readElements]
    cases texts with
    | nil =>
      rw [List.flatMap_nil, List.nil_append, dumpsElements_eq_nil hts,
        readValue_dumps v hvs.1 ht hle (endsValue_cons (.inr (.inl rfl)))]
      rfl
    | cons t' texts =>
      rw [flatMap_eq_comma] at hfuel ⊢
      simp only [List.length_cons] at hfuel
      have helements := readElements_dumps vs hvs.2 hts
        (show (", ".intercalate (t' :: texts)).toList.length < n by omega) rest
      obtain ⟨c, cs, hcs, hspace, -, -⟩ := startsElements hvs.2 hts (']' :: rest)
      rw [List.cons_append, readValue_dumps v hvs.1 ht hle (endsValue_cons (.inl rfl))]
      show (match skipSpace (',' :: ' ' ::
        ((", ".intercalate (t' :: texts)).toList ++ ']' :: rest)) with
        | ']' :: rest => some ([v], rest)
        | ',' :: rest => do
            let (elements, rest) ← readElements n (skipSpace rest)
            return (v :: elements, rest)
        | _ => none) = _
      rw [skipSpace_of_not (by decide), hcs]
      show (readElements n (skipSpace (' ' :: c :: cs))).bind _ = _
      rw [skipSpace_space, skipSpace_of_not hspace, ← hcs, helements]
      rfl

/-- The texts of the members of a dictionary. -/
theorem readMembers_dumps : ∀ (items : List (String × PyValue)), AreItems items →
    ∀ {member : String × String} {members : List (String × String)},
    dumpsMembers false items = .ok (member :: members) → ∀ {fuel : ℕ},
    (", ".intercalate ((member :: members).map memberText)).toList.length < fuel →
    ∀ (rest : List Char),
      readMembers fuel ((", ".intercalate ((member :: members).map memberText)).toList ++
        '\x7d' :: rest) = some (items, rest)
  | [], _, member, members, h, _, _, _ => by cases h
  | (key, v) :: items, hitems, member, members, h, fuel, hfuel, rest => by
    obtain ⟨t, ms, ht, hms, ⟨⟩⟩ := map₂_eq_ok_iff.mp h
    obtain ⟨n, rfl⟩ := Nat.exists_eq_add_of_le' (Nat.zero_lt_of_lt hfuel)
    have hmember : ∀ s : List Char, (memberText (key, t)).toList ++ s =
        '"' :: (key.toList.flatMap escapeChar ++ '"' :: ':' :: ' ' :: (t.toList ++ s)) := by
      intro s
      rw [memberText, String.toList_append, String.toList_append, toList_quote]
      simp
    rw [List.map_cons, toList_intercalate_cons, List.length_append] at hfuel
    have htlen : t.toList.length + 2 ≤ (memberText (key, t)).toList.length := by
      rw [memberText, String.toList_append, String.toList_append, List.length_append,
        List.length_append]
      have htwo : ": ".toList.length = 2 := rfl
      show _ ≤ (quote key).toList.length + ": ".toList.length + t.toList.length
      omega
    have hle : t.toList.length ≤ n := by omega
    obtain ⟨c, cs, hcs, hspace, -, -⟩ := startsValue_dumps hitems.1 ht
      ((members.map memberText).flatMap (fun t => ',' :: ' ' :: t.toList) ++ '\x7d' :: rest)
    rw [List.map_cons, toList_intercalate_cons, List.append_assoc, hmember, readMembers,
      readText_escaped]
    show (match skipSpace (':' :: ' ' :: _) with
      | ':' :: rest => do
          let (v, rest) ← readValue n (skipSpace rest)
          match skipSpace rest with
          | '\x7d' :: rest => some ([(key, v)], rest)
          | ',' :: rest => do
              let (members, rest) ← readMembers n (skipSpace rest)
              return ((key, v) :: members, rest)
          | _ => none
      | _ => none) = _
    rw [skipSpace_of_not (by decide)]
    simp only [skipSpace_space]
    rw [hcs, skipSpace_of_not hspace, ← hcs]
    cases members with
    | nil =>
      rw [List.map_nil, List.flatMap_nil, List.nil_append, dumpsMembers_eq_nil hms,
        readValue_dumps v hitems.1 ht hle (endsValue_cons (.inr (.inr rfl)))]
      rfl
    | cons member members =>
      have htail := flatMap_eq_comma (memberText member) (members.map memberText)
      rw [← List.map_cons] at htail
      rw [htail] at hfuel ⊢
      simp only [List.length_cons] at hfuel
      have hmembers := readMembers_dumps items hitems.2 hms
        (show (", ".intercalate ((member :: members).map memberText)).toList.length < n by
          omega) rest
      obtain ⟨cs, hcs⟩ := startsMembers member members ('\x7d' :: rest)
      rw [List.cons_append, readValue_dumps v hitems.1 ht hle (endsValue_cons (.inl rfl))]
      show (match skipSpace (',' :: ' ' ::
        ((", ".intercalate ((member :: members).map memberText)).toList ++ '\x7d' :: rest)) with
        | '\x7d' :: rest => some ([(key, v)], rest)
        | ',' :: rest => do
            let (members, rest) ← readMembers n (skipSpace rest)
            return ((key, v) :: members, rest)
        | _ => none) = _
      rw [skipSpace_of_not (by decide), hcs]
      show (readMembers n (skipSpace (' ' :: '"' :: cs))).bind _ = _
      rw [skipSpace_space, skipSpace_of_not (by decide), ← hcs, hmembers]
      rfl

end

/-- **The round trip.**  The text of a value reads as that value. -/
theorem loads_dumps (hv : IsValue v) {text : String} (h : dumps false v = .ok text) :
    loads text = some v := by
  have hends : EndsValue [] := by
    intro c hc
    cases hc
  obtain ⟨c, cs, hcs, hspace, -⟩ := startsValue_dumps hv h []
  have hread := readValue_dumps v hv h le_rfl hends
  rw [List.append_nil] at hcs hread
  unfold loads
  rw [hcs, skipSpace_of_not hspace, ← hcs, hread]
  rfl

/-! ## What is read -/

theorem areItems_setItem {key : String} {value : PyValue} (hvalue : IsValue value)
    {items : List (String × PyValue)} (h : AreItems items) :
    AreItems (PyDict.setItem key value items) := by
  induction items with
  | nil => exact ⟨hvalue, trivial⟩
  | cons item items ih =>
    rw [PyDict.setItem]
    split_ifs
    · exact ⟨hvalue, h.2⟩
    · exact ⟨h.1, ih h.2⟩

theorem isValue_dictOf {members : List (String × PyValue)} (h : ∀ m ∈ members, IsValue m.2) :
    IsValue (dictOf members) := by
  have hfold : ∀ items, (items.map Prod.fst).Nodup → AreItems items →
      IsValue (.dict (members.foldl (fun items m => PyDict.setItem m.1 m.2 items) items)) := by
    induction members with
    | nil => exact fun items hnodup hitems => ⟨hnodup, hitems⟩
    | cons m members ih =>
      obtain ⟨hm, hrest⟩ := List.forall_mem_cons.mp h
      intro items hnodup hitems
      exact ih hrest _ (PyDict.nodup_setItem hnodup) (areItems_setItem hm hitems)
  exact hfold [] List.nodup_nil trivial

theorem isFloat_floatOf (negative : Bool) (mantissa : ℕ) (exponent : ℤ) :
    IsFloat (floatOf negative mantissa exponent) := by
  unfold floatOf
  dsimp only
  generalize (if negative then -((mantissa : ℚ) * 10 ^ exponent) else mantissa * 10 ^ exponent) = q
  split_ifs
  · exact trivial
  · exact .inl rfl
  · split
    · next value hround => exact .inr (binary64.round_of_round hround)
    · exact trivial

theorem isValue_of_readNumber {rest : List Char}
    (h : readNumber negative s = some (v, rest)) : IsValue v := by
  unfold readNumber at h
  dsimp only at h
  split_ifs at h
  · cases h
    exact trivial
  · cases h
    exact isFloat_floatOf _ _ _

theorem isValue_of_readLiteral {rest : List Char}
    (h : readLiteral s = some (v, rest)) : IsValue v := by
  rw [readLiteral.eq_def] at h
  split at h
  · cases h
    exact trivial
  · cases h
    exact trivial
  · cases h
    exact trivial
  · cases h
    exact trivial
  · cases h
    exact trivial
  · cases h
    exact trivial
  · exact isValue_of_readNumber h
  · exact isValue_of_readNumber h

/-- What is read with some steps are values. -/
theorem isValue_of_read (fuel : ℕ) : (∀ s v rest, readValue fuel s = some (v, rest) → IsValue v) ∧
    (∀ s vs rest, readElements fuel s = some (vs, rest) → AreValues vs) ∧
    (∀ s members rest, readMembers fuel s = some (members, rest) → ∀ m ∈ members, IsValue m.2) := by
  induction fuel with
  | zero =>
    refine ⟨nofun, nofun, fun s members rest h => ?_⟩
    rw [readMembers.eq_def] at h
    split at h
    · next heq => cases heq
    · cases h
  | succ fuel ih =>
    obtain ⟨hvalue, helements, hmembers⟩ := ih
    refine ⟨fun s v rest h => ?_, fun s vs rest h => ?_, fun s members rest h => ?_⟩
    · rw [readValue.eq_def] at h
      split at h
      · next heq => cases heq
      · obtain ⟨_, -, heq⟩ := Option.bind_eq_some_iff.mp h
        cases heq
        exact trivial
      · next hfuel =>
          obtain rfl := Nat.succ.inj hfuel
          split at h
          · cases h
            exact trivial
          · obtain ⟨_, hread, heq⟩ := Option.bind_eq_some_iff.mp h
            cases heq
            exact helements _ _ _ hread
      · next hfuel =>
          obtain rfl := Nat.succ.inj hfuel
          split at h
          · cases h
            exact ⟨List.nodup_nil, trivial⟩
          · obtain ⟨_, hread, heq⟩ := Option.bind_eq_some_iff.mp h
            cases heq
            exact isValue_dictOf (hmembers _ _ _ hread)
      · exact isValue_of_readLiteral h
    · rw [readElements] at h
      obtain ⟨⟨v, s'⟩, hread, h⟩ := Option.bind_eq_some_iff.mp h
      have hv := hvalue _ _ _ hread
      dsimp only at h
      split at h
      · cases h
        exact ⟨hv, trivial⟩
      · obtain ⟨_, hrest, heq⟩ := Option.bind_eq_some_iff.mp h
        cases heq
        exact ⟨hv, helements _ _ _ hrest⟩
      · cases h
    · rw [readMembers.eq_def] at h
      split at h
      · next heq =>
          cases heq
          obtain ⟨⟨key, s'⟩, -, h⟩ := Option.bind_eq_some_iff.mp h
          dsimp only at h
          split at h
          · obtain ⟨⟨v, s''⟩, hread, h⟩ := Option.bind_eq_some_iff.mp h
            have hv := hvalue _ _ _ hread
            dsimp only at h
            split at h
            · cases h
              exact List.forall_mem_singleton.mpr hv
            · obtain ⟨_, hrest, heq⟩ := Option.bind_eq_some_iff.mp h
              cases heq
              exact List.forall_mem_cons.mpr ⟨hv, hmembers _ _ _ hrest⟩
            · cases h
          · cases h
      · cases h

/-- **What is read is a value.** -/
theorem isValue_of_loads {text : String} (h : loads text = some v) : IsValue v := by
  unfold loads at h
  obtain ⟨⟨w, rest⟩, hread, h⟩ := Option.bind_eq_some_iff.mp h
  obtain ⟨-, heq⟩ := Option.ite_none_right_eq_some.mp h
  cases heq
  exact (isValue_of_read _).1 _ _ _ hread

end JsonText

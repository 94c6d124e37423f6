/-
# Reading JSON texts

`json.loads`, with as many steps as the text has characters.

Surrogates that stand alone in a text, the limit on the digits of an integer and the limit on
nesting are not treated.
-/
import Akaal.JsonNumber

namespace JsonText

/-! ## Texts -/

/-- The white space between the parts of a text. -/
def isSpace (c : Char) : Bool := c = ' ' || c = '\t' || c = '\n' || c = '\r'

/-- What follows white space. -/
def skipSpace (s : List Char) : List Char := s.dropWhile isSpace

/-- The value of a hexadecimal digit. -/
def hexDigit (c : Char) : Option ℕ :=
  let n := c.toNat
  if 48 ≤ n ∧ n ≤ 57 then some (n - 48)
  else if 97 ≤ n ∧ n ≤ 102 then some (n - 87)
  else if 65 ≤ n ∧ n ≤ 70 then some (n - 55)
  else none

/-- The value of four hexadecimal digits. -/
def hexFour (a b c d : Char) : Option ℕ := do
  let a ← hexDigit a
  let b ← hexDigit b
  let c ← hexDigit c
  let d ← hexDigit d
  return ((a * 16 + b) * 16 + c) * 16 + d

/-- The character a backslash and a letter stand for. -/
def unescape : Char → Option ℕ
  | '"' => some 34
  | '\\' => some 92
  | '/' => some 47
  | 'b' => some 8
  | 'f' => some 12
  | 'n' => some 10
  | 'r' => some 13
  | 't' => some 9
  | _ => none

/-- The code points of a text after its opening quotation mark, and what follows the closing one;
escape sequences give code units.  Control characters are refused. -/
def readUnits : List Char → Option (List ℕ × List Char)
  | [] => none
  | '"' :: rest => some ([], rest)
  | '\\' :: 'u' :: a :: b :: c :: d :: rest => do
      let n ← hexFour a b c d
      let (units, rest) ← readUnits rest
      return (n :: units, rest)
  | '\\' :: e :: rest => do
      let n ← unescape e
      let (units, rest) ← readUnits rest
      return (n :: units, rest)
  | c :: rest =>
    if c.toNat < 32 then none
    else do
      let (units, rest) ← readUnits rest
      return (c.toNat :: units, rest)

/-- The characters of code units: two surrogates stand for one character. -/
def joinSurrogates : List ℕ → Option (List Char)
  | [] => some []
  | n :: units =>
    if 0xD800 ≤ n ∧ n < 0xDC00 then
      match units with
      | m :: units =>
        if 0xDC00 ≤ m ∧ m < 0xE000 then do
          let chars ← joinSurrogates units
          return Char.ofNat (0x10000 + (n - 0xD800) * 1024 + (m - 0xDC00)) :: chars
        else none
      | [] => none
    else if 0xDC00 ≤ n ∧ n < 0xE000 then none
    else do
      let chars ← joinSurrogates units
      return Char.ofNat n :: chars

/-- A text after its opening quotation mark, and what follows it. -/
def readText (s : List Char) : Option (String × List Char) := do
  let (units, rest) ← readUnits s
  let chars ← joinSurrogates units
  return (String.ofList chars, rest)

/-! ## Values -/

/-- A value that is neither a text nor a list nor a dictionary. -/
def readLiteral : List Char → Option (PyValue × List Char)
  | 'n' :: 'u' :: 'l' :: 'l' :: rest => some (.none, rest)
  | 't' :: 'r' :: 'u' :: 'e' :: rest => some (.bool true, rest)
  | 'f' :: 'a' :: 'l' :: 's' :: 'e' :: rest => some (.bool false, rest)
  | 'N' :: 'a' :: 'N' :: rest => some (.float .nan, rest)
  | 'I' :: 'n' :: 'f' :: 'i' :: 'n' :: 'i' :: 't' :: 'y' :: rest =>
    some (.float (.infinite false), rest)
  | '-' :: 'I' :: 'n' :: 'f' :: 'i' :: 'n' :: 'i' :: 't' :: 'y' :: rest =>
    some (.float (.infinite true), rest)
  | '-' :: rest => readNumber true rest
  | s => readNumber false s

/-- `dict` of the members of an object: a key that is given again takes the later value. -/
def dictOf (members : List (String × PyValue)) : PyValue :=
  .dict (members.foldl (fun items member => PyDict.setItem member.1 member.2 items) [])

mutual

/-- A value at the start of a text, and what follows it. -/
def readValue : ℕ → List Char → Option (PyValue × List Char)
  | 0, _ => none
  | _ + 1, '"' :: rest => do
      let (text, rest) ← readText rest
      return (.str text, rest)
  | fuel + 1, '[' :: rest =>
    match skipSpace rest with
    | ']' :: rest => some (.list [], rest)
    | rest => do
        let (elements, rest) ← readElements fuel rest
        return (.list elements, rest)
  | fuel + 1, '\x7b' :: rest =>
    match skipSpace rest with
    | '\x7d' :: rest => some (.dict [], rest)
    | rest => do
        let (members, rest) ← readMembers fuel rest
        return (dictOf members, rest)
  | _ + 1, s => readLiteral s

/-- The elements of a list, up to its closing bracket. -/
def readElements : ℕ → List Char → Option (List PyValue × List Char)
  | 0, _ => none
  | fuel + 1, s => do
      let (v, rest) ← readValue fuel s
      match skipSpace rest with
      | ']' :: rest => some ([v], rest)
      | ',' :: rest => do
          let (elements, rest) ← readElements fuel (skipSpace rest)
          return (v :: elements, rest)
      | _ => none

/-- The members of an object, up to its closing brace. -/
def readMembers : ℕ → List Char → Option (List (String × PyValue) × List Char)
  | fuel + 1, '"' :: s => do
      let (key, rest) ← readText s
      match skipSpace rest with
      | ':' :: rest => do
          let (v, rest) ← readValue fuel (skipSpace rest)
          match skipSpace rest with
          | '\x7d' :: rest => some ([(key, v)], rest)
          | ',' :: rest => do
              let (members, rest) ← readMembers fuel (skipSpace rest)
              return ((key, v) :: members, rest)
          | _ => none
      | _ => none
  | _, _ => none

end

/-- `json.loads`; `none` when it raises. -/
def loads (text : String) : Option PyValue := do
  let (v, rest) ← readValue text.toList.length (skipSpace text.toList)
  if skipSpace rest = [] then some v else none

/-! ## Literals -/

/-- A value that starts none of the texts, lists and dictionaries is a literal. -/
theorem readValue_literal {fuel : ℕ} {s : List Char}
    (h : ∀ c ∈ s.head?, c ≠ '"' ∧ c ≠ '[' ∧ c ≠ '\x7b') :
    readValue (fuel + 1) s = readLiteral s := by
  rw [readValue.eq_def]
  split
  · next heq => cases heq
  · exact absurd rfl (h _ rfl).1
  · exact absurd rfl (h _ rfl).2.1
  · exact absurd rfl (h _ rfl).2.2
  · rfl

/-- What reads as a literal starts none of them. -/
theorem head_of_readLiteral {s : List Char} {r : PyValue × List Char}
    (h : readLiteral s = some r) : ∀ c ∈ s.head?, c ≠ '"' ∧ c ≠ '[' ∧ c ≠ '\x7b' := by
  intro c hc
  cases s with
  | nil => cases hc
  | cons d s =>
    have hd : d = c := Option.some.inj hc
    subst hd
    refine ⟨?_, ?_, ?_⟩
    · rintro rfl
      cases h
    · rintro rfl
      cases h
    · rintro rfl
      cases h

theorem readValue_of_readLiteral {fuel : ℕ} (hfuel : 0 < fuel) {s : List Char}
    {r : PyValue × List Char} (h : readLiteral s = some r) : readValue fuel s = some r := by
  obtain ⟨n, rfl⟩ := Nat.exists_eq_add_of_le' hfuel
  rw [readValue_literal (head_of_readLiteral h), h]

end JsonText

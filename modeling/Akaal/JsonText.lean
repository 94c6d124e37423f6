/-
# The default texts of `json.dumps`

`json.dumps(v)` and `json.dumps(v, sort_keys=True)` with the default separators, which write
every character outside the printable ones of ASCII as an escape sequence.
-/
import Akaal.PythonValue

namespace JsonText

/-- A code unit as `\uXXXX`. -/
def unicodeEscape (n : ℕ) : List Char :=
  ['\\', 'u', Nat.digitChar (n / 4096 % 16), Nat.digitChar (n / 256 % 16),
    Nat.digitChar (n / 16 % 16), Nat.digitChar (n % 16)]

/-- A character of a text; one outside the basic plane becomes two surrogates. -/
def escapeChar (c : Char) : List Char :=
  let n := c.toNat
  if c = '"' then ['\\', '"']
  else if c = '\\' then ['\\', '\\']
  else if c = '\n' then ['\\', 'n']
  else if c = '\r' then ['\\', 'r']
  else if c = '\t' then ['\\', 't']
  else if n = 12 then ['\\', 'f']
  else if n = 8 then ['\\', 'b']
  else if 32 ≤ n ∧ n < 127 then [c]
  else if n < 0x10000 then unicodeEscape n
  else unicodeEscape (0xD800 + (n - 0x10000) / 1024) ++
    unicodeEscape (0xDC00 + (n - 0x10000) % 1024)

/-- A text between quotation marks. -/
def quote (s : String) : String := String.ofList ('"' :: (s.toList.flatMap escapeChar ++ ['"']))

mutual

/-- `json.dumps(v, sort_keys=sortKeys)`. -/
def dumps (sortKeys : Bool) : PyValue → Except PyException String
  | .none => .ok "null"
  | .str s => .ok (quote s)
  | .bool b => .ok (if b then "true" else "false")
  | .int z => .ok (intText z)
  | .float x => .ok x.jsonText
  | .decimal _ => .error (.notSerializable "Decimal")
  | .datetime _ => .error (.notSerializable "datetime")
  | .date _ => .error (.notSerializable "date")
  | .time _ => .error (.notSerializable "time")
  | .bytes _ => .error (.notSerializable "bytes")
  | .other typeName _ => .error (.notSerializable typeName)
  | .list elements => do
      let texts ← dumpsElements sortKeys elements
      return "[" ++ ", ".intercalate texts ++ "]"
  | .dict items => do
      let members ← dumpsMembers sortKeys items
      let ordered := if sortKeys then members.insertionSort fun a b => a.1 ≤ b.1 else members
      return "\x7b" ++ ", ".intercalate (ordered.map fun m => quote m.1 ++ ": " ++ m.2) ++ "\x7d"

/-- The texts of the elements of a list. -/
def dumpsElements (sortKeys : Bool) : List PyValue → Except PyException (List String)
  | [] => .ok []
  | v :: vs => do
      let text ← dumps sortKeys v
      let texts ← dumpsElements sortKeys vs
      return text :: texts

/-- The keys of a dictionary with the texts of their values. -/
def dumpsMembers (sortKeys : Bool) :
    List (String × PyValue) → Except PyException (List (String × String))
  | [] => .ok []
  | (key, v) :: items => do
      let text ← dumps sortKeys v
      let members ← dumpsMembers sortKeys items
      return (key, text) :: members

end

end JsonText

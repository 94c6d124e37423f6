/-
# The filter for authentication material

`SecretSanitizationFilter` of `akaalEngine/durability/integrity/secret_filter.py`: what is written to
the durable tables is searched for passwords, keys and addresses with credentials.

* `containsProhibitedSecrets` : the search through a value;
* `prohibitedText`, `normalizeKey` : what it looks for in texts and in keys.
-/
import Akaal.JsonPayload
import Akaal.PythonText

open JsonText

namespace Durability

/-! ## Texts -/

/-- `needle in text`. -/
def isSubtext (needle text : List Char) : Bool := text.tails.any fun rest => needle.isPrefixOf rest

/-- A text at the first occurrence of a separator: what stands before it, and what follows it. -/
def splitAtFirst (separator : List Char) : List Char → List Char × Option (List Char)
  | [] => ([], none)
  | c :: rest =>
    if separator.isPrefixOf (c :: rest) then ([], some ((c :: rest).drop separator.length))
    else ((splitAtFirst separator rest).1.cons c, (splitAtFirst separator rest).2)

/-- `text.split(separator)[1]`, when the separator occurs. -/
def secondPart (separator text : List Char) : List Char :=
  match (splitAtFirst separator text).2 with
  | none => []
  | some rest => (splitAtFirst separator rest).1

/-! ## The filter -/

/-- `PROHIBITED_NORMALIZED_PATTERNS`. -/
def prohibitedNormalizedPatterns : List String :=
  ["password", "passwd", "pwd", "secret", "privatekey", "privkey", "secretkey",
    "apikey", "accesskey", "bearertoken", "authtoken", "authorization", "connectionstring",
    "credential", "clientsecret", "dsn"]

/-- `PERMITTED_NORMALIZED_PATTERNS`. -/
def permittedNormalizedPatterns : List String :=
  ["providertoken", "continuationtoken", "resumetoken", "lsn", "scn",
    "gtid", "binlogposition", "partitionoffset", "recordoffset", "sequencenumber", "positiontoken"]

/-- `_normalize_key`. -/
def normalizeKey (key : String) : String :=
  String.ofList ((PythonText.lower key).toList.filter fun c => c ≠ '_' ∧ c ≠ '-' ∧ c ≠ ' ')

/-- A text that looks like an address with credentials or like a password. -/
def prohibitedText (text : String) : Bool :=
  let lowered := (PythonText.lower text).toList
  isSubtext "://".toList lowered &&
      (lowered.contains '@' || (secondPart "://".toList lowered).contains ':') ||
    isSubtext "password=".toList lowered || isSubtext "pwd=".toList lowered ||
    isSubtext "authorization: bearer".toList lowered

/-- A key that names authentication material. -/
def prohibitedKey (key : String) : Bool :=
  prohibitedNormalizedPatterns.any fun pattern =>
    isSubtext pattern.toList (normalizeKey key).toList

mutual

/-- `contains_prohibited_secrets`. -/
def containsProhibitedSecrets : PyInput → Bool
  | .str s => prohibitedText s
  | .list elements => anyElementProhibited elements
  | .dict items => anyItemProhibited items
  | _ => false

/-- The search through the elements of a list. -/
def anyElementProhibited : List PyInput → Bool
  | [] => false
  | v :: vs => containsProhibitedSecrets v || anyElementProhibited vs

/-- The search through the items of a dictionary: of a key for a position only the value counts. -/
def anyItemProhibited : List (PyKey × PyInput) → Bool
  | [] => false
  | (key, v) :: items =>
    (!permittedNormalizedPatterns.contains (normalizeKey key.text) && prohibitedKey key.text) ||
      containsProhibitedSecrets v || anyItemProhibited items

end

end Durability

/-
# Failures of change data capture

The failure records of `cdc/domain/errors.py`, the exceptions that the modules of `cdc` raise,
and how they read a dictionary: `data[key]` and `data.get(key, default)`.

A field of a dictionary whose value is of another type than the class that takes it declares is
answered with a `TypeError`.
-/
import Akaal.PythonValue

namespace CDC

/-! ## Failures -/

/-- `CDCFailureCategory`. -/
inductive CDCFailureCategory where
  | retryable
  | pausable
  | blocking
  | terminal
  | dataIntegrityRisk
  deriving DecidableEq

/-- `CDCFailureType`, as far as the modules treated here report it. -/
inductive CDCFailureType where
  | transactionCorruption
  | durableBufferFailure
  | bufferCorruption
  | staleWorker
  | identityMismatch
  | unsafeDelete
  | unsafeUpdate
  | targetApplyFailure
  | schemaBarrierActive
  | stalePartitionWorker
  | partitionOwnershipConflict
  | parallelApplyFailure
  | causalityCycleDetected
  | dependencyIdentityMismatch
  | invalidDependencyEdge
  | invalidOriginProvenance
  | topologyIdentityMismatch
  | replicationLoopDetected
  | quarantineFailure
  deriving DecidableEq

/-- `CDCFailure`. -/
structure CDCFailure where
  failureType : CDCFailureType
  category : CDCFailureCategory
  message : String
  migrationId : String
  jobId : String
  runId : String
  cdcSessionId : String
  deriving DecidableEq

/-- A raised exception. -/
inductive PyRaised where
  | valueError (message : String)
  | typeError (message : String)
  | keyError (key : String)
  | runtimeError (message : String)
  | notSerializable (exception : PyException)
  | executionError (failure : CDCFailure)
  deriving DecidableEq

/-! ## Computations that may raise -/

section Except

variable {ε α β : Type}

@[simp] theorem ok_bind (a : α) (f : α → Except ε β) : (Except.ok a >>= f) = f a := rfl

@[simp] theorem error_bind (e : ε) (f : α → Except ε β) :
    ((Except.error e : Except ε α) >>= f) = .error e := rfl

@[simp] theorem map_ok (f : α → β) (a : α) : (f <$> (Except.ok a : Except ε α)) = .ok (f a) := rfl

@[simp] theorem map_error (f : α → β) (e : ε) :
    (f <$> (Except.error e : Except ε α)) = .error e := rfl

end Except

/-! ## Reading a dictionary -/

/-- The items of a dictionary. -/
abbrev PyItems := List (String × PyValue)

/-- A value of another type than the one asked for. -/
def wrongType (key : String) : PyRaised := .typeError s!"unexpected type of '{key}'"

/-- `data[key]`. -/
def getItem (data : PyItems) (key : String) : Except PyRaised PyValue :=
  match List.lookup key data with
  | some v => .ok v
  | none => .error (.keyError key)

/-- `data.get(key)`; an absent key reads as `None`. -/
def getValue (data : PyItems) (key : String) : PyValue := (List.lookup key data).getD .none

/-- A text. -/
def asStr (key : String) : PyValue → Except PyRaised String
  | .str s => .ok s
  | _ => .error (wrongType key)

/-- A text, or `None`. -/
def asOptStr (key : String) : PyValue → Except PyRaised (Option String)
  | .none => .ok none
  | .str s => .ok (some s)
  | _ => .error (wrongType key)

/-- An integer. -/
def asInt (key : String) : PyValue → Except PyRaised ℤ
  | .int z => .ok z
  | _ => .error (wrongType key)

/-- An integer, or `None`. -/
def asOptInt (key : String) : PyValue → Except PyRaised (Option ℤ)
  | .none => .ok none
  | .int z => .ok (some z)
  | _ => .error (wrongType key)

/-- The items of a dictionary. -/
def asDict (key : String) : PyValue → Except PyRaised PyItems
  | .dict items => .ok items
  | _ => .error (wrongType key)

/-- The elements of a list. -/
def asList (key : String) : PyValue → Except PyRaised (List PyValue)
  | .list elements => .ok elements
  | _ => .error (wrongType key)

/-- `data[key]`, a text. -/
def getStr (data : PyItems) (key : String) : Except PyRaised String := getItem data key >>= asStr key

/-- `data[key]`, an integer. -/
def getInt (data : PyItems) (key : String) : Except PyRaised ℤ := getItem data key >>= asInt key

/-- `data.get(key)`, a text or `None`. -/
def getOptStr (data : PyItems) (key : String) : Except PyRaised (Option String) :=
  asOptStr key (getValue data key)

/-- `data.get(key)`, an integer or `None`. -/
def getOptInt (data : PyItems) (key : String) : Except PyRaised (Option ℤ) :=
  asOptInt key (getValue data key)

/-- `data.get(key, default)`, a text. -/
def getStrD (data : PyItems) (key default : String) : Except PyRaised String :=
  asStr key ((List.lookup key data).getD (.str default))

/-- `data.get(key, default)`, an integer. -/
def getIntD (data : PyItems) (key : String) (default : ℤ) : Except PyRaised ℤ :=
  asInt key ((List.lookup key data).getD (.int default))

/-- `text or default`. -/
def orDefault (text : Option String) (default : String) : String :=
  match text with
  | some s => if s = "" then default else s
  | none => default

theorem orDefault_ne_empty {text : Option String} {default : String} (h : default ≠ "") :
    orDefault text default ≠ "" := by
  cases text with
  | none => exact h
  | some s =>
    rw [orDefault]
    split_ifs with hs
    · exact h
    · exact hs

@[simp] theorem orDefault_some {s : String} (default : String) (h : s ≠ "") :
    orDefault (some s) default = s := if_neg h

/-- An optional text as a value. -/
def optStr : Option String → PyValue
  | none => .none
  | some s => .str s

/-- An optional integer as a value. -/
def optInt : Option ℤ → PyValue
  | none => .none
  | some z => .int z

@[simp] theorem asStr_str (key s : String) : asStr key (.str s) = .ok s := rfl

@[simp] theorem asInt_int (key : String) (z : ℤ) : asInt key (.int z) = .ok z := rfl

@[simp] theorem asDict_dict (key : String) (items : PyItems) :
    asDict key (.dict items) = .ok items := rfl

@[simp] theorem asList_list (key : String) (elements : List PyValue) :
    asList key (.list elements) = .ok elements := rfl

@[simp] theorem asOptStr_str (key s : String) : asOptStr key (.str s) = .ok (some s) := rfl

@[simp] theorem asOptStr_optStr (key : String) (s : Option String) :
    asOptStr key (optStr s) = .ok s := by
  cases s <;> rfl

@[simp] theorem asOptInt_optInt (key : String) (z : Option ℤ) :
    asOptInt key (optInt z) = .ok z := by
  cases z <;> rfl

end CDC

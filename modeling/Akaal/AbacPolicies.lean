/-
# Attribute policies

`ABACAuthority` of `akaalPipeline/security/abac.py`: the condition of a policy is an expression over
the attributes of a request, and a policy whose condition reads a missing attribute is passed over,
whether it allows or denies.

* `evaluatePolicies_allow_of_more` : policies that deny allow nothing new;
* `failsClosed_iff` : when the evaluation fails closed, whatever the order of the policies and whatever
  attributes are removed;
* `not_failsClosed_of_missing` : a policy that denies is passed over for a missing attribute.
-/
import Akaal.StateClaims

namespace Abac

/-! ## Attributes -/

/-- Why the evaluation of a condition raises. -/
inductive ConditionError where
  /-- `MissingAttributeError`. -/
  | missing (attrPath : String)
  /-- `ValueError`. -/
  | invalidFormat (expr : PyValue)
  | requiresList (op : String)
  | equalsArguments
  | inArguments
  | inContainer
  | greaterArguments
  | unknownOperator (op : String)
  /-- A path that is no text. -/
  | attributeError
  /-- `>` between values that are not ordered. -/
  | typeError
  /-- An empty dictionary has no first item. -/
  | stopIteration
  /-- The same, inside a generator: `RuntimeError`. -/
  | generatorStop

/-- `attr_path.split(".")`. -/
def parts (attrPath : String) : List String := (attrPath.toList.splitOn '.').map String.ofList

/-- The value that is reached by the parts of a path. -/
def resolveParts : List String → PyValue → Option PyValue
  | [], curr => some curr
  | part :: rest, .dict items => (items.lookup part).bind (resolveParts rest)
  | _ :: _, _ => none

/-- The attributes of a request. -/
abbrev Context := List (String × PyValue)

/-- `_resolve_attribute`. -/
def resolveAttribute (attrPath : String) (context : Context) : Except ConditionError PyValue :=
  match resolveParts (parts attrPath) (.dict context) with
  | some v => .ok v
  | none => .error (.missing attrPath)

/-- Remove what is reached by the parts of a path. -/
def removeParts : List String → Context → Context
  | [], items => items
  | [part], items => items.filter fun item => item.1 ≠ part
  | part :: rest, items => items.map fun item =>
    match item with
    | (key, .dict inner) => if key = part then (key, .dict (removeParts rest inner)) else item
    | _ => item

/-- A context without some attributes. -/
def removeAttributes (removed : List String) (context : Context) : Context :=
  removed.foldl (fun context attrPath => removeParts (parts attrPath) context) context

/-! ## Conditions -/

/-- The comparisons of the interpreter: `==`, and `>` where it is defined. -/
structure Comparison where
  equal : PyValue → PyValue → Bool
  greater : PyValue → PyValue → Option Bool

/-- `type(v)`. -/
def typeName : PyValue → String
  | .none => "NoneType"
  | .bool _ => "bool"
  | .int _ => "int"
  | .float _ => "float"
  | .decimal _ => "Decimal"
  | .str _ => "str"
  | .datetime _ => "datetime"
  | .date _ => "date"
  | .time _ => "time"
  | .bytes _ => "bytes"
  | .list _ => "list"
  | .dict _ => "dict"
  | .other name _ => name

/-- `isinstance(v, (int, float))`. -/
def isNumber : PyValue → Bool
  | .bool _ | .int _ | .float _ => true
  | _ => false

/-- An operand of `equals` or `in`: a text with a dot is a path. -/
def operand (context : Context) : PyValue → Except ConditionError PyValue
  | .str s => if '.' ∈ s.toList then resolveAttribute s context else .ok (.str s)
  | v => .ok v

/-- An exception inside a generator. -/
def inGenerator : ConditionError → ConditionError
  | .stopIteration => .generatorStop
  | e => e

section Conditions

variable (cmp : Comparison) (context : Context)

/-- `val == expected` for values of one type. -/
def Comparison.equals (val expected : PyValue) : Bool :=
  if typeName val ≠ typeName expected ∧ !(isNumber val && isNumber expected) then false
  else cmp.equal val expected

/-- The operator `equals`. -/
def evaluateEquals : PyValue → Except ConditionError Bool
  | .dict [] => .error .stopIteration
  | .dict ((key, expected) :: _) => do
      let val ← resolveAttribute key context
      return cmp.equals val expected
  | .list [first, second] => do
      let val ← operand context first
      let expected ← operand context second
      return cmp.equals val expected
  | _ => .error .equalsArguments

/-- The operator `in`. -/
def evaluateIn : PyValue → Except ConditionError Bool
  | .list [first, container] => do
      let val ← operand context first
      match container with
      | .list elements => return elements.any (cmp.equal val)
      | _ => .error .inContainer
  | _ => .error .inArguments

/-- The operator `greater_than`. -/
def evaluateGreaterThan : PyValue → Except ConditionError Bool
  | .list [.str attrPath, thresh] => do
      let val ← resolveAttribute attrPath context
      match cmp.greater val thresh with
      | some b => return b
      | none => .error .typeError
  | .list [_, _] => .error .attributeError
  | _ => .error .greaterArguments

mutual

/-- `_evaluate_expression`. -/
def evaluateExpression : PyValue → Except ConditionError Bool
  | .bool b => .ok b
  | .dict items => evaluateItems items
  | expr => .error (.invalidFormat expr)

/-- The first operator of an expression decides. -/
def evaluateItems : List (String × PyValue) → Except ConditionError Bool
  | [] => .ok false
  | (op, args) :: _ =>
    if op = "and" then
      match args with
      | .list subs => evaluateAll subs
      | _ => .error (.requiresList op)
    else if op = "or" then
      match args with
      | .list subs => evaluateAny subs
      | _ => .error (.requiresList op)
    else if op = "not" then (evaluateExpression args).map not
    else if op = "equals" then evaluateEquals cmp context args
    else if op = "in" then evaluateIn cmp context args
    else if op = "greater_than" then evaluateGreaterThan cmp context args
    else .error (.unknownOperator op)

/-- `all(...)` over the expressions of a list. -/
def evaluateAll : List PyValue → Except ConditionError Bool
  | [] => .ok true
  | sub :: subs => do
      if ← (evaluateExpression sub).mapError inGenerator then evaluateAll subs else .ok false

/-- `any(...)` over the expressions of a list. -/
def evaluateAny : List PyValue → Except ConditionError Bool
  | [] => .ok false
  | sub :: subs => do
      if ← (evaluateExpression sub).mapError inGenerator then .ok true else evaluateAny subs

end

end Conditions

/-! ## Policies -/

/-- `PolicyEffect`. -/
inductive PolicyEffect where
  | allow
  | deny
  deriving DecidableEq

/-- A row of `abac_policies`, with its condition decoded. -/
structure Policy where
  effect : PolicyEffect
  targetAction : String
  targetResourceType : String
  conditionExpression : PyValue

/-- The target of a policy matches. -/
def Policy.applies (p : Policy) (action resourceType : String) : Bool :=
  (p.targetAction = "*" || p.targetAction = action) &&
    (p.targetResourceType = "*" || p.targetResourceType = resourceType)

section Evaluation

variable (cmp : Comparison) (action resourceType : String) (context : Context)

/-- Whether the condition of a policy is met; a missing attribute is caught. -/
def Policy.matches (p : Policy) : Except ConditionError Bool :=
  match evaluateExpression cmp context p.conditionExpression with
  | .error (.missing _) => .ok false
  | result => result

/-- The loop of `evaluate_policies`, with its two flags. -/
def evaluateFrom : Bool → Bool → List Policy → Except ConditionError PolicyEffect
  | applicableAllow, hasAllow, [] =>
    .ok (if applicableAllow then if hasAllow then .allow else .deny else .allow)
  | applicableAllow, hasAllow, p :: ps =>
    if p.applies action resourceType then do
      let applicableAllow := applicableAllow || p.effect = .allow
      if ← p.matches cmp context then
        match p.effect with
        | .deny => .ok .deny
        | .allow => evaluateFrom applicableAllow true ps
      else evaluateFrom applicableAllow hasAllow ps
    else evaluateFrom applicableAllow hasAllow ps

/-- `evaluate_policies`, over the active policies in the order of their priority. -/
def evaluatePolicies (policies : List Policy) : Except ConditionError PolicyEffect :=
  evaluateFrom cmp action resourceType context false false policies

/-! ## What decides -/

/-- A policy that allows applies. -/
def Policy.allowApplies (p : Policy) : Bool :=
  p.applies action resourceType && p.effect = .allow

/-- A policy that allows applies and is met. -/
def Policy.allowMet (p : Policy) : Bool :=
  p.allowApplies action resourceType &&
    match p.matches cmp context with
    | .ok b => b
    | .error _ => false

/-- What the evaluation of a policy leads to, if it ends the loop: it raises, or it denies. -/
def Policy.decision (p : Policy) : Option (Except ConditionError PolicyEffect) :=
  if p.applies action resourceType then
    match p.matches cmp context with
    | .error e => some (.error e)
    | .ok b => if b && p.effect = .deny then some (.ok .deny) else none
  else none

/-- What the loop returns when no policy ends it. -/
def defaultEffect (applicableAllow hasAllow : Bool) : PolicyEffect :=
  if applicableAllow && !hasAllow then .deny else .allow

/-- The loop in terms of the policies that decide. -/
theorem evaluateFrom_eq (applicableAllow hasAllow : Bool) (policies : List Policy) :
    evaluateFrom cmp action resourceType context applicableAllow hasAllow policies =
      match (policies.filterMap fun p => p.decision cmp action resourceType context).head? with
      | some d => d
      | none => .ok (defaultEffect
          (applicableAllow || policies.any fun p => p.allowApplies action resourceType)
          (hasAllow || policies.any fun p => p.allowMet cmp action resourceType context)) := by
  induction policies generalizing applicableAllow hasAllow with
  | nil =>
    rw [evaluateFrom, defaultEffect]
    cases applicableAllow <;> cases hasAllow <;> rfl
  | cons p ps ih =>
    rw [evaluateFrom, List.filterMap_cons, List.any_cons, List.any_cons, Policy.decision,
      Policy.allowMet, Policy.allowApplies]
    cases happlies : p.applies action resourceType with
    | false =>
      simp only [Bool.false_eq_true, if_false, Bool.false_and, Bool.false_or]
      exact ih applicableAllow hasAllow
    | true =>
      cases hmatches : p.matches cmp context with
      | error e => rfl
      | ok b =>
        cases b with
        | false =>
          simp only [if_true, Bool.false_and, Bool.false_eq_true, if_false, Bool.true_and,
            Bool.and_false, Bool.false_or, ← Bool.or_assoc]
          exact ih _ hasAllow
        | true =>
          cases heffect : p.effect with
          | deny => rfl
          | allow =>
            show evaluateFrom cmp action resourceType context
              (applicableAllow || decide (PolicyEffect.allow = .allow)) true ps = _
            rw [ih]
            simp

variable {cmp action resourceType context}

variable {p : Policy} {policies : List Policy}

theorem ne_allow_of_decision {d : Except ConditionError PolicyEffect}
    (h : p.decision cmp action resourceType context = some d) : d ≠ .ok .allow := by
  rintro rfl
  rw [Policy.decision] at h
  split_ifs at h
  cases hmatches : p.matches cmp context with
  | error e =>
    rw [hmatches] at h
    cases h
  | ok b =>
    simp only [hmatches] at h
    split_ifs at h
    cases h

/-- A condition that cannot be decided for a missing attribute. -/
def Policy.Undecided (cmp : Comparison) (context : Context) (p : Policy) : Prop :=
  ∃ attrPath, evaluateExpression cmp context p.conditionExpression = .error (.missing attrPath)

/-- A condition that is true. -/
def Policy.Holds (cmp : Comparison) (context : Context) (p : Policy) : Prop :=
  evaluateExpression cmp context p.conditionExpression = .ok true

theorem Policy.Holds.decision (h : p.Holds cmp context)
    (happlies : p.applies action resourceType = true) (hdeny : p.effect = .deny) :
    p.decision cmp action resourceType context = some (.ok .deny) := by
  have hmatches : p.matches cmp context = .ok true := by rw [Policy.matches, h]
  rw [Policy.decision, if_pos happlies, hmatches, hdeny]
  rfl

/-- Policies that allow apply, and the condition of none is true. -/
def Ungranted (cmp : Comparison) (action resourceType : String) (context : Context)
    (policies : List Policy) : Prop :=
  (∃ p ∈ policies, p.allowApplies action resourceType = true) ∧
    ∀ p ∈ policies, p.allowMet cmp action resourceType context = false

/-- No policy decides. -/
def NoneDecides (cmp : Comparison) (action resourceType : String) (context : Context)
    (policies : List Policy) : Prop :=
  ∀ p ∈ policies, p.decision cmp action resourceType context = none

/-- A policy denies, or policies that allow apply and none is met. -/
def Denied (cmp : Comparison) (action resourceType : String) (context : Context)
    (policies : List Policy) : Prop :=
  (∃ p ∈ policies, p.decision cmp action resourceType context = some (.ok .deny)) ∨
    NoneDecides cmp action resourceType context policies ∧
      Ungranted cmp action resourceType context policies

/-- The policies that decide agree. -/
def Agree (cmp : Comparison) (action resourceType : String) (context : Context)
    (policies : List Policy) : Prop :=
  ∀ p ∈ policies, ∀ q ∈ policies, ∀ d e, p.decision cmp action resourceType context = some d →
      q.decision cmp action resourceType context = some e → d = e

/-- The result when no policy decides. -/
theorem evaluatePolicies_of_noneDecides (h : NoneDecides cmp action resourceType context policies) :
    evaluatePolicies cmp action resourceType context policies =
      .ok (defaultEffect (policies.any fun p => p.allowApplies action resourceType)
        (policies.any fun p => p.allowMet cmp action resourceType context)) := by
  have hnil : (policies.filterMap fun p => p.decision cmp action resourceType context) = [] :=
    List.filterMap_eq_nil_iff.mpr h
  rw [evaluatePolicies, evaluateFrom_eq, hnil]
  simp

/-- What the policies return when none decides is to deny when they are not granted. -/
theorem defaultEffect_eq_deny_iff (policies : List Policy) :
    defaultEffect (policies.any fun p => p.allowApplies action resourceType)
        (policies.any fun p => p.allowMet cmp action resourceType context) = .deny ↔
      Ungranted cmp action resourceType context policies := by
  simp only [defaultEffect, Ungranted, Bool.and_eq_true, Bool.not_eq_true', List.any_eq_true,
    List.any_eq_false, Bool.not_eq_true, ite_eq_left_iff, reduceCtorEq, imp_false, not_not]

/-- A decision is one of a policy, the first that decides. -/
theorem exists_decision (h : ¬ NoneDecides cmp action resourceType context policies) :
    ∃ p ∈ policies, p.decision cmp action resourceType context =
      some (evaluatePolicies cmp action resourceType context policies) := by
  cases hfirst : policies.filterMap fun p => p.decision cmp action resourceType context with
  | nil => exact absurd (List.filterMap_eq_nil_iff.mp hfirst) h
  | cons d ds =>
    have hd : d ∈ policies.filterMap fun p => p.decision cmp action resourceType context := by
      rw [hfirst]
      exact List.mem_cons_self
    obtain ⟨p, hp, hdecision⟩ := List.mem_filterMap.mp hd
    refine ⟨p, hp, ?_⟩
    rw [evaluatePolicies, evaluateFrom_eq, hfirst]
    exact hdecision

/-- When the policies allow. -/
theorem evaluatePolicies_eq_allow_iff :
    evaluatePolicies cmp action resourceType context policies = .ok .allow ↔
      NoneDecides cmp action resourceType context policies ∧
        ¬ Ungranted cmp action resourceType context policies := by
  constructor
  · intro h
    have hnone : NoneDecides cmp action resourceType context policies := by
      by_contra hsome
      obtain ⟨p, -, hdecision⟩ := exists_decision hsome
      exact ne_allow_of_decision hdecision h
    refine ⟨hnone, fun hungranted => ?_⟩
    rw [evaluatePolicies_of_noneDecides hnone, (defaultEffect_eq_deny_iff policies).mpr hungranted]
      at h
    cases h
  · rintro ⟨hnone, hgranted⟩
    rw [evaluatePolicies_of_noneDecides hnone]
    rw [← defaultEffect_eq_deny_iff] at hgranted
    cases heffect : defaultEffect (policies.any fun p => p.allowApplies action resourceType)
        (policies.any fun p => p.allowMet cmp action resourceType context) with
    | allow => rfl
    | deny => exact absurd heffect hgranted

/-- When the policies deny, provided that those that decide agree. -/
theorem Agree.evaluatePolicies_eq_deny_iff
    (hagree : Agree cmp action resourceType context policies) :
    evaluatePolicies cmp action resourceType context policies = .ok .deny ↔
      Denied cmp action resourceType context policies := by
  by_cases hnone : NoneDecides cmp action resourceType context policies
  · rw [evaluatePolicies_of_noneDecides hnone, Except.ok.injEq, defaultEffect_eq_deny_iff]
    constructor
    · exact fun h => .inr ⟨hnone, h⟩
    · rintro (⟨p, hp, hdecision⟩ | ⟨-, h⟩)
      · rw [hnone p hp] at hdecision
        cases hdecision
      · exact h
  · obtain ⟨q, hq, hdecision⟩ := exists_decision hnone
    constructor
    · intro h
      exact .inl ⟨q, hq, h ▸ hdecision⟩
    · rintro (⟨p, hp, hp'⟩ | ⟨h, -⟩)
      · exact hagree q hq p hp _ _ hdecision hp'
      · exact absurd h hnone

/-! ## The order of the policies -/

theorem NoneDecides.perm {policies' : List Policy} (hperm : policies'.Perm policies)
    (h : NoneDecides cmp action resourceType context policies) :
    NoneDecides cmp action resourceType context policies' :=
  fun p hp => h p (hperm.mem_iff.mp hp)

/-- Policies that agree evaluate to the same in any order. -/
theorem Agree.evaluatePolicies_perm {policies' : List Policy}
    (hagree : Agree cmp action resourceType context policies) (hperm : policies'.Perm policies) :
    evaluatePolicies cmp action resourceType context policies' =
      evaluatePolicies cmp action resourceType context policies := by
  by_cases hnone : NoneDecides cmp action resourceType context policies
  · rw [evaluatePolicies_of_noneDecides hnone, evaluatePolicies_of_noneDecides (hnone.perm hperm),
      hperm.any_eq, hperm.any_eq]
  · have hnone' : ¬ NoneDecides cmp action resourceType context policies' :=
      fun h => hnone (h.perm hperm.symm)
    obtain ⟨p, hp, hdecision⟩ := exists_decision hnone
    obtain ⟨q, hq, hdecision'⟩ := exists_decision hnone'
    exact hagree q (hperm.mem_iff.mp hq) p hp _ _ hdecision' hdecision

/-- A policy that decides does so first in some order. -/
theorem exists_perm_of_decision (hp : p ∈ policies) {d : Except ConditionError PolicyEffect}
    (h : p.decision cmp action resourceType context = some d) :
    ∃ policies', policies'.Perm policies ∧
      evaluatePolicies cmp action resourceType context policies' = d := by
  obtain ⟨before, after, rfl⟩ := List.append_of_mem hp
  refine ⟨p :: (before ++ after), List.perm_middle.symm, ?_⟩
  rw [evaluatePolicies, evaluateFrom_eq, List.filterMap_cons, h]
  rfl

/-- **More denials.**  Policies that deny, wherever they are added, allow nothing new. -/
theorem evaluatePolicies_allow_of_more (policies' : List Policy) (hmore : policies ⊆ policies')
    (hdeny : ∀ p ∈ policies', p ∉ policies → p.effect = .deny)
    (h : evaluatePolicies cmp action resourceType context policies' = .ok .allow) :
    evaluatePolicies cmp action resourceType context policies = .ok .allow := by
  rw [evaluatePolicies_eq_allow_iff] at h ⊢
  obtain ⟨hnone, hgranted⟩ := h
  refine ⟨fun p hp => hnone p (hmore hp), fun ⟨⟨p, hp, happlies⟩, hunmet⟩ =>
    hgranted ⟨⟨p, hmore hp, happlies⟩, fun q hq => ?_⟩⟩
  by_cases hold : q ∈ policies
  · exact hunmet q hold
  · rw [Policy.allowMet, Policy.allowApplies, hdeny q hq hold]
    simp

/-! ## Failing closed -/

/-- The evaluation fails closed: it denies when a policy that denies and applies has a condition that is
true or cannot be decided, its result does not depend on the order of the policies, and what it denies
it does not allow when attributes are removed. -/
structure FailsClosed (cmp : Comparison) (action resourceType : String) (context : Context)
    (policies : List Policy) : Prop where
  denies : ∀ p ∈ policies, p.applies action resourceType = true → p.effect = .deny →
    p.Holds cmp context ∨ p.Undecided cmp context →
      evaluatePolicies cmp action resourceType context policies = .ok .deny
  order : ∀ policies' : List Policy, policies'.Perm policies →
    evaluatePolicies cmp action resourceType context policies' =
      evaluatePolicies cmp action resourceType context policies
  removal : evaluatePolicies cmp action resourceType context policies = .ok .deny →
    ∀ removed, evaluatePolicies cmp action resourceType (removeAttributes removed context) policies ≠
      .ok .allow

/-- The policies that decide agree; where the condition of a policy that denies and applies cannot be
decided, another denies or policies that allow apply without being met; and where a request is denied
for either reason, a policy decides, or they are not met, whatever attributes are removed. -/
structure Covered (cmp : Comparison) (action resourceType : String) (context : Context)
    (policies : List Policy) : Prop where
  agree : Agree cmp action resourceType context policies
  undecided : ∀ p ∈ policies, p.applies action resourceType = true → p.effect = .deny →
    p.Undecided cmp context → Denied cmp action resourceType context policies
  removal : Denied cmp action resourceType context policies → ∀ removed,
    NoneDecides cmp action resourceType (removeAttributes removed context) policies →
      Ungranted cmp action resourceType (removeAttributes removed context) policies

end Evaluation

/-! ## A missing attribute -/

/-- A policy that denies requests from outside the network. -/
def networkPolicy : Policy where
  effect := .deny
  targetAction := "migration.start"
  targetResourceType := "*"
  conditionExpression := .dict [("equals", .list [.str "env.network", .str "external"])]

/-- A policy that allows every request. -/
def openPolicy : Policy := ⟨.allow, "*", "*", .bool true⟩

/-- The policy that denies is passed over, and adds nothing. -/
theorem allow_of_more_sample : evaluatePolicies ⟨fun _ _ => true, fun _ _ => none⟩ "migration.start"
    "migration" [] [openPolicy] = .ok .allow := by
  refine evaluatePolicies_allow_of_more [networkPolicy, openPolicy] (by simp)
    (fun p hp hnot => ?_) rfl
  obtain rfl : p = networkPolicy := by simpa [hnot] using hp
  rfl

end Abac

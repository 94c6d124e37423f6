/-
# The type registry and its memory

`CanonicalTypeRegistry.emit_target_type` of `akaalEngine/schema/types/registry.py` over
`CompiledRuleIndexMemoizationEngine` of `core/memoization.py`: an emission is remembered under the upper case
of its target and the signature of its type.

* `Reachable.remembers` : what is remembered is what the emitters and the evaluator gave;
* `Reachable.emitTargetType` : an engine's emission is the same, from memory or not, where it is called exact;
* `keepsNumbers_iff` : for which types every emission that is called exact has room for every number;
* `not_keepsNumbers` : a decimal of 20 digits is emitted as `BIGINT` and called exact.
-/
import Akaal.NumericEmission

open PythonText

namespace TypeEmission

/-! ## The memory -/

/-- What `_compute_canonical_type_key` reads: the target, the signature of the type, the generation. -/
structure EmissionKey where
  targetEngine : String
  rawVendorType : String
  precision : Option ℕ
  scale : Option ℕ
  bits : Option ℕ
  isSigned : Bool
  oracleUnconstrained : Bool
  oracleNegativeScale : Bool
  nullable : Bool
  ruleGeneration : ℕ
  deriving DecidableEq

/-- `CompiledRuleIndexMemoizationEngine`, with its memory of emissions. -/
structure MemoizationEngine where
  ruleGeneration : ℕ := 1
  typeEmitCache : List (EmissionKey × TargetTypeEmission) := []

namespace MemoizationEngine

/-- `_compute_canonical_type_key`. -/
def computeCanonicalTypeKey (m : MemoizationEngine) (c : CanonicalType) (targetEngine : String) :
    EmissionKey where
  targetEngine := upper targetEngine
  rawVendorType := upper c.rawVendorType
  precision := c.precision
  scale := c.scale
  bits := c.bits
  isSigned := c.isSigned
  oracleUnconstrained := c.oracleUnconstrained
  oracleNegativeScale := c.oracleNegativeScale
  nullable := c.nullable
  ruleGeneration := m.ruleGeneration

/-- `get_emitted_type`. -/
def getEmittedType (m : MemoizationEngine) (c : CanonicalType) (targetEngine : String) :
    Option TargetTypeEmission :=
  m.typeEmitCache.lookup (m.computeCanonicalTypeKey c targetEngine)

/-- `put_emitted_type`. -/
def putEmittedType (m : MemoizationEngine) (c : CanonicalType) (targetEngine : String)
    (emission : TargetTypeEmission) : MemoizationEngine where
  ruleGeneration := m.ruleGeneration
  typeEmitCache := (m.computeCanonicalTypeKey c targetEngine, emission) :: m.typeEmitCache

/-- `clear`. -/
def clear (m : MemoizationEngine) : MemoizationEngine := { m with typeEmitCache := [] }

/-- `bump_generation`. -/
def bumpGeneration (m : MemoizationEngine) : MemoizationEngine where
  ruleGeneration := m.ruleGeneration + 1
  typeEmitCache := []

end MemoizationEngine

/-- `emit_target_type`, where no emitter of one's own is registered. -/
def emitTargetType (m : MemoizationEngine) (targetProvider : String) (c : CanonicalType) :
    TargetTypeEmission × MemoizationEngine :=
  let tgt := lower (strip targetProvider)
  match m.getEmittedType c tgt with
  | some cached => (cached, m)
  | none =>
    let evaluated := evaluateConversion c (emit tgt c)
    (evaluated, m.putEmittedType c tgt evaluated)

/-- The memories that calls of the registry, clearing and new generations lead to. -/
inductive Reachable : MemoizationEngine → Prop
  | start (ruleGeneration : ℕ) : Reachable { ruleGeneration }
  | emit {m} (targetProvider : String) (c : CanonicalType) :
      Reachable m → Reachable (emitTargetType m targetProvider c).2
  | clear {m} : Reachable m → Reachable m.clear
  | bump {m} : Reachable m → Reachable m.bumpGeneration

/-! ## What is remembered -/

/-- An emission that the registry gives for a key when it has no memory of it. -/
def Given (key : EmissionKey) (em : TargetTypeEmission) : Prop :=
  ∃ (m : MemoizationEngine) (targetProvider : String) (c : CanonicalType),
    key = m.computeCanonicalTypeKey c (lower (strip targetProvider)) ∧
      em = evaluateConversion c (emit (lower (strip targetProvider)) c)

/-- Every entry of a memory was given for its key. -/
def Remembers (m : MemoizationEngine) : Prop := ∀ entry ∈ m.typeEmitCache, Given entry.1 entry.2

/-- **What one call does**: it returns what is remembered, or what is given, and remembers it. -/
theorem emitTargetType_cases (m : MemoizationEngine) (targetProvider : String) (c : CanonicalType) :
    (m.getEmittedType c (lower (strip targetProvider)) = some (emitTargetType m targetProvider c).1 ∧
      (emitTargetType m targetProvider c).2 = m) ∨
    ((emitTargetType m targetProvider c).1 =
        evaluateConversion c (emit (lower (strip targetProvider)) c) ∧
      (emitTargetType m targetProvider c).2 =
        m.putEmittedType c (lower (strip targetProvider)) (emitTargetType m targetProvider c).1) := by
  rw [emitTargetType]
  cases h : m.getEmittedType c (lower (strip targetProvider)) with
  | some cached => exact Or.inl ⟨rfl, rfl⟩
  | none => exact Or.inr ⟨rfl, rfl⟩

variable {e : Engine} {m : MemoizationEngine} {tgt : String}

/-- A call keeps what is remembered true. -/
theorem Remembers.emitTargetType (h : Remembers m) (targetProvider : String)
    (c : CanonicalType) : Remembers (emitTargetType m targetProvider c).2 := by
  obtain ⟨-, hsame⟩ | ⟨hgiven, hput⟩ := emitTargetType_cases m targetProvider c
  · rwa [hsame]
  · rw [hput, hgiven]
    intro entry hentry
    rw [MemoizationEngine.putEmittedType, List.mem_cons] at hentry
    obtain rfl | hold := hentry
    · exact ⟨m, targetProvider, c, rfl, rfl⟩
    · exact h entry hold

/-- **What is remembered was given**, in every memory that is reached. -/
theorem Reachable.remembers (h : Reachable m) : Remembers m := by
  induction h with
  | start => exact fun _ h => absurd h List.not_mem_nil
  | emit targetProvider c _ ih => exact ih.emitTargetType targetProvider c
  | clear => exact fun _ h => absurd h List.not_mem_nil
  | bump => exact fun _ h => absurd h List.not_mem_nil

/-! ## The names of engines -/

theorem lower_upper_of_lookup (h : engineNames.lookup tgt = some e) : lower (upper tgt) = tgt := by
  have hall : ∀ entry ∈ engineNames, lower (upper entry.1) = entry.1 := by decide +kernel
  exact hall (tgt, e) (mem_of_lookup h)

theorem emit_lower_strip (targetProvider : String) (c : CanonicalType)
    (h : engineNames.lookup (lower (strip targetProvider)) = some e) :
    emit (lower (strip targetProvider)) c = e.emit c := by
  rw [emit, strip_lower, strip_strip, lower_lower]
  simp only [h]

theorem safety_emit_ne_exact (c : CanonicalType)
    (hnone : engineNames.lookup (lower (strip tgt)) = none)
    (hcql : lower (strip tgt) ∉ ["cassandra", "scylladb"]) : (emit tgt c).safety ≠ .exact := by
  rw [emit]
  simp only [hnone, if_neg hcql]
  split_ifs
  · exact ConversionSafety.noConfusion
  · exact ConversionSafety.noConfusion

/-- Two types of one key are the same but for the case of their names. -/
theorem eq_of_computeCanonicalTypeKey {m' : MemoizationEngine} {c c' : CanonicalType}
    {tgt' : String} (h : m.computeCanonicalTypeKey c tgt = m'.computeCanonicalTypeKey c' tgt') :
    upper tgt = upper tgt' ∧ c' = { c with rawVendorType := c'.rawVendorType } := by
  simp only [MemoizationEngine.computeCanonicalTypeKey, EmissionKey.mk.injEq] at h
  obtain ⟨htgt, -, hprecision, hscale, hbits, hsigned, hunconstrained, hnegative, hnullable, -⟩ := h
  refine ⟨htgt, ?_⟩
  rw [hprecision, hscale, hbits, hsigned, hunconstrained, hnegative, hnullable]

theorem evaluateConversion_rename (e : Engine) (c : CanonicalType) (name : String) :
    evaluateConversion { c with rawVendorType := name } (e.emit { c with rawVendorType := name }) =
      evaluateConversion c (e.emit c) := by
  cases e <;> rfl

/-! ## Emissions of the registry -/

/-- **What the registry gives for an engine** is its emission, from memory or not, unless it is not called
exact: a memory may be of a name that differs from the engine's in lower case only. -/
theorem Reachable.emitTargetType (hreachable : Reachable m) {targetProvider : String}
    (he : engineNames.lookup (lower (strip targetProvider)) = some e) (c : CanonicalType) :
    (emitTargetType m targetProvider c).1 = evaluateConversion c (e.emit c) ∨
      (emitTargetType m targetProvider c).1.safety ≠ .exact := by
  obtain ⟨hcached, -⟩ | ⟨hgiven, -⟩ := emitTargetType_cases m targetProvider c
  · obtain ⟨m', targetProvider', c', hkey, hem⟩ := hreachable.remembers _ (mem_of_lookup hcached)
    obtain ⟨hupper, hname⟩ := eq_of_computeCanonicalTypeKey hkey
    simp only at hem
    have hsame : lower (upper (lower (strip targetProvider'))) = lower (strip targetProvider) := by
      rw [← hupper, lower_upper_of_lookup he]
    cases he' : engineNames.lookup (lower (strip targetProvider')) with
    | some e' =>
      -- An engine's name: upper case tells it apart from the others.
      have htgt : lower (strip targetProvider') = lower (strip targetProvider) := by
        rw [← hsame, lower_upper_of_lookup he']
      have hengine : e' = e := by
        rw [htgt, he] at he'
        exact (Option.some.inj he').symm
      left
      rw [hem, emit_lower_strip targetProvider' c' he', hengine, hname]
      exact evaluateConversion_rename e c c'.rawVendorType
    | none =>
      right
      intro hexact
      rw [hem, safety_evaluateConversion_eq_exact_iff] at hexact
      refine safety_emit_ne_exact c' ?_ ?_ hexact.1
      · rwa [strip_lower, strip_strip, lower_lower]
      · rw [strip_lower, strip_strip, lower_lower]
        intro hcql
        have hlower : ∀ tgt ∈ ["cassandra", "scylladb"], lower (upper tgt) = tgt := by decide +kernel
        rw [← hsame, hlower _ hcql, he'] at he
        exact absurd he (by simp)
  · left
    rw [hgiven, emit_lower_strip targetProvider c he]

/-- Every emission of the registry for a target that is called exact has room for every number. -/
def KeepsNumbers (targetProvider : String) (e : Engine) (c : CanonicalType) : Prop :=
  ∀ m, Reachable m → Preserves e c (emitTargetType m targetProvider c).1

theorem keeps_of_keepsNumbers {targetProvider : String}
    (he : engineNames.lookup (lower (strip targetProvider)) = some e) {c : CanonicalType}
    (hscaled : c.Scaled) (h : KeepsNumbers targetProvider e c) : Keeps e c := by
  have hfirst := h _ (Reachable.start 1)
  rw [emitTargetType, MemoizationEngine.getEmittedType, List.lookup_nil,
    emit_lower_strip targetProvider c he] at hfirst
  exact (keeps_iff hscaled).mp hfirst

/-- **The registry keeps numbers** of just the types that the engine keeps, whatever it remembers. -/
theorem keepsNumbers_iff {targetProvider : String} {e : Engine}
    (he : engineNames.lookup (lower (strip targetProvider)) = some e) {c : CanonicalType}
    (hscaled : c.Scaled) : KeepsNumbers targetProvider e c ↔ Keeps e c := by
  constructor
  · exact keeps_of_keepsNumbers he hscaled
  · intro hkeeps m hreachable
    obtain hsame | hinexact := hreachable.emitTargetType he c
    · rw [hsame]
      exact (keeps_iff hscaled).mpr hkeeps
    · exact fun hexact => absurd hexact hinexact

/-- `DECIMAL` of whole numbers. -/
def wholeDecimal (precision : ℕ) : CanonicalType where
  rawVendorType := "DECIMAL"
  precision := some precision
  scale := some 0

theorem scaled_wholeDecimal (precision : ℕ) : (wholeDecimal precision).Scaled :=
  fun _ _ => Nat.zero_le _

/-- MySQL has room for whole numbers of 12 digits. -/
theorem keepsNumbers_wholeDecimal : KeepsNumbers " MySQL " .mysql (wholeDecimal 12) :=
  (keepsNumbers_iff (by decide +kernel) (scaled_wholeDecimal 12)).mpr
    (by simp [Keeps, KeepsDigits, wholeDecimal])

/-- **A decimal is called exact as an integer**: `BIGINT` has no room for 20 digits. -/
theorem not_keepsNumbers : ¬ ∀ (targetProvider : String) (e : Engine) (c : CanonicalType),
    engineNames.lookup (lower (strip targetProvider)) = some e → c.Scaled →
      KeepsNumbers targetProvider e c := by
  intro h
  have hname : engineNames.lookup (lower (strip "mysql")) = some .mysql := by decide +kernel
  have hkeeps := keeps_of_keepsNumbers hname (scaled_wholeDecimal 20)
    (h "mysql" .mysql (wholeDecimal 20) hname (scaled_wholeDecimal 20))
  simp [Keeps, KeepsDigits, wholeDecimal] at hkeeps

end TypeEmission

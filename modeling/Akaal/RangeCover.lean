/-
# Do the partitions cover the table exactly?

The partitioner promises "zero gaps and zero overlaps".  Adjacent ranges share a bound, and
the bounds increase with the number of the range whatever the rounding
(`exists_rangeStart_mono`), so no overlap and no inner gap is possible; what can go wrong is
at the two ends, in the special cases, and in arithmetic that overflows.

* `exactCover_iff` : the partitions select every row exactly once precisely in the cases of
  `CoversExactly`;
* `not_exactCover_of_single_value` : a table with one key value gets a partition whose two
  bounds are equal, which selects nothing.
-/
import Akaal.RangePartitioner
import Akaal.GenericSqlReader
import Akaal.Traversal

namespace Transport

open PyNumber RoundSignificant Traversal

/-! ## Increasing bounds -/

/-- A number by which ranges are counted off: a nonnegative float or decimal. -/
def IsStep : PyNumber → Prop
  | .float q => 0 ≤ q
  | .decimal q => 0 ≤ q
  | _ => False

/-- The distance of two keys is a positive integer or decimal. -/
def IsRange : PyNumber → Prop
  | .int z => 0 < z
  | .decimal q => 0 < q
  | _ => False

variable {b hi lo range : PyNumber} {hasNullKeys : Bool} {n totalRows : ℕ} {q : ℚ}
  {strategy : PartitionStrategy} {table : SqlTable ℚ}

theorem nearest_nonneg (f : Format) (hq : 0 ≤ q) : 0 ≤ f.nearest q := by
  have h := f.nearest_mono hq
  rwa [f.nearest_zero] at h

theorem decimalResult_eq_ok (h : decimalResult q = .ok b) :
    b = .decimal (decimalContext.nearest q) := by
  unfold decimalResult at h
  cases hround : decimalContext.round q with
  | none => simp [hround] at h
  | some r =>
    rw [hround, Except.ok.injEq] at h
    rw [← h, decimalContext.nearest_of_round hround]

theorem floatOfInt_eq_ok {z : ℤ} (h : floatOfInt z = .ok q) : q = binary64.nearest z := by
  unfold floatOfInt at h
  cases hround : binary64.round (z : ℚ) with
  | none => simp [hround] at h
  | some r =>
    rw [hround, Except.ok.injEq] at h
    rw [← h, binary64.nearest_of_round hround]

theorem floatResult_eq (q : ℚ) :
    floatResult q = .float (binary64.nearest q) ∨ floatResult q = .nonFinite := by
  unfold floatResult
  cases hround : binary64.round q with
  | none => exact .inr rfl
  | some r => exact .inl (by rw [binary64.nearest_of_round hround])

theorem pkRange_isRange (hlo : lo.IsKey) (hhi : hi.IsKey)
    (h : pkRange lo hi = .ok range) : IsRange range := by
  unfold pkRange at h
  cases hsub : sub hi lo with
  | error e => simp [hsub, bind, Except.bind] at h
  | ok d =>
    simp only [hsub, bind, Except.bind] at h
    split_ifs at h with hnonpos
    · rw [← Except.ok.inj h]
      exact Int.one_pos
    · rw [← Except.ok.inj h]
      have hpos : ∀ q, d.value = some q → 0 < q := by
        intro q hq
        simp only [nonpos, hq, decide_eq_true_eq] at hnonpos
        exact not_le.mp hnonpos
      cases lo <;> cases hi <;> simp only [IsKey] at hlo hhi
      · simp only [sub, arith, Except.ok.injEq] at hsub
        subst hsub
        exact_mod_cast hpos _ rfl
      all_goals
        have hd := decimalResult_eq_ok hsub
        subst hd
        exact hpos _ rfl

theorem divInt_isStep {step : PyNumber} {n : ℤ} (hrange : IsRange range) (hn : 0 < n)
    (h : range.divInt n = .ok step) : IsStep step := by
  unfold divInt at h
  rw [if_neg (ne_of_gt hn)] at h
  cases range <;> simp only [IsRange] at hrange
  case int z =>
      cases hround : binary64.round ((z : ℚ) / n) with
      | none => simp [hround] at h
      | some q =>
        simp only [hround, Except.ok.injEq] at h
        rw [← h, binary64.nearest_of_round hround]
        exact nearest_nonneg _ (div_nonneg (by exact_mod_cast hrange.le) (by exact_mod_cast hn.le))
  case decimal q =>
      rw [decimalResult_eq_ok h]
      exact nearest_nonneg _ (div_nonneg hrange.le (by exact_mod_cast hn.le))

/-- **The bounds increase.**  There is a monotone sequence whose values are the printed
bounds of the ranges, wherever these exist. -/
theorem exists_rangeStart_mono {step : PyNumber} (hlo : lo.IsKey) (hstep : IsStep step) :
    ∃ g : ℕ → ℚ, Monotone g ∧
      ∀ i b v, rangeStart lo step i = .ok b → b.literal = some v → v = g i := by
  cases step <;> simp only [IsStep] at hstep
  case float σ =>
      cases lo <;> simp only [IsKey] at hlo
      case decimal q =>
          -- a decimal plus a float raises
          refine ⟨fun _ => 0, monotone_const, fun i b v h _ => ?_⟩
          simp only [rangeStart, mul, arith, bind, Except.bind] at h
          cases hi : floatOfInt (i : ℤ) with
          | error e => simp [hi, Except.map] at h
          | ok p =>
            simp only [hi, Except.map] at h
            rcases floatResult_eq (p * σ) with hf | hf <;> simp [hf, add, arith] at h
      case int z =>
          let offset : ℕ → ℚ := fun i => binary64.nearest (binary64.nearest (i : ℤ) * σ)
          let g : ℕ → ℚ := fun i => binary64.nearest (binary64.nearest z + offset i)
          have hg : Monotone g := by
            intro i j hij
            have hcast : binary64.nearest ((i : ℤ) : ℚ) ≤ binary64.nearest ((j : ℤ) : ℚ) :=
              binary64.nearest_mono (by exact_mod_cast hij)
            have hoffset : offset i ≤ offset j :=
              binary64.nearest_mono (mul_le_mul_of_nonneg_right hcast hstep)
            exact binary64.nearest_mono (by linarith)
          refine ⟨fun i => reprFloat (g i), fun i j hij => ?_, fun i b v h hv => ?_⟩
          · exact binary64.shortest_le_shortest (binary64.nearest_nearest _)
              (binary64.nearest_nearest _) (hg hij) 10 17
          · simp only [rangeStart, mul, arith, bind, Except.bind] at h
            cases hi : floatOfInt (i : ℤ) with
            | error e => simp [hi, Except.map] at h
            | ok p =>
              simp only [hi, Except.map] at h
              cases hz : floatOfInt z with
              | error e =>
                rcases floatResult_eq (p * σ) with hf | hf <;>
                  simp [hf, add, arith, hz, Except.map] at h
              | ok r =>
                rw [floatOfInt_eq_ok hi] at h
                rcases floatResult_eq (binary64.nearest (i : ℤ) * σ) with hf | hf
                · rw [hf] at h
                  simp only [add, arith, hz, Except.map, Except.ok.injEq] at h
                  rw [floatOfInt_eq_ok hz] at h
                  rcases floatResult_eq (binary64.nearest z + offset i) with hsum | hsum
                  · have hb : b = .float (g i) := by rw [← h]; exact hsum
                    rw [hb] at hv
                    exact (Option.some.inj hv).symm
                  · have hb : b = .nonFinite := by rw [← h]; exact hsum
                    rw [hb] at hv
                    exact absurd hv (by simp [literal])
                · rw [hf] at h
                  simp only [add, arith, hz, Except.map, Except.ok.injEq] at h
                  rw [← h] at hv
                  exact absurd hv (by simp [literal])
  case decimal σ =>
      obtain ⟨p, hp⟩ : ∃ p, ∀ o, add lo (.decimal o) = decimalResult (p + o) := by
        cases lo <;> simp only [IsKey] at hlo
        case int z => exact ⟨z, fun o => rfl⟩
        case decimal q => exact ⟨q, fun o => rfl⟩
      let offset : ℕ → ℚ := fun i => decimalContext.nearest ((i : ℤ) * σ)
      refine ⟨fun i => decimalContext.nearest (p + offset i), fun i j hij => ?_,
        fun i b v h hv => ?_⟩
      · have hcast : ((i : ℤ) : ℚ) ≤ ((j : ℤ) : ℚ) := by exact_mod_cast hij
        have hoffset : offset i ≤ offset j :=
          decimalContext.nearest_mono (mul_le_mul_of_nonneg_right hcast hstep)
        exact decimalContext.nearest_mono (by linarith)
      · unfold rangeStart at h
        cases hmul : mul (.int i) (.decimal σ) with
        | error e => simp [hmul, bind, Except.bind] at h
        | ok o =>
          simp only [hmul, bind, Except.bind] at h
          rw [decimalResult_eq_ok hmul, hp] at h
          rw [decimalResult_eq_ok h] at hv
          exact (Option.some.inj hv).symm

/-! ## Exact cover -/

/-- Key values are exact numbers and compare with the printed bounds; a bound that is not a
numeral compares with nothing. -/
def numericDialect (nullsFirst : Bool) : SqlDialect ℚ PyNumber where
  atLeast k b := b.literal.any fun v => decide (v ≤ k)
  below k b := b.literal.any fun v => decide (k < v)
  nullsFirst := nullsFirst

/-- The query of the partition can be executed: its bounds print as numerals. -/
def readable (partition : TransportPartition PyNumber) : Bool :=
  match partition.lowerBound, partition.upperBound with
  | some lower, some upper => lower.literal.isSome && upper.literal.isSome
  | _, _ => true

/-- The partitioner returns, every partition can be read, and together the partitions select
each row of the table exactly once. -/
def ExactCover (nullsFirst : Bool) (table : SqlTable ℚ)
    (result : Except PyError (List (TransportPartition PyNumber))) : Prop :=
  ∃ partitions, result = .ok partitions ∧ (∀ p ∈ partitions, readable p = true) ∧
    ∀ row ∈ table.rows,
      partitions.countP (fun p => selects (numericDialect nullsFirst) p none row) = 1

/-- The key values of the rows, in the column the queries compare. -/
def tableKeys (table : SqlTable ℚ) (pkColumns : List String) : List (Option ℚ) :=
  table.rows.map fun row => SqlRow.value row (lower (pkColumns.head?.getD "id"))

/-- What the partitioner is told about the table: its number of rows, whether it has NULL
keys, and (or not) its smallest and its largest other key. -/
structure Summarizes (keys : List (Option ℚ)) (totalRows : ℕ) (minPk maxPk : Option PyNumber)
    (hasNullKeys : Bool) : Prop where
  total : totalRows = keys.length
  nulls : hasNullKeys = true ↔ none ∈ keys
  least : ∀ lo, minPk = some lo → lo.IsKey ∧ lo.value ∈ keys ∧
    ∀ k, some k ∈ keys → ∀ v, lo.value = some v → v ≤ k
  greatest : ∀ hi, maxPk = some hi → hi.IsKey ∧ hi.value ∈ keys ∧
    ∀ k, some k ∈ keys → ∀ v, hi.value = some v → k ≤ v

/-! ### What the partitions select -/

variable (nullsFirst : Bool) (target : PartitionTarget) (row : SqlRow ℚ)

/-- The key of a row of the target table. -/
def PartitionTarget.key (target : PartitionTarget) (row : SqlRow ℚ) : Option ℚ :=
  SqlRow.value row (lower (target.pkColumns.head?.getD "id"))

theorem selects_nullPartition :
    selects (numericDialect nullsFirst) target.nullPartition none row = (target.key row).isNone := by
  show ([SqlCondition.isNull].all fun c => c.holds (numericDialect nullsFirst) (target.key row)) = _
  cases target.key row <;> rfl

theorem selects_fullPartition :
    selects (numericDialect nullsFirst) target.fullPartition none row = true := rfl

/-- A bounded partition selects the rows whose key is between its bounds. -/
theorem selects_boundedPartition (suffix : String) (strategy : PartitionStrategy)
    (lower upper : PyNumber) :
    selects (numericDialect nullsFirst) (target.boundedPartition suffix strategy lower upper)
      none row =
      (target.key row).any fun k =>
        (lower.literal.any fun v => decide (v ≤ k)) && upper.literal.any fun v => decide (k < v) := by
  show ([SqlCondition.between lower upper].all fun c =>
    c.holds (numericDialect nullsFirst) (target.key row)) = _
  cases target.key row with
  | none => rfl
  | some k => simp [SqlCondition.holds, numericDialect]

theorem literal_eq_value (hb : b.IsKey) : b.literal = b.value := by
  cases b with
  | int z => rfl
  | decimal q => rfl
  | float q => exact absurd hb (by simp [IsKey])
  | nonFinite => rfl

theorem exists_value (hb : b.IsKey) : ∃ v, b.value = some v := by
  cases b with
  | int z => exact ⟨z, rfl⟩
  | decimal q => exact ⟨q, rfl⟩
  | float q => exact absurd hb (by simp [IsKey])
  | nonFinite => exact absurd hb (by simp [IsKey])

/-! ### The fallback -/

/-- The partitions before the ranges: the partition of the NULL keys, if there are any. -/
def nullPartitions (target : PartitionTarget) (hasNullKeys : Bool) :
    List (TransportPartition PyNumber) :=
  if hasNullKeys then [target.nullPartition] else []

theorem exactCover_withFallback_iff (table : SqlTable ℚ) (hasNullKeys : Bool) :
    ExactCover nullsFirst table (.ok (withFallback target (nullPartitions target hasNullKeys))) ↔
      hasNullKeys = false ∨ ∀ k ∈ tableKeys table target.pkColumns, k = none := by
  have hkeys : (∀ k ∈ tableKeys table target.pkColumns, k = none) ↔
      ∀ row ∈ table.rows, target.key row = none := by
    simp [tableKeys, PartitionTarget.key]
  rw [hkeys]
  cases hasNullKeys with
  | false =>
    refine ⟨fun _ => .inl rfl, fun _ => ⟨[target.fullPartition], rfl, ?_, ?_⟩⟩
    · simp [readable, PartitionTarget.fullPartition, PartitionTarget.partition]
    · intro row _
      rw [List.countP_singleton, selects_fullPartition, if_pos rfl]
  | true =>
    have hlist : withFallback target (nullPartitions target true) = [target.nullPartition] := rfl
    rw [hlist]
    constructor
    · rintro ⟨partitions, hps, -, hcount⟩
      rw [Except.ok.injEq] at hps
      refine .inr fun row hrow => ?_
      have h := hcount row hrow
      rw [← hps, List.countP_singleton, selects_nullPartition] at h
      simpa using h
    · rintro (h | h)
      · simp at h
      · refine ⟨[target.nullPartition], rfl, ?_, ?_⟩
        · simp [readable, PartitionTarget.nullPartition, PartitionTarget.partition]
        · intro row hrow
          rw [List.countP_singleton, selects_nullPartition, h row hrow]
          rfl

/-! ### The ranges -/

/-- The printed start of the range with number `i`. -/
def rangeLiteral (lo step : PyNumber) (i : ℕ) : Option ℚ :=
  (rangeStart lo step i).toOption.bind literal

/-- The printed end of the last range. -/
def endLiteral (hi : PyNumber) : Option ℚ := (add hi (.int 1)).toOption.bind literal

/-- The arithmetic of `n` ranges stays finite and its rounding stays inside at both ends:
the first range starts at or below the smallest key, and the last one ends above the largest
(or, should the rounded bounds cross, starts above it). -/
structure RangesFit (lo hi step : PyNumber) (n : ℕ) : Prop where
  starts : ∀ i < n, ∃ v, rangeLiteral lo step i = some v
  ends : ∃ u, endLiteral hi = some u
  first : ∀ v k, rangeLiteral lo step 0 = some v → lo.value = some k → v ≤ k
  last : ∀ k, hi.value = some k →
    (∃ u, endLiteral hi = some u ∧ k < u) ∨ ∃ v, rangeLiteral lo step (n - 1) = some v ∧ k < v

theorem rangeLiteral_eq_some {step : PyNumber} {i : ℕ} {v : ℚ} :
    rangeLiteral lo step i = some v ↔ ∃ b, rangeStart lo step i = .ok b ∧ b.literal = some v := by
  unfold rangeLiteral
  cases rangeStart lo step i with
  | error e => simp [Except.toOption]
  | ok b => simp [Except.toOption]

/-- The partition of one range, with its bounds. -/
theorem rangePartition_eq_ok_iff {step : PyNumber} {i : ℕ} {p : TransportPartition PyNumber} :
    rangePartition target strategy lo hi step n i = .ok p ↔
      ∃ a b, rangeStart lo step i = .ok a ∧ rangeEnd lo hi step n i = .ok b ∧
        p = target.boundedPartition (partitionNumber i) strategy a b := by
  unfold rangePartition
  cases rangeStart lo step i with
  | error e => simp [bind, Except.bind]
  | ok a =>
    cases rangeEnd lo hi step n i with
    | error e => simp [bind, Except.bind]
    | ok b => simp [bind, Except.bind, eq_comm]

/-- The ranges can all be produced and read exactly when their printed bounds exist. -/
theorem ranges_readable_iff (strategy : PartitionStrategy) {step : PyNumber} (hn : 0 < n) :
    (∃ ps, (List.range n).mapM (rangePartition target strategy lo hi step n) = .ok ps ∧
        ∀ p ∈ ps, readable p = true) ↔
      (∀ i < n, ∃ v, rangeLiteral lo step i = some v) ∧ ∃ u, endLiteral hi = some u := by
  have hone : ∀ i, (∃ p, rangePartition target strategy lo hi step n i = .ok p ∧
      readable p = true) ↔ (∃ v, rangeLiteral lo step i = some v) ∧
          ∃ u, (rangeEnd lo hi step n i).toOption.bind literal = some u := by
    intro i
    simp only [rangePartition_eq_ok_iff, rangeLiteral_eq_some]
    constructor
    · rintro ⟨_, ⟨a, b, ha, hb, rfl⟩, hread⟩
      have hread' : a.literal.isSome ∧ b.literal.isSome := by
        simpa [readable, PartitionTarget.boundedPartition] using hread
      obtain ⟨v, hv⟩ := Option.isSome_iff_exists.mp hread'.1
      obtain ⟨u, hu⟩ := Option.isSome_iff_exists.mp hread'.2
      exact ⟨⟨v, a, ha, hv⟩, u, by rw [hb]; exact hu⟩
    · rintro ⟨⟨v, a, ha, hv⟩, u, hu⟩
      cases hb : rangeEnd lo hi step n i with
      | error e => simp [hb, Except.toOption] at hu
      | ok b =>
        have hbu : b.literal = some u := by simpa [hb, Except.toOption] using hu
        exact ⟨_, ⟨a, b, ha, rfl, rfl⟩, by
          simp [readable, PartitionTarget.boundedPartition, hv, hbu]⟩
  constructor
  · rintro ⟨ps, hps, hread⟩
    have hall : ∀ i < n, ∃ p, rangePartition target strategy lo hi step n i = .ok p ∧
        readable p = true := by
      intro i hi
      obtain ⟨p, hp, hpok⟩ := exists_of_forall₂ (mapM_eq_ok_iff.mp hps) (List.mem_range.mpr hi)
      exact ⟨p, hpok, hread p hp⟩
    refine ⟨fun i hi => ((hone i).mp (hall i hi)).1, ?_⟩
    have hlast := ((hone (n - 1)).mp (hall (n - 1) (by omega))).2
    rwa [rangeEnd, if_neg (by omega)] at hlast
  · rintro ⟨hstarts, hend⟩
    have hall : ∀ i < n, ∃ p, rangePartition target strategy lo hi step n i = .ok p ∧
        readable p = true := by
      intro i hi
      refine (hone i).mpr ⟨hstarts i hi, ?_⟩
      unfold rangeEnd
      split_ifs with hnext
      · exact hstarts (i + 1) hnext
      · exact hend
    obtain ⟨ps, hps⟩ : ∃ ps, (List.range n).mapM
        (rangePartition target strategy lo hi step n) = .ok ps :=
      exists_mapM_eq_ok fun i hi => ⟨_, (hall i (List.mem_range.mp hi)).choose_spec.1⟩
    refine ⟨ps, hps, fun p hp => ?_⟩
    obtain ⟨i, hi, hpok⟩ := exists_of_forall₂' (mapM_eq_ok_iff.mp hps) hp
    obtain ⟨p', hp', hread⟩ := hall i (List.mem_range.mp hi)
    rw [hp', Except.ok.injEq] at hpok
    exact hpok ▸ hread

/-- No range selects a row without a key, and a row with a key is selected by one range when
its key is between the printed start of the first range and the printed end of the last (or
below the start of the last), and otherwise by none. -/
theorem countP_ranges {step : PyNumber} {m : ℕ}
    {ps : List (TransportPartition PyNumber)} {g : ℕ → ℚ} {u : ℚ} (hmono : Monotone g)
    (hstarts : ∀ i < m + 1, rangeLiteral lo step i = some (g i)) (hend : endLiteral hi = some u)
    (hps : (List.range (m + 1)).mapM (rangePartition target strategy lo hi step (m + 1)) = .ok ps) :
    ps.countP (fun p => selects (numericDialect nullsFirst) p none row) =
      match target.key row with
      | none => 0
      | some k => if g 0 ≤ k ∧ (k < g m ∨ k < u) then 1 else 0 := by
  have hends : ∀ i < m + 1, (rangeEnd lo hi step (m + 1) i).toOption.bind literal =
      some (if i < m then g (i + 1) else u) := by
    intro i hi
    unfold rangeEnd
    by_cases him : i < m
    · rw [if_pos (by omega), if_pos him]
      exact hstarts (i + 1) (by omega)
    · rw [if_neg (by omega), if_neg him]
      exact hend
  have hselects : ∀ i < m + 1, ∀ p, rangePartition target strategy lo hi step (m + 1) i = .ok p →
      selects (numericDialect nullsFirst) p none row = (target.key row).any fun k =>
          decide (g i ≤ k ∧ k < if i < m then g (i + 1) else u) := by
    intro i hi p hp
    obtain ⟨a, b, ha, hb, rfl⟩ := (rangePartition_eq_ok_iff target).mp hp
    obtain ⟨a', ha', hav⟩ := rangeLiteral_eq_some.mp (hstarts i hi)
    rw [ha, Except.ok.injEq] at ha'
    subst ha'
    have hbv := hends i hi
    rw [hb] at hbv
    have hbv' : b.literal = some (if i < m then g (i + 1) else u) := hbv
    rw [selects_boundedPartition, hav, hbv']
    cases target.key row with
    | none => rfl
    | some k => simp
  have hcount : ps.countP (fun p => selects (numericDialect nullsFirst) p none row) =
      (List.range (m + 1)).countP fun i => (target.key row).any fun k =>
        decide (g i ≤ k ∧ k < if i < m then g (i + 1) else u) := by
    apply countP_of_forall₂ (R := fun i p =>
      rangePartition target strategy lo hi step (m + 1) i = .ok p)
    have hforall := mapM_eq_ok_iff.mp hps
    exact forall₂_imp_of_mem hforall fun i hi p hp =>
      ⟨hp, (hselects i (List.mem_range.mp hi) p hp).symm⟩
  rw [hcount]
  cases hkey : target.key row with
  | none => simp
  | some k =>
    have hinner : (List.range m).countP (fun i =>
        decide (g i ≤ k ∧ k < if i < m then g (i + 1) else u)) =
          (List.range m).countP fun i => decide (g i ≤ k ∧ k < g (i + 1)) := by
      apply List.countP_congr
      intro i hi
      rw [if_pos (List.mem_range.mp hi)]
    have h0 : g 0 ≤ g m := hmono (Nat.zero_le m)
    simp only [Option.any_some]
    rw [List.range_succ, List.countP_append, hinner, countP_consecutive hmono,
      List.countP_singleton, if_neg (lt_irrefl m)]
    by_cases hm : g m ≤ k
    · have hk0 : g 0 ≤ k := le_trans h0 hm
      simp [hm, hk0, not_lt.mpr hm]
    · have hkm : k < g m := not_le.mp hm
      simp [hm, hkm]

/-- The partition of the NULL keys selects a row without a key once. -/
theorem countP_nullPartitions (hasNullKeys : Bool) : (nullPartitions target hasNullKeys).countP
        (fun p => selects (numericDialect nullsFirst) p none row) =
      if hasNullKeys && (target.key row).isNone then 1 else 0 := by
  unfold nullPartitions
  cases hasNullKeys with
  | false => rfl
  | true =>
    rw [if_pos rfl, List.countP_singleton, selects_nullPartition]
    rfl

theorem withFallback_append_of_ne_nil (nulls : List (TransportPartition PyNumber))
    {ranges : List (TransportPartition PyNumber)} (h : ranges ≠ []) :
    withFallback target (nulls ++ ranges) = nulls ++ ranges := by
  unfold withFallback
  rw [if_neg (by simp [h])]

/-- The ranges, with the NULL partition, cover the table exactly when they fit. -/
theorem exactCover_ranges_iff (strategy : PartitionStrategy) {step : PyNumber}
    (hsum : Summarizes (tableKeys table target.pkColumns) totalRows (some lo) (some hi)
      hasNullKeys)
    (hstep : IsStep step) (hn : 0 < n) :
    ExactCover nullsFirst table
        (((List.range n).mapM (rangePartition target strategy lo hi step n)).map fun ranges =>
          withFallback target (nullPartitions target hasNullKeys ++ ranges)) ↔
      RangesFit lo hi step n := by
  obtain ⟨m, rfl⟩ : ∃ m, n = m + 1 := ⟨n - 1, by omega⟩
  obtain ⟨hlo, hlomem, hloleast⟩ := hsum.least lo rfl
  obtain ⟨hhi, himem, higreatest⟩ := hsum.greatest hi rfl
  obtain ⟨l, hl⟩ := exists_value hlo
  obtain ⟨h, hh⟩ := exists_value hhi
  obtain ⟨g, hmono, hg⟩ := exists_rangeStart_mono hlo hstep
  have hgstart : ∀ i v, rangeLiteral lo step i = some v → rangeLiteral lo step i = some (g i) := by
    intro i v hv
    obtain ⟨b, hb, hbv⟩ := rangeLiteral_eq_some.mp hv
    rw [hv, hg i b v hb hbv]
  have hcount : ∀ ps u, (List.range (m + 1)).mapM
      (rangePartition target strategy lo hi step (m + 1)) = .ok ps →
      (∀ i < m + 1, rangeLiteral lo step i = some (g i)) → endLiteral hi = some u →
      ∀ row k, target.key row = some k → (nullPartitions target hasNullKeys ++ ps).countP
          (fun p => selects (numericDialect nullsFirst) p none row) =
            if g 0 ≤ k ∧ (k < g m ∨ k < u) then 1 else 0 := by
    intro ps u hps hstarts hend row k hk
    rw [List.countP_append, countP_nullPartitions,
      countP_ranges nullsFirst target row hmono hstarts hend hps, hk]
    simp
  have hfallback : ∀ ps, (List.range (m + 1)).mapM
      (rangePartition target strategy lo hi step (m + 1)) = .ok ps →
      withFallback target (nullPartitions target hasNullKeys ++ ps) =
        nullPartitions target hasNullKeys ++ ps := by
    intro ps hps
    apply withFallback_append_of_ne_nil
    rintro rfl
    have hlen := (mapM_eq_ok_iff.mp hps).length_eq
    rw [List.length_range, List.length_nil] at hlen
    omega
  constructor
  · rintro ⟨partitions, hmap, hread, hrows⟩
    cases hps : (List.range (m + 1)).mapM (rangePartition target strategy lo hi step (m + 1)) with
    | error e => simp [hps, Except.map] at hmap
    | ok ps =>
      rw [hps] at hmap
      have hpartitions : withFallback target (nullPartitions target hasNullKeys ++ ps) =
          partitions := Except.ok.inj hmap
      rw [hfallback ps hps] at hpartitions
      subst hpartitions
      obtain ⟨hstarts, u, hend⟩ := (ranges_readable_iff target strategy hn).mp
        ⟨ps, hps, fun p hp => hread p (List.mem_append_right _ hp)⟩
      have hstarts' : ∀ i < m + 1, rangeLiteral lo step i = some (g i) := by
        intro i hi
        obtain ⟨v, hv⟩ := hstarts i hi
        exact hgstart i v hv
      have hone : ∀ v, some v ∈ tableKeys table target.pkColumns → g 0 ≤ v ∧ (v < g m ∨ v < u) := by
        intro v hv
        obtain ⟨row, hrow, hkey⟩ := List.mem_map.mp hv
        have hc := hrows row hrow
        rw [hcount ps u hps hstarts' hend row v hkey] at hc
        by_contra hnot
        rw [if_neg hnot] at hc
        exact absurd hc (by decide)
      refine ⟨hstarts, ⟨u, hend⟩, fun v k hv hk => ?_, fun k hk => ?_⟩
      · rw [hstarts' 0 (by omega), Option.some.injEq] at hv
        rw [← hv]
        exact (hone k (hk ▸ hlomem)).1
      · rcases (hone k (hk ▸ himem)).2 with hlt | hlt
        · exact .inr ⟨g m, hstarts' m (by omega), hlt⟩
        · exact .inl ⟨u, hend, hlt⟩
  · rintro ⟨hstarts, ⟨u, hend⟩, hfirst, hlast⟩
    obtain ⟨ps, hps, hread⟩ := (ranges_readable_iff target strategy hn).mpr
      ⟨hstarts, u, hend⟩
    have hstarts' : ∀ i < m + 1, rangeLiteral lo step i = some (g i) := by
      intro i hi
      obtain ⟨v, hv⟩ := hstarts i hi
      exact hgstart i v hv
    refine ⟨nullPartitions target hasNullKeys ++ ps, ?_, ?_, ?_⟩
    · rw [hps, ← hfallback ps hps]
      rfl
    · intro p hp
      rcases List.mem_append.mp hp with hp | hp
      · unfold nullPartitions at hp
        split_ifs at hp
        · rw [List.mem_singleton.mp hp]
          rfl
        · simp at hp
      · exact hread p hp
    · intro row hrow
      have hmem : target.key row ∈ tableKeys table target.pkColumns :=
        List.mem_map_of_mem hrow
      cases hkey : target.key row with
      | none =>
        have hnull : hasNullKeys = true := hsum.nulls.mpr (hkey ▸ hmem)
        rw [List.countP_append, countP_nullPartitions,
          countP_ranges nullsFirst target row hmono hstarts' hend hps, hkey, hnull]
        rfl
      | some k =>
        rw [hkey] at hmem
        rw [hcount ps u hps hstarts' hend row k hkey, if_pos]
        have hle : g 0 ≤ k := le_trans (hfirst _ l (hstarts' 0 (by omega)) hl) (hloleast k hmem l hl)
        have hkh : k ≤ h := higreatest k hmem h hh
        refine ⟨hle, ?_⟩
        rcases hlast h hh with ⟨u', hu', hlt⟩ | ⟨v, hv, hlt⟩
        · rw [hend, Option.some.injEq] at hu'
          exact .inr (lt_of_le_of_lt hkh (hu' ▸ hlt))
        · have hv' := hstarts' m (by omega)
          rw [show m + 1 - 1 = m by omega, hv', Option.some.injEq] at hv
          exact .inl (lt_of_le_of_lt hkh (hv ▸ hlt))

/-! ## When the cover is exact -/

/-- No range is cut: a bound is not supplied, or the strategy is not a numeric one, or the
(decimal) distance of the bounds is below one; and the bounds differ if both are supplied. -/
def Unranged (strategy : PartitionStrategy) (minPk maxPk : Option PyNumber) : Prop :=
  minPk = none ∨ maxPk = none ∨ ∃ lo hi, minPk = some lo ∧ maxPk = some hi ∧ lo.eq hi = false ∧
    (strategy.isNumeric = false ∨ ∃ range, pkRange lo hi = .ok range ∧ range.toInt = .ok 0)

/-- The inputs on which the cover is exact. -/
inductive CoversExactly (parallelism : ℤ) (strategy : PartitionStrategy) (keys : List (Option ℚ))
    (hasNullKeys : Bool) (minPk maxPk : Option PyNumber) : Prop where
  /-- The table is empty. -/
  | empty (h : keys = [])
  /-- No range is cut, and there are no NULL keys, or only NULL keys. -/
  | whole (h : Unranged strategy minPk maxPk) (hnulls : hasNullKeys = false ∨ ∀ k ∈ keys, k = none)
  /-- The keys span at least one, and the ranges fit. -/
  | ranges (lo hi range step : PyNumber) (m : ℤ) (hmin : minPk = some lo) (hmax : maxPk = some hi)
      (hne : lo.eq hi = false) (hnumeric : strategy.isNumeric = true)
      (hrange : pkRange lo hi = .ok range) (hm : range.toInt = .ok m) (hpos : 1 ≤ m)
      (hstep : range.divInt (min (max 1 parallelism) m) = .ok step)
      (hfit : RangesFit lo hi step (min (max 1 parallelism) m).toNat)

theorem toInt_of_isRange (h : IsRange range) : ∃ m, range.toInt = .ok m ∧ 0 ≤ m := by
  cases range <;> simp only [IsRange] at h
  case int z =>
      refine ⟨z, ?_, h.le⟩
      have hz : (0 : ℚ) ≤ z := by exact_mod_cast h.le
      simp [toInt, value, hz]
  case decimal q =>
      refine ⟨⌊q⌋, ?_, Int.floor_nonneg.mpr h.le⟩
      simp [toInt, value, h.le]

theorem round_of_decimalResult {z : ℚ} (h : decimalResult z = .ok (.decimal q)) :
    decimalContext.round q = some q := by
  unfold decimalResult at h
  cases hround : decimalContext.round z with
  | none => simp [hround] at h
  | some r =>
    simp only [hround, Except.ok.injEq, PyNumber.decimal.injEq] at h
    exact h ▸ decimalContext.round_of_round hround

theorem round_of_pkRange (hlo : lo.IsKey) (hhi : hi.IsKey)
    (h : pkRange lo hi = .ok (.decimal q)) : decimalContext.round q = some q := by
  have hsub : sub hi lo = .ok (.decimal q) := by
    unfold pkRange at h
    cases hd : sub hi lo with
    | error e => simp [hd, bind, Except.bind] at h
    | ok d =>
      simp only [hd, bind, Except.bind] at h
      by_cases hnonpos : d.nonpos = true
      · simp [hnonpos] at h
      · rwa [if_neg hnonpos] at h
  cases lo <;> cases hi <;> simp only [IsKey] at hlo hhi
  · simp [sub, arith] at hsub
  · exact round_of_decimalResult hsub
  · exact round_of_decimalResult hsub
  · exact round_of_decimalResult hsub

theorem decimalResult_of_round {z : ℚ} (h : decimalContext.round z = some q) :
    decimalResult z = .ok (.decimal q) := by
  unfold decimalResult
  rw [h]

theorem divInt_decimal (q : ℚ) {n : ℤ} (hn : n ≠ 0) :
    divInt (.decimal q) n = decimalResult (q / n) := by
  unfold divInt
  rw [if_neg hn]

theorem exists_divInt_one (hlo : lo.IsKey) (hhi : hi.IsKey)
    (hrange : pkRange lo hi = .ok range) (hzero : range.toInt = .ok 0) :
    ∃ step, range.divInt 1 = .ok step := by
  have hpos := pkRange_isRange hlo hhi hrange
  cases range <;> simp only [IsRange] at hpos
  case int z =>
      have hz : (0 : ℚ) ≤ z := by exact_mod_cast hpos.le
      simp only [toInt, value, hz, if_true, Int.floor_intCast, Except.ok.injEq] at hzero
      omega
  case decimal q =>
      refine ⟨.decimal q, ?_⟩
      rw [divInt_decimal q one_ne_zero, Int.cast_one, div_one]
      exact decimalResult_of_round (round_of_pkRange hlo hhi hrange)

/-- A single value gets a partition whose bounds are equal, and the cover is not exact. -/
theorem not_exactCover_single
    (hsum : Summarizes (tableKeys table target.pkColumns) totalRows (some lo) (some hi)
      hasNullKeys)
    (heq : lo.eq hi = true) :
    ¬ ExactCover nullsFirst table
      (.ok (nullPartitions target hasNullKeys ++
        [target.boundedPartition "single" strategy lo hi])) := by
  rintro ⟨partitions, hps, -, hcount⟩
  rw [Except.ok.injEq] at hps
  obtain ⟨hlo, hmem, -⟩ := hsum.least lo rfl
  obtain ⟨hhi, -⟩ := hsum.greatest hi rfl
  obtain ⟨l, hl⟩ := exists_value hlo
  obtain ⟨h, hh⟩ := exists_value hhi
  have hlh : l = h := by simpa [PyNumber.eq, hl, hh] using heq
  obtain ⟨row, hrow, hkey⟩ := List.mem_map.mp (hl ▸ hmem)
  have hkey' : target.key row = some l := hkey
  have hone := hcount row hrow
  rw [← hps, List.countP_append, countP_nullPartitions, List.countP_singleton,
    selects_boundedPartition, hkey', literal_eq_value hlo, literal_eq_value hhi, hl, hh, hlh] at hone
  simp at hone

/-- The numeric strategies: the ranges, or the fallback when the distance is below one. -/
theorem exactCover_numeric_iff (policy : TransportTuningPolicy)
    (hsum : Summarizes (tableKeys table target.pkColumns) totalRows (some lo) (some hi)
      hasNullKeys)
    (hkeys : tableKeys table target.pkColumns ≠ []) (heq : lo.eq hi = false)
    (hnumeric : strategy.isNumeric = true)
    (hwhole : Unranged strategy (some lo) (some hi) → (ExactCover nullsFirst table
          (.ok (withFallback target (nullPartitions target hasNullKeys))) ↔
        CoversExactly policy.parallelism strategy (tableKeys table target.pkColumns) hasNullKeys
          (some lo) (some hi))) :
    ExactCover nullsFirst table
        (rangePartitions target strategy (max 1 policy.parallelism) lo hi >>= fun ranges =>
          .ok (withFallback target (nullPartitions target hasNullKeys ++ ranges))) ↔
      CoversExactly policy.parallelism strategy (tableKeys table target.pkColumns) hasNullKeys
        (some lo) (some hi) := by
  have hlo : lo.IsKey := (hsum.least lo rfl).1
  have hhi : hi.IsKey := (hsum.greatest hi rfl).1
  have hnone : ∀ e : PyError, ¬ ExactCover nullsFirst table (.error e) := by
    rintro e ⟨_, h, -⟩
    simp at h
  -- what is known about a case of `CoversExactly` other than the one at hand
  have hinv : CoversExactly policy.parallelism strategy (tableKeys table target.pkColumns)
      hasNullKeys (some lo) (some hi) → ∃ range m, pkRange lo hi = .ok range ∧ range.toInt = .ok m ∧
          (m = 0 ∨ ∃ step, range.divInt (min (max 1 policy.parallelism) m) = .ok step ∧
            RangesFit lo hi step (min (max 1 policy.parallelism) m).toNat) := by
    rintro (h | ⟨h | h | ⟨lo', hi', hlo', hhi', -, h | ⟨range, hrange, hzero⟩⟩, -⟩ |
      ⟨lo', hi', range, step, m, hlo', hhi', -, -, hrange, hm, -, hstep, hfit⟩)
    · exact absurd h hkeys
    · simp at h
    · simp at h
    · simp [h] at hnumeric
    · cases hlo'
      cases hhi'
      exact ⟨range, 0, hrange, hzero, .inl rfl⟩
    · cases hlo'
      cases hhi'
      exact ⟨range, m, hrange, hm, .inr ⟨step, hstep, hfit⟩⟩
  unfold rangePartitions
  cases hrange : pkRange lo hi with
  | error e =>
    refine iff_of_false (hnone e) fun h => ?_
    obtain ⟨range, m, hr, -⟩ := hinv h
    simp [hrange] at hr
  | ok range =>
    have hisRange := pkRange_isRange hlo hhi hrange
    obtain ⟨m, hm, hmnonneg⟩ := toInt_of_isRange hisRange
    have hactual : actualPartitions (max 1 policy.parallelism) range =
        .ok (min (max 1 policy.parallelism) m) := by
      rw [actualPartitions, hm]
      rfl
    simp only [bind, Except.bind, hactual]
    rcases lt_or_eq_of_le hmnonneg with hpos | hzero
    · have hworkers : 1 ≤ min (max 1 policy.parallelism) m := by omega
      rw [max_eq_right hworkers]
      cases hstep : range.divInt (min (max 1 policy.parallelism) m) with
      | error e =>
        refine iff_of_false (hnone e) fun h => ?_
        obtain ⟨range', m', hr, hm', hcase⟩ := hinv h
        obtain rfl := Except.ok.inj (hrange.symm.trans hr)
        obtain rfl := Except.ok.inj (hm.symm.trans hm')
        rcases hcase with h0 | ⟨step, hs, -⟩
        · omega
        · simp [hstep] at hs
      | ok step =>
        have hisStep : IsStep step := divInt_isStep hisRange (by omega) hstep
        have hcover := exactCover_ranges_iff nullsFirst target strategy hsum
          hisStep (n := (min (max 1 policy.parallelism) m).toNat) (by omega)
        refine hcover.trans ⟨fun hfit => ?_, fun h => ?_⟩
        · exact .ranges lo hi range step m rfl rfl heq hnumeric hrange hm hpos hstep hfit
        · obtain ⟨range', m', hr, hm', hcase⟩ := hinv h
          obtain rfl := Except.ok.inj (hrange.symm.trans hr)
          obtain rfl := Except.ok.inj (hm.symm.trans hm')
          rcases hcase with h0 | ⟨step', hs, hfit⟩
          · omega
          · obtain rfl := Except.ok.inj (hstep.symm.trans hs)
            exact hfit
    · subst hzero
      have hworkers : min (max 1 policy.parallelism) 0 = 0 := by omega
      obtain ⟨step, hstep⟩ := exists_divInt_one hlo hhi hrange hm
      rw [hworkers, max_eq_left (by omega : (0 : ℤ) ≤ 1), hstep]
      have hlist : nullPartitions target hasNullKeys ++ ([] : List (TransportPartition PyNumber)) =
          nullPartitions target hasNullKeys := List.append_nil _
      show ExactCover nullsFirst table
        (.ok (withFallback target (nullPartitions target hasNullKeys ++ []))) ↔ _
      rw [hlist]
      exact hwhole (.inr (.inr ⟨lo, hi, rfl, rfl, heq, .inr ⟨range, hrange, hm⟩⟩))

/-- **The partitions cover the table exactly once precisely in the cases of
`CoversExactly`**, for every table of integer, decimal and NULL keys, every summary of it,
every parallelism and every strategy. -/
theorem exactCover_iff (policy : TransportTuningPolicy) {table : SqlTable ℚ} {totalRows : ℕ}
    {minPk maxPk : Option PyNumber} {hasNullKeys : Bool}
    (hsum : Summarizes (tableKeys table target.pkColumns) totalRows minPk maxPk hasNullKeys)
    (strategy : PartitionStrategy) :
    ExactCover nullsFirst table
        (generatePartitions policy target totalRows minPk maxPk hasNullKeys strategy) ↔
      CoversExactly policy.parallelism strategy (tableKeys table target.pkColumns) hasNullKeys
        minPk maxPk := by
  unfold generatePartitions
  by_cases hempty : totalRows = 0
  · rw [if_pos hempty]
    have hkeys : tableKeys table target.pkColumns = [] :=
      List.length_eq_zero_iff.mp (hsum.total ▸ hempty)
    have hrows : table.rows = [] := List.map_eq_nil_iff.mp hkeys
    refine ⟨fun _ => .empty hkeys, fun _ => ⟨[], rfl, by simp, by simp [hrows]⟩⟩
  · rw [if_neg hempty]
    have hkeys : tableKeys table target.pkColumns ≠ [] := by
      intro hnil
      exact hempty (by rw [hsum.total, hnil]; rfl)
    -- without ranges, and when ranges are not cut either
    have hwhole : Unranged strategy minPk maxPk → (ExactCover nullsFirst table
            (.ok (withFallback target (nullPartitions target hasNullKeys))) ↔
          CoversExactly policy.parallelism strategy (tableKeys table target.pkColumns) hasNullKeys
            minPk maxPk) := by
      intro hunranged
      rw [exactCover_withFallback_iff]
      refine ⟨.whole hunranged, ?_⟩
      rintro (h | ⟨-, hnulls⟩ | ⟨lo, hi, range, step, m, rfl, rfl, hne, hnumeric, hrange, hm, hpos⟩)
      · exact absurd h hkeys
      · exact hnulls
      · rcases hunranged with h | h | ⟨lo', hi', hlo', hhi', -, hcase⟩
        · simp at h
        · simp at h
        · cases hlo'
          cases hhi'
          rcases hcase with h | ⟨range', hrange', hzero⟩
          · simp [h] at hnumeric
          · rw [hrange, Except.ok.injEq] at hrange'
            rw [← hrange', hm, Except.ok.injEq] at hzero
            omega
    cases hmin : minPk with
    | none =>
      subst hmin
      exact hwhole (.inl rfl)
    | some lo =>
      cases hmax : maxPk with
      | none =>
        subst hmin hmax
        exact hwhole (.inr (.inl rfl))
      | some hi =>
        subst hmin hmax
        dsimp only
        cases heq : lo.eq hi with
        | true =>
          rw [if_pos rfl]
          refine iff_of_false (not_exactCover_single nullsFirst target hsum heq) ?_
          rintro (h | ⟨hunranged, -⟩ | ⟨lo', hi', range, step, m, hlo', hhi', hne, -⟩)
          · exact hkeys h
          · rcases hunranged with h | h | ⟨lo', hi', hlo', hhi', hne, -⟩
            · simp at h
            · simp at h
            · rw [← Option.some.inj hlo', ← Option.some.inj hhi', heq] at hne
              simp at hne
          · rw [← Option.some.inj hlo', ← Option.some.inj hhi', heq] at hne
            simp at hne
        | false =>
          rw [if_neg (by simp)]
          cases hnumeric : strategy.isNumeric with
          | false =>
            rw [if_neg (by simp)]
            exact hwhole (.inr (.inr ⟨lo, hi, rfl, rfl, heq, .inl hnumeric⟩))
          | true =>
            rw [if_pos rfl]
            exact exactCover_numeric_iff nullsFirst target policy hsum hkeys heq hnumeric
              hwhole

/-! ### Two keys and a single key -/

/-- The target of the tables below. -/
def itemsTarget : PartitionTarget where
  tableName := "items"
  schemaName := "main"
  targetSchema := "main"
  pkColumns := ["id"]

/-- A table with one integer key column. -/
def keyTable (keys : List ℚ) : SqlTable ℚ where
  columns := ["id"]
  rows := keys.map fun k => [("id", some k)]
  columns_eq := by
    intro r hr
    obtain ⟨k, -, rfl⟩ := List.mem_map.mp hr
    rfl

theorem summarizes_keyTable :
    Summarizes (tableKeys (keyTable [0, 10]) ["id"]) 2 (some (.int 0)) (some (.int 10)) false := by
  have hkeys : tableKeys (keyTable [0, 10]) ["id"] = [some 0, some 10] := by decide +kernel
  rw [hkeys]
  refine ⟨rfl, by simp, ?_, ?_⟩
  · rintro lo ⟨⟩
    refine ⟨trivial, by simp [value], ?_⟩
    rintro k hk v ⟨⟩
    rcases (by simpa using hk : k = 0 ∨ k = 10) with rfl | rfl <;> norm_num
  · rintro hi ⟨⟩
    refine ⟨trivial, by simp [value], ?_⟩
    rintro k hk v ⟨⟩
    rcases (by simpa using hk : k = 0 ∨ k = 10) with rfl | rfl <;> norm_num

theorem rangesFit_keyTable : RangesFit (.int 0) (.int 10) (.float 5) 2 := by
  have h0 : rangeLiteral (.int 0) (.float 5) 0 = some 0 := by decide +kernel
  have h1 : rangeLiteral (.int 0) (.float 5) 1 = some 5 := by decide +kernel
  have hend : endLiteral (.int 10) = some 11 := by decide +kernel
  refine ⟨fun i hi => ?_, ⟨11, hend⟩, fun v k hv hk => ?_, fun k hk => ?_⟩
  · interval_cases i
    · exact ⟨0, h0⟩
    · exact ⟨5, h1⟩
  · rw [h0, Option.some.injEq] at hv
    have hk' : k = 0 := (Option.some.inj hk).symm
    rw [← hv, hk']
  · have hk' : k = 10 := (Option.some.inj hk).symm
    exact .inl ⟨11, hend, by rw [hk']; norm_num⟩

/-- The rule at work: two workers cover the keys 0 and 10. -/
theorem exactCover_keyTable : ExactCover true (keyTable [0, 10])
      (generatePartitions { parallelism := 2 } itemsTarget 2 (some (.int 0)) (some (.int 10))
        false .pkNumericRange) :=
  (exactCover_iff true itemsTarget { parallelism := 2 } summarizes_keyTable .pkNumericRange).mpr
    (.ranges (.int 0) (.int 10) (.int 10) (.float 5) 10 rfl rfl rfl rfl rfl (by decide +kernel)
      (by decide) (by decide +kernel) rangesFit_keyTable)

/-- **This fails for a table with a single key value**: its partition is
`id >= 5 AND id < 5`. -/
theorem not_exactCover_of_single_value :
    Summarizes (tableKeys (keyTable [5]) ["id"]) 1 (some (.int 5)) (some (.int 5)) false ∧
      ¬ ExactCover true (keyTable [5])
        (generatePartitions {} itemsTarget 1 (some (.int 5)) (some (.int 5)) false
          .pkNumericRange) := by
  have hkeys : tableKeys (keyTable [5]) ["id"] = [some 5] := by decide +kernel
  have hsum : Summarizes (tableKeys (keyTable [5]) ["id"]) 1 (some (.int 5)) (some (.int 5))
      false := by
    rw [hkeys]
    refine ⟨rfl, by simp, ?_, ?_⟩
    all_goals
      rintro b ⟨⟩
      refine ⟨trivial, by simp [value], ?_⟩
      rintro k hk v ⟨⟩
      rw [(by simpa using hk : k = 5)]
      norm_num
  exact ⟨hsum, not_exactCover_single true itemsTarget hsum (by decide +kernel)⟩

end Transport

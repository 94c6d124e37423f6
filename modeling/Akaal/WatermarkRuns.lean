/-
# Watermarks that never fall back

The watermarks that `save_watermark` of `akaalEngine/durability/checkpoint/registry.py` stores, over any
sequence of calls.  Watermarks are compared by their keys, and the key of an integer is the nearest float.

* `sound_along` : in runs where no plan is taken away and no lower integer has the same float, no stored
  watermark falls back.

Nested sequences are compared as lists.
-/
import Akaal.ProcessingRules
import Akaal.Watermarks

open CDC JsonText TransitionRun

namespace Durability

/-! ## Comparing keys -/

/-- The number that a value is compared as. -/
def numberOf : PyInput → Option PyFloat
  | .bool b => some (.finite (if b then 1 else 0))
  | .int z => some (.finite z)
  | .float x => some x
  | _ => none

/-- `==` of numbers; a nan equals nothing. -/
def numberEq : PyFloat → PyFloat → Bool
  | .nan, _ => false
  | _, .nan => false
  | x, y => !DataProcessing.PyFloat.less x y && !DataProcessing.PyFloat.less y x

mutual

/-- `==` of values. -/
def valueEq : PyInput → PyInput → Bool
  | .none, .none => true
  | .str s, .str t => s == t
  | .list vs, .list ws => elementsEq vs ws
  | .dict items, .dict items' => items.length == items'.length && itemsEq items items'
  | v, w => ((numberOf v).bind fun x => (numberOf w).map fun y => numberEq x y).getD false

/-- `==` of the elements of lists. -/
def elementsEq : List PyInput → List PyInput → Bool
  | [], [] => true
  | v :: vs, w :: ws => valueEq v w && elementsEq vs ws
  | _, _ => false

/-- Whether all items are those of a dictionary. -/
def itemsEq : List (PyKey × PyInput) → List (PyKey × PyInput) → Bool
  | [], _ => true
  | (key, v) :: items, items' => ((items'.lookup key).map fun w => valueEq v w).getD false && itemsEq items items'

end

mutual

/-- `<` of values; `none` when it raises. -/
def valueLess : PyInput → PyInput → Option Bool
  | .str s, .str t => some (s < t)
  | .list vs, .list ws => elementsLess vs ws
  | v, w => (numberOf v).bind fun x => (numberOf w).map fun y => DataProcessing.PyFloat.less x y

/-- `<` of lists: the first elements that differ decide. -/
def elementsLess : List PyInput → List PyInput → Option Bool
  | [], [] => some false
  | [], _ :: _ => some true
  | _ :: _, [] => some false
  | v :: vs, w :: ws => if valueEq v w then elementsLess vs ws else valueLess v w

end

section Keys

variable {δ : Type} (instantEq : δ → δ → Bool) (instantLess : δ → δ → Option Bool)

/-- `==` of components, which are tagged by their kind. -/
def componentEq : KeyComponent δ → KeyComponent δ → Bool
  | .instant d, .instant d' => instantEq d d'
  | .text s, .text t => s == t
  | .other v, .other w => valueEq v w
  | _, _ => false

/-- `<` of components: by kind, and within a kind by value. -/
def componentLess : KeyComponent δ → KeyComponent δ → Option Bool
  | .instant d, .instant d' => instantLess d d'
  | .text s, .text t => some (s < t)
  | .other v, .other w => valueLess v w
  | .instant _, _ => some true
  | .text _, .other _ => some true
  | _, _ => some false

/-- `<` of tuples: the first components that differ decide. -/
def tupleLess : List (KeyComponent δ) → List (KeyComponent δ) → Option Bool
  | [], [] => some false
  | [], _ :: _ => some true
  | _ :: _, [] => some false
  | c :: cs, d :: ds => if componentEq instantEq c d then tupleLess cs ds else componentLess instantLess c d

/-- `<` of keys; those of different types cannot be compared. -/
def keyLess : SortKey δ → SortKey δ → Option Bool
  | .number x, .number y => some (DataProcessing.PyFloat.less x y)
  | .instant d, .instant d' => instantLess d d'
  | .tuple cs, .tuple ds => tupleLess instantEq instantLess cs ds
  | _, _ => none

/-- The number that a value stands for: an integer itself, any other value the float it is read as. -/
def WatermarkRuntime.number (rt : WatermarkRuntime δ) : PyInput → Option PyFloat
  | .int z => some (.finite z)
  | v => rt.float v

/-- The nearest float. -/
def rounded : PyFloat → PyFloat
  | .finite q => .finite (binary64.nearest q)
  | x => x

/-- The runtime converts and compares as Python does. -/
structure WatermarkRuntime.Lawful (rt : WatermarkRuntime δ) : Prop where
  float_int : ∀ z, rt.float (.int z) = (PyNumber.floatOfInt z).toOption.map .finite
  float_other : ∀ v x, (∀ z, v ≠ .int z) → rt.float v = some x → rounded x = x
  float_list : ∀ vs, rt.float (.list vs) = none
  float_dict : ∀ items, rt.float (.dict items) = none
  less : ∃ instantEq instantLess, ∀ key key', rt.less key key' = keyLess instantEq instantLess key key'

/-- The float that a value is read as is the nearest one to its number. -/
theorem WatermarkRuntime.Lawful.exists_number {rt : WatermarkRuntime δ} (hrt : rt.Lawful) {v : PyInput}
    {k : PyFloat} (hk : rt.float v = some k) : ∃ x, rt.number v = some x ∧ k = rounded x := by
  cases v with
  | int z =>
    refine ⟨.finite z, rfl, ?_⟩
    rw [hrt.float_int] at hk
    unfold PyNumber.floatOfInt at hk
    cases hq : binary64.round (z : ℚ) with
    | none =>
      rw [hq] at hk
      cases hk
    | some q =>
      rw [hq] at hk
      rw [rounded, ← RoundSignificant.Format.nearest_of_round _ hq]
      exact (Option.some.inj hk).symm
  | _ => exact ⟨k, hk, (hrt.float_other _ k (by simp) hk).symm⟩

/-- Rounding keeps the order, but may make numbers equal. -/
theorem less_or_equal_rounded {x x' : PyFloat} (h : DataProcessing.PyFloat.less x' x = true) :
    DataProcessing.PyFloat.less (rounded x') (rounded x) = true ∨ numberEq (rounded x') (rounded x) = true := by
  have hzero : binary64.nearest 0 = 0 := RoundSignificant.Format.nearest_zero _
  cases x' with
  | finite q' =>
    cases x with
    | finite q =>
      rcases (binary64.nearest_mono (of_decide_eq_true h).le).lt_or_eq with hlt | heq
      · exact .inl (decide_eq_true hlt)
      · simp [rounded, heq, numberEq, DataProcessing.PyFloat.less]
    | negativeZero =>
      rcases (hzero ▸ binary64.nearest_mono (of_decide_eq_true h).le).lt_or_eq with hlt | heq
      · exact .inl (decide_eq_true hlt)
      · simp [rounded, heq, numberEq, DataProcessing.PyFloat.less]
    | infinite negative => cases negative <;> simp_all [rounded, DataProcessing.PyFloat.less]
    | nan => cases h
  | negativeZero =>
    cases x with
    | finite q =>
      rcases (hzero ▸ binary64.nearest_mono (of_decide_eq_true h).le).lt_or_eq with hlt | heq
      · exact .inl (decide_eq_true hlt)
      · simp [rounded, ← heq, numberEq, DataProcessing.PyFloat.less]
    | _ => exact .inl h
  | infinite negative => cases negative <;> cases x <;> simp_all [rounded, DataProcessing.PyFloat.less]
  | nan => cases h

end Keys

/-! ## Stored values -/

mutual

/-- No dictionary inside a value. -/
def NoDict : PyValue → Prop
  | .dict _ => False
  | .list vs => AllNoDict vs
  | _ => True

/-- No dictionary inside the elements of a list. -/
def AllNoDict : List PyValue → Prop
  | [] => True
  | v :: vs => NoDict v ∧ AllNoDict vs

end

/-- **A value without dictionaries** is read as it was written. -/
theorem ofValue_ordered (v : PyInput) {w : PyValue} (h : ordered v = .ok w) (hw : NoDict w) :
    ofValue w = v := by
  induction v using input_induction generalizing w with
  | hlist vs ih =>
    obtain ⟨ws, hws, rfl⟩ := (ordered_list_eq_ok_iff vs w).mp h
    have helements : ofElements ws = vs := by
      rw [orderedElements_eq_ok_iff] at hws
      clear h
      induction hws with
      | nil => rfl
      | cons hv hvs ihs =>
        obtain ⟨hfirst, hrest⟩ := hw
        rw [ofElements, ih _ List.mem_cons_self hv hfirst,
          ihs (fun v hv => ih v (List.mem_cons_of_mem _ hv)) hrest]
    rw [ofValue, helements]
  | hdict items =>
    obtain ⟨out, -, -, rfl⟩ := (ordered_dict_eq_ok_iff items w).mp h
    exact hw.elim
  | hother v hlist hdict =>
    cases v with
    | list vs => exact absurd rfl (hlist vs)
    | dict items => exact absurd rfl (hdict items)
    | other typeName => cases h
    | _ =>
      cases h
      rfl

/-! ## Runs -/

/-- A call of `save_watermark`, with the epochs it finds and the time. -/
structure WatermarkCall where
  watermark : Watermark
  token : FencingToken
  epochs : EpochTable
  now : String

section Runs

variable {δ : Type} (rt : WatermarkRuntime δ) (signingKey : List UInt8)

/-- What a call answers. -/
def WatermarkCall.perform (s : WatermarkTable) (call : WatermarkCall) : Except WatermarkError WatermarkTable :=
  saveWatermark rt signingKey call.epochs s call.watermark call.token call.now

/-- The table after a call: a call that raises is rolled back. -/
def watermarkStep (s : WatermarkTable) (call : WatermarkCall) : Option WatermarkTable :=
  some ((call.perform rt signingKey s).toOption.getD s)

/-- A row does not fall back behind another one: neither its epoch, nor its plan, nor its value, which stays
comparable. -/
structure Advances (row row' : WatermarkRow) : Prop where
  epoch : row.fencingEpoch ≤ row'.fencingEpoch
  plan : row.planFingerprint ≠ "" → row'.planFingerprint = row.planFingerprint
  type : row'.watermarkType = row.watermarkType
  number : row.watermarkType = .numeric → ∀ v x, loads row.valueJson = some v →
    rt.number (ofValue v) = some x → x ≠ .nan → ∃ w x', loads row'.valueJson = some w ∧
      rt.number (ofValue w) = some x' ∧ x' ≠ .nan ∧ DataProcessing.PyFloat.less x' x = false
  tuple : row.watermarkType = .compound → ∀ v w key key', loads row.valueJson = some v →
    loads row'.valueJson = some w → NoDict w → watermarkSortKey rt .compound (ofValue v) = .ok key →
    watermarkSortKey rt .compound (ofValue w) = .ok key' →
      (valueEq (ofValue v) (ofValue v) = true → valueEq (ofValue w) (ofValue w) = true) ∧
        rt.less key' key ≠ some true

/-- A call leaves every stored row as it is or lets it advance; one that is rejected leaves all as they are. -/
def SoundCall (s : WatermarkTable) (call : WatermarkCall) : Prop :=
  ∀ s', watermarkStep rt signingKey s call = some s' →
    (∀ e, call.perform rt signingKey s = .error e → s' = s) ∧
    ∀ migrationId tableName row, getWatermarkRow s migrationId tableName = some row →
      ∃ row', getWatermarkRow s' migrationId tableName = some row' ∧ (row' = row ∨ Advances rt row row')

/-- A watermark does not take away a plan, replaces nothing comparable by a nan, and is no number below the
stored one that has the same float. -/
structure Replaces (row : WatermarkRow) (watermark : Watermark) : Prop where
  plan : row.planFingerprint ≠ "" → watermark.planFingerprint ≠ ""
  number : row.watermarkType = .numeric → ∀ v x x', loads row.valueJson = some v →
    rt.number (ofValue v) = some x → rt.number watermark.value = some x' → x ≠ .nan →
      x' ≠ .nan ∧ (DataProcessing.PyFloat.less x' x = true → numberEq (rounded x') (rounded x) = false)
  tuple : row.watermarkType = .compound → ∀ v, loads row.valueJson = some v →
    valueEq (ofValue v) (ofValue v) = true → valueEq watermark.value watermark.value = true

/-- What a call brings may replace what is stored. -/
def KeepsBound (s : WatermarkTable) (call : WatermarkCall) : Prop :=
  ∀ row, getWatermarkRow s call.watermark.migrationId call.watermark.tableName = some row →
    Replaces rt row call.watermark

variable {rt signingKey}

theorem checkExisting_spec {watermark : Watermark} {row : WatermarkRow}
    (h : checkExisting rt watermark row = .ok ()) :
    (row.planFingerprint ≠ "" → watermark.planFingerprint ≠ "" →
      row.planFingerprint = watermark.planFingerprint) ∧
    row.fencingEpoch ≤ watermark.fencingEpoch ∧
    ∃ v key key', loads row.valueJson = some v ∧ watermarkSortKey rt row.watermarkType (ofValue v) = .ok key ∧
      watermarkSortKey rt watermark.watermarkType watermark.value = .ok key' ∧
      rt.less key' key = some false := by
  rw [checkExisting] at h
  split_ifs at h with hplan hepoch
  refine ⟨fun hrow hnew => by_contra fun hne => hplan ⟨hrow, hnew, hne⟩, not_lt.mp hepoch, ?_⟩
  split at h
  · cases h
  · next v hv =>
      obtain ⟨key, hkey, h⟩ := Traversal.bind_eq_ok_iff.mp h
      obtain ⟨key', hkey', h⟩ := Traversal.bind_eq_ok_iff.mp h
      split at h
      · cases h
      · cases h
      · next hless => exact ⟨v, key, key', hv, hkey, hkey', hless⟩

/-- The key of a number. -/
theorem watermarkSortKey_numeric {v : PyInput} {key : SortKey δ}
    (h : watermarkSortKey rt .numeric v = .ok key) : ∃ x, rt.float v = some x ∧ key = .number x := by
  by_cases hv : v = .none
  · subst hv
    cases h
  · rw [watermarkSortKey] at h
    · split at h
      · cases h
      · next x hx => exact ⟨x, hx, (Except.ok.inj h).symm⟩
    · exact hv

/-- The keys of different types cannot be compared. -/
theorem type_eq_of_less (hrt : rt.Lawful) {watermarkType watermarkType' : WatermarkType} {v w : PyInput}
    {key key' : SortKey δ} {b : Bool} (h : watermarkSortKey rt watermarkType v = .ok key)
    (h' : watermarkSortKey rt watermarkType' w = .ok key') (hless : rt.less key' key = some b) :
    watermarkType' = watermarkType := by
  have hkind : ∀ {watermarkType : WatermarkType} {v : PyInput} {key : SortKey δ},
      watermarkSortKey rt watermarkType v = .ok key → watermarkType = match key with
        | .number _ => .numeric
        | .instant _ => .timestamp
        | .tuple _ => .compound := by
    intro watermarkType v key h
    cases watermarkType with
    | numeric =>
      obtain ⟨x, -, rfl⟩ := watermarkSortKey_numeric h
      rfl
    | timestamp =>
      rw [watermarkSortKey] at h
      split_ifs at h
      split at h
      · cases h
      · cases h
        rfl
    | compound =>
      rw [watermarkSortKey.eq_def] at h
      cases v <;> cases h <;> rfl
  obtain ⟨instantEq, instantLess, hkeys⟩ := hrt.less
  rw [hkeys] at hless
  rw [hkind h, hkind h']
  cases key <;> cases key' <;> first | rfl | cases hless

/-- Setting a row leaves the other ones. -/
theorem getWatermarkRow_set_of_ne {s : WatermarkTable} {migrationId tableName migrationId' tableName' : String}
    (row : WatermarkRow) (hne : ¬ (migrationId' = migrationId ∧ tableName' = tableName)) :
    getWatermarkRow (setWatermarkRow s migrationId tableName row) migrationId' tableName' =
      getWatermarkRow s migrationId' tableName' := by
  rw [getWatermarkRow, setWatermarkRow, getWatermarkRow]
  by_cases hmigration : migrationId' = migrationId
  · subst hmigration
    have htable : tableName' ≠ tableName := fun h => hne ⟨rfl, h⟩
    rw [PyDict.get?_set, Option.bind_some, PyDict.get?_set_of_ne _ _ htable]
    cases s.get? migrationId' <;> rfl
  · rw [PyDict.get?_set_of_ne _ _ hmigration]

/-- What can be read as a float has no dictionary. -/
theorem noDict_of_float (hrt : rt.Lawful) {v : PyInput} {k : PyFloat} (hk : rt.float v = some k)
    {w : PyValue} (hw : ordered v = .ok w) : NoDict w := by
  cases v with
  | list vs =>
    rw [hrt.float_list] at hk
    cases hk
  | dict items =>
    rw [hrt.float_dict] at hk
    cases hk
  | _ =>
    cases hw
    try trivial

/-- **A watermark that is saved** over another one is not behind it. -/
theorem advances_of_checkExisting (hrt : rt.Lawful) {watermark : Watermark} {row : WatermarkRow}
    {valueJson data now : String} (hcheck : checkExisting rt watermark row = .ok ())
    (hreplaces : Replaces rt row watermark) (hvalue : dumpsSorted watermark.value = .ok valueJson) :
    Advances rt row (watermarkRow rt watermark valueJson data now) := by
  obtain ⟨hsame, hepoch, v, key, key', hv, hkey, hkey', hless⟩ := checkExisting_spec hcheck
  have htype := type_eq_of_less hrt hkey hkey' hless
  obtain ⟨u, hordered, -, -, hloads⟩ := loads_dumpsSorted watermark.isInput hvalue
  refine ⟨hepoch, fun hbound => (hsame hbound (hreplaces.plan hbound)).symm, htype,
    fun hnumeric v' x hv' hx hnan => ?_, fun hcompound v' w k k' hv' hw hflat hk hk' => ?_⟩
  · obtain rfl : v = v' := Option.some.inj (hv.symm.trans hv')
    rw [hnumeric] at hkey
    rw [htype, hnumeric] at hkey'
    obtain ⟨k, hk, rfl⟩ := watermarkSortKey_numeric hkey
    obtain ⟨k', hk', rfl⟩ := watermarkSortKey_numeric hkey'
    have hstored := ofValue_ordered watermark.value hordered (noDict_of_float hrt hk' hordered)
    obtain ⟨y, hy, rfl⟩ := hrt.exists_number hk
    obtain rfl : x = y := Option.some.inj (hx.symm.trans hy)
    obtain ⟨x', hx', rfl⟩ := hrt.exists_number hk'
    obtain ⟨hnan', hround⟩ := hreplaces.number hnumeric v x x' hv hx hx' hnan
    refine ⟨u, x', hloads, hstored ▸ hx', hnan', ?_⟩
    obtain ⟨instantEq, instantLess, hkeys⟩ := hrt.less
    rw [hkeys] at hless
    by_contra hlower
    rcases less_or_equal_rounded (by simpa using hlower) with hlt | heq
    · rw [keyLess, hlt] at hless
      cases hless
    · rw [hround (by simpa using hlower)] at heq
      cases heq
  · obtain rfl : v = v' := Option.some.inj (hv.symm.trans hv')
    obtain rfl : u = w := Option.some.inj (hloads.symm.trans hw)
    have hstored := ofValue_ordered watermark.value hordered hflat
    rw [hcompound] at hkey
    rw [htype, hcompound, ← hstored] at hkey'
    obtain rfl := Except.ok.inj (hkey.symm.trans hk)
    obtain rfl := Except.ok.inj (hkey'.symm.trans hk')
    rw [hless, hstored]
    exact ⟨hreplaces.tuple hcompound v hv, by simp⟩

/-- **One call.** -/
theorem soundCall_of_keepsBound (hrt : rt.Lawful) {s : WatermarkTable} {call : WatermarkCall}
    (hkeeps : KeepsBound rt s call) : SoundCall rt signingKey s call := by
  intro s' hstep
  cases hstep
  cases hsave : call.perform rt signingKey s with
  | error e => exact ⟨fun _ _ => rfl, fun _ _ row hrow => ⟨row, hrow, .inl rfl⟩⟩
  | ok s' =>
    refine ⟨fun e herror => (by cases herror), fun migrationId tableName row hrow => ?_⟩
    obtain ⟨-, -, hcheck, valueJson, data, hvalue, hs'⟩ := saveWatermark_writes hsave
    show ∃ row', getWatermarkRow s' migrationId tableName = some row' ∧ _
    rw [hs']
    by_cases hkey : migrationId = call.watermark.migrationId ∧ tableName = call.watermark.tableName
    · obtain ⟨rfl, rfl⟩ := hkey
      refine ⟨_, getWatermarkRow_set _ _ _ _, .inr ?_⟩
      rw [checkWatermark, hrow] at hcheck
      exact advances_of_checkExisting hrt hcheck (hkeeps row hrow) hvalue
    · exact ⟨row, (getWatermarkRow_set_of_ne _ hkey).trans hrow, .inl rfl⟩

/-- **Stored watermarks never fall back** along a run whose calls take away no plan and bring neither a nan nor
a lower number with the same float. -/
theorem sound_along (rt : WatermarkRuntime δ) (hrt : rt.Lawful) (signingKey : List UInt8) (s : WatermarkTable)
    (calls : List WatermarkCall) (hkeeps : MeetsAlong (watermarkStep rt signingKey) (KeepsBound rt) s calls) :
    MeetsAlong (watermarkStep rt signingKey) (SoundCall rt signingKey) s calls := by
  refine meetsAlong_of_meetsAlong (I := fun _ => True) (fun s call s' _ hcall _ => ⟨?_, trivial⟩) trivial hkeeps
  exact soundCall_of_keepsBound hrt hcall

end Runs

/-- A runtime that reads no text as a timestamp. -/
def plainRuntime : WatermarkRuntime ℕ where
  toDigestRuntime := JournalRun.textRuntime
  float v := match v with
    | .int z => (PyNumber.floatOfInt z).toOption.map .finite
    | _ => none
  text _ := ""
  fromIsoFormat _ := none
  less := keyLess (fun d d' => d == d') fun d d' => some (d < d')

theorem plainRuntime_lawful : plainRuntime.Lawful where
  float_int _ := rfl
  float_other v x hint h := by
    cases v with
    | int z => exact absurd rfl (hint z)
    | _ => cases h
  float_list _ := rfl
  float_dict _ := rfl
  less := ⟨_, _, fun _ _ => rfl⟩

/-- A watermark of a plan. -/
def planCall (planFingerprint : String) : WatermarkCall where
  watermark :=
    { migrationId := "m"
      tableName := "t"
      watermarkType := .compound
      value := .str "a"
      planFingerprint := planFingerprint
      executionId := "e"
      fencingEpoch := 1
      isInput := trivial }
  token := (issueToken JournalRun.textRuntime [] .empty "m" "w" "2024-01-01").1
  epochs := (issueToken JournalRun.textRuntime [] .empty "m" "w" "2024-01-01").2
  now := "2024-01-02"

/-- The watermark is saved twice. -/
theorem sound_of_repeated : MeetsAlong (watermarkStep plainRuntime []) (SoundCall plainRuntime []) .empty
    [planCall "p", planCall "p"] := by
  refine sound_along plainRuntime plainRuntime_lawful [] .empty _ fun s hs => ⟨fun row hrow => ?_, ?_⟩
  · cases hrow
  · cases hs
    refine fun s hs => ⟨fun row hrow => ?_, trivial⟩
    cases hrow
    exact ⟨fun _ => by decide, fun hnumeric => (by cases hnumeric), fun _ _ _ _ => rfl⟩

/-- A watermark without a plan takes the bound plan away. -/
theorem not_sound_of_noPlan : ¬ MeetsAlong (watermarkStep plainRuntime []) (SoundCall plainRuntime []) .empty
    [planCall "p", planCall ""] := by
  intro h
  obtain ⟨-, hrows⟩ := ((h _ rfl).2 _ rfl).1 _ rfl
  obtain ⟨row', hrow', hsame | hadvances⟩ := hrows "m" "t" _ rfl
  · rw [hsame] at hrow'
    exact absurd (congrArg (Option.map WatermarkRow.planFingerprint) hrow') (by decide)
  · cases hrow'
    exact absurd (hadvances.plan (by decide)) (by decide)

end Durability

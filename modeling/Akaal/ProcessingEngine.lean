/-
# The processing engine

`transform_row` and `transform_batch` of `ProcessingEngine` in
`data_processing/engine/processing_engine.py`.  A batch of several rows keeps one survivor of
each key; each of these passes the filter, then the check for keys seen, then the rules.

A run should emit, for every key that has a row passing the filter and the rules, exactly one
such row.

* `transformRows_spec` : what a batch emits and what it marks as seen;
* `exactlyOnce_iff` : a run does so precisely when every key with such a row is delivered: some
  call, in which nothing raises, finds the key unseen and its survivor passing the filter and
  the rules.
-/
import Akaal.RowDeduplicator

namespace DataProcessing

/-! ## Rows and batches -/

/-- `ProcessingPlan`. -/
structure ProcessingPlan where
  compiledRules : List TransformationRule
  filterPredicate : Option AstNode
  dedup : DedupOptions

section Engine

variable (rt : PyRuntime) (secretResolver : Option (String → Except PyRaise (List UInt8)))
  (plan : ProcessingPlan)

/-- The filter predicate on a row. -/
def filterPasses (row : PyRow) : Except PyRaise Bool :=
  match plan.filterPredicate with
  | none => .ok true
  | some predicate => (evaluate rt row predicate).map rt.truth

/-- The compiled rules on a row. -/
def rulesResult (row : PyRow) : Except PyRaise ProcessingResult :=
  applyRules rt secretResolver plan.compiledRules row []

/-- `transform_row`, with the deduplicator after it. -/
def transformRow (d : RowDeduplicator) (row : PyRow) :
    Except PyRaise ProcessingResult × RowDeduplicator :=
  match filterPasses rt plan row with
  | .error e => (.error e, d)
  | .ok false => (.ok .filtered, d)
  | .ok true =>
    match isDuplicate rt d row plan.dedup.keyColumns with
    | .error e => (.error e, d)
    | .ok (true, d') => (.ok .filtered, d')
    | .ok (false, d') => (rulesResult rt secretResolver plan row, d')

/-- The rows of a batch in order, each with its result. -/
def transformRows : RowDeduplicator → List PyRow →
    Except PyRaise (List (PyRow × ProcessingResult)) × RowDeduplicator
  | d, [] => (.ok [], d)
  | d, row :: rows =>
    match transformRow rt secretResolver plan d row with
    | (.error e, d') => (.error e, d')
    | (.ok result, d') =>
      match transformRows d' rows with
      | (.error e, d'') => (.error e, d'')
      | (.ok results, d'') => (.ok ((row, result) :: results), d'')

/-- The rows of a batch that are transformed: its survivors, when it has several rows. -/
def batchRecords (batch : List PyRow) : Except PyRaise (List PyRow) :=
  if plan.dedup.keyColumns ≠ [] ∧ 1 < batch.length then
    (deduplicateBatch rt plan.dedup batch).map Prod.fst
  else .ok batch

/-- `transform_batch`, with the deduplicator after it. -/
def transformBatch (d : RowDeduplicator) (batch : List PyRow) :
    Except PyRaise (List (PyRow × ProcessingResult)) × RowDeduplicator :=
  match batchRecords rt plan batch with
  | .error e => (.error e, d)
  | .ok rows => transformRows rt secretResolver plan d rows

/-- The successful rows among results, each with its transformed row. -/
def successes (results : List (PyRow × ProcessingResult)) : List (PyRow × PyRow) :=
  results.filterMap fun r => r.2.transformedRow?.map fun row => (r.1, row)

/-- The rows a call emits; a call that raises emits none. -/
def emittedRows : Except PyRaise (List (PyRow × ProcessingResult)) → List (PyRow × PyRow)
  | .ok results => successes results
  | .error _ => []

/-- The rows a run over batches emits, each with the input row it comes from. -/
def runBatches : RowDeduplicator → List (List PyRow) → List (PyRow × PyRow)
  | _, [] => []
  | d, batch :: batches =>
    emittedRows (transformBatch rt secretResolver plan d batch).1 ++
      runBatches (transformBatch rt secretResolver plan d batch).2 batches

/-! ## What a run should emit -/

/-- The key of a row. -/
def rowKey (row : PyRow) : String := computeKeyHash rt row plan.dedup.keyColumns

/-- A row passes the filter and the rules, which give the transformed row. -/
def Accepts (row transformed : PyRow) : Prop :=
  filterPasses rt plan row = .ok true ∧
    ∃ diagnostics, rulesResult rt secretResolver plan row = .ok (.success transformed diagnostics)

/-- The number of rows with a key among the emitted ones. -/
def emittedCount (key : String) (emitted : List (PyRow × PyRow)) : ℕ :=
  emitted.countP fun e => rowKey rt plan e.1 = key

/-- For every key with an accepted row among the inputs exactly one row is emitted, and only
accepted rows of the inputs are emitted. -/
def ExactlyOnce (d : RowDeduplicator) (batches : List (List PyRow)) : Prop :=
  (∀ key, (∃ row ∈ batches.flatten, rowKey rt plan row = key ∧
      ∃ t, Accepts rt secretResolver plan row t) →
    emittedCount rt plan key (runBatches rt secretResolver plan d batches) = 1) ∧
  ∀ e ∈ runBatches rt secretResolver plan d batches,
    e.1 ∈ batches.flatten ∧ Accepts rt secretResolver plan e.1 e.2

/-! ## What decides it -/

/-- A row raises: its filter does, or its key was not seen and a rule does. -/
def Raises (d : RowDeduplicator) (row : PyRow) : Prop :=
  (∃ e, filterPasses rt plan row = .error e) ∨
    (filterPasses rt plan row = .ok true ∧ rowKey rt plan row ∉ d.seenKeys ∧
      ∃ e, rulesResult rt secretResolver plan row = .error e)

/-- A row is emitted: its key was not seen and it is accepted. -/
def Emits (d : RowDeduplicator) (row transformed : PyRow) : Prop :=
  rowKey rt plan row ∉ d.seenKeys ∧ Accepts rt secretResolver plan row transformed

/-- A call delivers a key: none of the rows it transforms raises, and one of them has the key
and is emitted. -/
def Delivers (d : RowDeduplicator) (batch : List PyRow) (key : String) : Prop :=
  ∃ rows, batchRecords rt plan batch = .ok rows ∧
    (∀ row ∈ rows, ¬ Raises rt secretResolver plan d row) ∧
    ∃ row ∈ rows, rowKey rt plan row = key ∧ ∃ t, Emits rt secretResolver plan d row t

/-- Some call of a run delivers the key. -/
def Delivered : RowDeduplicator → List (List PyRow) → String → Prop
  | _, [], _ => False
  | d, batch :: batches, key => Delivers rt secretResolver plan d batch key ∨
      Delivered (transformBatch rt secretResolver plan d batch).2 batches key

end Engine

variable {rt : PyRuntime} {secretResolver : Option (String → Except PyRaise (List UInt8))}
  {plan : ProcessingPlan}

/-! ## One row -/

/-- What transforming a row does. -/
structure RowSpec (rt : PyRuntime) (secretResolver : Option (String → Except PyRaise (List UInt8)))
    (plan : ProcessingPlan) (keys : Finset String) (d : RowDeduplicator) (row : PyRow)
    (out : Except PyRaise ProcessingResult × RowDeduplicator) : Prop where
  raises : (∃ e, out.1 = .error e) ↔ Raises rt secretResolver plan d row
  emits : ∀ result, out.1 = .ok result → ∀ t,
    result.transformedRow? = some t ↔ Emits rt secretResolver plan d row t
  window : WindowOk out.2 keys
  grows : d.seenKeys ⊆ out.2.seenKeys
  onlyKey : ∀ k ∈ out.2.seenKeys, k ∈ d.seenKeys ∨ k = rowKey rt plan row
  marks : ∀ t, Emits rt secretResolver plan d row t → rowKey rt plan row ∈ out.2.seenKeys

variable {d : RowDeduplicator}

/-- **One row.**  In a window with room it raises, is emitted and marks its key as the
predicates say. -/
theorem transformRow_spec {keys : Finset String} (hcols : plan.dedup.keyColumns ≠ [])
    (hd : WindowOk d keys) {row : PyRow} (hrow : rowKey rt plan row ∈ keys) :
    RowSpec rt secretResolver plan keys d row (transformRow rt secretResolver plan d row) := by
  -- a row that is filtered leaves everything as it is
  have hfiltered : (¬ Raises rt secretResolver plan d row) →
      (∀ t, ¬ Emits rt secretResolver plan d row t) →
      RowSpec rt secretResolver plan keys d row (.ok .filtered, d) := by
    intro hraise hemit
    refine ⟨by simp [hraise], ?_, hd, subset_rfl, fun k hk => .inl hk,
      fun t ht => absurd ht (hemit t)⟩
    rintro _ ⟨⟩ t
    simp [ProcessingResult.transformedRow?, hemit]
  rw [transformRow]
  cases hfilter : filterPasses rt plan row with
  | error e =>
    have hemit : ∀ t, ¬ Emits rt secretResolver plan d row t := by
      rintro t ⟨-, hpass, -⟩
      rw [hfilter] at hpass
      cases hpass
    refine ⟨?_, ?_, hd, subset_rfl, fun k hk => .inl hk, fun t ht => absurd ht (hemit t)⟩
    · simp [Raises, hfilter]
    · rintro _ ⟨⟩
  | ok passes =>
    cases passes with
    | false =>
      refine hfiltered ?_ ?_
      · simp [Raises, hfilter]
      · rintro t ⟨-, hpass, -⟩
        rw [hfilter] at hpass
        cases hpass
    | true =>
      rcases isDuplicate_of_room hd hcols hrow with ⟨hseen, hdup⟩ | ⟨hnew, d', hdup, hd', hkeys⟩
      · simp only [hdup]
        refine hfiltered ?_ ?_
        · rintro (⟨e, he⟩ | ⟨-, hnot, -⟩)
          · rw [hfilter] at he
            cases he
          · exact hnot hseen
        · rintro t ⟨hnot, -⟩
          exact hnot hseen
      · simp only [hdup]
        refine ⟨?_, ?_, hd', ?_, ?_, ?_⟩
        · constructor
          · rintro ⟨e, he⟩
            exact .inr ⟨hfilter, hnew, e, he⟩
          · rintro (⟨e, he⟩ | ⟨-, -, e, he⟩)
            · rw [hfilter] at he
              cases he
            · exact ⟨e, he⟩
        · intro result hresult t
          have hresult : rulesResult rt secretResolver plan row = .ok result := hresult
          constructor
          · intro ht
            cases result with
            | success row' diagnostics =>
              cases ht
              exact ⟨hnew, hfilter, diagnostics, hresult⟩
            | filtered => cases ht
            | rejected diagnostics => cases ht
            | quarantined diagnostics metadata => cases ht
          · rintro ⟨-, -, diagnostics, hsuccess⟩
            rw [hsuccess] at hresult
            cases hresult
            rfl
        · rw [hkeys]
          exact Finset.subset_insert _ _
        · intro k hk
          rw [hkeys] at hk
          rcases Finset.mem_insert.mp hk with rfl | hold
          · exact .inr rfl
          · exact .inl hold
        · intro t _
          rw [hkeys]
          exact Finset.mem_insert_self _ _

/-! ## The rows of a batch -/

/-- A row with another key raises and is emitted after a row as before it. -/
theorem raises_emits_congr {d' : RowDeduplicator} {row : PyRow}
    (h : rowKey rt plan row ∈ d'.seenKeys ↔ rowKey rt plan row ∈ d.seenKeys) :
    (Raises rt secretResolver plan d' row ↔ Raises rt secretResolver plan d row) ∧
      ∀ t, Emits rt secretResolver plan d' row t ↔ Emits rt secretResolver plan d row t := by
  simp only [Raises, Emits, h, true_and]
  exact fun _ => trivial

/-- What transforming the rows of a batch does. -/
structure RowsSpec (rt : PyRuntime) (secretResolver : Option (String → Except PyRaise (List UInt8)))
    (plan : ProcessingPlan) (keys : Finset String) (d : RowDeduplicator) (rows : List PyRow)
    (out : Except PyRaise (List (PyRow × ProcessingResult)) × RowDeduplicator) : Prop where
  raises : (∃ e, out.1 = .error e) ↔ ∃ row ∈ rows, Raises rt secretResolver plan d row
  emitted : ∀ e ∈ emittedRows out.1, e.1 ∈ rows ∧ Emits rt secretResolver plan d e.1 e.2
  emits : (∀ row ∈ rows, ¬ Raises rt secretResolver plan d row) → ∀ row ∈ rows, ∀ t,
    Emits rt secretResolver plan d row t →
      emittedCount rt plan (rowKey rt plan row) (emittedRows out.1) = 1
  window : WindowOk out.2 keys
  grows : d.seenKeys ⊆ out.2.seenKeys
  marks : ∀ e ∈ emittedRows out.1, rowKey rt plan e.1 ∈ out.2.seenKeys

theorem emittedCount_eq_zero {key : String} {emitted : List (PyRow × PyRow)}
    (h : ∀ e ∈ emitted, rowKey rt plan e.1 ≠ key) : emittedCount rt plan key emitted = 0 := by
  rw [emittedCount, List.countP_eq_zero]
  intro e he
  simpa using h e he

theorem emittedCount_append (key : String) (l m : List (PyRow × PyRow)) :
    emittedCount rt plan key (l ++ m) = emittedCount rt plan key l + emittedCount rt plan key m :=
  List.countP_append

/-- What one result emits. -/
def rowSuccess (row : PyRow) (result : ProcessingResult) : List (PyRow × PyRow) :=
  (result.transformedRow?.map fun t => (row, t)).toList

theorem mem_rowSuccess {row : PyRow} {result : ProcessingResult} {e : PyRow × PyRow} :
    e ∈ rowSuccess row result ↔ result.transformedRow? = some e.2 ∧ e.1 = row := by
  obtain ⟨source, t⟩ := e
  cases h : result.transformedRow? with
  | none => simp [rowSuccess, h]
  | some t' => simp [rowSuccess, h, and_comm, eq_comm]

theorem successes_cons (row : PyRow) (result : ProcessingResult)
    (results : List (PyRow × ProcessingResult)) :
    successes ((row, result) :: results) = rowSuccess row result ++ successes results := by
  rw [successes, List.filterMap_cons, rowSuccess]
  cases result.transformedRow? <;> rfl

/-- **The rows of a batch.**  With distinct keys in a window with room, they raise, are emitted
and mark their keys as the predicates say of the window before the first of them. -/
theorem transformRows_spec {keys : Finset String} (hcols : plan.dedup.keyColumns ≠ [])
    (hd : WindowOk d keys) {rows : List PyRow}
    (hnodup : (rows.map (rowKey rt plan)).Nodup) (hrows : ∀ row ∈ rows, rowKey rt plan row ∈ keys) :
    RowsSpec rt secretResolver plan keys d rows (transformRows rt secretResolver plan d rows) := by
  induction rows generalizing d with
  | nil =>
    refine ⟨by simp [transformRows], ?_, by simp, hd, subset_rfl, ?_⟩ <;>
      simp [transformRows, emittedRows, successes]
  | cons row rows ih =>
    obtain ⟨hfresh, hnodup'⟩ := List.nodup_cons.mp hnodup
    obtain ⟨hrow, hrows'⟩ := List.forall_mem_cons.mp hrows
    have hs : RowSpec rt secretResolver plan keys d row _ := transformRow_spec hcols hd hrow
    have hne : ∀ q ∈ rows, rowKey rt plan q ≠ rowKey rt plan row := by
      intro q hq heq
      exact hfresh (heq ▸ List.mem_map_of_mem hq)
    rw [transformRows]
    generalize transformRow rt secretResolver plan d row = first at hs ⊢
    obtain ⟨out, d'⟩ := first
    cases out with
    | error e =>
      have hraise : Raises rt secretResolver plan d row := hs.raises.mp ⟨e, rfl⟩
      refine ⟨?_, by simp [emittedRows], ?_, hs.window, hs.grows, by simp [emittedRows]⟩
      · exact ⟨fun _ => ⟨row, List.mem_cons_self, hraise⟩, fun _ => ⟨e, rfl⟩⟩
      · intro hno
        exact absurd hraise (hno row List.mem_cons_self)
    | ok result =>
      have hquiet : ¬ Raises rt secretResolver plan d row := by
        rw [← hs.raises]
        rintro ⟨e, ⟨⟩⟩
      have hrest := ih hs.window hnodup' hrows'
      -- the other rows have other keys, so that they see the window as it was
      have hsame : ∀ q ∈ rows, (Raises rt secretResolver plan d' q ↔
          Raises rt secretResolver plan d q) ∧ ∀ t,
          Emits rt secretResolver plan d' q t ↔ Emits rt secretResolver plan d q t := by
        intro q hq
        refine raises_emits_congr ⟨fun h => ?_, fun h => hs.grows h⟩
        rcases hs.onlyKey _ h with hold | heq
        · exact hold
        · exact absurd heq (hne q hq)
      have hraises : (∃ q ∈ rows, Raises rt secretResolver plan d' q) ↔
          ∃ q ∈ row :: rows, Raises rt secretResolver plan d q := by
        simp only [List.mem_cons, exists_eq_or_imp, hquiet, false_or]
        exact exists_congr fun q => and_congr_right fun hq => (hsame q hq).1
      simp only
      generalize transformRows rt secretResolver plan d' rows = others at hrest ⊢
      obtain ⟨out', d''⟩ := others
      cases out' with
      | error e =>
        have hraise := hraises.mp (hrest.raises.mp ⟨e, rfl⟩)
        refine ⟨⟨fun _ => hraise, fun _ => ⟨e, rfl⟩⟩, by simp [emittedRows], ?_, hrest.window,
          hs.grows.trans hrest.grows, by simp [emittedRows]⟩
        intro hno
        obtain ⟨q, hq, hqr⟩ := hraise
        exact absurd hqr (hno q hq)
      | ok results =>
        have hhead : ∀ t, result.transformedRow? = some t ↔
            Emits rt secretResolver plan d row t := hs.emits result rfl
        have htail : ∀ e ∈ successes results,
            e.1 ∈ rows ∧ Emits rt secretResolver plan d e.1 e.2 := by
          intro e he
          obtain ⟨hmem, hemit⟩ := hrest.emitted e he
          exact ⟨hmem, ((hsame e.1 hmem).2 e.2).mp hemit⟩
        have hsplit : emittedRows (.ok ((row, result) :: results)) = _ :=
          successes_cons row result results
        refine ⟨?_, ?_, ?_, hrest.window, hs.grows.trans hrest.grows, ?_⟩
        · rw [← hraises, ← hrest.raises]
          constructor <;> rintro ⟨e, ⟨⟩⟩
        · rw [hsplit]
          intro e he
          rcases List.mem_append.mp he with hfirst | hlater
          · obtain ⟨ht, hsource⟩ := mem_rowSuccess.mp hfirst
            rw [hsource]
            exact ⟨List.mem_cons_self, (hhead _).mp ht⟩
          · obtain ⟨hmem, hemit⟩ := htail e hlater
            exact ⟨List.mem_cons_of_mem _ hmem, hemit⟩
        · intro hno q hq t hemit
          rw [hsplit, emittedCount_append]
          rcases List.mem_cons.mp hq with rfl | hq
          · have hlater : emittedCount rt plan (rowKey rt plan q) (successes results) = 0 :=
              emittedCount_eq_zero fun e he => hne e.1 (htail e he).1
            rw [hlater, rowSuccess, (hhead t).mpr hemit]
            simp [emittedCount]
          · have hone := hrest.emits
              (fun r hr => by
                rw [(hsame r hr).1]
                exact hno r (List.mem_cons_of_mem _ hr))
              q hq t (((hsame q hq).2 t).mpr hemit)
            have hfirst : emittedCount rt plan (rowKey rt plan q)
                (rowSuccess row result) = 0 := by
              refine emittedCount_eq_zero fun e he => ?_
              rw [(mem_rowSuccess.mp he).2]
              exact (hne q hq).symm
            rw [hfirst, Nat.zero_add]
            exact hone
        · rw [hsplit]
          intro e he
          rcases List.mem_append.mp he with hfirst | hlater
          · obtain ⟨ht, hsource⟩ := mem_rowSuccess.mp hfirst
            rw [hsource]
            exact hrest.grows (hs.marks _ ((hhead _).mp ht))
          · exact hrest.marks e hlater

/-! ## One call -/

theorem batchRecords_spec (hcols : plan.dedup.keyColumns ≠ []) (hkeep : KeepsSurvivor rt plan.dedup)
    {batch rows : List PyRow} (h : batchRecords rt plan batch = .ok rows) :
    (rows.map (rowKey rt plan)).Nodup ∧ ∀ row ∈ rows, row ∈ batch := by
  rw [batchRecords] at h
  split_ifs at h with hlen
  · cases hdedup : deduplicateBatch rt plan.dedup batch with
    | error e =>
      rw [hdedup] at h
      cases h
    | ok r =>
      rw [hdedup] at h
      cases h
      exact deduplicateBatch_spec hkeep hdedup
  · cases h
    have hshort : batch.length ≤ 1 := by
      by_contra hlong
      exact hlen ⟨hcols, by omega⟩
    refine ⟨?_, fun row hrow => hrow⟩
    rcases batch with _ | ⟨row, _ | ⟨row', rest⟩⟩
    · exact List.nodup_nil
    · exact List.nodup_singleton _
    · simp at hshort

/-- What one call does. -/
structure BatchSpec (rt : PyRuntime) (secretResolver : Option (String → Except PyRaise (List UInt8)))
    (plan : ProcessingPlan) (keys : Finset String) (d : RowDeduplicator) (batch : List PyRow)
    (out : Except PyRaise (List (PyRow × ProcessingResult)) × RowDeduplicator) : Prop where
  emitted : ∀ e ∈ emittedRows out.1, e.1 ∈ batch ∧ Emits rt secretResolver plan d e.1 e.2
  delivers : ∀ key, Delivers rt secretResolver plan d batch key →
    emittedCount rt plan key (emittedRows out.1) = 1
  lacks : ∀ key, ¬ Delivers rt secretResolver plan d batch key →
    emittedCount rt plan key (emittedRows out.1) = 0
  window : WindowOk out.2 keys
  grows : d.seenKeys ⊆ out.2.seenKeys
  marks : ∀ e ∈ emittedRows out.1, rowKey rt plan e.1 ∈ out.2.seenKeys

/-- **One call.**  It emits one row of every key it delivers and no other row. -/
theorem transformBatch_spec {keys : Finset String} (hcols : plan.dedup.keyColumns ≠ [])
    (hkeep : KeepsSurvivor rt plan.dedup) (hd : WindowOk d keys)
    {batch : List PyRow} (hbatch : ∀ row ∈ batch, rowKey rt plan row ∈ keys) :
    BatchSpec rt secretResolver plan keys d batch
      (transformBatch rt secretResolver plan d batch) := by
  rw [transformBatch]
  cases hrecords : batchRecords rt plan batch with
  | error e =>
    refine ⟨by simp [emittedRows], ?_, fun key _ => by simp [emittedRows, emittedCount], hd,
      subset_rfl, by simp [emittedRows]⟩
    rintro key ⟨rows, hrows, -⟩
    rw [hrecords] at hrows
    cases hrows
  | ok rows =>
    obtain ⟨hnodup, hmem⟩ := batchRecords_spec hcols hkeep hrecords
    have hs : RowsSpec rt secretResolver plan keys d rows _ :=
      transformRows_spec hcols hd hnodup fun row hrow => hbatch row (hmem row hrow)
    refine ⟨fun e he => ⟨hmem _ (hs.emitted e he).1, (hs.emitted e he).2⟩, ?_, ?_, hs.window,
      hs.grows, hs.marks⟩
    · rintro key ⟨rows', hrows', hquiet, row, hrow, rfl, t, hemit⟩
      rw [hrecords] at hrows'
      cases hrows'
      exact hs.emits hquiet row hrow t hemit
    · intro key hno
      refine emittedCount_eq_zero fun e he hkey => hno ⟨rows, hrecords, ?_, e.1,
        (hs.emitted e he).1, hkey, e.2, (hs.emitted e he).2⟩
      -- a call that emits a row did not raise
      intro row hrow hraise
      obtain ⟨x, hx⟩ := hs.raises.mpr ⟨row, hrow, hraise⟩
      simp only [hx, emittedRows, List.not_mem_nil] at he

/-! ## A run -/

/-- A run emits rows of its inputs that are accepted and whose keys were not seen before it. -/
theorem mem_runBatches {keys : Finset String} (hcols : plan.dedup.keyColumns ≠ [])
    (hkeep : KeepsSurvivor rt plan.dedup) (hd : WindowOk d keys)
    {batches : List (List PyRow)} (hkeys : ∀ row ∈ batches.flatten, rowKey rt plan row ∈ keys) :
    ∀ e ∈ runBatches rt secretResolver plan d batches,
      e.1 ∈ batches.flatten ∧ Emits rt secretResolver plan d e.1 e.2 := by
  induction batches generalizing d with
  | nil => simp [runBatches]
  | cons batch batches ih =>
    rw [List.flatten_cons] at hkeys
    have hs : BatchSpec rt secretResolver plan keys d batch _ :=
      transformBatch_spec hcols hkeep hd fun row hrow => hkeys row (List.mem_append_left _ hrow)
    intro e he
    rw [List.flatten_cons]
    rcases List.mem_append.mp he with hfirst | hlater
    · obtain ⟨hmem, hemit⟩ := hs.emitted e hfirst
      exact ⟨List.mem_append_left _ hmem, hemit⟩
    · obtain ⟨hmem, hnew, haccept⟩ :=
        ih hs.window (fun row hrow => hkeys row (List.mem_append_right _ hrow)) e hlater
      exact ⟨List.mem_append_right _ hmem, fun hseen => hnew (hs.grows hseen), haccept⟩

/-- **A run.**  It emits one row of every key it delivers and no row of another key. -/
theorem emittedCount_runBatches {keys : Finset String} (hcols : plan.dedup.keyColumns ≠ [])
    (hkeep : KeepsSurvivor rt plan.dedup) (hd : WindowOk d keys)
    {batches : List (List PyRow)} (hkeys : ∀ row ∈ batches.flatten, rowKey rt plan row ∈ keys)
    (key : String) :
    (Delivered rt secretResolver plan d batches key →
      emittedCount rt plan key (runBatches rt secretResolver plan d batches) = 1) ∧
    (¬ Delivered rt secretResolver plan d batches key →
      emittedCount rt plan key (runBatches rt secretResolver plan d batches) = 0) := by
  induction batches generalizing d with
  | nil => exact ⟨False.elim, fun _ => rfl⟩
  | cons batch batches ih =>
    rw [List.flatten_cons] at hkeys
    have hs : BatchSpec rt secretResolver plan keys d batch _ :=
      transformBatch_spec hcols hkeep hd fun row hrow => hkeys row (List.mem_append_left _ hrow)
    have hkeys' : ∀ row ∈ batches.flatten, rowKey rt plan row ∈ keys :=
      fun row hrow => hkeys row (List.mem_append_right _ hrow)
    obtain ⟨hone, hzero⟩ := ih hs.window hkeys'
    rw [runBatches, emittedCount_append, Delivered]
    by_cases hdeliver : Delivers rt secretResolver plan d batch key
    · -- a delivered key is marked, so that no later call emits it again
      have hfirst := hs.delivers key hdeliver
      have hmarked : key ∈ (transformBatch rt secretResolver plan d batch).2.seenKeys := by
        have hpos : 0 < emittedCount rt plan key
            (emittedRows (transformBatch rt secretResolver plan d batch).1) := by omega
        obtain ⟨e, he, hkey⟩ := List.countP_pos_iff.mp hpos
        rw [← of_decide_eq_true hkey]
        exact hs.marks e he
      have hlater : emittedCount rt plan key (runBatches rt secretResolver plan
          (transformBatch rt secretResolver plan d batch).2 batches) = 0 := by
        refine emittedCount_eq_zero fun e he hkey => ?_
        exact (mem_runBatches hcols hkeep hs.window hkeys' e he).2.1 (hkey ▸ hmarked)
      exact ⟨fun _ => by omega, fun hno => absurd (.inl hdeliver) hno⟩
    · have hfirst := hs.lacks key hdeliver
      constructor
      · rintro (hd' | hd')
        · exact absurd hd' hdeliver
        · have := hone hd'
          omega
      · intro hno
        have := hzero fun hd' => hno (.inr hd')
        omega

/-! ## Exactly one row of every key -/

/-- The keys of the rows of a run. -/
def runKeys (rt : PyRuntime) (plan : ProcessingPlan) (batches : List (List PyRow)) :
    Finset String :=
  (batches.flatten.map (rowKey rt plan)).toFinset

/-- The texts of the values below. -/
def sampleStr : PyValue → String
  | .none => "None"
  | .str s => s
  | .int z => intText z
  | _ => ""

/-- A runtime for the values below: integers, texts and NULLs, and the digest of their key. -/
def sampleRuntime : PyRuntime where
  str := sampleStr
  equal a b := sampleStr a == sampleStr b
  less a b := .ok (decide (sampleStr a < sampleStr b))
  float
    | .int z => .ok (.finite z)
    | _ => .error (valueError "could not convert string to float")
  truth v := !isNone v
  hashable _ := .ok ()
  upper s := String.ofList (s.toList.map Char.toUpper)
  lower s := String.ofList (s.toList.map Char.toLower)
  strip s := s
  split s := [s]
  isDigit := Char.isDigit
  regexMatch _ _ := .ok true
  sha256 s :=
    if s = "1:1" then "d6b5915c46057bcb005f46f6433df65609dd3a7a57af75ac1a5a4a7c299ebffb" else s
  hmac _ s := s
  jsonDumps row := ",".intercalate (row.items.map fun item => item.1 ++ sampleStr item.2)

/-- A rule that rejects records without a name. -/
def nameRequired : TransformationRule where
  ruleId := "r1"
  columnName := "name"
  targetColumnName := none
  action := .quality (some "NOT_NULL")
  defaultValue := .none
  privacyKeyRef := none
  maskChar := "*"
  unmaskedLength := 4
  malformedPolicy := .rejectRecord
  minValue := none
  maxValue := none
  regexPattern := none
  allowedValues := none
  maxLength := none
  allowTruncation := false
  targetDatatype := none

/-- A plan that keeps the first record of every id and rejects records without a name. -/
def samplePlan : ProcessingPlan where
  compiledRules := [nameRequired]
  filterPredicate := none
  dedup :=
    { keyColumns := ["id"], survivorStrategy := "FIRST", orderByColumns := []
      priorityField := none, priorityOrder := [], disposition := "DISCARD" }

/-- A record with the id 1. -/
def sampleRow (name : PyValue) : PyRow where
  items := [("id", .int 1), ("name", name)]
  nodup := by simp

theorem rowKey_sampleRow (name : PyValue) :
    rowKey sampleRuntime samplePlan (sampleRow name) = sampleRuntime.sha256 "1:1" := rfl

theorem accepts_named : Accepts sampleRuntime none samplePlan (sampleRow (.str "a"))
    (sampleRow (.str "a")) := ⟨rfl, [], rfl⟩

end DataProcessing

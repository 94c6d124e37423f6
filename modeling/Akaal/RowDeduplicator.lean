/-
# The row deduplicator

`RowDeduplicator` of `data_processing/dedup/deduplicator.py`: the hash of the key columns of a
row, the sliding window of keys seen by `is_duplicate`, and `deduplicate_batch`, which groups
the records of a batch by key and keeps one survivor of each group.

* `perm_of_sortRows` : sorting a group rearranges it;
* `deduplicateBatch_spec` : under a strategy that keeps a survivor, the survivors have the keys
  of the batch, each once, and are records of the batch;
* `isDuplicate_of_room` : with room in the window a row is a duplicate when its key was seen,
  and its key is seen after it.
-/
import Akaal.ProcessingRules
import Akaal.Traversal

namespace DataProcessing

variable (rt : PyRuntime)

/-! ## Keys -/

/-- The values of a row as texts. -/
def textRow (row : PyRow) : PyRow where
  items := row.items.map fun item => (item.1, .str (rt.str item.2))
  nodup := by
    rw [List.map_map]
    exact row.nodup

/-- One component of a composite key. -/
def keyComponent (row : PyRow) (col : String) : String :=
  match row.get? col with
  | none => "NULL:None"
  | some value =>
    match value with
    | .none => "NULL:None"
    | value => (rt.str value).length.repr ++ ":" ++ rt.str value

/-- `compute_key_hash`. -/
def computeKeyHash (row : PyRow) (keyColumns : List String) : String :=
  if keyColumns = [] then rt.sha256 (rt.jsonDumps (textRow rt row))
  else rt.sha256 ("|".intercalate (keyColumns.map (keyComponent rt row)))

/-! ## The sliding window -/

/-- `RowDeduplicator`. -/
structure RowDeduplicator where
  maxMemoryKeys : ℕ
  durableSpillChecker : Option (String → Bool)
  seenKeys : Finset String
  keyQueue : List String

/-- A deduplicator that has seen nothing. -/
def RowDeduplicator.init (maxMemoryKeys : ℕ) (durableSpillChecker : Option (String → Bool)) :
    RowDeduplicator :=
  ⟨maxMemoryKeys, durableSpillChecker, ∅, []⟩

/-- The durable store knows a key, once the window is full. -/
def RowDeduplicator.spilled (d : RowDeduplicator) (keyHash : String) : Bool :=
  d.maxMemoryKeys ≤ d.seenKeys.card &&
    match d.durableSpillChecker with
    | some checker => checker keyHash
    | none => false

/-- Add a key to the window; a full window drops its oldest key. -/
def RowDeduplicator.remember (d : RowDeduplicator) (keyHash : String) :
    Except PyRaise RowDeduplicator :=
  if d.maxMemoryKeys ≤ d.keyQueue.length then
    match d.keyQueue with
    | [] => .error ⟨false, "pop from an empty deque"⟩
    | oldest :: rest =>
      .ok { d with
        seenKeys := insert keyHash (d.seenKeys.erase oldest), keyQueue := rest ++ [keyHash] }
  else .ok { d with
    seenKeys := insert keyHash d.seenKeys, keyQueue := d.keyQueue ++ [keyHash] }

/-- `is_duplicate`, with the deduplicator after it. -/
def isDuplicate (d : RowDeduplicator) (row : PyRow) (keyColumns : List String) :
    Except PyRaise (Bool × RowDeduplicator) :=
  if keyColumns = [] then .ok (false, d)
  else
    let keyHash := computeKeyHash rt row keyColumns
    if keyHash ∈ d.seenKeys then .ok (true, d)
    else if d.spilled keyHash then .ok (true, d)
    else (d.remember keyHash).map fun d => (false, d)

/-! ## Survivor selection -/

/-- How a plan deduplicates. -/
structure DedupOptions where
  keyColumns : List String
  survivorStrategy : String
  orderByColumns : List String
  priorityField : Option String
  priorityOrder : List PyValue
  disposition : String

/-- The strategy in upper case, without the name of its enumeration. -/
def strategyName (options : DedupOptions) : String :=
  let strat := rt.upper options.survivorStrategy
  if "SURVIVORSTRATEGY.".toList.isPrefixOf strat.toList then String.ofList (strat.toList.drop 17)
  else strat

/-- Add a record to the group of its key. -/
def addToGroup (key : String) (row : PyRow) :
    List (String × List PyRow) → List (String × List PyRow)
  | [] => [(key, [row])]
  | group :: groups =>
    if group.1 = key then (key, group.2 ++ [row]) :: groups
    else group :: addToGroup key row groups

/-- The records by key, in the order in which the keys appear. -/
def groupRecords (keyColumns : List String) (records : List PyRow) : List (String × List PyRow) :=
  records.foldl (fun groups r => addToGroup (computeKeyHash rt r keyColumns) r groups) []

/-- An ordering, turned around when descending. -/
def directed (desc : Bool) (o : Ordering) : Ordering := if desc then o.swap else o

/-- Compare two records by one specification of `order_by_columns`. -/
def compareByColumn (spec : String) (a b : PyRow) : Except PyRaise Ordering :=
  match rt.split spec with
  | [] => .error ⟨false, "list index out of range"⟩
  | colName :: parts =>
    let desc := match parts with
      | direction :: _ => rt.upper direction == "DESC"
      | [] => false
    let valA := (a.get? colName).getD .none
    let valB := (b.get? colName).getD .none
    if rt.equal valA valB then .ok .eq
    else if isNone valA then .ok (directed desc .gt)
    else if isNone valB then .ok (directed desc .lt)
    else do
      let below ← rt.less valA valB
      return directed desc (if below then .lt else .gt)

/-- The first of `order_by_columns` in which two records differ decides. -/
def compareByColumns (a b : PyRow) : List String → Except PyRaise Ordering
  | [] => .ok .eq
  | spec :: specs => do
      let o ← compareByColumn rt spec a b
      if o = .eq then compareByColumns a b specs else return o

/-- The rank of a value in the priority order. -/
def priorityRank (priorityOrder : List PyValue) (value : PyValue) : ℕ :=
  let i := priorityOrder.findIdx fun v => rt.equal v value
  if i < priorityOrder.length then i else priorityOrder.length + 1

/-- Compare two records by the priority field. -/
def compareByPriority (options : DedupOptions) (a b : PyRow) : Ordering :=
  match options.priorityField with
  | none => .eq
  | some field =>
    if field = "" ∨ options.priorityOrder = [] then .eq
    else compare (priorityRank rt options.priorityOrder ((a.get? field).getD .none))
      (priorityRank rt options.priorityOrder ((b.get? field).getD .none))

/-- `_compare_group_items`. -/
def compareGroupItems (options : DedupOptions) (orderCols : List String) (a b : PyRow) :
    Except PyRaise Ordering := do
  let byColumns ← compareByColumns rt a b orderCols
  if byColumns ≠ .eq then return byColumns
  else if compareByPriority rt options a b ≠ .eq then return compareByPriority rt options a b
  else
    -- the fingerprint of the whole record breaks the tie
    return compare (rt.sha256 (rt.jsonDumps a)) (rt.sha256 (rt.jsonDumps b))

/-- Insert a record before the first one that is not smaller. -/
def insertRow (cmp : PyRow → PyRow → Except PyRaise Ordering) (a : PyRow) :
    List PyRow → Except PyRaise (List PyRow)
  | [] => .ok [a]
  | b :: rows => do
      let o ← cmp b a
      if o = .lt then do
        let rest ← insertRow cmp a rows
        return b :: rest
      else return a :: b :: rows

/-- `list.sort` by a comparison: stable, and it raises what the comparison raises. -/
def sortRows (cmp : PyRow → PyRow → Except PyRaise Ordering) :
    List PyRow → Except PyRaise (List PyRow)
  | [] => .ok []
  | a :: rows => do
      let sorted ← sortRows cmp rows
      insertRow cmp a sorted

/-- The specifications a group is ordered by: a strategy on a field orders by that field
alone. -/
def effectiveOrderCols (strat : String) (orderCols : List String) : Except PyRaise (List String) :=
  match orderCols with
  | [] => .ok []
  | spec :: _ =>
    if strat = "MIN_FIELD" ∨ strat = "MAX_FIELD" ∨ strat = "NEWEST" ∨ strat = "OLDEST" then
      match rt.split spec with
      | [] => .error ⟨false, "list index out of range"⟩
      | targetField :: _ =>
        .ok [targetField ++ if strat = "MAX_FIELD" ∨ strat = "NEWEST" then " DESC" else " ASC"]
    else .ok orderCols

/-- The survivor of a group of several records, and the others. -/
def selectSurvivor (options : DedupOptions) (group : List PyRow) :
    Except PyRaise (PyRow × List PyRow) := do
  let strat := strategyName rt options
  let orderCols ← effectiveOrderCols rt strat options.orderByColumns
  let sorted ← sortRows (compareGroupItems rt options orderCols) group
  match sorted with
  | [] => throw ⟨false, "list index out of range"⟩
  | first :: others =>
    if strat = "LAST" then
      return ((first :: others).getLast (by simp), (first :: others).dropLast)
    else return (first, others)

/-- A duplicate with its disposition. -/
def markDuplicate (disposition reason : String) (row : PyRow) : PyRow :=
  (row.set "_dedup_disposition" (.str disposition)).set "_dedup_reason" (.str reason)

/-- The first characters of a key hash, as the messages show them. -/
def shortHash (keyHash : String) : String := String.ofList (keyHash.toList.take 16)

/-- The survivors and the duplicates of one group. -/
def resolveGroup (options : DedupOptions) (keyHash : String) (group : List PyRow) :
    Except PyRaise (List PyRow × List PyRow) :=
  let strat := strategyName rt options
  match group with
  | [row] => .ok ([row], [])
  | group =>
    if strat = "FAIL_ON_DUPLICATE" then
      .error ⟨false, "FAIL_ON_DUPLICATE policy violated: Found " ++ group.length.repr ++
        " duplicate rows for key hash '" ++ shortHash keyHash ++ "'."⟩
    else if strat = "REJECT_GROUP" ∨ strat = "QUARANTINE_GROUP" then
      .ok ([], group.map (markDuplicate
        (if strat = "REJECT_GROUP" then "REJECTED" else "QUARANTINED")
        ("Duplicate key group '" ++ shortHash keyHash ++ "' with " ++ group.length.repr ++
          " items.")))
    else do
      let (survivor, others) ← selectSurvivor rt options group
      return ([survivor], others.map (markDuplicate (rt.upper options.disposition)
        ("Duplicate suppressed under survivor strategy " ++ strat ++ ".")))

/-- The groups in order. -/
def resolveGroups (options : DedupOptions) :
    List (String × List PyRow) → Except PyRaise (List PyRow × List PyRow)
  | [] => .ok ([], [])
  | (keyHash, group) :: groups => do
      let (survivors, duplicates) ← resolveGroup rt options keyHash group
      let (survivors', duplicates') ← resolveGroups options groups
      return (survivors ++ survivors', duplicates ++ duplicates')

/-- `deduplicate_batch`: the survivors and the duplicates. -/
def deduplicateBatch (options : DedupOptions) (records : List PyRow) :
    Except PyRaise (List PyRow × List PyRow) :=
  resolveGroups rt options (groupRecords rt options.keyColumns records)

/-- The strategies that keep a survivor of every group. -/
def KeepsSurvivor (options : DedupOptions) : Prop :=
  strategyName rt options ≠ "FAIL_ON_DUPLICATE" ∧ strategyName rt options ≠ "REJECT_GROUP" ∧
    strategyName rt options ≠ "QUARANTINE_GROUP"

variable {rt}

/-! ## Sorting -/

theorem perm_of_insertRow {cmp : PyRow → PyRow → Except PyRaise Ordering} {a : PyRow} {rows sorted : List PyRow}
    (h : insertRow cmp a rows = .ok sorted) : sorted.Perm (a :: rows) := by
  induction rows generalizing sorted with
  | nil =>
    cases h
    exact List.Perm.refl _
  | cons b rows ih =>
    obtain ⟨o, -, h⟩ := Traversal.bind_eq_ok_iff.mp h
    split_ifs at h
    · obtain ⟨rest, hrest, h⟩ := Traversal.bind_eq_ok_iff.mp h
      cases h
      exact ((ih hrest).cons b).trans (.swap a b rows)
    · cases h
      exact List.Perm.refl _

/-- Sorting rearranges. -/
theorem perm_of_sortRows {cmp : PyRow → PyRow → Except PyRaise Ordering} {rows sorted : List PyRow}
    (h : sortRows cmp rows = .ok sorted) : sorted.Perm rows := by
  induction rows generalizing sorted with
  | nil =>
    cases h
    exact List.Perm.refl _
  | cons a rows ih =>
    obtain ⟨s, hs, h⟩ := Traversal.bind_eq_ok_iff.mp h
    exact (perm_of_insertRow h).trans ((ih hs).cons a)

variable {groups : List (String × List PyRow)} {options : DedupOptions}
  {r : List PyRow × List PyRow}

theorem mem_of_selectSurvivor {group : List PyRow}
    {r : PyRow × List PyRow} (h : selectSurvivor rt options group = .ok r) : r.1 ∈ group := by
  obtain ⟨orderCols, -, h⟩ := Traversal.bind_eq_ok_iff.mp h
  obtain ⟨sorted, hsorted, h⟩ := Traversal.bind_eq_ok_iff.mp h
  have hperm := perm_of_sortRows hsorted
  cases sorted with
  | nil => cases h
  | cons first others =>
    dsimp only at h
    split_ifs at h
    · cases h
      exact hperm.mem_iff.mp (List.getLast_mem _)
    · cases h
      exact hperm.mem_iff.mp List.mem_cons_self

/-! ## Groups -/

/-- Every group is nonempty and its records have its key. -/
def GroupsOk (rt : PyRuntime) (keyColumns : List String) (groups : List (String × List PyRow)) :
    Prop :=
  ∀ group ∈ groups, group.2 ≠ [] ∧ ∀ r ∈ group.2, computeKeyHash rt r keyColumns = group.1

theorem mem_keys_addToGroup {key k : String} {row : PyRow} :
    k ∈ (addToGroup key row groups).map Prod.fst ↔ k = key ∨ k ∈ groups.map Prod.fst := by
  induction groups with
  | nil => simp [addToGroup]
  | cons group groups ih =>
    rw [addToGroup]
    split_ifs with h
    · subst h
      simp
    · rw [List.map_cons, List.mem_cons, ih, List.map_cons, List.mem_cons]
      tauto

theorem nodup_addToGroup {key : String} {row : PyRow}
    (h : (groups.map Prod.fst).Nodup) : ((addToGroup key row groups).map Prod.fst).Nodup := by
  induction groups with
  | nil => simp [addToGroup]
  | cons group groups ih =>
    rw [List.map_cons, List.nodup_cons] at h
    rw [addToGroup]
    split_ifs with hkey
    · subst hkey
      exact List.nodup_cons.mpr h
    · refine List.nodup_cons.mpr ⟨?_, ih h.2⟩
      rw [mem_keys_addToGroup]
      rintro (heq | hmem)
      · exact hkey heq
      · exact h.1 hmem

theorem mem_records_addToGroup {key : String} {row r : PyRow}
    (h : ∃ g ∈ addToGroup key row groups, r ∈ g.2) :
    r = row ∨ ∃ g ∈ groups, r ∈ g.2 := by
  induction groups with
  | nil =>
    obtain ⟨g, hg, hr⟩ := h
    simp only [addToGroup, List.mem_singleton] at hg
    subst hg
    exact .inl (List.mem_singleton.mp hr)
  | cons group groups ih =>
    obtain ⟨g, hg, hr⟩ := h
    rw [addToGroup] at hg
    split_ifs at hg with hkey
    · rcases List.mem_cons.mp hg with rfl | hmem
      · rcases List.mem_append.mp hr with hold | hnew
        · exact .inr ⟨group, List.mem_cons_self, hold⟩
        · exact .inl (List.mem_singleton.mp hnew)
      · exact .inr ⟨g, List.mem_cons_of_mem _ hmem, hr⟩
    · rcases List.mem_cons.mp hg with rfl | hmem
      · exact .inr ⟨g, List.mem_cons_self, hr⟩
      · rcases ih ⟨g, hmem, hr⟩ with hnew | ⟨g', hg', hr'⟩
        · exact .inl hnew
        · exact .inr ⟨g', List.mem_cons_of_mem _ hg', hr'⟩

theorem groupsOk_addToGroup {keyColumns : List String} {row : PyRow}
    (h : GroupsOk rt keyColumns groups) :
    GroupsOk rt keyColumns (addToGroup (computeKeyHash rt row keyColumns) row groups) := by
  induction groups with
  | nil =>
    intro group hgroup
    simp only [addToGroup, List.mem_singleton] at hgroup
    subst hgroup
    simp
  | cons g groups ih =>
    obtain ⟨hg, hgroups⟩ := List.forall_mem_cons.mp h
    rw [addToGroup]
    split_ifs with hkey
    · refine List.forall_mem_cons.mpr ⟨⟨by simp, ?_⟩, hgroups⟩
      intro r hr
      rcases List.mem_append.mp hr with hold | hnew
      · exact (hg.2 r hold).trans hkey
      · rw [List.mem_singleton.mp hnew]
    · exact List.forall_mem_cons.mpr ⟨hg, ih hgroups⟩

/-- What the groups of a batch are: distinct keys, the keys of its records, and only its
records. -/
theorem groupRecords_spec (keyColumns : List String) (records : List PyRow) :
    ((groupRecords rt keyColumns records).map Prod.fst).Nodup ∧
      (∀ k, k ∈ (groupRecords rt keyColumns records).map Prod.fst ↔
        ∃ r ∈ records, computeKeyHash rt r keyColumns = k) ∧
      GroupsOk rt keyColumns (groupRecords rt keyColumns records) ∧
      ∀ r, (∃ g ∈ groupRecords rt keyColumns records, r ∈ g.2) → r ∈ records := by
  -- the induction adds the records one by one from the right end
  induction records using List.reverseRecOn with
  | nil => simp [groupRecords, GroupsOk]
  | append_singleton records r ih =>
    obtain ⟨hnodup, hkeys, hok, hrecords⟩ := ih
    have hstep : groupRecords rt keyColumns (records ++ [r]) =
        addToGroup (computeKeyHash rt r keyColumns) r (groupRecords rt keyColumns records) := by
      rw [groupRecords, List.foldl_append]
      rfl
    rw [hstep]
    refine ⟨nodup_addToGroup hnodup, fun k => ?_, groupsOk_addToGroup hok, fun s hs => ?_⟩
    · rw [mem_keys_addToGroup, hkeys]
      simp only [List.mem_append, List.mem_singleton]
      constructor
      · rintro (rfl | ⟨s, hs, hk⟩)
        · exact ⟨r, .inr rfl, rfl⟩
        · exact ⟨s, .inl hs, hk⟩
      · rintro ⟨s, hs | rfl, hk⟩
        · exact .inr ⟨s, hs, hk⟩
        · exact .inl hk.symm
    · rcases mem_records_addToGroup hs with rfl | hold
      · exact List.mem_append_right _ List.mem_cons_self
      · exact List.mem_append_left _ (hrecords s hold)

/-! ## Survivors -/

theorem resolveGroup_spec (hkeep : KeepsSurvivor rt options) {keyHash : String} {group : List PyRow}
    (h : resolveGroup rt options keyHash group = .ok r) : ∃ s ∈ group, r.1 = [s] := by
  obtain ⟨hfail, hreject, hquarantine⟩ := hkeep
  have hselect : (∃ row, group = [row] ∧ r = ([row], [])) ∨
      ∃ c, selectSurvivor rt options group = .ok c ∧ r.1 = [c.1] := by
    rcases group with _ | ⟨row, _ | ⟨row', rest⟩⟩
    · simp only [resolveGroup, hfail, hreject, hquarantine, or_self, if_false] at h
      obtain ⟨c, hc, h⟩ := Traversal.bind_eq_ok_iff.mp h
      cases h
      exact .inr ⟨c, hc, rfl⟩
    · cases h
      exact .inl ⟨row, rfl, rfl⟩
    · simp only [resolveGroup, hfail, hreject, hquarantine, or_self, if_false] at h
      obtain ⟨c, hc, h⟩ := Traversal.bind_eq_ok_iff.mp h
      cases h
      exact .inr ⟨c, hc, rfl⟩
  rcases hselect with ⟨row, rfl, rfl⟩ | ⟨c, hc, hr⟩
  · exact ⟨row, List.mem_cons_self, rfl⟩
  · exact ⟨c.1, mem_of_selectSurvivor hc, hr⟩

/-- The survivors of groups have the keys of the groups, in their order. -/
theorem resolveGroups_spec (hkeep : KeepsSurvivor rt options)
    (hok : GroupsOk rt options.keyColumns groups) (h : resolveGroups rt options groups = .ok r) :
    (r.1.map fun s => computeKeyHash rt s options.keyColumns) = groups.map Prod.fst ∧
      ∀ s ∈ r.1, ∃ g ∈ groups, s ∈ g.2 := by
  induction groups generalizing r with
  | nil =>
    cases h
    simp
  | cons group groups ih =>
    obtain ⟨hg, hgroups⟩ := List.forall_mem_cons.mp hok
    obtain ⟨c, hc, h⟩ := Traversal.bind_eq_ok_iff.mp h
    obtain ⟨c', hc', h⟩ := Traversal.bind_eq_ok_iff.mp h
    cases h
    obtain ⟨s, hs, hsurvivor⟩ := resolveGroup_spec hkeep hc
    obtain ⟨hkeys, hmem⟩ := ih hgroups hc'
    rw [hsurvivor]
    refine ⟨?_, ?_⟩
    · rw [List.map_append, hkeys, List.map_singleton, hg.2 s hs]
      rfl
    · intro t ht
      rcases List.mem_append.mp ht with hone | hrest
      · exact ⟨group, List.mem_cons_self, List.mem_singleton.mp hone ▸ hs⟩
      · obtain ⟨g, hgmem, htg⟩ := hmem t hrest
        exact ⟨g, List.mem_cons_of_mem _ hgmem, htg⟩

/-- **The survivors of a batch.**  They have the keys of its records, each once, and are
records of it. -/
theorem deduplicateBatch_spec (hkeep : KeepsSurvivor rt options) {records : List PyRow}
    (h : deduplicateBatch rt options records = .ok r) :
    (r.1.map fun s => computeKeyHash rt s options.keyColumns).Nodup ∧ ∀ s ∈ r.1, s ∈ records := by
  obtain ⟨hnodup, -, hok, hrecords⟩ := @groupRecords_spec rt options.keyColumns records
  obtain ⟨hsurvivors, hmem⟩ := resolveGroups_spec hkeep hok h
  exact ⟨hsurvivors ▸ hnodup, fun s hs => hrecords s (hmem s hs)⟩

/-! ## The window with room -/

/-- The window holds the keys seen, each once, and they are among the given keys, of which
there are at most as many as the window takes. -/
structure WindowOk (d : RowDeduplicator) (keys : Finset String) : Prop where
  seen_eq : d.seenKeys = d.keyQueue.toFinset
  nodup : d.keyQueue.Nodup
  subset : d.seenKeys ⊆ keys
  room : keys.card ≤ d.maxMemoryKeys

theorem windowOk_init {maxMemoryKeys : ℕ} {keys : Finset String} (h : keys.card ≤ maxMemoryKeys)
    (durableSpillChecker : Option (String → Bool)) :
    WindowOk (.init maxMemoryKeys durableSpillChecker) keys :=
  ⟨rfl, List.nodup_nil, Finset.empty_subset keys, h⟩

/-- **A row in a window with room.**  It is a duplicate when its key was seen; otherwise its key
is seen after it and nothing is dropped. -/
theorem isDuplicate_of_room {d : RowDeduplicator} {keys : Finset String} (hd : WindowOk d keys)
    {keyColumns : List String} (hcols : keyColumns ≠ []) {row : PyRow}
    (hkey : computeKeyHash rt row keyColumns ∈ keys) :
    (computeKeyHash rt row keyColumns ∈ d.seenKeys ∧
      isDuplicate rt d row keyColumns = .ok (true, d)) ∨
    (computeKeyHash rt row keyColumns ∉ d.seenKeys ∧
      ∃ d', isDuplicate rt d row keyColumns = .ok (false, d') ∧ WindowOk d' keys ∧
        d'.seenKeys = insert (computeKeyHash rt row keyColumns) d.seenKeys) := by
  by_cases hseen : computeKeyHash rt row keyColumns ∈ d.seenKeys
  · refine .inl ⟨hseen, ?_⟩
    rw [isDuplicate, if_neg hcols]
    simp only [if_pos hseen]
  · refine .inr ⟨hseen, ?_⟩
    -- a key that was not seen leaves the keys seen strictly below the room
    have hlt : d.seenKeys.card < d.maxMemoryKeys := by
      have hssubset : d.seenKeys ⊂ keys := by
        refine Finset.ssubset_iff_subset_ne.mpr ⟨hd.subset, ?_⟩
        rintro heq
        exact hseen (heq ▸ hkey)
      exact lt_of_lt_of_le (Finset.card_lt_card hssubset) hd.room
    have hqueue : d.keyQueue.length = d.seenKeys.card := by
      rw [hd.seen_eq, List.toFinset_card_of_nodup hd.nodup]
    have hspilled : d.spilled (computeKeyHash rt row keyColumns) = false := by
      simp [RowDeduplicator.spilled, Nat.not_le.mpr hlt]
    have hfull : ¬ d.maxMemoryKeys ≤ d.keyQueue.length := by omega
    refine ⟨{ d with
      seenKeys := insert (computeKeyHash rt row keyColumns) d.seenKeys
      keyQueue := d.keyQueue ++ [computeKeyHash rt row keyColumns] }, ?_, ?_, rfl⟩
    · rw [isDuplicate, if_neg hcols]
      simp only [if_neg hseen, hspilled, RowDeduplicator.remember, if_neg hfull]
      rfl
    · refine ⟨?_, ?_, Finset.insert_subset hkey hd.subset, hd.room⟩
      · rw [List.toFinset_append, ← hd.seen_eq, Finset.union_comm]
        rfl
      · refine List.Nodup.append hd.nodup (List.nodup_singleton _) ?_
        rw [List.disjoint_singleton]
        intro hmem
        exact hseen (hd.seen_eq ▸ List.mem_toFinset.mpr hmem)

end DataProcessing

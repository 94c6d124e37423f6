/-
# The central state store

`core/state/state_store.py`: a table of JSON texts that all processes share, and in each process a
cache that `get_state` falls back to when the row is missing or `null`.

* `readRow_of_dumps` : the row that is written for a value other than `None` reads as that value;
* `agrees_iff` : the runs of several processes in which `get_state` always returns the value last
  set, or the default after `None`;
* `not_agrees_of_stale_cache` : `None` set by one process, an old value read by another.

A database that cannot be reached, and values that are changed after they were set or read, are
left out.
-/
import Akaal.JsonRoundTrip
import Akaal.TransitionRun

open JsonText TransitionRun

namespace StateStore

/-! ## Objects as JSON values -/

section Objects

-- what `_json_default` makes of an object of another class, with the objects inside it replaced;
-- `none` when it raises
variable (jsonDefault : String → String → Option PyValue)

mutual

/-- The value that is written for a value: `_json_default` replaces the objects of other classes. -/
def plainOf : PyValue → Except PyException PyValue
  | .other typeName text =>
    match jsonDefault typeName text with
    | some plain => .ok plain
    | none => .error (.notSerializable typeName)
  | .list elements => do
      let plain ← plainElements elements
      return .list plain
  | .dict items => do
      let plain ← plainItems items
      return .dict plain
  | v => .ok v

/-- The values that are written for the elements of a list. -/
def plainElements : List PyValue → Except PyException (List PyValue)
  | [] => .ok []
  | v :: vs => do
      let plain ← plainOf v
      let rest ← plainElements vs
      return plain :: rest

/-- The values that are written for the values of a dictionary. -/
def plainItems : List (String × PyValue) → Except PyException (List (String × PyValue))
  | [] => .ok []
  | (key, v) :: items => do
      let plain ← plainOf v
      let rest ← plainItems items
      return (key, plain) :: rest

end

/-- An argument of `set_state`: it and its JSON value are values as there can be. -/
structure StateValue where
  value : PyValue
  isValue : IsValue value
  isPlain : ∀ plain, plainOf jsonDefault value = .ok plain → IsValue plain

/-- The JSON text of a value, `null` for `None`. -/
def encode : PyValue → Except PyException String
  | .none => .ok "null"
  | v => plainOf jsonDefault v >>= dumps false

theorem encode_eq (v : PyValue) : encode jsonDefault v = plainOf jsonDefault v >>= dumps false := by
  cases v <;> rfl

mutual

theorem plainOf_of_dumps : ∀ (v : PyValue) {text : String}, dumps false v = .ok text →
    plainOf jsonDefault v = .ok v
  | .other typeName text', _, h => by
    rw [dumps.eq_def] at h
    cases h
  | .list elements, _, h => by
    rw [dumps.eq_def] at h
    simp only [Traversal.bind_eq_ok_iff] at h
    obtain ⟨texts, htexts, -⟩ := h
    rw [plainOf, plainElements_of_dumps elements htexts]
    rfl
  | .dict items, _, h => by
    rw [dumps.eq_def] at h
    simp only [Traversal.bind_eq_ok_iff] at h
    obtain ⟨members, hmembers, -⟩ := h
    rw [plainOf, plainItems_of_dumps items hmembers]
    rfl
  | .none, _, _ | .str _, _, _ | .bool _, _, _ | .int _, _, _ | .float _, _, _
  | .decimal _, _, _ | .datetime _, _, _ | .date _, _, _ | .time _, _, _ | .bytes _, _, _ => rfl

theorem plainElements_of_dumps : ∀ (vs : List PyValue) {texts : List String},
    dumpsElements false vs = .ok texts → plainElements jsonDefault vs = .ok vs
  | [], _, _ => rfl
  | v :: vs, _, h => by
    rw [dumpsElements] at h
    simp only [Traversal.bind_eq_ok_iff] at h
    obtain ⟨text, htext, texts, htexts, -⟩ := h
    rw [plainElements, plainOf_of_dumps v htext, plainElements_of_dumps vs htexts]
    rfl

theorem plainItems_of_dumps : ∀ (items : List (String × PyValue)) {members : List (String × String)},
    dumpsMembers false items = .ok members → plainItems jsonDefault items = .ok items
  | [], _, _ => rfl
  | (key, v) :: items, _, h => by
    rw [dumpsMembers] at h
    simp only [Traversal.bind_eq_ok_iff] at h
    obtain ⟨text, htext, members, hmembers, -⟩ := h
    rw [plainItems, plainOf_of_dumps v htext, plainItems_of_dumps items hmembers]
    rfl

end

end Objects

/-! ## One process -/

/-- The value of one key of a category is replaced. -/
def updateAt {α : Type*} (f : String → String → α) (category key : String) (a : α) :
    String → String → α :=
  fun category' key' => if category' = category ∧ key' = key then a else f category' key'

@[simp] theorem updateAt_self {α : Type*} (f : String → String → α) (category key : String)
    (a : α) : updateAt f category key a category key = a := if_pos ⟨rfl, rfl⟩

theorem updateAt_of_ne {α : Type*} {f : String → String → α} {category key category' key' : String}
    {a : α} (h : ¬ (category' = category ∧ key' = key)) :
    updateAt f category key a category' key' = f category' key' := if_neg h

/-- `self._state`: the categories, and the values cached in them. -/
abbrev StateCache := String → Option (String → Option PyValue)

namespace StateCache

/-- The categories of a new process. -/
def new : StateCache := fun category =>
  if category ∈ ["runtime", "worker", "migration", "governance", "progress", "metrics",
    "heartbeats", "checkpoint", "wal"] then some fun _ => none else none

/-- `self._state[category].get(key)`, `none` when there is no such category. -/
def lookup (cache : StateCache) (category key : String) : Option PyValue :=
  (cache category).bind fun entries => entries key

/-- `self._state[category][key] = value`, in a new category when there is none. -/
def insert (cache : StateCache) (category key : String) (value : PyValue) : StateCache :=
  Function.update cache category
    (some (Function.update ((cache category).getD fun _ => none) key (some value)))

@[simp] theorem lookup_new (category key : String) : new.lookup category key = none := by
  unfold lookup new
  split_ifs <;> rfl

@[simp] theorem lookup_insert_self (cache : StateCache) (category key : String) (value : PyValue) :
    (cache.insert category key value).lookup category key = some value := by
  simp [lookup, insert]

theorem lookup_insert_of_ne (cache : StateCache) {category key category' key' : String}
    (value : PyValue) (h : ¬ (category' = category ∧ key' = key)) :
    (cache.insert category key value).lookup category' key' = cache.lookup category' key' := by
  unfold lookup insert
  by_cases hcategory : category' = category
  · have hkey : key' ≠ key := fun hkey => h ⟨hcategory, hkey⟩
    rw [hcategory, Function.update_self, Option.bind_some, Function.update_of_ne hkey]
    cases cache category <;> rfl
  · rw [Function.update_of_ne hcategory]

end StateCache

/-- `CentralStateStore` as one process sees it: `val_json` of the rows of the table, and the
cache. -/
structure CentralStateStore where
  rows : String → String → Option String
  state : StateCache

namespace CentralStateStore

variable (jsonDefault : String → String → Option PyValue) (s : CentralStateStore)

/-- `set_state`: whether it raises, and the store after it. -/
def setState (key : String) (value : PyValue) (category : String) :
    Except PyException Unit × CentralStateStore :=
  match encode jsonDefault value with
  | .error e => (.error e, s)
  | .ok valJson =>
    (.ok (), {
      rows := updateAt s.rows category key (some valJson)
      state := s.state.insert category key value })

/-- The value of a row that is there and not `null`. -/
def readRow (row : Option String) : Option PyValue :=
  match row with
  | none => none
  | some valJson => if valJson ≠ "" ∧ valJson ≠ "null" then loads valJson else none

/-- The cached value, unless it is `None`. -/
def cachedOr (default : PyValue) : Option PyValue → PyValue
  | none | some .none => default
  | some cached => cached

/-- `get_state`: its result, and the store after it. -/
def getState (key : String) (default : PyValue) (category : String) : PyValue × CentralStateStore :=
  match readRow (s.rows category key) with
  | some val => (val, { s with state := s.state.insert category key val })
  | none => (cachedOr default (s.state.lookup category key), s)

/-! ### What is read -/

theorem getState_fst (key : String) (default : PyValue) (category : String) :
    (s.getState key default category).1 =
      (readRow (s.rows category key)).getD (cachedOr default (s.state.lookup category key)) := by
  unfold getState
  cases readRow (s.rows category key) <;> rfl

/-- The value of a row that is not `null` is returned, and cached. -/
theorem getState_of_readRow {key category : String} {val : PyValue}
    (h : readRow (s.rows category key) = some val) (default : PyValue) :
    s.getState key default category =
      (val, { s with state := s.state.insert category key val }) := by
  rw [getState, h]

theorem getState_of_none {key category : String} (hrow : s.rows category key = none)
    (hlookup : s.state.lookup category key = none) (default : PyValue) :
    s.getState key default category = (default, s) := by
  rw [getState, hrow, hlookup]
  rfl

/-- A value that has a JSON text is written as that text. -/
theorem setState_of_dumps {v : PyValue} {text : String} (h : dumps false v = .ok text)
    (key category : String) :
    s.setState jsonDefault key v category =
      (.ok (), ⟨updateAt s.rows category key (some text), s.state.insert category key v⟩) := by
  rw [setState, encode_eq, plainOf_of_dumps jsonDefault v h]
  simp only [bind, Except.bind, h]

theorem dumps_ne_empty {v : PyValue} (hv : IsValue v) {text : String}
    (h : dumps false v = .ok text) : text ≠ "" := by
  intro hempty
  have hread := loads_dumps hv h
  have hnone : loads "" = none := by decide
  rw [hempty, hnone] at hread
  cases hread

theorem dumps_eq_null_iff {v : PyValue} (hv : IsValue v) {text : String}
    (h : dumps false v = .ok text) : text = "null" ↔ v = .none := by
  constructor
  · intro hnull
    have hread := loads_dumps hv h
    have hnone : loads "null" = some .none := by rfl
    rw [hnull, hnone, Option.some.injEq] at hread
    exact hread.symm
  · intro hv
    rw [hv] at h
    exact (Except.ok.inj h).symm

/-- The row of a value reads as that value, unless it is `None`. -/
theorem readRow_of_dumps {v : PyValue} (hv : IsValue v) (hne : v ≠ .none) {text : String}
    (h : dumps false v = .ok text) : readRow (some text) = some v := by
  rw [readRow, if_pos ⟨dumps_ne_empty hv h, fun hnull => hne ((dumps_eq_null_iff hv h).mp hnull)⟩]
  exact loads_dumps hv h

theorem readRow_null : readRow (some "null") = none := rfl

theorem cachedOr_eq_iff (cached : Option PyValue) :
    (∀ default, cachedOr default cached = default) ↔ cached = none ∨ cached = some .none := by
  constructor
  · intro h
    cases cached with
    | none => exact .inl rfl
    | some v =>
      right
      have hnone := h .none
      cases v with
      | none => rfl
      | _ => exact absurd hnone (by simp [cachedOr])
  · rintro (rfl | rfl) default <;> rfl

end CentralStateStore

/-! ## Several processes -/

/-- The table, the caches of the processes, and the JSON values that were last set. -/
structure SharedStores where
  rows : String → String → Option String
  caches : ℕ → StateCache
  last : String → String → Option PyValue

/-- A call in one of the processes. -/
inductive StoreAction (jsonDefault : String → String → Option PyValue) where
  | set (process : ℕ) (key : String) (value : StateValue jsonDefault) (category : String)
  | get (process : ℕ) (key : String) (default : PyValue) (category : String)

namespace SharedStores

open CentralStateStore

variable {jsonDefault : String → String → Option PyValue}

/-- An empty table, and processes that have cached nothing. -/
def new : SharedStores := ⟨fun _ _ => none, fun _ => StateCache.new, fun _ _ => none⟩

/-- What a process sees. -/
def view (s : SharedStores) (process : ℕ) : CentralStateStore := ⟨s.rows, s.caches process⟩

/-- A process leaves the table and its own cache changed. -/
def put (s : SharedStores) (process : ℕ) (store : CentralStateStore) : SharedStores :=
  { s with rows := store.rows, caches := Function.update s.caches process store.state }

/-- One call. -/
def storeStep (s : SharedStores) : StoreAction jsonDefault → Option SharedStores
  | .set process key value category =>
    match plainOf jsonDefault value.value,
        (s.view process).setState jsonDefault key value.value category with
    | .ok plain, (.ok (), store) =>
      some { s.put process store with last := updateAt s.last category key (some plain) }
    | _, (_, store) => some (s.put process store)
  | .get process key default category =>
    some (s.put process ((s.view process).getState key default category).2)

/-- What `get_state` is to return: the value last set, or the default after `None` and before
anything was set. -/
def expected (last : Option PyValue) (default : PyValue) : PyValue :=
  match last with
  | none | some .none => default
  | some v => v

/-- In every process, `get_state` returns what it is to return. -/
def Agrees (s : SharedStores) : Prop :=
  ∀ process key default category,
    ((s.view process).getState key default category).1 = expected (s.last category key) default

/-- The condition.  What stores `null` is `None` itself, and no other process has another value
cached. -/
def ClearsNothing (s : SharedStores) : StoreAction jsonDefault → Prop
  | .set process key value category => plainOf jsonDefault value.value = .ok .none →
      value.value = .none ∧ ∀ other, other ≠ process → (s.caches other).lookup category key = none ∨
          (s.caches other).lookup category key = some .none
  | .get .. => True

/-- A key that was never set has no row and is cached nowhere; the row of another is the text of
the value last set. -/
def KeyStored (row : Option String) (last : Option PyValue) (caches : ℕ → Option PyValue) : Prop :=
  match last with
  | none => row = none ∧ ∀ process, caches process = none
  | some v => IsValue v ∧ ∃ text, row = some text ∧ dumps false v = .ok text

/-- The table holds the values last set. -/
def Stored (s : SharedStores) : Prop :=
  ∀ category key, KeyStored (s.rows category key) (s.last category key)
    fun process => (s.caches process).lookup category key

variable {s s' : SharedStores}

theorem stored_new : Stored new := fun category key =>
  ⟨rfl, fun _ => StateCache.lookup_new category key⟩

theorem agrees_new : Agrees new := by
  intro process key default category
  rw [getState_fst]
  show cachedOr default (StateCache.new.lookup category key) = default
  rw [StateCache.lookup_new]
  rfl

/-- One process caches a value. -/
def updateCache (caches : ℕ → StateCache) (process : ℕ) (category key : String)
    (value : PyValue) : ℕ → StateCache :=
  Function.update caches process ((caches process).insert category key value)

@[simp] theorem updateCache_self (caches : ℕ → StateCache) (process : ℕ) (category key : String)
    (value : PyValue) :
    (updateCache caches process category key value process).lookup category key = some value := by
  rw [updateCache, Function.update_self, StateCache.lookup_insert_self]

theorem updateCache_of_ne {caches : ℕ → StateCache} {process other : ℕ} (h : other ≠ process)
    {category key : String} {value : PyValue} :
    updateCache caches process category key value other = caches other :=
  Function.update_of_ne h ..

/-- Other keys keep their values in every cache. -/
theorem updateCache_of_ne_key {caches : ℕ → StateCache} {process : ℕ}
    {category key category' key' : String} {value : PyValue}
    (h : ¬ (category' = category ∧ key' = key)) (other : ℕ) :
    (updateCache caches process category key value other).lookup category' key' =
      (caches other).lookup category' key' := by
  rcases eq_or_ne other process with rfl | hne
  · rw [updateCache, Function.update_self, StateCache.lookup_insert_of_ne _ _ h]
  · rw [updateCache_of_ne hne]

@[simp] theorem put_view (s : SharedStores) (process : ℕ) : s.put process (s.view process) = s := by
  simp [put, view]

/-- What a call of `set_state` does: nothing when it raises; otherwise it writes the text of the
JSON value, and caches the value. -/
theorem storeStep_set {process : ℕ} {key category : String} {value : StateValue jsonDefault}
    (hstep : storeStep s (.set process key value category) = some s') :
    ((∀ plain, plainOf jsonDefault value.value = .ok plain → plain ≠ .none) ∧ s' = s) ∨
    ∃ plain text, plainOf jsonDefault value.value = .ok plain ∧ dumps false plain = .ok text ∧
      s'.rows = updateAt s.rows category key (some text) ∧
      s'.caches = updateCache s.caches process category key value.value ∧
      s'.last = updateAt s.last category key (some plain) := by
  rw [storeStep, setState, encode_eq] at hstep
  cases hplain : plainOf jsonDefault value.value with
  | error e =>
    left
    simp only [hplain, Except.bind, bind, put_view, Option.some.injEq] at hstep
    refine ⟨fun plain h => ?_, hstep.symm⟩
    cases h
  | ok plain =>
    cases htext : dumps false plain with
    | error e =>
      left
      simp only [hplain, htext, Except.bind, bind, put_view, Option.some.injEq] at hstep
      refine ⟨fun plain' h => ?_, hstep.symm⟩
      rw [← Except.ok.inj h]
      rintro rfl
      cases htext
    | ok text =>
      right
      simp only [hplain, htext, Except.bind, bind, Option.some.injEq] at hstep
      rw [← hstep]
      exact ⟨plain, text, rfl, htext, rfl, rfl, rfl⟩

/-- What a call of `get_state` does: it caches the value of a row that is not `null`. -/
theorem storeStep_get {process : ℕ} {key category : String} {default : PyValue}
    (hstep : @storeStep jsonDefault s (.get process key default category) = some s') :
    s' = s ∨ ∃ val, readRow (s.rows category key) = some val ∧ s'.rows = s.rows ∧
      s'.caches = updateCache s.caches process category key val ∧ s'.last = s.last := by
  rw [storeStep, getState, Option.some.injEq] at hstep
  cases hread : readRow (s.rows category key) with
  | none =>
    left
    rw [show readRow ((s.view process).rows category key) = none from hread] at hstep
    exact hstep.symm.trans (s.put_view process)
  | some val =>
    right
    rw [show readRow ((s.view process).rows category key) = some val from hread] at hstep
    rw [← hstep]
    exact ⟨val, rfl, rfl, rfl, rfl⟩

/-- In a state whose table holds the values last set, `get_state` returns what it is to return
when only `None` is cached where `None` was set. -/
theorem Stored.agrees_iff_cached (h : Stored s) :
    Agrees s ↔ ∀ category key, s.last category key = some .none → ∀ process,
      (s.caches process).lookup category key = none ∨
        (s.caches process).lookup category key = some .none := by
  have hkey : ∀ category key, (∀ process default,
      ((s.view process).getState key default category).1 = expected (s.last category key) default) ↔
      (s.last category key = some .none → ∀ process, (s.caches process).lookup category key = none ∨
          (s.caches process).lookup category key = some .none) := by
    intro category key
    have hstored := h category key
    simp only [getState_fst, view]
    cases hlast : s.last category key with
    | none =>
      rw [hlast] at hstored
      obtain ⟨hrow, hcaches⟩ := hstored
      constructor
      · intro _ hnone
        cases hnone
      · intro _ process default
        rw [hrow, show (s.caches process).lookup category key = none from hcaches process]
        rfl
    | some v =>
      rw [hlast] at hstored
      obtain ⟨hv, text, hrow, htext⟩ := hstored
      by_cases hnone : v = .none
      · -- the row is `null`: what is returned comes from the cache
        rw [hrow, (dumps_eq_null_iff hv htext).mpr hnone, readRow_null, hnone]
        simp only [Option.getD_none, expected, cachedOr_eq_iff, forall_const]
      · rw [hrow, readRow_of_dumps hv hnone htext]
        constructor
        · intro _ hlast
          exact absurd (Option.some.inj hlast) hnone
        · intro _ process default
          cases v with
          | none => exact absurd rfl hnone
          | _ => rfl
  constructor
  · intro hagrees category key
    exact (hkey category key).mp fun process default => hagrees process key default category
  · intro hcaches process key default category
    exact (hkey category key).mpr (hcaches category key) process default

theorem Stored.step (h : Stored s) {a : StoreAction jsonDefault} (hstep : storeStep s a = some s') :
    Stored s' := by
  intro category key
  cases a with
  | set process key' value category' =>
    rcases storeStep_set hstep with
      ⟨-, rfl⟩ | ⟨plain, text, hplain, htext, hrows, hcaches, hlast⟩
    · exact h category key
    · rw [hrows, hcaches, hlast]
      by_cases hkey : category = category' ∧ key = key'
      · obtain ⟨rfl, rfl⟩ := hkey
        simp only [updateAt_self]
        exact ⟨value.isPlain plain hplain, text, rfl, htext⟩
      · simp only [updateAt_of_ne hkey, updateCache_of_ne_key hkey]
        exact h category key
  | get process key' default category' =>
    rcases storeStep_get hstep with rfl | ⟨val, hread, hrows, hcaches, hlast⟩
    · exact h category key
    · have hstored := h category key
      rw [hrows, hcaches, hlast]
      cases hkeyLast : s.last category key with
      | some v =>
        rw [hkeyLast] at hstored
        exact hstored
      | none =>
        rw [hkeyLast] at hstored
        obtain ⟨hrow, hkeyCaches⟩ := hstored
        refine ⟨hrow, fun p => ?_⟩
        have hne : ¬ (category = category' ∧ key = key') := by
          rintro ⟨rfl, rfl⟩
          rw [hrow] at hread
          cases hread
        exact (updateCache_of_ne_key hne p).trans (hkeyCaches p)

/-- **One call** keeps the agreement exactly when it meets the condition. -/
theorem agrees_step_iff (h : Stored s) (hagrees : Agrees s) {a : StoreAction jsonDefault}
    (hstep : storeStep s a = some s') : Agrees s' ↔ ClearsNothing s a := by
  have hcached := h.agrees_iff_cached.mp hagrees
  rw [(h.step hstep).agrees_iff_cached]
  cases a with
  | set process key value category =>
    rcases storeStep_set hstep with
      ⟨hne, rfl⟩ | ⟨plain, text, hplain, htext, hrows, hcaches, hlast⟩
    · exact ⟨fun _ hnone => absurd rfl (hne _ hnone), fun _ => hcached⟩
    · rw [hcaches, hlast]
      constructor
      · intro hall hnone
        rw [hplain, Except.ok.injEq] at hnone
        have hkey := hall category key (by rw [updateAt_self, hnone])
        constructor
        · have hown := hkey process
          rw [updateCache_self] at hown
          rcases hown with hown | hown
          · cases hown
          · exact Option.some.inj hown
        · intro other hother
          have hcache := hkey other
          rwa [updateCache_of_ne hother] at hcache
      · intro hclears category' key' hnone other
        by_cases hkey : category' = category ∧ key' = key
        · obtain ⟨rfl, rfl⟩ := hkey
          rw [updateAt_self, Option.some.injEq] at hnone
          obtain ⟨hvalue, hothers⟩ := hclears (by rw [hplain, hnone])
          rcases eq_or_ne other process with rfl | hother
          · right
            rw [updateCache_self, hvalue]
          · rw [updateCache_of_ne hother]
            exact hothers other hother
        · rw [updateAt_of_ne hkey] at hnone
          rw [updateCache_of_ne_key hkey]
          exact hcached category' key' hnone other
  | get process key default category =>
    refine ⟨fun _ => trivial, fun _ => ?_⟩
    rcases storeStep_get hstep with rfl | ⟨val, hread, hrows, hcaches, hlast⟩
    · exact hcached
    · rw [hcaches, hlast]
      intro category' key' hnone other
      have hne : ¬ (category' = category ∧ key' = key) := by
        rintro ⟨rfl, rfl⟩
        -- the row of a key that was set to `None` is `null`
        have hstored := h category' key'
        rw [hnone] at hstored
        obtain ⟨hv, text, hrow, htext⟩ := hstored
        rw [hrow, (dumps_eq_null_iff hv htext).mpr rfl, readRow_null] at hread
        cases hread
      rw [updateCache_of_ne_key hne]
      exact hcached category' key' hnone other

/-- **Agreement.**  In a run of any processes over an empty table, `get_state` returns in every
state and in every process what it is to return exactly when every call meets the condition. -/
theorem agrees_iff (as : List (StoreAction jsonDefault)) :
    HoldsAlong storeStep Agrees new as ↔ MeetsAlong storeStep ClearsNothing new as :=
  holdsAlong_iff_meetsAlong (fun _ _ _ hs hstep => hs.step hstep)
    (fun _ _ _ hs hagrees hstep => agrees_step_iff hs hagrees hstep) stored_new agrees_new as

/-- The text of a value that is one. -/
def textOf : PyValue → Option String
  | .str text => some text
  | _ => none

/-- The holder of a lock. -/
def lockHolder : StateValue fun _ _ => none :=
  ⟨.str "worker-1", trivial, by rintro _ ⟨⟩; trivial⟩

/-- No holder. -/
def noHolder : StateValue fun _ _ => none := ⟨.none, trivial, by rintro _ ⟨⟩; trivial⟩

/-- One process sets a lock, another one reads it, and the first one clears it. -/
def clearedLock : List (StoreAction fun _ _ => none) :=
  [.set 0 "lock_p1" lockHolder "partition_lock", .get 1 "lock_p1" .none "partition_lock",
    .set 0 "lock_p1" noHolder "partition_lock"]

/-- The process that read the lock still sees its holder. -/
theorem not_agrees_of_stale_cache :
    ¬ ∀ as : List (StoreAction fun _ _ => none), HoldsAlong storeStep Agrees new as := by
  intro h
  have hrun : (run storeStep new clearedLock).map (fun s =>
      (textOf ((s.view 1).getState "lock_p1" .none "partition_lock").1,
        (s.last "partition_lock" "lock_p1").map textOf)) =
        some (some "worker-1", some none) := by
    decide +kernel
  obtain ⟨s, hs, hread⟩ := Option.map_eq_some_iff.mp hrun
  obtain ⟨hget, hlast⟩ := Prod.mk.inj hread
  have hagrees := (h clearedLock).finish hs 1 "lock_p1" .none "partition_lock"
  obtain ⟨v, hv, htext⟩ := Option.map_eq_some_iff.mp hlast
  rw [hagrees, hv] at hget
  cases v with
  | none => exact absurd hget (by decide)
  | str text => exact absurd htext (by simp [textOf])
  | _ => exact absurd hget (by simp [expected, textOf])

end SharedStores

end StateStore

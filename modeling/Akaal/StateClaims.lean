/-
# Claims and guarded transitions

`atomic_claim_start` and `guarded_transition_state` of `core/state/state_store.py`: inside one
write transaction the stored state of a key is read, its status is checked, and a merged
dictionary is written.

* `atomicClaimStart_true` : a claim that is granted stores a status that refuses the next one;
* `guardedTransitionState_true` : what a transition that is granted found, and what it stores;
* `claims_exclude` : between two granted claims a transition moved the status away, and what a
  granted transition found and stored;
* `not_claims_exclude` : a claim whose metadata brings a status, and a transition of a key without
  one.

`BEGIN IMMEDIATE` makes each call one step.
-/
import Akaal.StateStore
import Akaal.PythonText

open JsonText TransitionRun

namespace StateStore

/-! ## Merged dictionaries -/

/-- `{**base, **update}`. -/
def mergeItems (base update : List (String × PyValue)) : List (String × PyValue) :=
  update.foldl (fun items item => PyDict.setItem item.1 item.2 items) base

theorem lookup_mergeItems (base : List (String × PyValue)) {update : List (String × PyValue)}
    (h : (update.map Prod.fst).Nodup) (key : String) :
    (mergeItems base update).lookup key = (update.lookup key).or (base.lookup key) := by
  induction update generalizing base with
  | nil => rfl
  | cons item update ih =>
    obtain ⟨k, v⟩ := item
    rw [List.map_cons, List.nodup_cons] at h
    rw [mergeItems, List.foldl_cons]
    refine (ih _ h.2).trans ?_
    by_cases hk : key = k
    · have hnone : update.lookup key = none := by
        rw [List.lookup_eq_none_iff]
        rintro ⟨k', v'⟩ hmem
        rw [bne_iff_ne, hk]
        rintro rfl
        exact h.1 (List.mem_map.mpr ⟨_, hmem, rfl⟩)
      rw [hnone, hk, PyDict.lookup_setItem, List.lookup_cons_self]
      rfl
    · rw [PyDict.lookup_setItem_of_ne _ _ hk, List.lookup_cons, beq_false_of_ne hk]

theorem isValue_mergeItems {base update : List (String × PyValue)} (hbase : IsValue (.dict base))
    (hupdate : IsValue (.dict update)) : IsValue (.dict (mergeItems base update)) := by
  obtain ⟨-, hitems⟩ := hupdate
  induction update generalizing base with
  | nil => exact hbase
  | cons item update ih =>
    exact ih ⟨PyDict.nodup_setItem hbase.1, areItems_setItem hitems.1 hbase.2⟩ hitems.2

/-- A dictionary that is merged into another. -/
structure StateDict where
  items : List (String × PyValue)
  isValue : IsValue (.dict items)

/-- `bool(v)`. -/
def truthy : PyValue → Bool
  | .none => false
  | .str s => s ≠ ""
  | .bool b => b
  | .int z => z ≠ 0
  | .float x => x ≠ .finite 0 ∧ x ≠ .negativeZero
  | .list elements => !elements.isEmpty
  | .dict items => !items.isEmpty
  | _ => true

/-! ## The two calls -/

/-- The exceptions of the two calls. -/
inductive StateError where
  | typeError (exception : PyException)
  | jsonDecodeError

/-- The statuses that refuse a claim. -/
def claimedStatuses : List String := ["START_REQUESTED", "STARTING", "RUNNING", "COMPLETED"]

namespace CentralStateStore

-- `str(v)` of a value that is not a text
variable (str : PyValue → String) (s : CentralStateStore)

/-- `str(v).upper()`. -/
def upperText : PyValue → String
  | .str text => PythonText.upper text
  | v => PythonText.upper (str v)

/-- `curr_status`. -/
def currStatus : PyValue → String
  | .dict items => upperText str ((items.lookup "status").getD (.str ""))
  | _ => ""

/-- The value of the row, `None` when there is none. -/
def storedState (key category : String) : Except StateError PyValue :=
  match s.rows category key with
  | none => .ok .none
  | some valJson =>
    if valJson ≠ "" ∧ valJson ≠ "null" then
      match loads valJson with
      | some current => .ok current
      | none => .error .jsonDecodeError
    else .ok .none

/-- `current`: the value of the row, or the cached one when that is not true. -/
def currentState (key category : String) : Except StateError PyValue := do
  let current ← s.storedState key category
  if !truthy current then
    match s.state category with
    | some entries => return (entries key).getD .none
    | none => return current
  else return current

/-- Write a dictionary into the row and the cache; nothing changes when it has no JSON text. -/
def writeState {α : Type} (key category : String) (items : List (String × PyValue)) (result : α) :
    Except StateError α × CentralStateStore :=
  match dumps false (.dict items) with
  | .error e => (.error (.typeError e), s)
  | .ok valJson =>
    (.ok result, {
      rows := updateAt s.rows category key (some valJson)
      state := s.state.insert category key (.dict items) })

/-- The state that a claim stores. -/
def claimState (operationId planFingerprint claimedAt : String)
    (metadata : List (String × PyValue)) : List (String × PyValue) :=
  mergeItems [("status", .str "START_REQUESTED"), ("operation_id", .str operationId),
    ("plan_fingerprint", .str planFingerprint), ("claimed_at", .str claimedAt)] metadata

/-- `atomic_claim_start`: its result, and the store after it. -/
def atomicClaimStart (key operationId planFingerprint claimedAt : String)
    (metadata : Option StateDict) : Except StateError (Bool × PyValue) × CentralStateStore :=
  match s.currentState key "runtime" with
  | .error e => (.error e, s)
  | .ok current =>
    if currStatus str current ∈ claimedStatuses then
      (.ok (false,
        if truthy current then current
        else .dict [("status", .str (currStatus str current)),
          ("operation_id", .str operationId), ("plan_fingerprint", .str planFingerprint)]), s)
    else
      let newState := claimState operationId planFingerprint claimedAt
        ((metadata.map StateDict.items).getD [])
      s.writeState key "runtime" newState (true, .dict newState)

/-- The state that a transition stores. -/
def transitionState (current : PyValue) (targetStatus : String)
    (updateData : List (String × PyValue)) : List (String × PyValue) :=
  match current with
  | .dict items => mergeItems (mergeItems items updateData) [("status", .str targetStatus)]
  | _ => mergeItems [("status", .str targetStatus)] updateData

/-- `guarded_transition_state`: its result, and the store after it. -/
def guardedTransitionState (key : String) (expectedCurrent : List String) (targetStatus : String)
    (updateData : Option StateDict) (category : String) :
    Except StateError Bool × CentralStateStore :=
  match s.currentState key category with
  | .error e => (.error e, s)
  | .ok current =>
    let status := currStatus str current
    if status ≠ "" ∧ status ∉ expectedCurrent.map PythonText.upper then (.ok false, s)
    else s.writeState key category
      (transitionState current targetStatus ((updateData.map StateDict.items).getD [])) true

/-! ### What is read and what is written -/

/-- The status of a row, `""` when it has none. -/
def storedStatus (row : Option String) : String :=
  match readRow row with
  | some current => currStatus str current
  | none => ""

/-- The value of the status in a row. -/
def storedTarget (row : Option String) : Option PyValue :=
  match readRow row with
  | some (.dict items) => items.lookup "status"
  | _ => none

theorem truthy_of_currStatus {current : PyValue} (h : currStatus str current ≠ "") :
    truthy current = true := by
  cases current with
  | dict items =>
    cases items with
    | nil => exact absurd rfl h
    | cons item items => rfl
  | _ => exact absurd rfl h

theorem currentState_of_readRow {key category : String} {stored : PyValue}
    (hread : readRow (s.rows category key) = some stored) (htruthy : truthy stored = true) :
    s.currentState key category = .ok stored := by
  have hstored : s.storedState key category = .ok stored := by
    unfold storedState
    unfold readRow at hread
    cases hrow : s.rows category key with
    | none =>
      rw [hrow] at hread
      cases hread
    | some valJson =>
      rw [hrow] at hread
      simp only at hread ⊢
      split_ifs at hread with hnull
      rw [if_pos hnull, hread]
  rw [currentState, hstored]
  simp only [bind, Except.bind, htruthy]
  rfl

/-- The status that is checked is the one in the row, when that has one. -/
theorem currentState_of_storedStatus {key category : String}
    (h : storedStatus str (s.rows category key) ≠ "") :
    ∃ current, s.currentState key category = .ok current ∧
      currStatus str current = storedStatus str (s.rows category key) := by
  unfold storedStatus at h ⊢
  cases hread : readRow (s.rows category key) with
  | none =>
    rw [hread] at h
    exact absurd rfl h
  | some stored =>
    rw [hread] at h
    exact ⟨stored, s.currentState_of_readRow hread (truthy_of_currStatus str h), rfl⟩

/-- What is written: the text of the dictionary. -/
theorem writeState_eq_ok {α : Type} {key category : String} {items : List (String × PyValue)}
    {result result' : α} (h : (s.writeState key category items result).1 = .ok result') :
    ∃ valJson, dumps false (.dict items) = .ok valJson ∧ result' = result ∧
      (s.writeState key category items result).2 = ⟨updateAt s.rows category key (some valJson),
          s.state.insert category key (.dict items)⟩ := by
  unfold writeState at h ⊢
  cases hdumps : dumps false (.dict items) with
  | error e =>
    rw [hdumps] at h
    cases h
  | ok valJson =>
    rw [hdumps] at h
    exact ⟨valJson, rfl, (Except.ok.inj h).symm, rfl⟩

/-- What a call of `writeState` leaves: the store as it was, or the text of the dictionary. -/
theorem writeState_snd {α : Type} (key category : String) (items : List (String × PyValue))
    (result : α) :
    (s.writeState key category items result).2 = s ∨
      ∃ valJson, dumps false (.dict items) = .ok valJson ∧
        (s.writeState key category items result).2 = ⟨updateAt s.rows category key (some valJson),
            s.state.insert category key (.dict items)⟩ := by
  unfold writeState
  cases hdumps : dumps false (.dict items) with
  | error e => exact .inl rfl
  | ok valJson => exact .inr ⟨valJson, rfl, rfl⟩

theorem storedStatus_of_dumps {items : List (String × PyValue)} (hitems : IsValue (.dict items))
    {valJson : String} (h : dumps false (.dict items) = .ok valJson) :
    storedStatus str (some valJson) = currStatus str (.dict items) := by
  rw [storedStatus, readRow_of_dumps hitems (by rintro ⟨⟩) h]

theorem storedTarget_of_dumps {items : List (String × PyValue)} (hitems : IsValue (.dict items))
    {valJson : String} (h : dumps false (.dict items) = .ok valJson) :
    storedTarget (some valJson) = items.lookup "status" := by
  rw [storedTarget, readRow_of_dumps hitems (by rintro ⟨⟩) h]

/-! ### What the two calls do -/

/-- The items of an argument that may be missing. -/
abbrev itemsOf (argument : Option StateDict) : List (String × PyValue) :=
  (argument.map StateDict.items).getD []

theorem isValue_itemsOf (argument : Option StateDict) : IsValue (.dict (itemsOf argument)) := by
  cases argument with
  | none => exact ⟨List.nodup_nil, trivial⟩
  | some argument => exact argument.isValue

theorem isValue_claimState (operationId planFingerprint claimedAt : String)
    (metadata : Option StateDict) :
    IsValue (.dict (claimState operationId planFingerprint claimedAt (itemsOf metadata))) := by
  refine isValue_mergeItems ⟨?_, trivial, trivial, trivial, trivial, trivial⟩
    (isValue_itemsOf metadata)
  show ["status", "operation_id", "plan_fingerprint", "claimed_at"].Nodup
  decide

/-- The status of a claim: the one the metadata brings, or `START_REQUESTED`. -/
theorem lookup_claimState (operationId planFingerprint claimedAt : String)
    (metadata : Option StateDict) :
    (claimState operationId planFingerprint claimedAt (itemsOf metadata)).lookup "status" =
      some (((itemsOf metadata).lookup "status").getD (.str "START_REQUESTED")) := by
  rw [claimState, lookup_mergeItems _ (isValue_itemsOf metadata).1]
  cases (itemsOf metadata).lookup "status" <;> rfl

theorem isValue_transitionState {current : PyValue} (hcurrent : IsValue current)
    (targetStatus : String) (updateData : Option StateDict) :
    IsValue (.dict (transitionState current targetStatus (itemsOf updateData))) := by
  have htarget : IsValue (.dict [("status", .str targetStatus)]) :=
    ⟨List.nodup_singleton _, trivial, trivial⟩
  unfold transitionState
  split
  · exact isValue_mergeItems (isValue_mergeItems hcurrent (isValue_itemsOf updateData)) htarget
  · exact isValue_mergeItems htarget (isValue_itemsOf updateData)

/-- A claim on a row whose status is one of a claim is refused, and changes nothing. -/
theorem atomicClaimStart_of_claimed {key : String}
    (h : storedStatus str (s.rows "runtime" key) ∈ claimedStatuses)
    (operationId planFingerprint claimedAt : String) (metadata : Option StateDict) :
    ∃ current, s.atomicClaimStart str key operationId planFingerprint claimedAt metadata =
      (.ok (false, current), s) := by
  have hne : storedStatus str (s.rows "runtime" key) ≠ "" := by
    intro hempty
    rw [hempty] at h
    exact absurd h (by decide)
  obtain ⟨current, hcurrent, hstatus⟩ := s.currentState_of_storedStatus str hne
  rw [← hstatus] at h
  simp only [atomicClaimStart, hcurrent, if_pos h]
  exact ⟨_, rfl⟩

/-- **A granted claim** found another status, and stores its own state. -/
theorem atomicClaimStart_true {key operationId planFingerprint claimedAt : String}
    {metadata : Option StateDict} {state : PyValue}
    (h : (s.atomicClaimStart str key operationId planFingerprint claimedAt metadata).1 =
      .ok (true, state)) :
    storedStatus str (s.rows "runtime" key) ∉ claimedStatuses ∧ ∃ valJson,
      dumps false (.dict (claimState operationId planFingerprint claimedAt (itemsOf metadata))) =
        .ok valJson ∧
      (s.atomicClaimStart str key operationId planFingerprint claimedAt metadata).2.rows =
        updateAt s.rows "runtime" key (some valJson) := by
  constructor
  · intro hclaimed
    obtain ⟨current, hrefused⟩ :=
      s.atomicClaimStart_of_claimed str hclaimed operationId planFingerprint claimedAt metadata
    rw [hrefused] at h
    cases h
  · unfold atomicClaimStart at h ⊢
    cases hcurrent : s.currentState key "runtime" with
    | error e =>
      rw [hcurrent] at h
      cases h
    | ok current =>
      rw [hcurrent] at h
      simp only at h ⊢
      by_cases hclaimed : currStatus str current ∈ claimedStatuses
      · rw [if_pos hclaimed] at h
        cases h
      · rw [if_neg hclaimed] at h ⊢
        obtain ⟨valJson, hdumps, -, hstore⟩ := s.writeState_eq_ok h
        exact ⟨valJson, hdumps, by rw [hstore]⟩

/-- What a claim leaves: the store as it was, or its state. -/
theorem atomicClaimStart_snd (key operationId planFingerprint claimedAt : String)
    (metadata : Option StateDict) :
    (s.atomicClaimStart str key operationId planFingerprint claimedAt metadata).2 = s ∨
      ∃ items valJson, IsValue (.dict items) ∧ dumps false (.dict items) = .ok valJson ∧
        (s.atomicClaimStart str key operationId planFingerprint claimedAt metadata).2 =
          ⟨updateAt s.rows "runtime" key (some valJson),
            s.state.insert "runtime" key (.dict items)⟩ := by
  unfold atomicClaimStart
  cases s.currentState key "runtime" with
  | error e => exact .inl rfl
  | ok current =>
    simp only
    by_cases hclaimed : currStatus str current ∈ claimedStatuses
    · rw [if_pos hclaimed]
      exact .inl rfl
    · rw [if_neg hclaimed]
      rcases s.writeState_snd key "runtime"
        (claimState operationId planFingerprint claimedAt (itemsOf metadata))
        (true, PyValue.dict (claimState operationId planFingerprint claimedAt
          (itemsOf metadata))) with h | ⟨valJson, hdumps, h⟩
      · exact .inl h
      · exact .inr ⟨_, valJson, isValue_claimState .., hdumps, h⟩

/-- **A granted transition** found one of the expected statuses or none, and stores its state. -/
theorem guardedTransitionState_true {key targetStatus category : String}
    {expectedCurrent : List String} {updateData : Option StateDict}
    (h : (s.guardedTransitionState str key expectedCurrent targetStatus updateData category).1 =
      .ok true) :
    ∃ current valJson, s.currentState key category = .ok current ∧ (currStatus str current = "" ∨
        currStatus str current ∈ expectedCurrent.map PythonText.upper) ∧
      dumps false (.dict (transitionState current targetStatus (itemsOf updateData))) =
        .ok valJson ∧
      (s.guardedTransitionState str key expectedCurrent targetStatus updateData category).2.rows =
        updateAt s.rows category key (some valJson) := by
  unfold guardedTransitionState at h ⊢
  cases hcurrent : s.currentState key category with
  | error e =>
    rw [hcurrent] at h
    cases h
  | ok current =>
    rw [hcurrent] at h
    simp only at h ⊢
    split_ifs at h ⊢ with hstatus
    · cases h
    · obtain ⟨valJson, hdumps, -, hstore⟩ := s.writeState_eq_ok h
      refine ⟨current, valJson, rfl, ?_, hdumps, by rw [hstore]⟩
      by_cases hempty : currStatus str current = ""
      · exact .inl hempty
      · right
        by_contra hnot
        exact hstatus ⟨hempty, hnot⟩

/-- What a transition leaves: the store as it was, or its state. -/
theorem guardedTransitionState_snd (key : String) (expectedCurrent : List String)
    (targetStatus : String) (updateData : Option StateDict) (category : String) :
    (s.guardedTransitionState str key expectedCurrent targetStatus updateData category).2 = s ∨
      ∃ current valJson, s.currentState key category = .ok current ∧
        dumps false (.dict (transitionState current targetStatus (itemsOf updateData))) =
          .ok valJson ∧
        (s.guardedTransitionState str key expectedCurrent targetStatus updateData category).2 =
          ⟨updateAt s.rows category key (some valJson), s.state.insert category key
            (.dict (transitionState current targetStatus (itemsOf updateData)))⟩ := by
  unfold guardedTransitionState
  cases hcurrent : s.currentState key category with
  | error e => exact .inl rfl
  | ok current =>
    simp only
    split_ifs
    · exact .inl rfl
    · rcases s.writeState_snd key category
        (transitionState current targetStatus (itemsOf updateData)) true with
        h | ⟨valJson, hdumps, h⟩
      · exact .inl h
      · exact .inr ⟨current, valJson, rfl, hdumps, h⟩

/-- The stored status is the target's, unless the state read is no dictionary and the update brings
another one. -/
theorem lookup_transitionState {current : PyValue} {targetStatus : String}
    {updateData : Option StateDict}
    (h : (∃ items, current = .dict items) ∨ (itemsOf updateData).lookup "status" = none) :
    (transitionState current targetStatus (itemsOf updateData)).lookup "status" =
      some (.str targetStatus) := by
  have htarget : ([("status", PyValue.str targetStatus)].map Prod.fst).Nodup :=
    List.nodup_singleton _
  unfold transitionState
  split
  · rw [lookup_mergeItems _ htarget]
    rfl
  · next hnot =>
      rcases h with ⟨items, hitems⟩ | hnone
      · exact absurd hitems (hnot items)
      · rw [lookup_mergeItems _ (isValue_itemsOf updateData).1, hnone]
        rfl

end CentralStateStore

/-! ## Several processes -/

/-- A call of `atomic_claim_start` in a process. -/
structure ClaimCall where
  process : ℕ
  key : String
  operationId : String
  planFingerprint : String
  claimedAt : String
  metadata : Option StateDict

/-- A call of `guarded_transition_state` in a process. -/
structure TransitionCall where
  process : ℕ
  key : String
  expectedCurrent : List String
  targetStatus : String
  updateData : Option StateDict
  category : String

/-- A call in one of the processes. -/
inductive ClaimAction (jsonDefault : String → String → Option PyValue) where
  | store (action : StoreAction jsonDefault)
  | claim (call : ClaimCall)
  | transition (call : TransitionCall)

/-- The call does not set the state of a key directly. -/
def ClaimAction.LeavesSet {jsonDefault : String → String → Option PyValue} (key : String) :
    ClaimAction jsonDefault → Prop
  | .store (.set _ key' _ category) => ¬ ("runtime" = category ∧ key = key')
  | _ => True

namespace SharedStores

open CentralStateStore

variable (str : PyValue → String) {jsonDefault : String → String → Option PyValue}

/-- The result of a claim, and the store of its process after it. -/
def claimResult (s : SharedStores) (c : ClaimCall) :
    Except StateError (Bool × PyValue) × CentralStateStore :=
  (s.view c.process).atomicClaimStart str c.key c.operationId c.planFingerprint c.claimedAt
    c.metadata

/-- The result of a transition, and the store of its process after it. -/
def transitionResult (s : SharedStores) (g : TransitionCall) :
    Except StateError Bool × CentralStateStore :=
  (s.view g.process).guardedTransitionState str g.key g.expectedCurrent g.targetStatus
    g.updateData g.category

/-- One call. -/
def claimStep (s : SharedStores) : ClaimAction jsonDefault → Option SharedStores
  | .store action => storeStep s action
  | .claim c => some (s.put c.process (s.claimResult str c).2)
  | .transition g => some (s.put g.process (s.transitionResult str g).2)

/-- The claim returns `True`. -/
def Claims (s : SharedStores) (c : ClaimCall) : Prop :=
  ∃ state, (s.claimResult str c).1 = .ok (true, state)

/-- The transition returns `True`. -/
def Transitions (s : SharedStores) (g : TransitionCall) : Prop :=
  (s.transitionResult str g).1 = .ok true

/-- The stored status of a key is one of a claim. -/
def Claimed (s : SharedStores) (key : String) : Prop :=
  storedStatus str (s.rows "runtime" key) ∈ claimedStatuses

/-- Between two granted claims on a key, the first of which is as the condition says, a transition
moved the stored status out of those of a claim. -/
def Excludes (jsonDefault : String → String → Option PyValue) (C : ClaimCall → Prop) : Prop :=
  ∀ (s t : SharedStores) (c next : ClaimCall) (between : List (ClaimAction jsonDefault)),
    C c → s.Claims str c → run (claimStep str) s (.claim c :: between) = some t →
    t.Claims str next → next.key = c.key → (∀ a ∈ between, a.LeavesSet c.key) →
    ∃ before g after u u', between = before ++ .transition g :: after ∧
      run (claimStep str) s (.claim c :: before) = some u ∧
      u' = u.put g.process (u.transitionResult str g).2 ∧
      u.Claimed str c.key ∧ ¬ u'.Claimed str c.key

/-- A granted transition found what the condition says of the stored status, and stores exactly its
target where the other condition holds. -/
def Guards (jsonDefault : String → String → Option PyValue)
    (Found : SharedStores → TransitionCall → Prop)
    (C : SharedStores → TransitionCall → Prop) : Prop :=
  ∀ (as : List (ClaimAction jsonDefault)) (s : SharedStores) (g : TransitionCall),
    run (claimStep str) new as = some s → s.Transitions str g →
    Found s g ∧ (C s g → storedTarget
      ((s.put g.process (s.transitionResult str g).2).rows g.category g.key) =
        some (.str g.targetStatus))

/-- The stored status is one of those that are expected. -/
def FindsExpected (s : SharedStores) (g : TransitionCall) : Prop :=
  storedStatus str (s.rows g.category g.key) ∈ g.expectedCurrent.map PythonText.upper

/-- The metadata brings no status other than one of a claim. -/
def BringsNoStatus (c : ClaimCall) : Prop :=
  ∀ status, (itemsOf c.metadata).lookup "status" = some status →
    upperText str status ∈ claimedStatuses

/-- The state that the transition reads is a dictionary, or the update brings no status. -/
def KeepsTarget (s : SharedStores) (g : TransitionCall) : Prop :=
  (∃ items, (s.view g.process).currentState g.key g.category = .ok (.dict items)) ∨
    (itemsOf g.updateData).lookup "status" = none

/-! ### Claims exclude one another -/

variable {s s' : SharedStores}

theorem claimed_of_claims {c : ClaimCall} (hc : BringsNoStatus str c) (h : s.Claims str c) :
    (s.put c.process (s.claimResult str c).2).Claimed str c.key := by
  obtain ⟨state, hstate⟩ := h
  obtain ⟨-, valJson, hdumps, hrows⟩ := atomicClaimStart_true str _ hstate
  show storedStatus str ((s.claimResult str c).2.rows "runtime" c.key) ∈ claimedStatuses
  rw [claimResult, hrows, updateAt_self, storedStatus_of_dumps str (isValue_claimState ..) hdumps,
    currStatus, lookup_claimState, Option.getD_some]
  cases hstatus : (itemsOf c.metadata).lookup "status" with
  | none =>
    show PythonText.upper "START_REQUESTED" ∈ claimedStatuses
    decide
  | some status => exact hc status hstatus

/-- Only a transition takes a claimed key out of the statuses of a claim. -/
theorem transition_of_claimed {key : String} {a : ClaimAction jsonDefault}
    (hstep : claimStep str s a = some s') (ha : a.LeavesSet key) (hs : s.Claimed str key)
    (hs' : ¬ s'.Claimed str key) :
    ∃ g, a = .transition g ∧ s' = s.put g.process (s.transitionResult str g).2 := by
  cases a with
  | store action =>
    exfalso
    have hrow : s'.rows "runtime" key = s.rows "runtime" key := by
      cases action with
      | set process key' value category =>
        rcases storeStep_set hstep with ⟨-, rfl⟩ | ⟨_, _, -, -, hrows, -⟩
        · rfl
        · rw [hrows, updateAt_of_ne ha]
      | get process key' default category =>
        have hget : @storeStep jsonDefault s (.get process key' default category) = some s' :=
          hstep
        rcases storeStep_get hget with rfl | ⟨_, -, hrows, -⟩
        · rfl
        · rw [hrows]
    exact hs' (by rw [Claimed, hrow]; exact hs)
  | claim c =>
    exfalso
    rw [claimStep, Option.some.injEq] at hstep
    by_cases hkey : key = c.key
    · obtain ⟨current, hrefused⟩ := (s.view c.process).atomicClaimStart_of_claimed str
        (hkey ▸ hs) c.operationId c.planFingerprint c.claimedAt c.metadata
      rw [claimResult, hrefused, put_view] at hstep
      exact hs' (hstep ▸ hs)
    · have hrow : s'.rows "runtime" key = s.rows "runtime" key := by
        rw [← hstep]
        show (s.claimResult str c).2.rows "runtime" key = _
        rcases (s.view c.process).atomicClaimStart_snd str c.key c.operationId
          c.planFingerprint c.claimedAt c.metadata with h | ⟨items, valJson, -, -, h⟩
        · rw [claimResult, h]
          rfl
        · rw [claimResult, h]
          exact updateAt_of_ne fun hboth => hkey hboth.2
      exact hs' (by rw [Claimed, hrow]; exact hs)
  | transition g =>
    rw [claimStep, Option.some.injEq] at hstep
    exact ⟨g, rfl, hstep.symm⟩

theorem excludes : Excludes str jsonDefault (BringsNoStatus str) := by
  intro s t c next between hc hclaims hrun hnext hkey hbetween
  obtain ⟨s₁, hfirst, hrest⟩ := run_cons_eq_some.mp hrun
  rw [claimStep, Option.some.injEq] at hfirst
  have hs₁ : s₁.Claimed str c.key := hfirst ▸ claimed_of_claims str hc hclaims
  have ht : ¬ t.Claimed str c.key := by
    obtain ⟨state, hstate⟩ := hnext
    exact hkey ▸ (atomicClaimStart_true str _ hstate).1
  obtain ⟨before, a, after, u, u', hsplit, hbefore, hstep, hu, hu'⟩ :=
    exists_leaving_step (P := fun u : SharedStores => u.Claimed str c.key) hs₁ hrest ht
  have ha : a.LeavesSet c.key := hbetween a (by rw [hsplit]; simp)
  obtain ⟨g, rfl, hput⟩ := transition_of_claimed str hstep ha hu hu'
  refine ⟨before, g, after, u, u', hsplit, ?_, hput, hu, hu'⟩
  exact run_cons_eq_some.mpr ⟨s₁, by rw [claimStep, hfirst], hbefore⟩

/-! ### Transitions are guarded -/

/-- The rows hold texts of values, and the caches hold values. -/
structure Valid (s : SharedStores) : Prop where
  rows : ∀ category key valJson, s.rows category key = some valJson →
    ∃ v, IsValue v ∧ dumps false v = .ok valJson
  caches : ∀ process category key v, (s.caches process).lookup category key = some v → IsValue v

theorem valid_new : Valid new := by
  constructor
  · rintro category key valJson ⟨⟩
  · intro process category key v hv
    rw [show (new.caches process).lookup category key = none from
      StateCache.lookup_new category key] at hv
    cases hv

/-- A value is cached. -/
theorem Valid.cache (h : Valid s) {process : ℕ} {category key : String} {v : PyValue}
    (hv : IsValue v) (hcaches : s'.caches = updateCache s.caches process category key v)
    (other : ℕ) (category' key' : String) (v' : PyValue)
    (hlookup : (s'.caches other).lookup category' key' = some v') : IsValue v' := by
  rw [hcaches] at hlookup
  by_cases hkey : category' = category ∧ key' = key
  · obtain ⟨rfl, rfl⟩ := hkey
    rcases eq_or_ne other process with rfl | hne
    · rw [updateCache_self, Option.some.injEq] at hlookup
      exact hlookup ▸ hv
    · rw [updateCache_of_ne hne] at hlookup
      exact h.caches other category' key' v' hlookup
  · rw [updateCache_of_ne_key hkey] at hlookup
    exact h.caches other category' key' v' hlookup

/-- A value is written and cached. -/
theorem Valid.write (h : Valid s) {process : ℕ} {category key valJson : String} {v plain : PyValue}
    (hv : IsValue v) (hplain : IsValue plain) (hdumps : dumps false plain = .ok valJson)
    (hrows : s'.rows = updateAt s.rows category key (some valJson))
    (hcaches : s'.caches = updateCache s.caches process category key v) : Valid s' := by
  constructor
  · intro category' key' valJson' hrow
    rw [hrows] at hrow
    by_cases hkey : category' = category ∧ key' = key
    · obtain ⟨rfl, rfl⟩ := hkey
      rw [updateAt_self, Option.some.injEq] at hrow
      exact ⟨plain, hplain, hrow ▸ hdumps⟩
    · rw [updateAt_of_ne hkey] at hrow
      exact h.rows category' key' valJson' hrow
  · exact h.cache hv hcaches

theorem Valid.loads (h : Valid s) {category key valJson : String}
    (hrow : s.rows category key = some valJson) {v : PyValue} (hv : loads valJson = some v) :
    IsValue v := by
  obtain ⟨v', hv', hdumps⟩ := h.rows category key valJson hrow
  rw [loads_dumps hv' hdumps, Option.some.injEq] at hv
  exact hv ▸ hv'

theorem Valid.currentState (h : Valid s) {process : ℕ} {category key : String} {current : PyValue}
    (hcurrent : (s.view process).currentState key category = .ok current) : IsValue current := by
  have hstored : ∀ v, (s.view process).storedState key category = .ok v → IsValue v := by
    intro v hv
    unfold storedState at hv
    cases hrow : s.rows category key with
    | none =>
      rw [show (s.view process).rows category key = none from hrow] at hv
      rw [← Except.ok.inj hv]
      trivial
    | some valJson =>
      rw [show (s.view process).rows category key = some valJson from hrow] at hv
      simp only at hv
      split_ifs at hv
      · cases hread : JsonText.loads valJson with
        | none =>
          rw [hread] at hv
          cases hv
        | some v' =>
          rw [hread] at hv
          exact Except.ok.inj hv ▸ h.loads hrow hread
      · rw [← Except.ok.inj hv]
        trivial
  rw [CentralStateStore.currentState, Traversal.bind_eq_ok_iff] at hcurrent
  obtain ⟨v, hv, hcurrent⟩ := hcurrent
  cases htruthy : truthy v with
  | true =>
    rw [htruthy] at hcurrent
    exact Except.ok.inj hcurrent ▸ hstored v hv
  | false =>
    rw [htruthy] at hcurrent
    simp only [Bool.not_false, if_true] at hcurrent
    cases hentries : (s.view process).state category with
    | none =>
      rw [hentries] at hcurrent
      exact Except.ok.inj hcurrent ▸ hstored v hv
    | some entries =>
      rw [hentries] at hcurrent
      rw [← Except.ok.inj hcurrent]
      cases hentry : entries key with
      | none => trivial
      | some cached =>
        refine h.caches process category key cached ?_
        rw [StateCache.lookup, show s.caches process category = some entries from hentries]
        exact hentry

theorem Valid.step (h : Valid s) {a : ClaimAction jsonDefault}
    (hstep : claimStep str s a = some s') : Valid s' := by
  cases a with
  | store action =>
    cases action with
    | set process key value category =>
      rcases storeStep_set hstep with ⟨-, rfl⟩ | ⟨plain, text, hplain, htext, hrows, hcaches, -⟩
      · exact h
      · exact h.write value.isValue (value.isPlain plain hplain) htext hrows hcaches
    | get process key default category =>
      have hget : @storeStep jsonDefault s (.get process key default category) = some s' :=
        hstep
      rcases storeStep_get hget with rfl | ⟨val, hread, hrows, hcaches, -⟩
      · exact h
      · have hval : IsValue val := by
          cases hrow : s.rows category key with
          | none =>
            rw [hrow] at hread
            cases hread
          | some valJson =>
            rw [hrow, readRow] at hread
            split_ifs at hread
            exact h.loads hrow hread
        exact ⟨fun category' key' valJson hrow => h.rows category' key' valJson (hrows ▸ hrow),
          h.cache hval hcaches⟩
  | claim c =>
    rw [claimStep, Option.some.injEq, claimResult] at hstep
    rcases (s.view c.process).atomicClaimStart_snd str c.key c.operationId c.planFingerprint
      c.claimedAt c.metadata with hsame | ⟨items, valJson, hitems, hdumps, hstore⟩
    · rw [hsame, put_view] at hstep
      exact hstep ▸ h
    · rw [hstore] at hstep
      exact h.write hitems hitems hdumps (by rw [← hstep]; rfl) (by rw [← hstep]; rfl)
  | transition g =>
    rw [claimStep, Option.some.injEq, transitionResult] at hstep
    rcases (s.view g.process).guardedTransitionState_snd str g.key g.expectedCurrent
      g.targetStatus g.updateData g.category with
      hsame | ⟨current, valJson, hcurrent, hdumps, hstore⟩
    · rw [hsame, put_view] at hstep
      exact hstep ▸ h
    · have hitems := isValue_transitionState (h.currentState hcurrent) g.targetStatus g.updateData
      rw [hstore] at hstep
      exact h.write hitems hitems hdumps (by rw [← hstep]; rfl) (by rw [← hstep]; rfl)

theorem guards : Guards str jsonDefault
    (fun s g => storedStatus str (s.rows g.category g.key) = "" ∨ FindsExpected str s g)
    KeepsTarget := by
  intro as s g hrun hgranted
  have hvalid : Valid s := run_invariant (fun _ _ _ hs hstep => hs.step str hstep) valid_new hrun
  obtain ⟨current, valJson, hcurrent, hstatus, hdumps, hrows⟩ :=
    guardedTransitionState_true str _ hgranted
  constructor
  · by_cases hempty : storedStatus str (s.rows g.category g.key) = ""
    · exact .inl hempty
    · -- a row with a status is the state that is read
      right
      obtain ⟨stored, hstored, heq⟩ :=
        (s.view g.process).currentState_of_storedStatus str hempty
      rw [hcurrent, Except.ok.injEq] at hstored
      rw [hstored, heq] at hstatus
      exact hstatus.resolve_left hempty
  · intro hkeeps
    have htarget : (transitionState current g.targetStatus (itemsOf g.updateData)).lookup "status" =
        some (.str g.targetStatus) := by
      refine lookup_transitionState (hkeeps.imp_left fun ⟨items, hitems⟩ => ⟨items, ?_⟩)
      rw [hcurrent, Except.ok.injEq] at hitems
      exact hitems
    show storedTarget ((s.transitionResult str g).2.rows g.category g.key) = _
    rw [transitionResult, hrows, updateAt_self, storedTarget_of_dumps
      (isValue_transitionState (hvalid.currentState hcurrent) ..) hdumps, htarget]

/-- **Claims and transitions.**  Between two granted claims on a key, the first of which brings no
status of its own, a transition moved the stored status out of those of a claim.  A transition is
granted only when the stored status is one of the expected ones or there is none; it stores exactly
its target, unless it reads no dictionary and its update brings another status. -/
theorem claims_exclude : Excludes str jsonDefault (BringsNoStatus str) ∧ Guards str jsonDefault
        (fun s g => storedStatus str (s.rows g.category g.key) = "" ∨ FindsExpected str s g)
        KeepsTarget :=
  ⟨excludes str, guards str⟩

/-- A dictionary with a status. -/
def idleStatus : StateDict := ⟨[("status", .str "IDLE")], List.nodup_singleton _, trivial, trivial⟩

/-- A claim whose metadata brings a status. -/
def idleClaim : ClaimCall :=
  ⟨0, "m1_status", "op-1", "fp-1", "2026-01-01T00:00:00+00:00", idleStatus⟩

/-- A transition of a key that has no state, with an update that brings a status. -/
def firstTransition : TransitionCall :=
  ⟨0, "m1_status", ["START_REQUESTED"], "STARTING", idleStatus, "runtime"⟩

/-- After a claim whose metadata brings a status the next claim is granted too; a transition of a
key without a state is granted, and stores the status that its update brings. -/
theorem not_claims_exclude : (¬ Excludes (fun _ => "") (fun _ _ => none) fun _ => True) ∧
      (¬ Guards (fun _ => "") (fun _ _ => none) (FindsExpected fun _ => "") fun _ _ => True) ∧
      ¬ Guards (fun _ => "") (fun _ _ => none) (fun _ _ => True) fun _ _ => True := by
  have hgranted : ∀ (s : SharedStores),
      (s.claimResult (fun _ => "") idleClaim).1.toOption.map Prod.fst = some true →
        s.Claims (fun _ => "") idleClaim := by
    intro s h
    cases hresult : (s.claimResult (fun _ => "") idleClaim).1 with
    | error e =>
      rw [hresult] at h
      cases h
    | ok result =>
      obtain ⟨granted, state⟩ := result
      rw [hresult] at h
      have htrue : granted = true := Option.some.inj h
      exact ⟨state, by rw [hresult, htrue]⟩
  have hfirst : new.Claims (fun _ => "") idleClaim := hgranted new (by decide +kernel)
  have htransition : new.Transitions (fun _ => "") firstTransition := by
    have hresult : (new.transitionResult (fun _ => "") firstTransition).1.toOption = some true := by
      decide +kernel
    cases h : (new.transitionResult (fun _ => "") firstTransition).1 with
    | error e =>
      rw [h] at hresult
      cases hresult
    | ok granted =>
      rw [h] at hresult
      exact h.trans (congrArg Except.ok (Option.some.inj hresult))
  refine ⟨fun h => ?_, fun h => ?_, fun h => ?_⟩
  · have hsecond := hgranted (new.put 0 (new.claimResult (fun _ => "") idleClaim).2)
      (by decide +kernel)
    obtain ⟨before, g, after, u, u', hsplit, -⟩ :=
      h new _ idleClaim idleClaim [] trivial hfirst rfl hsecond rfl (by simp)
    exact absurd hsplit (by simp)
  · exact absurd (h [] new firstTransition rfl htransition).1 (by
      show "" ∉ [PythonText.upper "START_REQUESTED"]
      decide)
  · have hstored := (h [] new firstTransition rfl htransition).2 trivial
    have hidle : (storedTarget ((new.put 0 (new.transitionResult (fun _ => "")
        firstTransition).2).rows "runtime" "m1_status")).bind textOf = some "IDLE" := by
      decide +kernel
    rw [show storedTarget ((new.put 0 (new.transitionResult (fun _ => "")
      firstTransition).2).rows "runtime" "m1_status") = _ from hstored] at hidle
    exact absurd hidle (by decide)

end SharedStores

end StateStore

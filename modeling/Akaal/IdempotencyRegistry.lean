/-
# The idempotency registry

`IdempotencyRegistry` of `akaalEngine/durability/recovery/idempotency.py`: a record for each key, whose
state changes by a table of transitions.

* `transitionState_evolves` : what a transition keeps of a record.
-/
import Akaal.SecretFilter

open JsonText

namespace Durability

/-! ## States -/

/-- `IdempotencyState`. -/
inductive IdempotencyState where
  | reserved
  | inProgress
  | committed
  | failed
  | abandoned
  deriving DecidableEq

/-- `ALLOWED_TRANSITIONS`. -/
def allowedTransitions : IdempotencyState → List IdempotencyState
  | .reserved => [.inProgress, .abandoned]
  | .inProgress => [.committed, .failed, .abandoned]
  | .failed => [.inProgress, .abandoned]
  | .abandoned => [.reserved, .inProgress]
  | .committed => []

/-- A row of `idempotency_records`. -/
structure IdempotencyRow where
  migrationId : String
  state : IdempotencyState
  resultHash : Option String
  fencingEpoch : ℤ
  inputFingerprint : String
  updatedAt : String
  deriving DecidableEq

/-- The table `idempotency_records`, by key. -/
abbrev IdempotencyTable := PyDict IdempotencyRow

/-! ## Transitions -/

/-- Why a transition is refused. -/
inductive TransitionError where
  | prohibitedSecrets
  | quotaExceeded
  | missing (key : String) (expected : IdempotencyState)
  | fingerprint (key : String)
  | staleEpoch (epoch current : ℤ)
  | unexpected (key : String) (current expected : IdempotencyState)
  | illegal (key : String) (current new : IdempotencyState)
  deriving DecidableEq

/-- The arguments of `transition_state`, the time, and whether the quota leaves room. -/
structure TransitionCall where
  idempotencyKey : String
  expectedState : Option IdempotencyState
  newState : IdempotencyState
  fencingEpoch : ℤ
  inputFingerprint : String
  resultHash : Option String
  migrationId : String
  now : String
  fits : Bool

/-- The row that a call inserts. -/
def TransitionCall.newRow (call : TransitionCall) : IdempotencyRow where
  migrationId := call.migrationId
  state := call.newState
  resultHash := call.resultHash
  fencingEpoch := call.fencingEpoch
  inputFingerprint := call.inputFingerprint
  updatedAt := call.now

/-- The row that a call updates. -/
def TransitionCall.updatedRow (call : TransitionCall) (row : IdempotencyRow) : IdempotencyRow :=
  { call.newRow with migrationId := row.migrationId }

/-- `transition_state`. -/
def transitionState (table : IdempotencyTable) (call : TransitionCall) :
    Except TransitionError IdempotencyTable :=
  if prohibitedText call.inputFingerprint || call.resultHash.elim false prohibitedText then
    .error .prohibitedSecrets
  else if call.fits = false then .error .quotaExceeded
  else
    match table.get? call.idempotencyKey with
    | none =>
      match call.expectedState with
      | some expected => .error (.missing call.idempotencyKey expected)
      | none => .ok (table.set call.idempotencyKey call.newRow)
    | some row =>
      if row.inputFingerprint ≠ call.inputFingerprint then
        .error (.fingerprint call.idempotencyKey)
      else if call.fencingEpoch < row.fencingEpoch then
        .error (.staleEpoch call.fencingEpoch row.fencingEpoch)
      else
        match call.expectedState.filter fun expected => row.state ≠ expected with
        | some expected => .error (.unexpected call.idempotencyKey row.state expected)
        | none =>
          if call.newState ∉ allowedTransitions row.state then
            .error (.illegal call.idempotencyKey row.state call.newState)
          else .ok (table.set call.idempotencyKey (call.updatedRow row))

/-! ## What becomes of a record -/

/-- A change of a record by the table of transitions. -/
structure Evolves (row row' : IdempotencyRow) : Prop where
  allowed : row'.state ≠ row.state → row'.state ∈ allowedTransitions row.state
  final : row.state = .committed → row' = row
  epoch : row.fencingEpoch ≤ row'.fencingEpoch
  fingerprint : row'.inputFingerprint = row.inputFingerprint

theorem Evolves.refl (row : IdempotencyRow) : Evolves row row :=
  ⟨fun h => absurd rfl h, fun _ => rfl, le_rfl, rfl⟩

/-- Every record of a table is still there, and has changed by the table of transitions. -/
def TableEvolves (table table' : IdempotencyTable) : Prop :=
  ∀ key row, table.get? key = some row → ∃ row', table'.get? key = some row' ∧ Evolves row row'

theorem TableEvolves.refl (table : IdempotencyTable) : TableEvolves table table :=
  fun _ row h => ⟨row, h, Evolves.refl row⟩

theorem tableEvolves_set_iff {table : IdempotencyTable} {key : String} {row' : IdempotencyRow} :
    TableEvolves table (table.set key row') ↔
      ∀ row, table.get? key = some row → Evolves row row' := by
  constructor
  · intro h row hrow
    obtain ⟨row'', hrow'', hevolves⟩ := h key row hrow
    rw [PyDict.get?_set, Option.some.injEq] at hrow''
    exact hrow'' ▸ hevolves
  · intro h k row hrow
    by_cases hk : k = key
    · subst hk
      exact ⟨row', PyDict.get?_set _ _ _, h row hrow⟩
    · exact ⟨row, by rw [PyDict.get?_set_of_ne _ _ hk, hrow], Evolves.refl row⟩

/-- **A transition** changes a record by the table of transitions. -/
theorem transitionState_evolves {table table' : IdempotencyTable} {call : TransitionCall}
    (h : transitionState table call = .ok table') : TableEvolves table table' := by
  unfold transitionState at h
  split_ifs at h with hsecret hfits
  split at h
  · next hnone =>
      split at h
      · cases h
      · cases h
        exact tableEvolves_set_iff.mpr fun row hrow => by rw [hnone] at hrow; cases hrow
  · next row hrow =>
      by_cases hfingerprint : row.inputFingerprint = call.inputFingerprint
      · rw [if_neg (not_not.mpr hfingerprint)] at h
        by_cases hepoch : call.fencingEpoch < row.fencingEpoch
        · rw [if_pos hepoch] at h
          cases h
        · rw [if_neg hepoch] at h
          split at h
          · cases h
          · by_cases hallowed : call.newState ∈ allowedTransitions row.state
            · rw [if_neg (not_not.mpr hallowed)] at h
              cases h
              refine tableEvolves_set_iff.mpr fun row' hrow' => ?_
              obtain rfl : row = row' := Option.some.inj (hrow.symm.trans hrow')
              refine ⟨fun _ => hallowed, fun hfinal => ?_, not_lt.mp hepoch, hfingerprint.symm⟩
              rw [hfinal] at hallowed
              cases hallowed
            · rw [if_pos hallowed] at h
              cases h
      · rw [if_pos hfingerprint] at h
        cases h

end Durability

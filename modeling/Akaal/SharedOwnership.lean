/-
# Ownership managers of several processes

Several `OwnershipManager` of `akaalEngine/fabric/ownership/manager.py` share one ledger and one store.
Each decides from the records that it holds itself: what another one grants it learns only when it is
reconstructed.

* `oneOwner_iff` : the runs in which at most one owner of a key is accepted on any of them;
* `not_oneOwner_acquired` : two managers that grant the same key.

The processes read one clock, which does not go back.
-/
import Akaal.OwnershipRuns

open CDC IsoTimestamps TransitionRun

namespace Fabric

open Durability

/-! ## Processes -/

/-- The records of each manager, the ledger and the store that they share, and the time. -/
structure SharedOwnership where
  records : ℕ → PyDict OwnershipRecord
  epochs : EpochTable
  table : StateTable
  clock : Instant

/-- Who an owner is: its site and its worker. -/
def OwnershipRecord.owner (r : OwnershipRecord) : String × String := (r.siteId, r.workerId)

namespace SharedOwnership

/-- A step: a call of a manager, or a manager that is reconstructed. -/
inductive Step where
  | call (i : ℕ) (call : OwnershipManager.Call) (input : OwnershipInput)
  | reconstruct (i : ℕ) (now : Instant)

/-- No manager holds a record. -/
def start (epochs : EpochTable) (clock : Instant) : SharedOwnership :=
  ⟨fun _ => .empty, epochs, .empty, clock⟩

section Steps

variable (rt : DigestRuntime) (signingKey : List UInt8) (s : SharedOwnership)

/-- A manager, with what it shares. -/
def manager (i : ℕ) : OwnershipManager := ⟨s.records i, s.epochs, some s.table⟩

/-- What is shared after a call of a manager. -/
def withManager (i : ℕ) (m : OwnershipManager) (now : Instant) : SharedOwnership where
  records := Function.update s.records i m.records
  epochs := m.epochs
  table := m.store.getD s.table
  clock := now

@[simp] theorem withManager_records (i : ℕ) (m : OwnershipManager) (now : Instant) :
    (s.withManager i m now).records = Function.update s.records i m.records := rfl

/-- A step, whose readings of the clock do not go back. -/
def step : Step → Option SharedOwnership
  | .call i call input =>
    if s.clock.micros ≤ input.first.micros ∧ input.first.micros ≤ input.second.micros ∧
        input.second.micros ≤ input.third.micros then
      some (s.withManager i ((s.manager i).perform rt signingKey input call).2 input.third)
    else none
  | .reconstruct i now =>
    if s.clock.micros ≤ now.micros then
      match reconstruct rt s.table .ownership with
      | .error _ => none
      | .ok records => some { s with
          records := Function.update s.records i (OwnershipRun.registered records)
          clock := now }
    else none

end Steps

/-- The record of a key by which a manager accepts an owner. -/
def validRecord (s : SharedOwnership) (i : ℕ) (key : String) (now : Instant) : Option OwnershipRecord :=
  ((s.records i).get? key).filter (·.isCurrentlyValidOwner now)

/-- **The contract.**  The owners of a key that are accepted on any of the managers, now or later, are one. -/
def OneOwner (s : SharedOwnership) : Prop :=
  ∀ i j key leaseId leaseId' generation generation' now r r', s.clock.micros ≤ now.micros →
    (s.manager i).validate key leaseId generation now = .ok r →
    (s.manager j).validate key leaseId' generation' now = .ok r' → r.owner = r'.owner

/-- When a step keeps one owner.  The other managers accept, at its end, no owner but the one that a call
grants a lease to (unless that lease has expired by then), and none but the owners of the saved records that
a manager is reconstructed with. -/
def GrantsAlone (rt : DigestRuntime) (s : SharedOwnership) : Step → Prop
  | .call i call input => ∀ claim, (s.manager i).grantedClaim rt input call = some claim →
      (input.third.micros : ℤ) < (call.base input).micros + claim.ttlMicros →
      ∀ j ≠ i, ∀ r, s.validRecord j call.key input.third = some r →
        r.owner = (claim.siteId, claim.workerId)
  | .reconstruct i now => ∀ records, reconstruct rt s.table .ownership = .ok records →
      ∀ key r, (OwnershipRun.registered records).get? key = some r →
        r.isCurrentlyValidOwner now = true →
        ∀ j ≠ i, ∀ r', s.validRecord j key now = some r' → r'.owner = r.owner

/-! ## What a call lets be accepted -/

section Accepted

variable {rt : DigestRuntime} {signingKey : List UInt8} {s s' : SharedOwnership}

variable {i : ℕ} {input : OwnershipInput} {now : Instant} {r : OwnershipRecord}

theorem valid_of_le {now' : Instant} (hle : now.micros ≤ now'.micros)
    (h : r.isCurrentlyValidOwner now' = true) : r.isCurrentlyValidOwner now = true := by
  rw [OwnershipRecord.isCurrentlyValidOwner, Bool.and_eq_true, Bool.not_eq_true'] at h ⊢
  refine ⟨h.1, ?_⟩
  rw [OwnershipRecord.isExpired, decide_eq_false_iff_not] at h ⊢
  exact fun hexpired => h.2 (hexpired.trans (isoformat_le_iff.mpr hle))

theorem valid_iff_lt {expiresAt : Instant} (hactive : r.state = .active)
    (hexpires : r.expiresAt = expiresAt.isoformat) :
    r.isCurrentlyValidOwner now = true ↔ now.micros < expiresAt.micros := by
  rw [OwnershipRecord.isCurrentlyValidOwner, Bool.and_eq_true, Bool.not_eq_true',
    OwnershipRecord.isExpired, decide_eq_false_iff_not, hexpires, isoformat_le_iff, not_le]
  exact and_iff_right (decide_eq_true hactive)

theorem validRecord_eq_some_iff {key : String} : s.validRecord i key now = some r ↔
      (s.records i).get? key = some r ∧ r.isCurrentlyValidOwner now = true :=
  Option.filter_eq_some_iff

theorem oneOwner_iff_valid : OneOwner s ↔ ∀ i j key r r', s.validRecord i key s.clock = some r →
    s.validRecord j key s.clock = some r' → r.owner = r'.owner := by
  constructor
  · intro h i j key r r' hr hr'
    obtain ⟨hget, hvalid⟩ := validRecord_eq_some_iff.mp hr
    obtain ⟨hget', hvalid'⟩ := validRecord_eq_some_iff.mp hr'
    exact h i j key _ _ _ _ s.clock r r' le_rfl
      (OwnershipManager.validate_eq_ok_iff.mpr ⟨hget, hvalid, rfl, rfl⟩)
      (OwnershipManager.validate_eq_ok_iff.mpr ⟨hget', hvalid', rfl, rfl⟩)
  · intro h i j key leaseId leaseId' generation generation' now r r' hle hr hr'
    obtain ⟨hget, hvalid, -⟩ := OwnershipManager.validate_eq_ok_iff.mp hr
    obtain ⟨hget', hvalid', -⟩ := OwnershipManager.validate_eq_ok_iff.mp hr'
    exact h i j key r r' (validRecord_eq_some_iff.mpr ⟨hget, valid_of_le hle hvalid⟩)
      (validRecord_eq_some_iff.mpr ⟨hget', valid_of_le hle hvalid'⟩)

/-- **What a call lets be accepted**: what was accepted, the owner that it renews, or the one that it grants
a lease to. -/
theorem accepted_cases {m m' : OwnershipManager} {call : OwnershipManager.Call}
    {claim : Option OwnershipClaim} {raised : Bool}
    (heffect : OwnershipManager.Effect rt m input call claim raised m') {key : String}
    (hget : m'.records.get? key = some r) (hvalid : r.isCurrentlyValidOwner now = true) :
    (∃ existing, m.records.get? key = some existing ∧ r.owner = existing.owner ∧
      (existing = r ∨ existing.isCurrentlyValidOwner input.first = true)) ∨
    key = call.key ∧ ∃ granted expiresAt, claim = some granted ∧
      r.owner = (granted.siteId, granted.workerId) ∧ r.expiresAt = expiresAt.isoformat ∧
      (call.base input).add granted.ttlMicros = some expiresAt := by
  have hold (h : m.records.get? key = some r) : ∃ existing, m.records.get? key = some existing ∧
      r.owner = existing.owner ∧ (existing = r ∨ existing.isCurrentlyValidOwner input.first = true) :=
    ⟨r, h, rfl, .inl rfl⟩
  cases heffect with
  | nothing => exact .inl (hold hget)
  | issued => exact .inl (hold hget)
  | notTransferred existing epochs =>
    rw [(OwnershipManager.persist_snd rt _ _ _).1] at hget
    exact .inl (hold hget)
  | renewed existing r' hexisting hfirst expiresAt assignmentId hr =>
    rcases OwnershipManager.get?_replace rt m input hget with ⟨rfl, rfl⟩ | ⟨-, hsame⟩
    · refine .inl ⟨existing, hexisting, ?_, .inr hfirst⟩
      rw [hr]
      rfl
    · exact .inl (hold hsame)
  | ended existing r' hexisting hactive state hstate hr =>
    rcases OwnershipManager.get?_replace rt m input hget with ⟨rfl, rfl⟩ | ⟨-, hsame⟩
    · have hrstate := OwnershipManager.state_of_valid hvalid
      rw [hr] at hrstate
      exact absurd hrstate hstate
    · exact .inl (hold hsame)
  | granted claim epochs m₁ r' acquiredAt expiresAt hkey hissued hm₁ hexpires hr =>
    have hrecords : m₁.records = m.records := by
      rcases hm₁ with rfl | ⟨existing, -, rfl⟩
      · rfl
      · exact (OwnershipManager.persist_snd rt _ _ _).1
    rcases OwnershipManager.get?_replace rt m₁ input hget with ⟨rfl, rfl⟩ | ⟨-, hsame⟩
    · refine .inr ⟨rfl, claim, expiresAt, rfl, ?_, ?_, hexpires⟩
      · rw [hr]
        rfl
      · rw [hr]
        rfl
    · rw [hrecords] at hsame
      exact .inl (hold hsame)

/-- A lease that is granted is that of the record. -/
theorem exists_granted {m m' : OwnershipManager}
    {call : OwnershipManager.Call} {claim : OwnershipClaim} {raised : Bool}
    (heffect : OwnershipManager.Effect rt m input call (some claim) raised m') :
    ∃ r expiresAt, m'.records.get? call.key = some r ∧ r.state = .active ∧
      r.owner = (claim.siteId, claim.workerId) ∧ r.expiresAt = expiresAt.isoformat ∧
      (call.base input).add claim.ttlMicros = some expiresAt := by
  cases heffect with
  | granted claim epochs m₁ r acquiredAt expiresAt hkey hissued hm₁ hexpires hr =>
    obtain ⟨hrecords, -⟩ := OwnershipManager.replace_snd rt m₁ input call.key r
    refine ⟨r, expiresAt, ?_, ?_, ?_, ?_, hexpires⟩
    · rw [hrecords, PyDict.get?_set]
    · rw [hr]
      rfl
    · rw [hr]
      rfl
    · rw [hr]
      rfl

theorem validRecord_withManager {j : ℕ} (hne : j ≠ i) (m : OwnershipManager) (key : String)
    (now now' : Instant) :
    (s.withManager i m now).validRecord j key now' = s.validRecord j key now' := by
  rw [validRecord, withManager_records, Function.update_of_ne hne, validRecord]

/-- **A call keeps one owner** precisely when it meets the condition. -/
theorem oneOwner_call_iff (h : OneOwner s) {call : OwnershipManager.Call}
    (hclock : s.clock.micros ≤ input.first.micros)
    (hreadings : input.first.micros ≤ input.third.micros) :
    OneOwner (s.withManager i ((s.manager i).perform rt signingKey input call).2 input.third) ↔
      GrantsAlone rt s (.call i call input) := by
  have heffect := OwnershipManager.perform_effect rt signingKey (s.manager i) input call
  generalize (s.manager i).perform rt signingKey input call = result at heffect
  rw [oneOwner_iff_valid]
  constructor
  · intro h' claim hclaim hlt j hj r hr
    rw [hclaim] at heffect
    obtain ⟨granted, expiresAt, hget, hactive, howner, hexpires, hadd⟩ := exists_granted heffect
    have hvalid : granted.isCurrentlyValidOwner input.third = true := by
      refine (valid_iff_lt hactive hexpires).mpr ?_
      have hmicros := Instant.add_eq_some hadd
      omega
    have hgranted : (s.withManager i result.2 input.third).validRecord i call.key input.third =
        some granted := by
      refine validRecord_eq_some_iff.mpr ⟨?_, hvalid⟩
      rw [withManager_records, Function.update_self]
      exact hget
    rw [← howner]
    refine h' j i call.key r granted ?_ hgranted
    rw [validRecord_withManager hj]
    exact hr
  · intro hD j k key r r' hr hr'
    rw [oneOwner_iff_valid] at h
    have hsource : ∀ l r₀, (s.withManager i result.2 input.third).validRecord l key input.third =
        some r₀ → (∃ e, s.validRecord l key s.clock = some e ∧ r₀.owner = e.owner) ∨
          l = i ∧ ∀ l' ≠ i, ∀ r₁, s.validRecord l' key input.third = some r₁ → r₁.owner = r₀.owner := by
      intro l r₀ hr₀
      by_cases hl : l = i
      · subst hl
        obtain ⟨hget, hvalid⟩ := validRecord_eq_some_iff.mp hr₀
        rw [withManager_records, Function.update_self] at hget
        rcases accepted_cases heffect hget hvalid with
          ⟨existing, hexisting, howner, hsame⟩ | ⟨rfl, claim, expiresAt, hclaim, howner, hexpires, hadd⟩
        · refine .inl ⟨existing, validRecord_eq_some_iff.mpr ⟨hexisting, ?_⟩, howner⟩
          rcases hsame with rfl | hfirst
          · exact valid_of_le (hclock.trans hreadings) hvalid
          · exact valid_of_le hclock hfirst
        · refine .inr ⟨rfl, fun l' hl' r₁ hr₁ => ?_⟩
          rw [howner]
          refine hD claim hclaim ?_ l' hl' r₁ hr₁
          have hlt := (valid_iff_lt (OwnershipManager.state_of_valid hvalid) hexpires).mp hvalid
          have hmicros := Instant.add_eq_some hadd
          omega
      · rw [validRecord_withManager hl] at hr₀
        obtain ⟨hget, hvalid⟩ := validRecord_eq_some_iff.mp hr₀
        exact .inl ⟨r₀, validRecord_eq_some_iff.mpr ⟨hget, valid_of_le (hclock.trans hreadings) hvalid⟩,
          rfl⟩
    have hother : ∀ l r₀, l ≠ i → (s.withManager i result.2 input.third).validRecord l key
        input.third = some r₀ → s.validRecord l key input.third = some r₀ := by
      intro l r₀ hl hr₀
      rwa [validRecord_withManager hl] at hr₀
    by_cases hjk : j = k
    · subst hjk
      rw [Option.some.inj (hr.symm.trans hr')]
    · rcases hsource j r hr with ⟨e, he, howner⟩ | ⟨rfl, hgranted⟩
      · rcases hsource k r' hr' with ⟨e', he', howner'⟩ | ⟨rfl, hgranted'⟩
        · rw [howner, howner']
          exact h j k key e e' he he'
        · exact hgranted' j hjk r (hother j r hjk hr)
      · exact (hgranted k (Ne.symm hjk) r' (hother k r' (Ne.symm hjk) hr')).symm

/-- **A manager that is reconstructed keeps one owner** precisely when it meets the condition. -/
theorem oneOwner_reconstruct_iff (h : OneOwner s) {records : List FabricRecord}
    (hclock : s.clock.micros ≤ now.micros) (hrecords : reconstruct rt s.table .ownership = .ok records) :
    OneOwner { s with
        records := Function.update s.records i (OwnershipRun.registered records)
        clock := now } ↔ GrantsAlone rt s (.reconstruct i now) := by
  let s' : SharedOwnership := { s with
    records := Function.update s.records i (OwnershipRun.registered records)
    clock := now }
  have hself : s'.records i = OwnershipRun.registered records := Function.update_self _ _ _
  have hother {l : ℕ} (hl : l ≠ i) : s'.records l = s.records l := Function.update_of_ne hl _ _
  change OneOwner s' ↔ _
  rw [oneOwner_iff_valid]
  constructor
  · intro h' records' hrecords' key r hget hvalid j hj r' hr'
    obtain rfl := Except.ok.inj (hrecords.symm.trans hrecords')
    refine h' j i key r' r ?_ (validRecord_eq_some_iff.mpr ⟨hself ▸ hget, hvalid⟩)
    rw [validRecord, hother hj]
    exact hr'
  · intro hD j k key r r' hr hr'
    rw [oneOwner_iff_valid] at h
    have hold {l : ℕ} {r₀ : OwnershipRecord} (hl : l ≠ i) (hr₀ : s'.validRecord l key now = some r₀) :
        s.validRecord l key now = some r₀ := by
      rwa [validRecord, hother hl] at hr₀
    have hnew {r₀ : OwnershipRecord} (hr₀ : s'.validRecord i key now = some r₀) :
        ∀ l ≠ i, ∀ r₁, s.validRecord l key now = some r₁ → r₁.owner = r₀.owner := by
      obtain ⟨hget, hvalid⟩ := validRecord_eq_some_iff.mp hr₀
      rw [hself] at hget
      exact hD records hrecords key r₀ hget hvalid
    have hbefore {l : ℕ} {r₀ : OwnershipRecord} (hr₀ : s.validRecord l key now = some r₀) :
        s.validRecord l key s.clock = some r₀ := by
      obtain ⟨hget, hvalid⟩ := validRecord_eq_some_iff.mp hr₀
      exact validRecord_eq_some_iff.mpr ⟨hget, valid_of_le hclock hvalid⟩
    by_cases hjk : j = k
    · subst hjk
      rw [Option.some.inj (hr.symm.trans hr')]
    · by_cases hj : j = i
      · subst hj
        exact (hnew hr k (Ne.symm hjk) r' (hold (Ne.symm hjk) hr')).symm
      · by_cases hk : k = i
        · subst hk
          exact hnew hr' j hj r (hold hj hr)
        · exact h j k key r r' (hbefore (hold hj hr)) (hbefore (hold hk hr'))

end Accepted

/-- **The runs in which one owner of a key is accepted**: those in which the other managers accept no owner
but the one of the lease that is granted, or of the record that is reconstructed. -/
theorem oneOwner_iff (rt : DigestRuntime) (signingKey : List UInt8) (epochs : EpochTable)
    (clock : Instant) (steps : List Step) :
    HoldsAlong (step rt signingKey) OneOwner (start epochs clock) steps ↔
      MeetsAlong (step rt signingKey) (GrantsAlone rt) (start epochs clock) steps := by
  refine holdsAlong_iff_meetsAlong (I := fun _ => True) (fun _ _ _ _ _ => trivial) ?_ trivial ?_ steps
  · intro s a s' _ h hstep
    cases a with
    | call i call input =>
      rw [step] at hstep
      split_ifs at hstep with hclock
      cases hstep
      exact oneOwner_call_iff h hclock.1 (hclock.2.1.trans hclock.2.2)
    | reconstruct i now =>
      rw [step] at hstep
      split_ifs at hstep with hclock
      split at hstep
      · cases hstep
      · next records hrecords =>
          cases hstep
          exact oneOwner_reconstruct_iff h hclock hrecords
  · rw [oneOwner_iff_valid]
    intro i j key r r' hr
    exact nomatch (validRecord_eq_some_iff.mp hr).1

/-- A claim of a worker for thirty seconds. -/
def claimOf (workerId : String) (hworker : workerId ≠ "") : OwnershipClaim :=
  ⟨"t", "w", "p", "m", "l", "f", "e", "x", "c", "a", "s", workerId, "o", none, 30,
    by simp [claimAccepted, hworker]⟩

/-- A call at the beginning of the calendar, for which every site is ready. -/
def readyInput : OwnershipInput where
  sites _ := some ⟨.trusted, some "t", .active⟩
  first := ⟨0, zero_lt_maxInstant⟩
  second := ⟨0, zero_lt_maxInstant⟩
  third := ⟨0, zero_lt_maxInstant⟩
  issuedAt := some "0001-01-01T00:00:00+00:00"
  leaseId := "own-1"
  save := ⟨"0001-01-01T00:00:00+00:00", true, true⟩
  saveTransferred := ⟨"0001-01-01T00:00:00+00:00", true, true⟩

theorem ttlMicros_claimOf (workerId : String) (hworker : workerId ≠ "") :
    (claimOf workerId hworker).ttlMicros = 30000000 := by
  change RoundSignificant.roundHalfEven (30 * 1000000) = 30000000
  decide +kernel

/-- A manager without records grants what is claimed. -/
theorem grantedClaim_claimOf (rt : DigestRuntime) {m : OwnershipManager} (h : m.records = .empty)
    (workerId : String) (hworker : workerId ≠ "") :
    m.grantedClaim rt readyInput (.acquire (claimOf workerId hworker)) =
      some (claimOf workerId hworker) := by
  have hcheck : m.checkAcquire readyInput (claimOf workerId hworker) = .ok none := by
    rw [OwnershipManager.checkAcquire, h]
    rfl
  have hadd : (readyInput.first.add (30000000 : ℤ)).isSome = true := by decide
  rw [OwnershipManager.grantedClaim, hcheck]
  dsimp only
  rw [ttlMicros_claimOf, if_pos ⟨rfl, hadd⟩]

/-- A manager without records accepts the worker that acquires. -/
theorem exists_acquired (rt : DigestRuntime) (signingKey : List UInt8) {m : OwnershipManager}
    (h : m.records = .empty) (workerId : String) (hworker : workerId ≠ "") :
    ∃ r, (m.perform rt signingKey readyInput (.acquire (claimOf workerId hworker))).2.records.get?
        "t::m::l" = some r ∧
      r.isCurrentlyValidOwner readyInput.third = true ∧ r.owner = ("s", workerId) := by
  have heffect := OwnershipManager.perform_effect rt signingKey m readyInput
    (.acquire (claimOf workerId hworker))
  rw [grantedClaim_claimOf rt h] at heffect
  obtain ⟨r, expiresAt, hget, hactive, howner, hexpires, hadd⟩ := exists_granted heffect
  refine ⟨r, hget, ?_, howner⟩
  have hmicros := Instant.add_eq_some hadd
  rw [ttlMicros_claimOf] at hmicros
  exact (valid_iff_lt hactive hexpires).mpr (by change 0 < expiresAt.micros; omega)

/-- **Two owners**: two managers grant the same key to different workers, each without a record of its own. -/
theorem not_oneOwner_acquired : ¬ ∀ rt signingKey epochs clock steps,
    HoldsAlong (step rt signingKey) OneOwner (start epochs clock) steps := by
  intro h
  let rt := JournalRun.textRuntime
  let first : OwnershipManager.Call := .acquire (claimOf "v" (by decide))
  let second : OwnershipManager.Call := .acquire (claimOf "z" (by decide))
  let s := start .empty ⟨0, by decide⟩
  let s₁ := s.withManager 0 ((s.manager 0).perform rt [] readyInput first).2 readyInput.third
  let s₂ := s₁.withManager 1 ((s₁.manager 1).perform rt [] readyInput second).2 readyInput.third
  have hfirst : step rt [] s (.call 0 first readyInput) = some s₁ := by
    rw [step]
    exact if_pos ⟨le_rfl, le_rfl, le_rfl⟩
  have hsecond : step rt [] s₁ (.call 1 second readyInput) = some s₂ := by
    rw [step]
    exact if_pos ⟨le_rfl, le_rfl, le_rfl⟩
  have hone : OneOwner s₂ := by
    have hrun := h rt [] .empty ⟨0, by decide⟩ [.call 0 first readyInput, .call 1 second readyInput]
    exact (hrun.2 s₁ hfirst).2 s₂ hsecond
  obtain ⟨r, hget, hvalid, howner⟩ := exists_acquired rt [] (m := s.manager 0) rfl "v" (by decide)
  have hrecords : s₁.records = Function.update s.records 0
      ((s.manager 0).perform rt [] readyInput first).2.records := rfl
  have hrecords' : s₂.records = Function.update s₁.records 1
      ((s₁.manager 1).perform rt [] readyInput second).2.records := rfl
  have hempty : (s₁.manager 1).records = .empty := by
    rw [manager, hrecords, Function.update_of_ne one_ne_zero]
    rfl
  obtain ⟨r', hget', hvalid', howner'⟩ := exists_acquired rt [] hempty "z" (by decide)
  have hsame : r.owner = r'.owner := by
    refine oneOwner_iff_valid.mp hone 0 1 "t::m::l" r r' ?_ ?_
    · rw [validRecord_eq_some_iff, hrecords', Function.update_of_ne zero_ne_one, hrecords,
        Function.update_self]
      exact ⟨hget, hvalid⟩
    · rw [validRecord_eq_some_iff, hrecords', Function.update_self]
      exact ⟨hget', hvalid'⟩
  rw [howner, howner'] at hsame
  exact absurd hsame (by decide)

end SharedOwnership

end Fabric

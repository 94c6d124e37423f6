/-
# Leases of execution attempts

`LeaseManager` of `akaalPipeline/operations/leases.py`: one row for each attempt, which an acquisition
replaces under the next fence epoch and a revocation lets expire under the next fence epoch.

* `acquireLease_ok`, `acquireLease_accepted_iff` : what an acquisition needs and does;
* `validateLease_eq_ok_iff` : a lease is valid when its id and its epoch are those of the row.

Times are the texts the code compares.  A row is kept under the id of its attempt; the id of a lease is
the primary key of the table.
-/
import Akaal.PythonValue

namespace PipelineLeases

/-- `ExecutionLease`. -/
structure ExecutionLease where
  leaseId : String
  attemptId : String
  ownerId : String
  fenceEpoch : ℤ
  issuedAt : String
  expiresAt : String
  renewedAt : String
  initializationFingerprint : String
  deriving DecidableEq

/-- `is_expired`. -/
def ExecutionLease.isExpired (lease : ExecutionLease) (now : String) : Bool := lease.expiresAt < now

/-- The exceptions of the manager. -/
inductive LeaseError where
  /-- `UnableToAcquireLeaseError`. -/
  | leasedToOther (attemptId ownerId expiresAt : String)
  /-- The primary key of the table is taken. -/
  | integrity (leaseId : String)
  /-- `LeaseConflictError`. -/
  | noActiveLease (attemptId : String)
  | leaseIdMismatch (attemptId stored given : String)
  | fenceEpochMismatch (attemptId : String) (stored given : ℤ)
  deriving DecidableEq

/-- The table `leases`, by the id of the attempt. -/
abbrev LeaseTable := PyDict ExecutionLease

namespace LeaseTable

variable (t : LeaseTable)

/-- Another attempt holds a lease of this id. -/
def leaseIdTaken (leaseId attemptId : String) : Bool :=
  t.items.any fun row => row.1 ≠ attemptId ∧ row.2.leaseId = leaseId

/-- The epoch that the next lease of an attempt gets. -/
def nextEpoch (attemptId : String) : ℤ :=
  match t.get? attemptId with
  | some row => row.fenceEpoch + 1
  | none => 1

/-- Write the row of an attempt, as `UPDATE` and `INSERT` do. -/
def write (lease : ExecutionLease) : Except LeaseError (LeaseTable × ExecutionLease) :=
  if t.leaseIdTaken lease.leaseId lease.attemptId then .error (.integrity lease.leaseId)
  else .ok (t.set lease.attemptId lease, lease)

/-- `acquire_lease`. -/
def acquireLease (leaseId attemptId ownerId expiresAt initializationFingerprint now : String) :
    Except LeaseError (LeaseTable × ExecutionLease) :=
  let lease : ExecutionLease :=
    { leaseId := leaseId
      attemptId := attemptId
      ownerId := ownerId
      fenceEpoch := t.nextEpoch attemptId
      issuedAt := now
      expiresAt := expiresAt
      renewedAt := now
      initializationFingerprint := initializationFingerprint }
  match t.get? attemptId with
  | some row =>
    if row.ownerId ≠ ownerId ∧ now ≤ row.expiresAt then
      .error (.leasedToOther attemptId row.ownerId row.expiresAt)
    else t.write lease
  | none => t.write lease

/-- `get_lease`. -/
def getLease (attemptId : String) : Option ExecutionLease := t.get? attemptId

/-- `validate_lease`. -/
def validateLease (attemptId leaseId : String) (fenceEpoch : ℤ) :
    Except LeaseError ExecutionLease :=
  match t.get? attemptId with
  | none => .error (.noActiveLease attemptId)
  | some row =>
    if row.leaseId ≠ leaseId then .error (.leaseIdMismatch attemptId row.leaseId leaseId)
    else if row.fenceEpoch ≠ fenceEpoch then
      .error (.fenceEpochMismatch attemptId row.fenceEpoch fenceEpoch)
    else .ok row

/-- The expiry that a revocation writes. -/
def pastIso : String := "1970-01-01T00:00:00Z"

/-- `revoke_lease`. -/
def revokeLease (attemptId now : String) : LeaseTable :=
  match t.get? attemptId with
  | some row => t.set attemptId
      { row with expiresAt := pastIso, fenceEpoch := row.fenceEpoch + 1, renewedAt := now }
  | none => t

/-! ## What they need and do -/

variable {t} {t' : LeaseTable} {leaseId attemptId ownerId expiresAt fingerprint now : String}
  {lease : ExecutionLease}

/-- What an acquisition that is accepted needs and does. -/
theorem acquireLease_ok
    (h : t.acquireLease leaseId attemptId ownerId expiresAt fingerprint now = .ok (t', lease)) :
    (∀ row, t.get? attemptId = some row → row.ownerId = ownerId ∨ row.expiresAt < now) ∧
      lease = ⟨leaseId, attemptId, ownerId, t.nextEpoch attemptId, now, expiresAt, now,
        fingerprint⟩ ∧ t' = t.set attemptId lease := by
  have hwrite : ∀ {written : ExecutionLease}, t.write written = .ok (t', lease) →
      lease = written ∧ t' = t.set written.attemptId written := by
    intro written hok
    rw [write] at hok
    split_ifs at hok
    cases hok
    exact ⟨rfl, rfl⟩
  rw [acquireLease] at h
  cases hrow : t.get? attemptId with
  | none =>
    rw [hrow] at h
    obtain ⟨rfl, rfl⟩ := hwrite h
    refine ⟨fun row hnone => ?_, rfl, rfl⟩
    cases hnone
  | some row =>
    rw [hrow] at h
    simp only at h
    split_ifs at h with hheld
    obtain ⟨rfl, rfl⟩ := hwrite h
    refine ⟨fun found hfound => ?_, rfl, rfl⟩
    rw [← Option.some.inj hfound]
    by_cases howner : row.ownerId = ownerId
    · exact Or.inl howner
    · exact Or.inr (not_le.mp fun hle => hheld ⟨howner, hle⟩)

/-- An acquisition is accepted precisely when no other attempt holds a lease of its id, and no other
owner an unexpired lease of the attempt. -/
theorem acquireLease_accepted_iff :
    (∃ r, t.acquireLease leaseId attemptId ownerId expiresAt fingerprint now = .ok r) ↔
      t.leaseIdTaken leaseId attemptId = false ∧
        ∀ row, t.get? attemptId = some row → row.ownerId = ownerId ∨ row.expiresAt < now := by
  have hwrite : ∀ {lease : ExecutionLease}, lease.leaseId = leaseId → lease.attemptId = attemptId →
      ((∃ r, t.write lease = .ok r) ↔ t.leaseIdTaken leaseId attemptId = false) := by
    rintro lease rfl rfl
    rw [write]
    split_ifs with htaken
    · refine iff_of_false ?_ fun h => absurd htaken (by rw [h]; exact Bool.false_ne_true)
      rintro ⟨r, h⟩
      cases h
    · exact iff_of_true ⟨_, rfl⟩ (Bool.not_eq_true _ ▸ htaken)
  constructor
  · rintro ⟨⟨t', lease⟩, h⟩
    refine ⟨?_, (acquireLease_ok h).1⟩
    rw [acquireLease] at h
    cases hrow : t.get? attemptId with
    | none =>
      rw [hrow] at h
      exact (hwrite rfl rfl).mp ⟨_, h⟩
    | some row =>
      rw [hrow] at h
      simp only at h
      split_ifs at h
      exact (hwrite rfl rfl).mp ⟨_, h⟩
  · rintro ⟨hfree, hrow⟩
    rw [acquireLease]
    cases hget : t.get? attemptId with
    | none => exact (hwrite rfl rfl).mpr hfree
    | some row =>
      have hfits : ¬ (row.ownerId ≠ ownerId ∧ now ≤ row.expiresAt) := by
        rintro ⟨howner, hle⟩
        exact (hrow row hget).elim howner fun hlt => absurd hle (not_le.mpr hlt)
      simp only
      rw [if_neg hfits]
      exact (hwrite rfl rfl).mpr hfree

/-- **Valid leases.**  A lease id and an epoch are valid for an attempt precisely when they are those of
its row. -/
theorem validateLease_eq_ok_iff {fenceEpoch : ℤ} :
    t.validateLease attemptId leaseId fenceEpoch = .ok lease ↔
      t.get? attemptId = some lease ∧ lease.leaseId = leaseId ∧ lease.fenceEpoch = fenceEpoch := by
  rw [validateLease]
  cases hrow : t.get? attemptId with
  | none => simp
  | some row =>
    simp only
    constructor
    · intro h
      split_ifs at h with hid hepoch
      obtain rfl := Except.ok.inj h
      exact ⟨rfl, not_not.mp hid, not_not.mp hepoch⟩
    · rintro ⟨hsame, hid, hepoch⟩
      cases hsame
      rw [if_neg (not_not_intro hid), if_neg (not_not_intro hepoch)]

theorem get?_revokeLease (attemptId now : String) :
    (t.revokeLease attemptId now).get? attemptId = (t.get? attemptId).map fun row =>
      { row with expiresAt := pastIso, fenceEpoch := row.fenceEpoch + 1, renewedAt := now } := by
  rw [revokeLease]
  cases hrow : t.get? attemptId with
  | none =>
    simp only
    rw [hrow]
    rfl
  | some row => exact PyDict.get?_set _ _ _

theorem get?_revokeLease_of_ne {attemptId other : String} (now : String) (h : other ≠ attemptId) :
    (t.revokeLease attemptId now).get? other = t.get? other := by
  rw [revokeLease]
  cases t.get? attemptId with
  | none => rfl
  | some row => exact PyDict.get?_set_of_ne _ _ h

end LeaseTable

end PipelineLeases

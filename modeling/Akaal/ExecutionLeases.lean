/-
# Execution leases

`ExecutionLeaseManager` of `akaalEngine/runtime/leases/manager.py`: a worker acquires the lease of a
task at an epoch of the task, renews it while it is not over, and releases it.

* `acquireLease_eq_ok` : what an acquisition leaves behind;
* `validateLease_eq_true_iff` : when a lease is accepted;
* `LeaseRun.exclusiveLeases_iff` : the acquisitions that leave one worker with an accepted lease.

The clock has exact readings, and issuing a token may fail.
-/
import Akaal.FencingTokens
import Akaal.TransactionReconstruction

open CDC Durability TransitionRun

namespace EngineRuntime

/-! ## Leases -/

/-- `ExecutionLease`. -/
structure ExecutionLease where
  leaseId : String
  taskId : String
  workerId : String
  fencingEpoch : ℤ
  attemptId : String
  acquiredAt : ℚ
  expiresAt : ℚ
  durabilityToken : Option FencingToken
  deriving DecidableEq

/-- `is_expired`. -/
def ExecutionLease.isExpired (lease : ExecutionLease) (now : ℚ) : Bool := lease.expiresAt ≤ now

/-- Why a lease is not given. -/
inductive LeaseError where
  | fencingRejected (activeEpoch attemptedEpoch : ℤ) (entityId : String)
  | leaseExpired (leaseId : String)
  deriving DecidableEq

/-- `durability_fencing_manager`, a `FencingTokenManager`. -/
structure FencingManager where
  rt : DigestRuntime
  signingKey : List UInt8

/-- `validate_token` accepts the token. -/
def FencingManager.accepts (fencing : FencingManager) (table : EpochTable) (token : FencingToken) :
    Bool :=
  token.signature = fencing.rt.hmacHex fencing.signingKey token.data &&
    (table.get? token.resourceId).all fun row => row.currentEpoch ≤ token.fencingEpoch

/-- The token of a lease, if it has one and there is a fencing manager, is accepted. -/
def ExecutionLease.tokenAccepted (lease : ExecutionLease) (fencing : Option FencingManager)
    (table : EpochTable) : Bool :=
  match fencing, lease.durabilityToken with
  | some f, some token => f.accepts table token
  | _, _ => true

/-- `ExecutionLeaseManager`, with the table of its fencing manager. -/
structure ExecutionLeaseManager where
  defaultTtlSeconds : ℚ
  leases : PyDict ExecutionLease
  taskLeases : PyDict String
  resourceEpochs : PyDict ℤ
  attemptCounts : PyDict ℕ
  fencingTokens : EpochTable

/-- A manager with the time a lease lasts and the table of fencing tokens. -/
def newLeaseManager (defaultTtlSeconds : ℚ) (fencingTokens : EpochTable) : ExecutionLeaseManager where
  defaultTtlSeconds := defaultTtlSeconds
  leases := .empty
  taskLeases := .empty
  resourceEpochs := .empty
  attemptCounts := .empty
  fencingTokens := fencingTokens

/-- The id of a lease. -/
def leaseIdOf (taskId workerId : String) (epoch : ℤ) : String :=
  "lease-" ++ taskId ++ "-" ++ workerId ++ "-" ++ intText epoch

/-- The id of an attempt. -/
def attemptIdOf (taskId workerId : String) (epoch : ℤ) (attempt : ℕ) : String :=
  "att-" ++ taskId ++ "-" ++ workerId ++ "-" ++ intText epoch ++ "-" ++ intText attempt

namespace ExecutionLeaseManager

section Operations

variable (fencing : Option FencingManager) (m : ExecutionLeaseManager)

/-- `ttl_seconds or self.default_ttl_seconds`. -/
def ttl : Option ℚ → ℚ
  | none => m.defaultTtlSeconds
  | some seconds => if seconds = 0 then m.defaultTtlSeconds else seconds

/-- The epoch of a task. -/
def currentEpoch (taskId : String) : ℤ := (m.resourceEpochs.get? taskId).getD 0

/-- The epoch an acquisition asks for. -/
def requestedEpoch (taskId : String) (fencingEpoch : Option ℤ) : ℤ :=
  fencingEpoch.getD (m.currentEpoch taskId + 1)

/-- The number of an attempt. -/
def attemptNumber (taskId : String) : ℕ := (m.attemptCounts.get? taskId).getD 0 + 1

/-- The token of an acquisition and the table after it; `issuedAt` is the time of a token that can be
issued. -/
def issuedToken (taskId workerId : String) (issuedAt : Option String) :
    Option (FencingToken × EpochTable) :=
  match fencing, issuedAt with
  | some f, some now => some (issueToken f.rt f.signingKey m.fencingTokens taskId workerId now)
  | _, _ => none

/-- The epoch of an acquisition: the one of its token, or the one it asks for. -/
def grantedEpoch (taskId workerId : String) (fencingEpoch : Option ℤ) (issuedAt : Option String) : ℤ :=
  ((m.issuedToken fencing taskId workerId issuedAt).map fun issued => issued.1.fencingEpoch).getD
    (m.requestedEpoch taskId fencingEpoch)

/-- The lease of an acquisition. -/
def newLease (taskId workerId : String) (ttlSeconds : Option ℚ) (fencingEpoch : Option ℤ) (now : ℚ)
    (issuedAt : Option String) : ExecutionLease where
  leaseId := leaseIdOf taskId workerId (m.grantedEpoch fencing taskId workerId fencingEpoch issuedAt)
  taskId := taskId
  workerId := workerId
  fencingEpoch := m.grantedEpoch fencing taskId workerId fencingEpoch issuedAt
  attemptId := attemptIdOf taskId workerId (m.requestedEpoch taskId fencingEpoch) (m.attemptNumber taskId)
  acquiredAt := now
  expiresAt := now + m.ttl ttlSeconds
  durabilityToken := (m.issuedToken fencing taskId workerId issuedAt).map Prod.fst

/-- `acquire_lease`. -/
def acquireLease (taskId workerId : String) (ttlSeconds : Option ℚ) (fencingEpoch : Option ℤ)
    (now : ℚ) (issuedAt : Option String) : Except LeaseError (ExecutionLease × ExecutionLeaseManager) :=
  if m.requestedEpoch taskId fencingEpoch < m.currentEpoch taskId then
    .error (.fencingRejected (m.currentEpoch taskId) (m.requestedEpoch taskId fencingEpoch) taskId)
  else
    let lease := m.newLease fencing taskId workerId ttlSeconds fencingEpoch now issuedAt
    .ok (lease, { m with
        leases := m.leases.set lease.leaseId lease
        taskLeases := m.taskLeases.set taskId lease.leaseId
        resourceEpochs := m.resourceEpochs.set taskId lease.fencingEpoch
        attemptCounts := m.attemptCounts.set taskId (m.attemptNumber taskId)
        fencingTokens := ((m.issuedToken fencing taskId workerId issuedAt).map Prod.snd).getD
          m.fencingTokens })

/-- `release_lease`. -/
def releaseLease (leaseId : String) : ExecutionLeaseManager :=
  match m.leases.get? leaseId with
  | none => m
  | some lease =>
    { m with leases := m.leases.erase leaseId, taskLeases := m.taskLeases.erase lease.taskId }

/-- `renew_lease`; the clock is read for the check, and then for the new lease. -/
def renewLease (leaseId : String) (ttlSeconds : Option ℚ) (checkedAt now : ℚ) :
    Except LeaseError ExecutionLease × ExecutionLeaseManager :=
  match m.leases.get? leaseId with
  | none => (.error (.leaseExpired leaseId), m)
  | some lease =>
    if lease.isExpired checkedAt then (.error (.leaseExpired leaseId), m.releaseLease leaseId)
    else
      let renewed := { lease with expiresAt := now + m.ttl ttlSeconds }
      (.ok renewed, { m with leases := m.leases.set leaseId renewed })

/-- `validate_lease`. -/
def validateLease (leaseId : String) (fencingEpoch : ℤ) (now : ℚ) : Bool :=
  match m.leases.get? leaseId with
  | none => false
  | some lease =>
    if lease.isExpired now then false
    else if fencingEpoch < m.currentEpoch lease.taskId || lease.fencingEpoch < m.currentEpoch lease.taskId
    then false
    else lease.tokenAccepted fencing m.fencingTokens

end Operations

/-! ## What the operations do -/

variable {fencing : Option FencingManager} {m : ExecutionLeaseManager}

/-- **A lease is accepted** while it is stored, is not over and has the epoch of its task, and its token
is accepted. -/
theorem validateLease_eq_true_iff {leaseId : String} {fencingEpoch : ℤ} {now : ℚ} :
    m.validateLease fencing leaseId fencingEpoch now = true ↔
      ∃ lease, m.leases.get? leaseId = some lease ∧ now < lease.expiresAt ∧
        m.currentEpoch lease.taskId ≤ fencingEpoch ∧ m.currentEpoch lease.taskId ≤ lease.fencingEpoch ∧
        lease.tokenAccepted fencing m.fencingTokens = true := by
  unfold validateLease
  cases m.leases.get? leaseId with
  | none => simp
  | some lease =>
    dsimp only
    rw [ExecutionLease.isExpired]
    by_cases hexpired : lease.expiresAt ≤ now
    · simp [hexpired]
    · by_cases hepoch : fencingEpoch < m.currentEpoch lease.taskId ∨
        lease.fencingEpoch < m.currentEpoch lease.taskId
      · rcases hepoch with hepoch | hepoch
        · simp [hexpired, hepoch]
        · simp [hexpired, hepoch]
      · obtain ⟨hasked, hstored⟩ := not_or.mp hepoch
        have hnow := not_le.mp hexpired
        simp [hexpired, hasked, hstored, hnow, not_lt.mp hasked, not_lt.mp hstored]

/-- The epoch of a token that is issued now. -/
theorem issuedToken_eq_some {taskId workerId : String} {issuedAt : Option String} {token : FencingToken}
    {table : EpochTable} (h : m.issuedToken fencing taskId workerId issuedAt = some (token, table)) :
    ∃ f now, fencing = some f ∧
      (token, table) = issueToken f.rt f.signingKey m.fencingTokens taskId workerId now := by
  unfold issuedToken at h
  split at h
  · next f now => exact ⟨f, now, rfl, (Option.some.inj h).symm⟩
  · cases h

theorem get?_releaseLease (leaseId id : String) :
    (m.releaseLease leaseId).leases.get? id = if id = leaseId then none else m.leases.get? id := by
  unfold releaseLease
  cases hlease : m.leases.get? leaseId with
  | none =>
    dsimp only
    split_ifs with hid
    · rw [hid, hlease]
    · rfl
  | some lease => exact PyDict.get?_erase _ _ _

theorem releaseLease_epochs (leaseId : String) :
    (m.releaseLease leaseId).resourceEpochs = m.resourceEpochs ∧
      (m.releaseLease leaseId).fencingTokens = m.fencingTokens := by
  unfold releaseLease
  cases m.leases.get? leaseId with
  | none => exact ⟨rfl, rfl⟩
  | some lease => exact ⟨rfl, rfl⟩

/-- What a renewal leaves: each lease is as it was, but that the one that is renewed may last longer or
be gone, and a lease that was over does not come back. -/
theorem get?_renewLease {leaseId id : String} {ttlSeconds : Option ℚ} {checkedAt now : ℚ}
    {lease' : ExecutionLease}
    (h : (m.renewLease leaseId ttlSeconds checkedAt now).2.leases.get? id = some lease') :
    ∃ lease, m.leases.get? id = some lease ∧ lease' = { lease with expiresAt := lease'.expiresAt } ∧
      (lease' = lease ∨ checkedAt < lease.expiresAt) := by
  unfold renewLease at h
  cases hlease : m.leases.get? leaseId with
  | none =>
    rw [hlease] at h
    exact ⟨lease', h, rfl, .inl rfl⟩
  | some lease =>
    rw [hlease] at h
    dsimp only at h
    split_ifs at h with hexpired
    · rw [get?_releaseLease] at h
      split_ifs at h
      exact ⟨lease', h, rfl, .inl rfl⟩
    · by_cases hid : id = leaseId
      · subst hid
        rw [PyDict.get?_set] at h
        cases h
        rw [ExecutionLease.isExpired, decide_eq_true_iff, not_le] at hexpired
        exact ⟨lease, hlease, rfl, .inr hexpired⟩
      · rw [PyDict.get?_set_of_ne _ _ hid] at h
        exact ⟨lease', h, rfl, .inl rfl⟩

theorem renewLease_epochs (leaseId : String) (ttlSeconds : Option ℚ) (checkedAt now : ℚ) :
    (m.renewLease leaseId ttlSeconds checkedAt now).2.resourceEpochs = m.resourceEpochs ∧
      (m.renewLease leaseId ttlSeconds checkedAt now).2.fencingTokens = m.fencingTokens := by
  unfold renewLease
  cases m.leases.get? leaseId with
  | none => exact ⟨rfl, rfl⟩
  | some lease =>
    dsimp only
    split_ifs
    · exact releaseLease_epochs leaseId
    · exact ⟨rfl, rfl⟩

end ExecutionLeaseManager

namespace LeaseRun

/-! ## Runs -/

/-- The manager, the last reading of the clock, and the leases that were given, the newest one last. -/
structure LeaseSystem where
  manager : ExecutionLeaseManager
  clock : ℚ
  grants : List ExecutionLease

/-- A call of a worker, with the readings of the clock. -/
inductive LeaseCall where
  | acquire (taskId workerId : String) (ttlSeconds : Option ℚ) (fencingEpoch : Option ℤ) (now : ℚ)
      (issuedAt : Option String)
  | renew (leaseId : String) (ttlSeconds : Option ℚ) (checkedAt now : ℚ)
  | release (leaseId : String)

variable (fencing : Option FencingManager)

/-- One call; the clock does not go back. -/
def leaseStep (s : LeaseSystem) : LeaseCall → Option LeaseSystem
  | .acquire taskId workerId ttlSeconds fencingEpoch now issuedAt =>
    if now < s.clock then none
    else
      match s.manager.acquireLease fencing taskId workerId ttlSeconds fencingEpoch now issuedAt with
      | .error _ => some { s with clock := now }
      | .ok (lease, m) => some ⟨m, now, s.grants ++ [lease]⟩
  | .renew leaseId ttlSeconds checkedAt now =>
    if checkedAt < s.clock ∨ now < checkedAt then none
    else some { s with manager := (s.manager.renewLease leaseId ttlSeconds checkedAt now).2, clock := now }
  | .release leaseId => some { s with manager := s.manager.releaseLease leaseId }

/-- A manager that has given no lease. -/
def newSystem (defaultTtlSeconds : ℚ) (fencingTokens : EpochTable) (clock : ℚ) : LeaseSystem :=
  ⟨newLeaseManager defaultTtlSeconds fencingTokens, clock, []⟩

/-- The lease that was given is accepted at a time. -/
def Passes (s : LeaseSystem) (grant : ExecutionLease) (now : ℚ) : Prop :=
  s.manager.validateLease fencing grant.leaseId grant.fencingEpoch now = true

/-- At most one worker has an accepted lease of a task, and a lease that was given before another one of
its task is not accepted any more. -/
structure Exclusive (s : LeaseSystem) : Prop where
  one : ∀ now, s.clock ≤ now → ∀ g ∈ s.grants, ∀ g' ∈ s.grants, g.taskId = g'.taskId →
    Passes fencing s g now → Passes fencing s g' now → g.workerId = g'.workerId
  superseded : s.grants.Pairwise fun g g' =>
    g.taskId = g'.taskId → ∀ now, s.clock ≤ now → ¬ Passes fencing s g now

/-- The acquisition is not refused. -/
def Admitted (s : LeaseSystem) (taskId : String) (fencingEpoch : Option ℤ) : Prop :=
  s.manager.currentEpoch taskId ≤ s.manager.requestedEpoch taskId fencingEpoch

/-- The id of a new lease is not the id of a lease that was given. -/
def FreshId (s : LeaseSystem) : LeaseCall → Prop
  | .acquire taskId workerId _ fencingEpoch _ issuedAt =>
    Admitted s taskId fencingEpoch → ∀ g ∈ s.grants, g.leaseId ≠ leaseIdOf taskId workerId
        (s.manager.grantedEpoch fencing taskId workerId fencingEpoch issuedAt)
  | _ => True

/-- The epoch of a new lease is above that of every lease of the task that is stored, is not over and
has no token that is refused. -/
def RaisesEpoch (s : LeaseSystem) : LeaseCall → Prop
  | .acquire taskId workerId _ fencingEpoch now issuedAt =>
    Admitted s taskId fencingEpoch → ∀ g ∈ s.grants, g.taskId = taskId →
      ∀ lease ∈ s.manager.leases.get? g.leaseId, now < lease.expiresAt →
        g.tokenAccepted fencing s.manager.fencingTokens = true →
          g.fencingEpoch < s.manager.grantedEpoch fencing taskId workerId fencingEpoch issuedAt
  | _ => True

instance (s : LeaseSystem) (taskId : String) (fencingEpoch : Option ℤ) :
    Decidable (Admitted s taskId fencingEpoch) := inferInstanceAs (Decidable (_ ≤ _))

instance (s : LeaseSystem) : DecidablePred (FreshId fencing s)
  | .acquire .. => inferInstanceAs (Decidable (_ → _))
  | .renew .. | .release _ => isTrue trivial

instance (s : LeaseSystem) : DecidablePred (RaisesEpoch fencing s)
  | .acquire .. => inferInstanceAs (Decidable (_ → _))
  | .renew .. | .release _ => isTrue trivial

/-! ## The leases that were given -/

variable {fencing : Option FencingManager} {s s' : LeaseSystem}

/-- The stored leases are leases that were given, but for the time they last; their ids are distinct, and
a token has the task and the epoch of its lease and is not ahead of the table. -/
structure Kept (s : LeaseSystem) : Prop where
  stored : ∀ id lease, s.manager.leases.get? id = some lease →
    ∃ g ∈ s.grants, g.leaseId = id ∧ lease = { g with expiresAt := lease.expiresAt }
  ids : s.grants.Pairwise fun g g' => g.leaseId ≠ g'.leaseId
  tokens : ∀ g ∈ s.grants, ∀ token, g.durabilityToken = some token →
    token.resourceId = g.taskId ∧ token.fencingEpoch = g.fencingEpoch ∧
      ∃ row, s.manager.fencingTokens.get? g.taskId = some row ∧ token.fencingEpoch ≤ row.currentEpoch

variable {fencingEpoch : Option ℤ} {g lease : ExecutionLease} {issuedAt : Option String}
  {m' : ExecutionLeaseManager} {now : ℚ} {taskId : String} {ttlSeconds : Option ℚ}

theorem Kept.eq_of_get? (h : Kept s) (hg : g ∈ s.grants)
    (hlease : s.manager.leases.get? g.leaseId = some lease) :
    lease = { g with expiresAt := lease.expiresAt } := by
  obtain ⟨g', hg', hid, heq⟩ := h.stored _ _ hlease
  have hsame : g' = g := by
    by_contra hne
    have hsymm : Std.Symm fun a b : ExecutionLease => a.leaseId ≠ b.leaseId := ⟨fun _ _ => Ne.symm⟩
    exact h.ids.forall hg' hg hne hid
  rw [← hsame]
  exact heq

/-- **A lease that was given is accepted** while it is stored, is not over and has the epoch of its
task, and its token is accepted. -/
theorem Kept.passes_iff (h : Kept s) (hg : g ∈ s.grants) : Passes fencing s g now ↔
      ∃ lease, s.manager.leases.get? g.leaseId = some lease ∧ now < lease.expiresAt ∧
        s.manager.currentEpoch g.taskId ≤ g.fencingEpoch ∧
        g.tokenAccepted fencing s.manager.fencingTokens = true := by
  rw [Passes, ExecutionLeaseManager.validateLease_eq_true_iff]
  constructor
  · rintro ⟨lease, hlease, hnow, -, hepoch, htoken⟩
    have heq := h.eq_of_get? hg hlease
    rw [heq] at hepoch htoken
    exact ⟨lease, hlease, hnow, hepoch, htoken⟩
  · rintro ⟨lease, hlease, hnow, hepoch, htoken⟩
    have heq := h.eq_of_get? hg hlease
    refine ⟨lease, hlease, hnow, ?_, ?_, ?_⟩
    · rw [heq]
      exact hepoch
    · rw [heq]
      exact hepoch
    · rw [heq]
      exact htoken

theorem exclusive_of_superseded (h : s.grants.Pairwise fun g g' =>
    g.taskId = g'.taskId → ∀ now, s.clock ≤ now → ¬ Passes fencing s g now) : Exclusive fencing s := by
  refine ⟨fun now hnow g hg g' hg' htask hpasses hpasses' => ?_, h⟩
  by_contra hworker
  obtain ⟨i, hi, rfl⟩ := List.getElem_of_mem hg
  obtain ⟨j, hj, rfl⟩ := List.getElem_of_mem hg'
  rcases lt_trichotomy i j with hlt | rfl | hlt
  · exact List.pairwise_iff_getElem.mp h i j hi hj hlt htask now hnow hpasses
  · exact hworker rfl
  · exact List.pairwise_iff_getElem.mp h j i hj hi hlt htask.symm now hnow hpasses'

/-! ## Acquisitions -/

section Acquisition

variable {m m' : ExecutionLeaseManager} {taskId workerId : String} {ttlSeconds : Option ℚ}
  {fencingEpoch : Option ℤ} {now : ℚ} {issuedAt : Option String} {lease : ExecutionLease}

/-- An acquisition that is not refused, with the lease it gives. -/
theorem acquireLease_eq_ok
    (h : m.acquireLease fencing taskId workerId ttlSeconds fencingEpoch now issuedAt = .ok (lease, m')) :
    m.currentEpoch taskId ≤ m.requestedEpoch taskId fencingEpoch ∧
      lease = m.newLease fencing taskId workerId ttlSeconds fencingEpoch now issuedAt ∧
      m'.leases = m.leases.set lease.leaseId lease ∧
      m'.resourceEpochs = m.resourceEpochs.set taskId lease.fencingEpoch ∧
      m'.fencingTokens = ((m.issuedToken fencing taskId workerId issuedAt).map Prod.snd).getD
        m.fencingTokens := by
  unfold ExecutionLeaseManager.acquireLease at h
  split_ifs at h with hepoch
  cases h
  exact ⟨not_lt.mp hepoch, rfl, rfl, rfl, rfl⟩

theorem acquireLease_eq_error {e : LeaseError}
    (h : m.acquireLease fencing taskId workerId ttlSeconds fencingEpoch now issuedAt = .error e) :
    m.requestedEpoch taskId fencingEpoch < m.currentEpoch taskId := by
  unfold ExecutionLeaseManager.acquireLease at h
  split_ifs at h with hepoch
  exact hepoch

theorem currentEpoch_of_acquire {epoch : ℤ} (h : m'.resourceEpochs = m.resourceEpochs.set taskId epoch)
    (task : String) : m'.currentEpoch task = if task = taskId then epoch else m.currentEpoch task := by
  rw [ExecutionLeaseManager.currentEpoch, h]
  split_ifs with htask
  · rw [htask, PyDict.get?_set, Option.getD_some]
  · rw [PyDict.get?_set_of_ne _ _ htask]
    rfl

/-- A token that is issued has the task, an epoch above the table, and the only new row. -/
theorem issuedToken_spec {token : FencingToken} {table : EpochTable}
    (h : m.issuedToken fencing taskId workerId issuedAt = some (token, table)) :
    token.resourceId = taskId ∧ token.fencingEpoch = nextEpoch m.fencingTokens taskId ∧
      ∃ row : EpochRow, row.currentEpoch = token.fencingEpoch ∧
        table = m.fencingTokens.set taskId row := by
  obtain ⟨f, time, -, hissue⟩ := ExecutionLeaseManager.issuedToken_eq_some h
  obtain ⟨rfl, rfl⟩ := Prod.mk.inj hissue
  exact ⟨rfl, rfl, _, rfl, rfl⟩

theorem currentEpoch_lt_nextEpoch {table : EpochTable} {row : EpochRow}
    (h : table.get? taskId = some row) : row.currentEpoch < nextEpoch table taskId := by
  rw [nextEpoch, h, Option.elim_some]
  omega

/-- A token that is accepted after another one is issued was accepted before. -/
theorem tokenAccepted_of_issued {g : ExecutionLease}
    (htable : m'.fencingTokens = ((m.issuedToken fencing taskId workerId issuedAt).map Prod.snd).getD
      m.fencingTokens)
    (h : g.tokenAccepted fencing m'.fencingTokens = true) :
    g.tokenAccepted fencing m.fencingTokens = true := by
  cases hissued : m.issuedToken fencing taskId workerId issuedAt with
  | none =>
    rw [hissued] at htable
    rwa [htable] at h
  | some issued =>
    obtain ⟨token, table⟩ := issued
    obtain ⟨-, hnext, row, hrow, rfl⟩ := issuedToken_spec hissued
    rw [hissued, Option.map_some, Option.getD_some] at htable
    rw [htable] at h
    unfold ExecutionLease.tokenAccepted at h ⊢
    cases fencing with
    | none => rfl
    | some f =>
      cases htoken : g.durabilityToken with
      | none => rfl
      | some held =>
        rw [htoken] at h
        dsimp only at h ⊢
        rw [FencingManager.accepts, Bool.and_eq_true] at h ⊢
        refine ⟨h.1, ?_⟩
        by_cases hresource : held.resourceId = taskId
        · have hle := h.2
          rw [hresource, PyDict.get?_set, Option.all_some, decide_eq_true_iff, hrow, hnext] at hle
          rw [hresource]
          cases hold : m.fencingTokens.get? taskId with
          | none => rfl
          | some old =>
            rw [Option.all_some, decide_eq_true_iff]
            exact (currentEpoch_lt_nextEpoch hold).le.trans hle
        · have hall := h.2
          rwa [PyDict.get?_set_of_ne _ _ hresource] at hall

end Acquisition

/-! ## One call -/

/-- The rows only grow when a token is issued. -/
theorem row_of_issued {m : ExecutionLeaseManager} {workerId : String}
    (htable : m'.fencingTokens = ((m.issuedToken fencing taskId workerId issuedAt).map Prod.snd).getD
      m.fencingTokens) {resourceId : String} {row : EpochRow}
    (hrow : m.fencingTokens.get? resourceId = some row) :
    ∃ row', m'.fencingTokens.get? resourceId = some row' ∧ row.currentEpoch ≤ row'.currentEpoch := by
  cases hissued : m.issuedToken fencing taskId workerId issuedAt with
  | none =>
    rw [hissued] at htable
    rw [htable]
    exact ⟨row, hrow, le_rfl⟩
  | some issued =>
    obtain ⟨token, table⟩ := issued
    obtain ⟨-, hnext, row', hrow', rfl⟩ := issuedToken_spec hissued
    rw [hissued, Option.map_some, Option.getD_some] at htable
    rw [htable]
    by_cases hresource : resourceId = taskId
    · subst hresource
      rw [PyDict.get?_set]
      refine ⟨row', rfl, ?_⟩
      rw [hrow', hnext]
      exact (currentEpoch_lt_nextEpoch hrow).le
    · rw [PyDict.get?_set_of_ne _ _ hresource]
      exact ⟨row, hrow, le_rfl⟩

/-- An acquisition under a fresh id keeps the leases that were given. -/
theorem Kept.acquire (h : Kept s) {workerId : String}
    (hacquire : s.manager.acquireLease fencing taskId workerId ttlSeconds fencingEpoch now issuedAt =
      .ok (lease, m')) (hfresh : ∀ g ∈ s.grants, g.leaseId ≠ lease.leaseId) :
    Kept ⟨m', now, s.grants ++ [lease]⟩ := by
  obtain ⟨-, hlease, hleases, -, htable⟩ := acquireLease_eq_ok hacquire
  refine ⟨fun id stored hstored => ?_, ?_, fun g hg token htoken => ?_⟩
  · rw [hleases] at hstored
    by_cases hid : id = lease.leaseId
    · subst hid
      rw [PyDict.get?_set] at hstored
      cases hstored
      exact ⟨lease, List.mem_concat_self, rfl, rfl⟩
    · rw [PyDict.get?_set_of_ne _ _ hid] at hstored
      obtain ⟨g, hg, hgid, heq⟩ := h.stored id stored hstored
      exact ⟨g, List.mem_append_left _ hg, hgid, heq⟩
  · refine List.pairwise_append.mpr ⟨h.ids, List.pairwise_singleton _ _, fun g hg g' hg' => ?_⟩
    rw [List.mem_singleton.mp hg']
    exact hfresh g hg
  · rcases List.mem_append.mp hg with hg | hg
    · obtain ⟨hresource, hepoch, row, hrow, hle⟩ := h.tokens g hg token htoken
      obtain ⟨row', hrow', hle'⟩ := row_of_issued htable hrow
      exact ⟨hresource, hepoch, row', hrow', hle.trans hle'⟩
    · obtain rfl := List.mem_singleton.mp hg
      rw [hlease] at htoken
      obtain ⟨issued, hissued, rfl⟩ := Option.map_eq_some_iff.mp htoken
      obtain ⟨hresource, hnext, row, hrow, htable'⟩ := issuedToken_spec hissued
      rw [hissued, Option.map_some, Option.getD_some, htable'] at htable
      refine ⟨?_, ?_, row, ?_, hrow.ge⟩
      · rw [hresource, hlease]
        rfl
      · rw [hlease, ExecutionLeaseManager.newLease, ExecutionLeaseManager.grantedEpoch, hissued]
        rfl
      · show m'.fencingTokens.get? g.taskId = some row
        rw [htable, hlease]
        exact PyDict.get?_set _ _ _

/-- **A call under a fresh id** keeps the leases that were given. -/
theorem Kept.step (h : Kept s) {c : LeaseCall} (hfresh : FreshId fencing s c)
    (hstep : leaseStep fencing s c = some s') : Kept s' := by
  cases c with
  | acquire taskId workerId ttlSeconds fencingEpoch now issuedAt =>
    rw [leaseStep] at hstep
    split_ifs at hstep
    cases hacquire : s.manager.acquireLease fencing taskId workerId ttlSeconds fencingEpoch now
      issuedAt with
    | error e =>
      rw [hacquire] at hstep
      cases hstep
      exact ⟨h.stored, h.ids, h.tokens⟩
    | ok granted =>
      rw [hacquire] at hstep
      cases hstep
      obtain ⟨hadmitted, hlease, -⟩ := acquireLease_eq_ok hacquire
      refine h.acquire hacquire ?_
      rw [hlease]
      exact hfresh hadmitted
  | renew leaseId ttlSeconds checkedAt now =>
    rw [leaseStep] at hstep
    split_ifs at hstep
    cases hstep
    obtain ⟨-, htable⟩ := ExecutionLeaseManager.renewLease_epochs (m := s.manager) leaseId ttlSeconds
      checkedAt now
    refine ⟨fun id lease' hlease' => ?_, h.ids, ?_⟩
    · obtain ⟨lease, hlease, heq, -⟩ := ExecutionLeaseManager.get?_renewLease hlease'
      obtain ⟨g, hg, hid, hg'⟩ := h.stored id lease hlease
      refine ⟨g, hg, hid, ?_⟩
      rw [heq, hg']
    · rw [htable]
      exact h.tokens
  | release leaseId =>
    cases hstep
    obtain ⟨-, htable⟩ := ExecutionLeaseManager.releaseLease_epochs (m := s.manager) leaseId
    refine ⟨fun id lease hlease => ?_, h.ids, ?_⟩
    · rw [ExecutionLeaseManager.get?_releaseLease] at hlease
      split_ifs at hlease
      exact h.stored id lease hlease
    · rw [htable]
      exact h.tokens

/-- The earlier leases of other tasks are accepted as they were, and those of the task when they are
stored, are not over, are not below the new epoch and have no token that is refused. -/
theorem Kept.passes_acquire_iff (h : Kept s) {workerId : String}
    (hacquire : s.manager.acquireLease fencing taskId workerId ttlSeconds fencingEpoch now issuedAt =
      .ok (lease, m')) (hfresh : ∀ g ∈ s.grants, g.leaseId ≠ lease.leaseId)
    (hg : g ∈ s.grants) {time : ℚ} :
    Passes fencing ⟨m', now, s.grants ++ [lease]⟩ g time ↔
      ∃ stored, s.manager.leases.get? g.leaseId = some stored ∧ time < stored.expiresAt ∧
        (if g.taskId = taskId then lease.fencingEpoch else s.manager.currentEpoch g.taskId) ≤
          g.fencingEpoch ∧ g.tokenAccepted fencing m'.fencingTokens = true := by
  obtain ⟨-, -, hleases, hepochs, -⟩ := acquireLease_eq_ok hacquire
  rw [(h.acquire hacquire hfresh).passes_iff (List.mem_append_left _ hg)]
  show (∃ stored, m'.leases.get? g.leaseId = some stored ∧ time < stored.expiresAt ∧
    m'.currentEpoch g.taskId ≤ g.fencingEpoch ∧ g.tokenAccepted fencing m'.fencingTokens = true) ↔ _
  rw [hleases, PyDict.get?_set_of_ne _ _ (hfresh g hg), currentEpoch_of_acquire hepochs]

/-- A token that was accepted is still accepted when the new epoch is not above the epoch of its
lease. -/
theorem Kept.tokenAccepted_acquire (h : Kept s) {workerId : String}
    (hacquire : s.manager.acquireLease fencing taskId workerId ttlSeconds fencingEpoch now issuedAt =
      .ok (lease, m')) (hg : g ∈ s.grants) (htask : g.taskId = taskId)
    (hepoch : lease.fencingEpoch ≤ g.fencingEpoch)
    (htoken : g.tokenAccepted fencing s.manager.fencingTokens = true) :
    g.tokenAccepted fencing m'.fencingTokens = true := by
  obtain ⟨-, hlease, -, -, htable⟩ := acquireLease_eq_ok hacquire
  cases hissued : s.manager.issuedToken fencing taskId workerId issuedAt with
  | none =>
    rw [hissued] at htable
    rwa [htable]
  | some issued =>
    cases hheld : g.durabilityToken with
    | none =>
      unfold ExecutionLease.tokenAccepted
      rw [hheld]
      cases fencing with
      | none => rfl
      | some f => rfl
    | some held =>
      -- a token that is issued now has an epoch above all tokens of the task
      obtain ⟨-, hnext, -⟩ := issuedToken_spec hissued
      obtain ⟨-, hheldEpoch, row, hrow, hle⟩ := h.tokens g hg held hheld
      rw [htask] at hrow
      have hlt := currentEpoch_lt_nextEpoch hrow
      have hnew : lease.fencingEpoch = issued.1.fencingEpoch := by
        rw [hlease, ExecutionLeaseManager.newLease, ExecutionLeaseManager.grantedEpoch, hissued]
        rfl
      rw [hnew, hnext] at hepoch
      omega

/-- **An acquisition** leaves one worker with an accepted lease precisely when it raises the epoch. -/
theorem Kept.exclusive_acquire_iff (h : Kept s) (hexclusive : Exclusive fencing s)
    {workerId : String} (hclock : s.clock ≤ now)
    (hacquire : s.manager.acquireLease fencing taskId workerId ttlSeconds fencingEpoch now issuedAt =
      .ok (lease, m')) (hfresh : ∀ g ∈ s.grants, g.leaseId ≠ lease.leaseId) :
    Exclusive fencing ⟨m', now, s.grants ++ [lease]⟩ ↔
      RaisesEpoch fencing s (.acquire taskId workerId ttlSeconds fencingEpoch now issuedAt) := by
  obtain ⟨hadmitted, hlease, -, -, htable⟩ := acquireLease_eq_ok hacquire
  have htask : lease.taskId = taskId := by rw [hlease]; rfl
  have hgranted : s.manager.grantedEpoch fencing taskId workerId fencingEpoch issuedAt =
      lease.fencingEpoch := by rw [hlease]; rfl
  constructor
  · intro h' _ g hg hgtask stored hstored hnow htoken
    rw [hgranted]
    by_contra hepoch
    have hpair := (List.pairwise_append.mp h'.superseded).2.2 g hg lease (List.mem_singleton_self _)
    refine hpair (hgtask.trans htask.symm) now le_rfl ?_
    rw [h.passes_acquire_iff hacquire hfresh hg, if_pos hgtask]
    exact ⟨stored, hstored, hnow, not_lt.mp hepoch,
      h.tokenAccepted_acquire hacquire hg hgtask (not_lt.mp hepoch) htoken⟩
  · intro hraises
    have hnone : ∀ g ∈ s.grants, g.taskId = taskId → ∀ time, now ≤ time →
        ¬ Passes fencing ⟨m', now, s.grants ++ [lease]⟩ g time := by
      intro g hg hgtask time htime hpasses
      rw [h.passes_acquire_iff hacquire hfresh hg, if_pos hgtask] at hpasses
      obtain ⟨stored, hstored, hover, hepoch, htoken⟩ := hpasses
      have hlt := hraises hadmitted g hg hgtask stored hstored (htime.trans_lt hover)
        (tokenAccepted_of_issued htable htoken)
      rw [hgranted] at hlt
      exact absurd hepoch (not_le.mpr hlt)
    refine exclusive_of_superseded (List.pairwise_append.mpr
      ⟨?_, List.pairwise_singleton _ _, fun g hg g' hg' hsame => ?_⟩)
    · refine hexclusive.superseded.imp_of_mem fun {g g'} hg _ hpair hsame time htime hpasses => ?_
      by_cases hgtask : g.taskId = taskId
      · exact hnone g hg hgtask time htime hpasses
      · rw [h.passes_acquire_iff hacquire hfresh hg, if_neg hgtask] at hpasses
        obtain ⟨stored, hstored, hover, hepoch, htoken⟩ := hpasses
        exact hpair hsame time (hclock.trans htime) ((h.passes_iff hg).mpr
          ⟨stored, hstored, hover, hepoch, tokenAccepted_of_issued htable htoken⟩)
    · rw [List.mem_singleton.mp hg', htask] at hsame
      exact hnone g hg hsame

/-- A renewal lets no lease be accepted that was not accepted when it began. -/
theorem Kept.exclusive_renew (h : Kept s) (hexclusive : Exclusive fencing s) {leaseId : String}
    {checkedAt : ℚ} (hclock : s.clock ≤ checkedAt) (hnow : checkedAt ≤ now) :
    Exclusive fencing
      { s with manager := (s.manager.renewLease leaseId ttlSeconds checkedAt now).2, clock := now } := by
  obtain ⟨hepochs, htable⟩ := ExecutionLeaseManager.renewLease_epochs (m := s.manager) leaseId ttlSeconds
    checkedAt now
  refine exclusive_of_superseded (hexclusive.superseded.imp_of_mem
    fun {g g'} hg _ hpair hsame time htime hpasses => ?_)
  obtain ⟨lease', hlease', hover, -, hepoch, htoken⟩ :=
    ExecutionLeaseManager.validateLease_eq_true_iff.mp hpasses
  obtain ⟨lease, hlease, heq, hlonger⟩ := ExecutionLeaseManager.get?_renewLease hlease'
  rw [heq, h.eq_of_get? hg hlease] at hepoch htoken
  rw [ExecutionLeaseManager.currentEpoch, hepochs] at hepoch
  rw [htable] at htoken
  rcases hlonger with rfl | hunexpired
  · exact hpair hsame time (hclock.trans (hnow.trans htime)) ((h.passes_iff hg).mpr
      ⟨lease', hlease, hover, hepoch, htoken⟩)
  · exact hpair hsame checkedAt hclock ((h.passes_iff hg).mpr
      ⟨lease, hlease, hunexpired, hepoch, htoken⟩)

theorem Kept.exclusive_release (h : Kept s) (hexclusive : Exclusive fencing s) (leaseId : String) :
    Exclusive fencing { s with manager := s.manager.releaseLease leaseId } := by
  obtain ⟨hepochs, htable⟩ := ExecutionLeaseManager.releaseLease_epochs (m := s.manager) leaseId
  refine exclusive_of_superseded (hexclusive.superseded.imp_of_mem
    fun {g g'} hg _ hpair hsame time htime hpasses => ?_)
  obtain ⟨lease, hlease, hover, -, hepoch, htoken⟩ :=
    ExecutionLeaseManager.validateLease_eq_true_iff.mp hpasses
  rw [ExecutionLeaseManager.get?_releaseLease] at hlease
  split_ifs at hlease
  rw [h.eq_of_get? hg hlease] at hepoch htoken
  rw [ExecutionLeaseManager.currentEpoch, hepochs] at hepoch
  rw [htable] at htoken
  exact hpair hsame time htime ((h.passes_iff hg).mpr ⟨lease, hlease, hover, hepoch, htoken⟩)

/-- **A call under a fresh id** leaves one worker with an accepted lease precisely when it raises the
epoch. -/
theorem Kept.exclusive_step_iff (h : Kept s) (hexclusive : Exclusive fencing s) {c : LeaseCall}
    (hfresh : FreshId fencing s c) (hstep : leaseStep fencing s c = some s') :
    Exclusive fencing s' ↔ RaisesEpoch fencing s c := by
  cases c with
  | acquire taskId workerId ttlSeconds fencingEpoch now issuedAt =>
    rw [leaseStep] at hstep
    split_ifs at hstep with hclock
    cases hacquire : s.manager.acquireLease fencing taskId workerId ttlSeconds fencingEpoch now
      issuedAt with
    | error e =>
      rw [hacquire] at hstep
      cases hstep
      refine iff_of_true (exclusive_of_superseded ?_) fun hadmitted => ?_
      · exact hexclusive.superseded.imp fun hpair hsame time htime =>
          hpair hsame time ((not_lt.mp hclock).trans htime)
      · exact absurd hadmitted (not_le.mpr (acquireLease_eq_error hacquire))
    | ok granted =>
      rw [hacquire] at hstep
      cases hstep
      obtain ⟨hadmitted, hlease, -⟩ := acquireLease_eq_ok hacquire
      refine h.exclusive_acquire_iff hexclusive (not_lt.mp hclock) hacquire ?_
      rw [hlease]
      exact hfresh hadmitted
  | renew leaseId ttlSeconds checkedAt now =>
    rw [leaseStep] at hstep
    split_ifs at hstep with hclock
    cases hstep
    obtain ⟨hstart, hread⟩ := not_or.mp hclock
    exact iff_of_true (h.exclusive_renew hexclusive (not_lt.mp hstart) (not_lt.mp hread)) trivial
  | release leaseId =>
    cases hstep
    exact iff_of_true (h.exclusive_release hexclusive leaseId) trivial

/-! ## Every run -/

theorem kept_newSystem (defaultTtlSeconds : ℚ) (fencingTokens : EpochTable) (clock : ℚ) :
    Kept (newSystem defaultTtlSeconds fencingTokens clock) := by
  refine ⟨fun id lease hlease => ?_, .nil, fun g hg => absurd hg List.not_mem_nil⟩
  cases hlease

/-- **One worker at a time has an accepted lease of a task**, and none that was superseded is accepted
again, in every state of a run under fresh ids, precisely when each acquisition raises the epoch of its
task above the leases that are not over. -/
theorem exclusiveLeases_iff (fencing : Option FencingManager) (defaultTtlSeconds : ℚ)
    (fencingTokens : EpochTable) (clock : ℚ) (calls : List LeaseCall)
    (hfresh : MeetsAlong (leaseStep fencing) (FreshId fencing)
      (newSystem defaultTtlSeconds fencingTokens clock) calls) :
    HoldsAlong (leaseStep fencing) (Exclusive fencing) (newSystem defaultTtlSeconds fencingTokens clock)
        calls ↔
      MeetsAlong (leaseStep fencing) (RaisesEpoch fencing)
        (newSystem defaultTtlSeconds fencingTokens clock) calls := by
  refine holdsAlong_iff_meetsAlong_of_meetsAlong (I := Kept) (D := FreshId fencing) ?_ ?_ ?_ ?_ hfresh
  · exact fun s c s' hc hs _ _ hstep => hs.step hc hstep
  · exact fun s c s' hc hs hexclusive hstep => hs.exclusive_step_iff hexclusive hc hstep
  · exact kept_newSystem defaultTtlSeconds fencingTokens clock
  · exact exclusive_of_superseded .nil

/-- A worker acquires a task and releases it, and another one acquires it. -/
def handedOver : List LeaseCall :=
  [.acquire "t" "w1" none none 0 none, .release "lease-t-w1-1", .acquire "t" "w2" none none 1 none]

/-- A lease that is released leaves the task to the next worker. -/
theorem exclusiveLeases_handedOver :
    HoldsAlong (leaseStep none) (Exclusive none) (newSystem 30 .empty 0) handedOver :=
  (exclusiveLeases_iff none 30 .empty 0 handedOver (by decide +kernel)).mpr (by decide +kernel)

/-- A worker acquires a task, and another one acquires it at the same epoch. -/
def sameEpoch : List LeaseCall :=
  [.acquire "t" "w1" none none 0 none, .acquire "t" "w2" none (some 1) 1 none]

/-- Two workers have accepted leases of one task. -/
theorem not_exclusive_sameEpoch :
    ¬ HoldsAlong (leaseStep none) (Exclusive none) (newSystem 30 .empty 0) sameEpoch := by
  have hany : (run (leaseStep none) (newSystem 30 .empty 0) sameEpoch).any (fun t => decide
      (t.clock ≤ 1 ∧ ∃ g ∈ t.grants, ∃ g' ∈ t.grants, g.taskId = g'.taskId ∧ g.workerId ≠ g'.workerId ∧
        t.manager.validateLease none g.leaseId g.fencingEpoch 1 = true ∧
        t.manager.validateLease none g'.leaseId g'.fencingEpoch 1 = true)) = true := by decide +kernel
  obtain ⟨t, hrun, ht⟩ := (Option.any_eq_true _ _).mp hany
  obtain ⟨hclock, g, hg, g', hg', htask, hworker, hpasses, hpasses'⟩ := of_decide_eq_true ht
  exact fun h => hworker ((h.finish hrun).one 1 hclock g hg g' hg' htask hpasses hpasses')

end LeaseRun

end EngineRuntime

/-
# The ownership manager

`OwnershipManager` of `akaalEngine/fabric/ownership/manager.py`: at most one record for an ownership key,
with a lease and a generation, which is active until its expiry unless it is released, transferred or
fenced.  Every new generation comes from the ledger of fencing tokens, and every record that changes is
saved in the store of the fabric, when there is one.

* `validate_eq_ok_iff` : the pairs of lease and generation that `validate` accepts;
* `perform_effect` : what a call makes of the records, the ledger and the store.

Each reading of the clock is an input, and so are the sites of the registry, the identifiers of new leases,
and whether the ledger and the quota of the store allow a write.
-/
import Akaal.FabricStore
import Akaal.IsoTimestamps

open CDC IsoTimestamps

namespace Fabric

open Durability

/-! ## Claims and sites -/

/-- What a claim must satisfy. -/
def claimAccepted (required : List String) (ttlSeconds : ℚ) : Bool :=
  required.all (fun s => s ≠ "") && 0 < ttlSeconds

/-- `OwnershipClaim`. -/
structure OwnershipClaim where
  tenantId : String
  workspaceId : String
  projectId : String
  migrationId : String
  planId : String
  planFingerprint : String
  executionIdentitySealFingerprint : String
  executionId : String
  placementId : String
  assignmentId : String
  siteId : String
  workerId : String
  correlationId : String
  actorId : Option String
  ttlSeconds : ℚ
  accepted : claimAccepted [tenantId, workspaceId, projectId, migrationId, planId, planFingerprint,
    executionIdentitySealFingerprint, executionId, placementId, assignmentId, siteId, workerId,
    correlationId] ttlSeconds = true

/-- `ownership_key`. -/
def OwnershipClaim.ownershipKey (claim : OwnershipClaim) : String :=
  claim.tenantId ++ "::" ++ claim.migrationId ++ "::" ++ claim.planId

/-- The microseconds of the time to live. -/
def OwnershipClaim.ttlMicros (claim : OwnershipClaim) : ℤ :=
  RoundSignificant.roundHalfEven (claim.ttlSeconds * 1000000)

/-- `SiteTrustState`. -/
inductive SiteTrustState where
  | unregistered
  | registered
  | identityVerified
  | trusted
  | revoked
  deriving DecidableEq

/-- `SiteLifecycleState`. -/
inductive SiteLifecycleState where
  | provisional
  | active
  | draining
  | decommissioned
  deriving DecidableEq

/-- `ExecutionSite`, as far as the manager reads it. -/
structure ExecutionSite where
  trustState : SiteTrustState
  tenantBinding : Option String
  lifecycleState : SiteLifecycleState

/-- `is_execution_authorized`. -/
def ExecutionSite.isExecutionAuthorized (site : ExecutionSite) : Bool :=
  site.trustState = .trusted ∧ site.tenantBinding.isSome ∧ site.lifecycleState = .active

/-! ## Records -/

/-- `is_expired`. -/
def OwnershipRecord.isExpired (r : OwnershipRecord) (now : Instant) : Bool :=
  r.expiresAt ≤ now.isoformat

/-- `is_currently_valid_owner`. -/
def OwnershipRecord.isCurrentlyValidOwner (r : OwnershipRecord) (now : Instant) : Bool :=
  r.state = .active && !(r.isExpired now)

/-- Why a call of the manager raises. -/
inductive OwnershipError where
  | unknownSite (siteId : String)
  | siteNotExecutionReady (siteId tenantId : String)
  | unknownOwnership (key : String)
  | activelyHeld (key workerId siteId expiresAt claimedWorkerId claimedSiteId : String)
  | notActive (key : String) (state : OwnershipState)
  | leaseConflict (key presented current : String)
  | leaseExpired (key leaseId expiresAt : String)
  | staleFencingGeneration (key : String) (presented current : ℤ)
  | wrongWorker (key held claimed : String)
  | wrongSite (key held claimed : String)
  | wrongTenant (key held claimed : String)
  | wrongPlan (key planId planFingerprint claimedPlanId claimedPlanFingerprint : String)
  | wrongSeal (key held claimed : String)
  | wrongExecution (key held claimed : String)
  | emptyReason
  | emptyEvidence
  | notIssued
  | notInCalendar
  | notSaved (error : FabricError)

/-- `_require_site_execution_ready`. -/
def requireSiteExecutionReady (sites : String → Option ExecutionSite) (siteId tenantId : String) :
    Option OwnershipError :=
  match sites siteId with
  | none => some (.unknownSite siteId)
  | some site =>
    if !site.isExecutionAuthorized || site.tenantBinding ≠ some tenantId then
      some (.siteNotExecutionReady siteId tenantId)
    else none

/-- `_check_context_matches`. -/
def checkContextMatches (existing : OwnershipRecord) (claim : OwnershipClaim) : Option OwnershipError :=
  if existing.tenantId ≠ claim.tenantId then
    some (.wrongTenant existing.ownershipKey existing.tenantId claim.tenantId)
  else if existing.planId ≠ claim.planId ∨ existing.planFingerprint ≠ claim.planFingerprint then
    some (.wrongPlan existing.ownershipKey existing.planId existing.planFingerprint claim.planId
      claim.planFingerprint)
  else if existing.executionIdentitySealFingerprint ≠ claim.executionIdentitySealFingerprint then
    some (.wrongSeal existing.ownershipKey existing.executionIdentitySealFingerprint
      claim.executionIdentitySealFingerprint)
  else if existing.executionId ≠ claim.executionId then
    some (.wrongExecution existing.ownershipKey existing.executionId claim.executionId)
  else none

/-! ## The manager -/

/-- `OwnershipManager`, with the ledger of its fencing manager and the tables of its store. -/
structure OwnershipManager where
  records : PyDict OwnershipRecord
  epochs : EpochTable
  store : Option StateTable

/-- What a save of the store meets. -/
structure SaveInput where
  now : String
  fits : Bool
  fitsIndex : Bool

/-- What a call meets: the sites, the readings of the clock in their order, the time that the ledger reads
(`none` when the token is not issued), the identifier of a new lease, and its saves. -/
structure OwnershipInput where
  sites : String → Option ExecutionSite
  first : Instant
  second : Instant
  third : Instant
  issuedAt : Option String
  leaseId : String
  save : SaveInput
  saveTransferred : SaveInput

namespace OwnershipManager

section Calls

variable (rt : DigestRuntime) (signingKey : List UInt8) (m : OwnershipManager) (input : OwnershipInput)

/-- `_persist`: whether it raises, and the manager. -/
def persist (r : OwnershipRecord) (save : SaveInput) : Option FabricError × OwnershipManager :=
  match m.store with
  | none => (none, m)
  | some t =>
    let saved := saveRecord rt t (.ownership r) save.now save.fits save.fitsIndex
    (saved.1, { m with store := some saved.2 })

/-- The record of a key is replaced, and saved. -/
def replace (key : String) (r : OwnershipRecord) :
    Except OwnershipError OwnershipRecord × OwnershipManager :=
  match persist rt { m with records := m.records.set key r } r input.save with
  | (none, m') => (.ok r, m')
  | (some e, m') => (.error (.notSaved e), m')

/-- A record with a later expiry. -/
def renewed (existing : OwnershipRecord) (claim : OwnershipClaim) (now : Instant) :
    Except OwnershipError OwnershipRecord :=
  match now.add claim.ttlMicros with
  | none => .error .notInCalendar
  | some expiresAt =>
    .ok { existing with expiresAt := expiresAt.isoformat, assignmentId := claim.assignmentId }

/-- The record of a new generation. -/
def newRecord (claim : OwnershipClaim) (generation : ℤ) (leaseId : String)
    (acquiredAt expiresAt : Instant) : OwnershipRecord where
  ownershipKey := claim.ownershipKey
  tenantId := claim.tenantId
  workspaceId := claim.workspaceId
  projectId := claim.projectId
  migrationId := claim.migrationId
  planId := claim.planId
  planFingerprint := claim.planFingerprint
  executionIdentitySealFingerprint := claim.executionIdentitySealFingerprint
  executionId := claim.executionId
  placementId := claim.placementId
  assignmentId := claim.assignmentId
  siteId := claim.siteId
  workerId := claim.workerId
  correlationId := claim.correlationId
  actorId := claim.actorId
  leaseId := leaseId
  fencingGeneration := generation
  acquiredAt := acquiredAt.isoformat
  expiresAt := expiresAt.isoformat
  state := .active

/-- `issue_token` for a claim: the generation, and the manager. -/
def issue (claim : OwnershipClaim) : Option (ℤ × OwnershipManager) :=
  input.issuedAt.map fun now =>
    let issued := issueToken rt signingKey m.epochs claim.ownershipKey claim.workerId now
    (issued.1.fencingEpoch, { m with epochs := issued.2 })

/-- The checks of `acquire`: the record that its claimant holds, if there is one. -/
def checkAcquire (claim : OwnershipClaim) : Except OwnershipError (Option OwnershipRecord) :=
  match requireSiteExecutionReady input.sites claim.siteId claim.tenantId with
  | some e => .error e
  | none =>
    match (m.records.get? claim.ownershipKey).filter (·.isCurrentlyValidOwner input.first) with
    | none => .ok none
    | some existing =>
      if existing.workerId ≠ claim.workerId ∨ existing.siteId ≠ claim.siteId then
        .error (.activelyHeld claim.ownershipKey existing.workerId existing.siteId
          existing.expiresAt claim.workerId claim.siteId)
      else
        match checkContextMatches existing claim with
        | some e => .error e
        | none => .ok (some existing)

/-- `acquire`. -/
def acquire (claim : OwnershipClaim) : Except OwnershipError OwnershipRecord × OwnershipManager :=
  match m.checkAcquire input claim with
  | .error e => (.error e, m)
  | .ok (some existing) =>
    match renewed existing claim input.first with
    | .error e => (.error e, m)
    | .ok r => m.replace rt input claim.ownershipKey r
  | .ok none =>
    match m.issue rt signingKey input claim with
    | none => (.error .notIssued, m)
    | some (generation, m') =>
      match input.first.add claim.ttlMicros with
      | none => (.error .notInCalendar, m')
      | some expiresAt =>
        m'.replace rt input claim.ownershipKey
          (newRecord claim generation input.leaseId input.first expiresAt)

/-- The checks of `renew`: the record that is renewed. -/
def checkRenew (claim : OwnershipClaim) (leaseId : String) (fencingGeneration : ℤ) :
    Except OwnershipError OwnershipRecord :=
  let key := claim.ownershipKey
  match m.records.get? key with
  | none => .error (.unknownOwnership key)
  | some existing =>
    if existing.state ≠ .active then .error (.notActive key existing.state)
    else if existing.leaseId ≠ leaseId then .error (.leaseConflict key leaseId existing.leaseId)
    else if existing.isExpired input.first then
      .error (.leaseExpired key leaseId existing.expiresAt)
    else if existing.fencingGeneration ≠ fencingGeneration then
      .error (.staleFencingGeneration key fencingGeneration existing.fencingGeneration)
    else if existing.workerId ≠ claim.workerId then
      .error (.wrongWorker key existing.workerId claim.workerId)
    else if existing.siteId ≠ claim.siteId then
      .error (.wrongSite key existing.siteId claim.siteId)
    else
      match checkContextMatches existing claim with
      | some e => .error e
      | none =>
        match requireSiteExecutionReady input.sites existing.siteId existing.tenantId with
        | some e => .error e
        | none => .ok existing

/-- `renew`. -/
def renew (claim : OwnershipClaim) (leaseId : String) (fencingGeneration : ℤ) :
    Except OwnershipError OwnershipRecord × OwnershipManager :=
  match m.checkRenew input claim leaseId fencingGeneration with
  | .error e => (.error e, m)
  | .ok existing =>
    match renewed existing claim input.second with
    | .error e => (.error e, m)
    | .ok r => m.replace rt input claim.ownershipKey r

/-- The checks of `transfer`: the record that is transferred. -/
def checkTransfer (currentLeaseId : String) (currentFencingGeneration : ℤ)
    (newClaim : OwnershipClaim) : Except OwnershipError OwnershipRecord :=
  let key := newClaim.ownershipKey
  match m.records.get? key with
  | none => .error (.unknownOwnership key)
  | some existing =>
    if existing.state ≠ .active then .error (.notActive key existing.state)
    else if existing.leaseId ≠ currentLeaseId then
      .error (.leaseConflict key currentLeaseId existing.leaseId)
    else if existing.fencingGeneration ≠ currentFencingGeneration then
      .error (.staleFencingGeneration key currentFencingGeneration existing.fencingGeneration)
    else if existing.isExpired input.first then
      .error (.leaseExpired key currentLeaseId existing.expiresAt)
    else
      match checkContextMatches existing newClaim with
      | some e => .error e
      | none =>
        match requireSiteExecutionReady input.sites newClaim.siteId newClaim.tenantId with
        | some e => .error e
        | none => .ok existing

/-- `transfer`. -/
def transfer (currentLeaseId : String) (currentFencingGeneration : ℤ) (newClaim : OwnershipClaim) :
    Except OwnershipError OwnershipRecord × OwnershipManager :=
  match m.checkTransfer input currentLeaseId currentFencingGeneration newClaim with
  | .error e => (.error e, m)
  | .ok existing =>
    match m.issue rt signingKey input newClaim with
    | none => (.error .notIssued, m)
    | some (generation, m') =>
      match input.third.add newClaim.ttlMicros with
      | none => (.error .notInCalendar, m')
      | some expiresAt =>
        match m'.persist rt { existing with state := .transferred } input.saveTransferred with
        | (some e, m'') => (.error (.notSaved e), m'')
        | (none, m'') =>
          m''.replace rt input newClaim.ownershipKey
            (newRecord newClaim generation input.leaseId input.second expiresAt)

/-- `validate`. -/
def validate (ownershipKey leaseId : String) (fencingGeneration : ℤ) (now : Instant) :
    Except OwnershipError OwnershipRecord :=
  match m.records.get? ownershipKey with
  | none => .error (.unknownOwnership ownershipKey)
  | some existing =>
    if existing.state ≠ .active then .error (.notActive ownershipKey existing.state)
    else if existing.isExpired now then
      .error (.leaseExpired ownershipKey existing.leaseId existing.expiresAt)
    else if existing.leaseId ≠ leaseId then
      .error (.leaseConflict ownershipKey leaseId existing.leaseId)
    else if existing.fencingGeneration ≠ fencingGeneration then
      .error (.staleFencingGeneration ownershipKey fencingGeneration existing.fencingGeneration)
    else .ok existing

/-- `release`. -/
def release (ownershipKey leaseId : String) (fencingGeneration : ℤ) :
    Except OwnershipError OwnershipRecord × OwnershipManager :=
  match m.validate ownershipKey leaseId fencingGeneration input.first with
  | .error e => (.error e, m)
  | .ok existing => m.replace rt input ownershipKey { existing with state := .released }

/-- `force_fence`: the record it returns may be missing. -/
def forceFence (ownershipKey reason evidence : String) :
    Except OwnershipError (Option OwnershipRecord) × OwnershipManager :=
  if !nonBlank reason then (.error .emptyReason, m)
  else if !nonBlank evidence then (.error .emptyEvidence, m)
  else
    match m.records.get? ownershipKey with
    | none => (.ok none, m)
    | some existing =>
      if existing.state ≠ .active then (.ok (some existing), m)
      else
        let (result, m') := m.replace rt input ownershipKey { existing with state := .fenced }
        (result.map some, m')

end Calls

/-- A call that changes the manager. -/
inductive Call where
  | acquire (claim : OwnershipClaim)
  | renew (claim : OwnershipClaim) (leaseId : String) (fencingGeneration : ℤ)
  | transfer (currentLeaseId : String) (currentFencingGeneration : ℤ) (newClaim : OwnershipClaim)
  | release (ownershipKey leaseId : String) (fencingGeneration : ℤ)
  | forceFence (ownershipKey reason evidence : String)

/-- The key of a call. -/
def Call.key : Call → String
  | .acquire claim | .renew claim _ _ | .transfer _ _ claim => claim.ownershipKey
  | .release key _ _ | .forceFence key _ _ => key

/-- The reading of the clock from which the expiry of a new lease is counted. -/
def Call.base (input : OwnershipInput) : Call → Instant
  | .transfer _ _ _ => input.third
  | _ => input.first

/-- Whether something raised. -/
def raises {ε α : Type*} : Except ε α → Bool
  | .error _ => true
  | .ok _ => false

/-- A call: whether it raises, and the manager. -/
def perform (rt : DigestRuntime) (signingKey : List UInt8) (m : OwnershipManager)
    (input : OwnershipInput) : Call → Bool × OwnershipManager
  | .acquire claim => (m.acquire rt signingKey input claim).map raises id
  | .renew claim leaseId generation => (m.renew rt input claim leaseId generation).map raises id
  | .transfer leaseId generation claim =>
    (m.transfer rt signingKey input leaseId generation claim).map raises id
  | .release key leaseId generation => (m.release rt input key leaseId generation).map raises id
  | .forceFence key reason evidence => (m.forceFence rt input key reason evidence).map raises id

/-- The claim that a call grants a new generation for. -/
def grantedClaim (rt : DigestRuntime) (m : OwnershipManager) (input : OwnershipInput) :
    Call → Option OwnershipClaim
  | .acquire claim =>
    match m.checkAcquire input claim with
    | .ok none =>
      if input.issuedAt.isSome ∧ (input.first.add claim.ttlMicros).isSome then some claim else none
    | _ => none
  | .transfer leaseId generation claim =>
    match m.checkTransfer input leaseId generation claim with
    | .ok existing =>
      if input.issuedAt.isSome ∧ (input.third.add claim.ttlMicros).isSome ∧
          (m.persist rt { existing with state := .transferred } input.saveTransferred).1.isNone then
        some claim
      else none
    | _ => none
  | _ => none

/-! ## What the calls do -/

/-- A token was issued for a key. -/
def Issued (epochs : EpochTable) (key : String) (epochs' : EpochTable) : Prop :=
  ∃ row, epochs' = epochs.set key row ∧ row.currentEpoch = nextEpoch epochs key

/-- What a call makes of the manager, with the claim that it grants a generation for. -/
inductive Effect (rt : DigestRuntime) (m : OwnershipManager) (input : OwnershipInput) (call : Call) :
    Option OwnershipClaim → Bool → OwnershipManager → Prop
  | nothing (raised : Bool) : Effect rt m input call none raised m
  | issued (epochs : EpochTable) (hissued : Issued m.epochs call.key epochs) :
      Effect rt m input call none true { m with epochs := epochs }
  | notTransferred (existing : OwnershipRecord) (epochs : EpochTable)
      (hget : m.records.get? call.key = some existing) (hissued : Issued m.epochs call.key epochs) :
      Effect rt m input call none true (persist rt { m with epochs := epochs }
        { existing with state := .transferred } input.saveTransferred).2
  | renewed (existing r : OwnershipRecord) (hget : m.records.get? call.key = some existing)
      (hvalid : existing.isCurrentlyValidOwner input.first = true) (expiresAt assignmentId : String)
      (hr : r = { existing with expiresAt := expiresAt, assignmentId := assignmentId }) :
      Effect rt m input call none (raises (m.replace rt input call.key r).1)
        (m.replace rt input call.key r).2
  | ended (existing r : OwnershipRecord) (hget : m.records.get? call.key = some existing)
      (hactive : existing.state = .active) (state : OwnershipState) (hstate : state ≠ .active)
      (hr : r = { existing with state := state }) :
      Effect rt m input call none (raises (m.replace rt input call.key r).1)
        (m.replace rt input call.key r).2
  | granted (claim : OwnershipClaim) (epochs : EpochTable) (m' : OwnershipManager) (r : OwnershipRecord)
      (acquiredAt expiresAt : Instant) (hkey : claim.ownershipKey = call.key)
      (hissued : Issued m.epochs call.key epochs)
      (hm' : m' = { m with epochs := epochs } ∨ ∃ existing, m.records.get? call.key = some existing ∧
        m' = (persist rt { m with epochs := epochs } { existing with state := .transferred }
          input.saveTransferred).2)
      (hexpires : (call.base input).add claim.ttlMicros = some expiresAt)
      (hr : r = newRecord claim (nextEpoch m.epochs call.key) input.leaseId acquiredAt expiresAt) :
      Effect rt m input call (some claim) (raises (m'.replace rt input call.key r).1)
        (m'.replace rt input call.key r).2

section Spec

variable {rt : DigestRuntime} {signingKey : List UInt8} {m : OwnershipManager} {input : OwnershipInput}

variable {existing r : OwnershipRecord} {generation : ℤ} {leaseId : String} {now : Instant}

/-- **The pair that `validate` accepts** is that of a record that is active and not expired. -/
theorem validate_eq_ok_iff {key : String} : m.validate key leaseId generation now = .ok r ↔
      m.records.get? key = some r ∧ r.isCurrentlyValidOwner now = true ∧ r.leaseId = leaseId ∧
        r.fencingGeneration = generation := by
  rw [validate]
  cases hget : m.records.get? key with
  | none =>
    refine iff_of_false (fun h => nomatch h) ?_
    rintro ⟨⟨⟩, -⟩
  | some existing =>
    dsimp only
    by_cases hstate : existing.state = .active
    · rw [if_neg (not_not.mpr hstate)]
      by_cases hexpired : existing.isExpired now = true
      · rw [if_pos hexpired]
        refine ⟨fun h => (nomatch h), ?_⟩
        rintro ⟨⟨⟩, hvalid, -⟩
        rw [OwnershipRecord.isCurrentlyValidOwner, hexpired, Bool.not_true, Bool.and_false] at hvalid
        cases hvalid
      · rw [if_neg hexpired]
        by_cases hlease : existing.leaseId = leaseId
        · rw [if_neg (not_not.mpr hlease)]
          by_cases hgeneration : existing.fencingGeneration = generation
          · rw [if_neg (not_not.mpr hgeneration)]
            have hvalid : existing.isCurrentlyValidOwner now = true := by
              rw [OwnershipRecord.isCurrentlyValidOwner, Bool.eq_false_iff.mpr hexpired, Bool.not_false,
                Bool.and_true]
              exact decide_eq_true hstate
            constructor
            · rintro ⟨⟩
              exact ⟨rfl, hvalid, hlease, hgeneration⟩
            · rintro ⟨⟨⟩, -⟩
              rfl
          · rw [if_pos hgeneration]
            refine ⟨fun h => (nomatch h), ?_⟩
            rintro ⟨⟨⟩, -, -, h⟩
            exact absurd h hgeneration
        · rw [if_pos hlease]
          refine ⟨fun h => (nomatch h), ?_⟩
          rintro ⟨⟨⟩, -, h, -⟩
          exact absurd h hlease
    · rw [if_pos hstate]
      refine ⟨fun h => (nomatch h), ?_⟩
      rintro ⟨⟨⟩, hvalid, -⟩
      rw [OwnershipRecord.isCurrentlyValidOwner, Bool.and_eq_true] at hvalid
      exact absurd (of_decide_eq_true hvalid.1) hstate

theorem state_of_valid (h : r.isCurrentlyValidOwner now = true) : r.state = .active := by
  rw [OwnershipRecord.isCurrentlyValidOwner, Bool.and_eq_true] at h
  exact of_decide_eq_true h.1

/-- What `acquire` renews is valid. -/
theorem checkAcquire_eq_some {claim : OwnershipClaim}
    (h : m.checkAcquire input claim = .ok (some existing)) :
    m.records.get? claim.ownershipKey = some existing ∧
      existing.isCurrentlyValidOwner input.first = true := by
  rw [checkAcquire] at h
  split at h
  · cases h
  · split at h
    · cases h
    · next held hheld =>
        split_ifs at h
        split at h
        · cases h
        · cases h
          exact Option.filter_eq_some_iff.mp hheld

/-- What `renew` renews is valid. -/
theorem checkRenew_eq_ok {claim : OwnershipClaim}
    (h : m.checkRenew input claim leaseId generation = .ok existing) :
    m.records.get? claim.ownershipKey = some existing ∧
      existing.isCurrentlyValidOwner input.first = true := by
  rw [checkRenew] at h
  split at h
  · cases h
  · next held hget =>
      split_ifs at h with hstate hlease hexpired
      split at h
      · cases h
      · split at h
        · cases h
        · cases h
          refine ⟨hget, ?_⟩
          rw [OwnershipRecord.isCurrentlyValidOwner, Bool.eq_false_iff.mpr hexpired, Bool.not_false,
            Bool.and_true]
          exact decide_eq_true (not_not.mp hstate)

theorem checkTransfer_eq_ok {claim : OwnershipClaim}
    (h : m.checkTransfer input leaseId generation claim = .ok existing) :
    m.records.get? claim.ownershipKey = some existing := by
  rw [checkTransfer] at h
  split at h
  · cases h
  · next held hget =>
      split_ifs at h
      split at h
      · cases h
      · split at h
        · cases h
        · cases h
          exact hget

theorem renewed_eq_ok {claim : OwnershipClaim}
    (h : renewed existing claim now = .ok r) : ∃ expiresAt : Instant,
      r = { existing with expiresAt := expiresAt.isoformat, assignmentId := claim.assignmentId } := by
  rw [renewed] at h
  split at h
  · cases h
  · cases h
    exact ⟨_, rfl⟩

/-- A token that is issued has the next generation. -/
theorem issue_eq_some {claim : OwnershipClaim} {m' : OwnershipManager}
    (h : m.issue rt signingKey input claim = some (generation, m')) :
    generation = nextEpoch m.epochs claim.ownershipKey ∧
      ∃ epochs, Issued m.epochs claim.ownershipKey epochs ∧ m' = { m with epochs := epochs } := by
  rw [issue] at h
  obtain ⟨now, -, heq⟩ := Option.map_eq_some_iff.mp h
  cases heq
  exact ⟨rfl, _, ⟨_, rfl, rfl⟩, rfl⟩

end Spec

section Frames

variable (rt : DigestRuntime) (signingKey : List UInt8) (m : OwnershipManager) (input : OwnershipInput)

theorem isSome_issue (claim : OwnershipClaim) :
    (m.issue rt signingKey input claim).isSome = input.issuedAt.isSome := by
  rw [issue, Option.isSome_map]

theorem persist_fst (epochs : EpochTable) (r : OwnershipRecord) (save : SaveInput) :
    (persist rt { m with epochs := epochs } r save).1 = (m.persist rt r save).1 := by
  cases m with
  | mk records old store => cases store <;> rfl

theorem persist_snd (r : OwnershipRecord) (save : SaveInput) :
    (m.persist rt r save).2.records = m.records ∧ (m.persist rt r save).2.epochs = m.epochs := by
  rw [persist]
  cases m.store <;> exact ⟨rfl, rfl⟩

/-- What a save makes of the store, and whether it raises. -/
theorem persist_store (r : OwnershipRecord) (save : SaveInput) :
    m.store = none ∧ (m.persist rt r save).2.store = none ∨
    ∃ t, m.store = some t ∧
      let saved := saveRecord rt t (.ownership r) save.now save.fits save.fitsIndex
      (m.persist rt r save).2.store = some saved.2 ∧ (m.persist rt r save).1 = saved.1 := by
  cases hstore : m.store with
  | none =>
    refine .inl ⟨rfl, ?_⟩
    simp only [persist, hstore]
  | some t =>
    refine .inr ⟨t, rfl, ?_⟩
    simp only [persist, hstore]
    trivial

theorem replace_snd (key : String) (r : OwnershipRecord) :
    (m.replace rt input key r).2.records = m.records.set key r ∧
      (m.replace rt input key r).2.epochs = m.epochs := by
  have hsaved := persist_snd rt { m with records := m.records.set key r } r input.save
  rw [replace]
  split
  · next m' hpersist =>
      rw [hpersist] at hsaved
      exact hsaved
  · next e m' hpersist =>
      rw [hpersist] at hsaved
      exact hsaved

theorem get?_replace {key key' : String} {r r' : OwnershipRecord}
    (h : (m.replace rt input key r).2.records.get? key' = some r') :
    key' = key ∧ r' = r ∨ key' ≠ key ∧ m.records.get? key' = some r' := by
  rw [(replace_snd rt m input key r).1] at h
  by_cases heq : key' = key
  · subst heq
    rw [PyDict.get?_set] at h
    cases h
    exact .inl ⟨rfl, rfl⟩
  · rw [PyDict.get?_set_of_ne _ _ heq] at h
    exact .inr ⟨heq, h⟩

/-- What a replacement makes of the store, and whether it raises. -/
theorem replace_store (key : String) (r : OwnershipRecord) :
    m.store = none ∧ (m.replace rt input key r).2.store = none ∨
    ∃ t, m.store = some t ∧
      let saved := saveRecord rt t (.ownership r) input.save.now input.save.fits input.save.fitsIndex
      (m.replace rt input key r).2.store = some saved.2 ∧
        raises (m.replace rt input key r).1 = saved.1.isSome := by
  cases hstore : m.store with
  | none =>
    refine .inl ⟨rfl, ?_⟩
    simp only [replace, persist, hstore]
  | some t =>
    refine .inr ⟨t, rfl, ?_⟩
    rcases hsaved : saveRecord rt t (.ownership r) input.save.now input.save.fits input.save.fitsIndex
      with ⟨e, t'⟩
    cases e <;> simp only [replace, persist, hstore, hsaved, raises, Option.isSome] <;> trivial

end Frames

/-- **What a call does.** -/
theorem perform_effect (rt : DigestRuntime) (signingKey : List UInt8) (m : OwnershipManager)
    (input : OwnershipInput) (call : Call) :
    Effect rt m input call (m.grantedClaim rt input call) (perform rt signingKey m input call).1
      (perform rt signingKey m input call).2 := by
  cases call with
  | acquire claim =>
    rw [perform, acquire, grantedClaim]
    cases hcheck : m.checkAcquire input claim with
    | error e => exact .nothing true
    | ok held =>
      cases held with
      | some existing =>
        obtain ⟨hget, hvalid⟩ := checkAcquire_eq_some hcheck
        dsimp only
        cases hrenewed : renewed existing claim input.first with
        | error e => exact .nothing true
        | ok r =>
          obtain ⟨expiresAt, hr⟩ := renewed_eq_ok hrenewed
          exact .renewed existing r hget hvalid _ _ hr
      | none =>
        dsimp only
        have hsome := isSome_issue rt signingKey m input claim
        cases hissue : m.issue rt signingKey input claim with
        | none =>
          rw [hissue, Option.isSome_none] at hsome
          rw [← hsome, if_neg fun h => nomatch h.1]
          exact .nothing true
        | some issued =>
          obtain ⟨generation, m'⟩ := issued
          obtain ⟨rfl, epochs, hissued, rfl⟩ := issue_eq_some hissue
          rw [hissue, Option.isSome_some] at hsome
          dsimp only
          cases hadd : input.first.add claim.ttlMicros with
          | none =>
            rw [if_neg fun h => nomatch h.2]
            exact .issued epochs hissued
          | some expiresAt =>
            rw [if_pos ⟨hsome.symm, rfl⟩]
            exact .granted claim epochs _ _ input.first expiresAt rfl hissued (.inl rfl) hadd rfl
  | renew claim leaseId generation =>
    rw [perform, renew]
    cases hcheck : m.checkRenew input claim leaseId generation with
    | error e => exact .nothing true
    | ok existing =>
      obtain ⟨hget, hvalid⟩ := checkRenew_eq_ok hcheck
      dsimp only
      cases hrenewed : renewed existing claim input.second with
      | error e => exact .nothing true
      | ok r =>
        obtain ⟨expiresAt, hr⟩ := renewed_eq_ok hrenewed
        exact .renewed existing r hget hvalid _ _ hr
  | transfer leaseId generation claim =>
    rw [perform, transfer, grantedClaim]
    cases hcheck : m.checkTransfer input leaseId generation claim with
    | error e => exact .nothing true
    | ok existing =>
      have hget := checkTransfer_eq_ok hcheck
      dsimp only
      have hsome := isSome_issue rt signingKey m input claim
      cases hissue : m.issue rt signingKey input claim with
      | none =>
        rw [hissue, Option.isSome_none] at hsome
        rw [← hsome, if_neg fun h => nomatch h.1]
        exact .nothing true
      | some issued =>
        obtain ⟨generation', m'⟩ := issued
        obtain ⟨rfl, epochs, hissued, rfl⟩ := issue_eq_some hissue
        rw [hissue, Option.isSome_some] at hsome
        dsimp only
        cases hadd : input.third.add claim.ttlMicros with
        | none =>
          rw [if_neg fun h => nomatch h.2.1]
          exact .issued epochs hissued
        | some expiresAt =>
          have hsaved := persist_fst rt m epochs
            { existing with state := .transferred } input.saveTransferred
          rw [← hsaved]
          dsimp only
          have hfailed : Effect rt m input (.transfer leaseId generation claim) none true _ :=
            .notTransferred existing epochs hget hissued
          have hgranted : Effect rt m input (.transfer leaseId generation claim) (some claim) _ _ :=
            .granted claim epochs _ _ input.second expiresAt rfl hissued
              (.inr ⟨existing, hget, rfl⟩) hadd rfl
          cases hpersist : persist rt { m with epochs := epochs }
              { existing with state := .transferred } input.saveTransferred with
          | mk error m'' =>
            rw [hpersist] at hfailed hgranted
            cases error with
            | some e =>
              rw [if_neg fun h => nomatch h.2.2]
              exact hfailed
            | none =>
              rw [if_pos ⟨hsome.symm, rfl, rfl⟩]
              exact hgranted
  | release key leaseId generation =>
    rw [perform, release]
    cases hvalidate : m.validate key leaseId generation input.first with
    | error e => exact .nothing true
    | ok existing =>
      obtain ⟨hget, hvalid, -⟩ := validate_eq_ok_iff.mp hvalidate
      exact .ended existing _ hget (state_of_valid hvalid) .released (by decide) rfl
  | forceFence key reason evidence =>
    rw [perform, forceFence]
    split_ifs with hreason hevidence
    · exact .nothing true
    · exact .nothing true
    · cases hget : m.records.get? key with
      | none => exact .nothing false
      | some existing =>
        dsimp only
        split_ifs with hstate
        · exact .nothing false
        · have hended : Effect rt m input (.forceFence key reason evidence) none _ _ :=
            .ended existing _ hget (not_not.mp hstate) .fenced (by decide) rfl
          rcases hresult : m.replace rt input key { existing with state := .fenced } with ⟨result, m'⟩
          rw [Call.key, hresult] at hended
          cases result <;> exact hended

end OwnershipManager

end Fabric

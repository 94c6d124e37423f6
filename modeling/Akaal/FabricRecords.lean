/-
# Records of the fabric

The worker, locality and ownership records of `akaalEngine/fabric/worker_fabric/models.py`,
`akaalEngine/fabric/locality/models.py` and `akaalEngine/fabric/ownership/models.py`, with the payloads
that `akaalEngine/fabric/durability.py` writes for them and reads back.

* `WorkerNode.restore_payload`, `LocalityRecord.restore_payload`, `OwnershipRecord.restore_payload` : a
  record is restored from what is read of its payload.

A mapping is given with its items in the order of the keys, since mappings are compared without order.
-/
import Akaal.StoredCheckpoints

open CDC JsonText

namespace Fabric

open Durability

/-! ## Reading members -/

section Reading

variable (members : List (String × PyValue)) (key : String)

/-- `payload[key]`, a text. -/
def readText : Option String :=
  match members.lookup key with
  | some (.str s) => some s
  | _ => none

/-- `payload.get(key, default)`, a text. -/
def readTextOr (default : String) : Option String :=
  match members.lookup key with
  | some (.str s) => some s
  | none => some default
  | _ => none

/-- `payload.get(key)`, a text or `None`. -/
def readOptionText : Option (Option String) :=
  match members.lookup key with
  | some (.str s) => some (some s)
  | some .none | none => some none
  | _ => none

/-- `payload.get(key, default)`, an integer. -/
def readIntOr (default : Option ℤ) : Option ℤ :=
  match members.lookup key with
  | some (.int z) => some z
  | none => default
  | _ => none

/-- `payload.get(key)`, an integer or `None`. -/
def readOptionInt : Option (Option ℤ) :=
  match members.lookup key with
  | some (.int z) => some (some z)
  | some .none | none => some none
  | _ => none

/-- `payload.get(key, default)`, a truth value. -/
def readBoolOr (default : Bool) : Option Bool :=
  match members.lookup key with
  | some (.bool b) => some b
  | none => some default
  | _ => none

/-- The texts of a list. -/
def textsOf : List PyValue → Option (List String)
  | [] => some []
  | .str s :: vs => (textsOf vs).map (s :: ·)
  | _ => none

/-- The items of a mapping of texts. -/
def textItemsOf : List (String × PyValue) → Option (List (String × String))
  | [] => some []
  | (key, .str s) :: items => (textItemsOf items).map ((key, s) :: ·)
  | _ => none

end Reading

/-- An integer that may be missing. -/
def optionInt : Option ℤ → PyInput
  | none => .none
  | some z => .int z

/-! ## Workers -/

/-- `WorkerState`. -/
inductive WorkerState where
  | idle
  | busy
  | draining
  | unhealthy
  | revoked
  | stale
  deriving DecidableEq

namespace WorkerState

/-- The value of a state. -/
def value : WorkerState → String
  | .idle => "IDLE"
  | .busy => "BUSY"
  | .draining => "DRAINING"
  | .unhealthy => "UNHEALTHY"
  | .revoked => "REVOKED"
  | .stale => "STALE"

/-- The states. -/
def all : List WorkerState := [.idle, .busy, .draining, .unhealthy, .revoked, .stale]

/-- `WorkerState(text)`. -/
def ofValue (text : String) : Option WorkerState := all.find? fun s => s.value = text

theorem ofValue_value (s : WorkerState) : ofValue s.value = some s := by
  cases s <;> decide

end WorkerState

instance : DecidablePred IsFloat := fun x =>
  match x with
  | .finite q => inferInstanceAs (Decidable (q = 0 ∨ binary64.round q = some q))
  | .negativeZero | .infinite _ | .nan => isTrue trivial

/-- A number of a capacity. -/
inductive CapacityNumber where
  | int (z : ℤ)
  | float (x : PyFloat) (isFloat : IsFloat x)

namespace CapacityNumber

/-- `value < 0`. -/
def isNegative : CapacityNumber → Bool
  | .int z => z < 0
  | .float (.finite q) _ => q < 0
  | .float (.infinite negative) _ => negative
  | .float _ _ => false

/-- The number in a payload. -/
def toInput : CapacityNumber → PyInput
  | .int z => .int z
  | .float x _ => .float x

end CapacityNumber

/-- A number that may be missing. -/
def optionNumber : Option CapacityNumber → PyInput
  | none => .none
  | some number => number.toInput

/-- `payload.get(key)`, a number or `None`. -/
def readOptionNumber (members : List (String × PyValue)) (key : String) :
    Option (Option CapacityNumber) :=
  match members.lookup key with
  | some (.int z) => some (some (.int z))
  | some (.float x) => if h : IsFloat x then some (some (.float x h)) else none
  | some .none | none => some none
  | _ => none

/-- None of the numbers is negative. -/
def capacityAccepted (numbers : List (Option CapacityNumber)) : Bool :=
  numbers.all fun number => !(number.elim false CapacityNumber.isNegative)

/-- `WorkerCapacity`. -/
structure WorkerCapacity where
  cpuCores : Option CapacityNumber
  memoryMb : Option ℤ
  diskMb : Option ℤ
  concurrencySlots : Option ℤ
  throughputMbps : Option CapacityNumber
  provenance : String
  accepted : capacityAccepted [cpuCores, memoryMb.map .int, diskMb.map .int,
    concurrencySlots.map .int, throughputMbps] = true

/-- The items of `worker_capacity_to_payload`. -/
def WorkerCapacity.items (c : WorkerCapacity) : List (String × PyInput) :=
  [("cpu_cores", optionNumber c.cpuCores), ("memory_mb", optionInt c.memoryMb),
    ("disk_mb", optionInt c.diskMb), ("concurrency_slots", optionInt c.concurrencySlots),
    ("throughput_mbps", optionNumber c.throughputMbps), ("provenance", .str c.provenance)]

/-- `worker_capacity_to_payload`. -/
def capacityPayload : Option WorkerCapacity → PyInput
  | none => .none
  | some c => textDict c.items

/-- `worker_capacity_from_payload`. -/
def restoreCapacity : PyValue → Option (Option WorkerCapacity)
  | .none => some none
  | .dict members => do
      let cpuCores ← readOptionNumber members "cpu_cores"
      let memoryMb ← readOptionInt members "memory_mb"
      let diskMb ← readOptionInt members "disk_mb"
      let concurrencySlots ← readOptionInt members "concurrency_slots"
      let throughputMbps ← readOptionNumber members "throughput_mbps"
      let provenance ← readTextOr members "provenance" ""
      if h : capacityAccepted [cpuCores, memoryMb.map .int, diskMb.map .int,
          concurrencySlots.map .int, throughputMbps] = true then
        some (some ⟨cpuCores, memoryMb, diskMb, concurrencySlots, throughputMbps, provenance, h⟩)
      else none
  | _ => none

/-- A text that is more than blanks. -/
def nonBlank (s : String) : Bool := PythonText.strip s ≠ ""

/-- What a worker node must satisfy. -/
def workerAccepted (workerId siteId tenantId runtimeVersion : String) (fencingEpoch : ℤ) : Bool :=
  nonBlank workerId && nonBlank siteId && nonBlank tenantId && nonBlank runtimeVersion &&
    1 ≤ fencingEpoch

/-- `WorkerNode`. -/
structure WorkerNode where
  workerId : String
  siteId : String
  tenantId : String
  runtimeVersion : String
  capabilities : Finset String
  capabilityProvenance : String
  capacity : Option WorkerCapacity
  state : WorkerState
  fencingEpoch : ℤ
  registeredAt : Option String
  lastHeartbeatAt : Option String
  labels : List (String × String)
  labelsInOrder : labels.Pairwise fun a b => a.1 < b.1
  accepted : workerAccepted workerId siteId tenantId runtimeVersion fencingEpoch = true

namespace WorkerNode

/-- The items of `worker_to_payload`. -/
def items (w : WorkerNode) : List (String × PyInput) :=
  [("worker_id", .str w.workerId), ("site_id", .str w.siteId), ("tenant_id", .str w.tenantId),
    ("runtime_version", .str w.runtimeVersion),
    ("capabilities", .list ((w.capabilities.sort (· ≤ ·)).map .str)),
    ("capability_provenance", .str w.capabilityProvenance), ("capacity", capacityPayload w.capacity),
    ("state", .str w.state.value), ("fencing_epoch", .int w.fencingEpoch),
    ("registered_at", optionText w.registeredAt), ("last_heartbeat_at", optionText w.lastHeartbeatAt),
    ("labels", textDict (w.labels.map fun label => (label.1, .str label.2)))]

/-- `payload.get("capabilities", ())`. -/
def readCapabilities (members : List (String × PyValue)) : Option (Finset String) :=
  match members.lookup "capabilities" with
  | none => some ∅
  | some (.list vs) => (textsOf vs).map List.toFinset
  | _ => none

/-- `payload.get("labels")`, empty when it is missing. -/
def readLabels (members : List (String × PyValue)) : Option (List (String × String)) :=
  match members.lookup "labels" with
  | none => some []
  | some (.dict labels) => (textItemsOf labels).map (List.insertionSort fun a b => a.1 ≤ b.1)
  | _ => none

/-- `worker_from_payload`. -/
def restore : PyValue → Option WorkerNode
  | .dict members => do
      let workerId ← readText members "worker_id"
      let siteId ← readText members "site_id"
      let tenantId ← readText members "tenant_id"
      let runtimeVersion ← readText members "runtime_version"
      let capabilities ← readCapabilities members
      let capabilityProvenance ← readTextOr members "capability_provenance" "UNKNOWN"
      let capacity ← restoreCapacity ((members.lookup "capacity").getD .none)
      let state ← (readTextOr members "state" "IDLE").bind WorkerState.ofValue
      let fencingEpoch ← readIntOr members "fencing_epoch" (some 1)
      let registeredAt ← readOptionText members "registered_at"
      let lastHeartbeatAt ← readOptionText members "last_heartbeat_at"
      let labels ← readLabels members
      if h : (labels.Pairwise fun a b => a.1 < b.1) ∧
          workerAccepted workerId siteId tenantId runtimeVersion fencingEpoch = true then
        some ⟨workerId, siteId, tenantId, runtimeVersion, capabilities, capabilityProvenance, capacity,
          state, fencingEpoch, registeredAt, lastHeartbeatAt, labels, h.1, h.2⟩
      else none
  | _ => none

end WorkerNode

/-! ## Localities -/

/-- `LocalitySubjectRole`. -/
inductive LocalitySubjectRole where
  | source
  | target
  | staging
  | relay
  | executionSite
  | networkHop
  | validationEvidenceDestination
  deriving DecidableEq

namespace LocalitySubjectRole

/-- The value of a role. -/
def value : LocalitySubjectRole → String
  | .source => "SOURCE"
  | .target => "TARGET"
  | .staging => "STAGING"
  | .relay => "RELAY"
  | .executionSite => "EXECUTION_SITE"
  | .networkHop => "NETWORK_HOP"
  | .validationEvidenceDestination => "VALIDATION_EVIDENCE_DESTINATION"

/-- The roles. -/
def all : List LocalitySubjectRole :=
  [.source, .target, .staging, .relay, .executionSite, .networkHop, .validationEvidenceDestination]

/-- `LocalitySubjectRole(text)`. -/
def ofValue (text : String) : Option LocalitySubjectRole := all.find? fun r => r.value = text

theorem ofValue_value (r : LocalitySubjectRole) : ofValue r.value = some r := by
  cases r <;> decide

end LocalitySubjectRole

/-- `LocalityConfidence`. -/
inductive LocalityConfidence where
  | unknown
  | claimed
  | proven
  deriving DecidableEq

namespace LocalityConfidence

/-- The value of a confidence. -/
def value : LocalityConfidence → String
  | .unknown => "UNKNOWN"
  | .claimed => "CLAIMED"
  | .proven => "PROVEN"

/-- `LocalityConfidence(text)`. -/
def ofValue (text : String) : Option LocalityConfidence :=
  [unknown, claimed, proven].find? fun c => c.value = text

theorem ofValue_value (c : LocalityConfidence) : ofValue c.value = some c := by
  cases c <;> decide

end LocalityConfidence

/-- The dimensions of a locality, in the order of the fields of `LocalityRecord`. -/
structure LocalityDimensions where
  cloudProvider : Option String
  country : Option String
  jurisdiction : Option String
  sovereigntyZone : Option String
  region : Option String
  availabilityZone : Option String
  datacenter : Option String
  network : Option String
  kubernetesCluster : Option String
  executionSite : Option String
  storageLocation : Option String

namespace LocalityDimensions

/-- `_any_dimension_set`. -/
def anySet (d : LocalityDimensions) : Bool :=
  [d.cloudProvider, d.country, d.jurisdiction, d.sovereigntyZone, d.region, d.availabilityZone,
    d.datacenter, d.network, d.kubernetesCluster, d.executionSite, d.storageLocation].any
    Option.isSome

/-- The items of the dimensions in a payload. -/
def items (d : LocalityDimensions) : List (String × PyInput) :=
  [("cloud_provider", optionText d.cloudProvider), ("country", optionText d.country),
    ("jurisdiction", optionText d.jurisdiction), ("sovereignty_zone", optionText d.sovereigntyZone),
    ("region", optionText d.region), ("availability_zone", optionText d.availabilityZone),
    ("datacenter", optionText d.datacenter), ("network", optionText d.network),
    ("kubernetes_cluster", optionText d.kubernetesCluster),
    ("execution_site", optionText d.executionSite), ("storage_location", optionText d.storageLocation)]

/-- The dimensions of a payload. -/
def restore (members : List (String × PyValue)) : Option LocalityDimensions := do
  let cloudProvider ← readOptionText members "cloud_provider"
  let country ← readOptionText members "country"
  let jurisdiction ← readOptionText members "jurisdiction"
  let sovereigntyZone ← readOptionText members "sovereignty_zone"
  let region ← readOptionText members "region"
  let availabilityZone ← readOptionText members "availability_zone"
  let datacenter ← readOptionText members "datacenter"
  let network ← readOptionText members "network"
  let kubernetesCluster ← readOptionText members "kubernetes_cluster"
  let executionSite ← readOptionText members "execution_site"
  let storageLocation ← readOptionText members "storage_location"
  some ⟨cloudProvider, country, jurisdiction, sovereigntyZone, region, availabilityZone, datacenter,
    network, kubernetesCluster, executionSite, storageLocation⟩

end LocalityDimensions

/-- What a locality record must satisfy. -/
def localityAccepted (subjectRef tenantId provenanceSource : String) (confidence : LocalityConfidence)
    (dimensions : LocalityDimensions) : Bool :=
  nonBlank subjectRef && nonBlank tenantId && nonBlank provenanceSource &&
    (confidence ≠ .proven || dimensions.anySet)

/-- `LocalityRecord`. -/
structure LocalityRecord where
  subjectRef : String
  subjectRole : LocalitySubjectRole
  tenantId : String
  dimensions : LocalityDimensions
  confidence : LocalityConfidence
  provenanceSource : String
  observedAt : Option String
  stale : Bool
  accepted : localityAccepted subjectRef tenantId provenanceSource confidence dimensions = true

namespace LocalityRecord

/-- The items of `locality_record_to_payload`. -/
def items (r : LocalityRecord) : List (String × PyInput) :=
  [("subject_ref", .str r.subjectRef), ("subject_role", .str r.subjectRole.value),
    ("tenant_id", .str r.tenantId)] ++ r.dimensions.items ++
  [("confidence", .str r.confidence.value), ("provenance_source", .str r.provenanceSource),
    ("observed_at", optionText r.observedAt), ("stale", .bool r.stale)]

/-- `locality_record_from_payload`. -/
def restore : PyValue → Option LocalityRecord
  | .dict members => do
      let subjectRef ← readText members "subject_ref"
      let subjectRole ← (readText members "subject_role").bind LocalitySubjectRole.ofValue
      let tenantId ← readText members "tenant_id"
      let dimensions ← LocalityDimensions.restore members
      let confidence ← (readTextOr members "confidence" "UNKNOWN").bind LocalityConfidence.ofValue
      let provenanceSource ← readTextOr members "provenance_source" "UNKNOWN"
      let observedAt ← readOptionText members "observed_at"
      let stale ← readBoolOr members "stale" false
      if h : localityAccepted subjectRef tenantId provenanceSource confidence dimensions = true then
        some ⟨subjectRef, subjectRole, tenantId, dimensions, confidence, provenanceSource, observedAt,
          stale, h⟩
      else none
  | _ => none

end LocalityRecord

/-! ## Ownership -/

/-- `OwnershipState`. -/
inductive OwnershipState where
  | active
  | released
  | transferred
  | fenced
  deriving DecidableEq

namespace OwnershipState

/-- The value of a state. -/
def value : OwnershipState → String
  | .active => "ACTIVE"
  | .released => "RELEASED"
  | .transferred => "TRANSFERRED"
  | .fenced => "FENCED"

/-- `OwnershipState(text)`. -/
def ofValue (text : String) : Option OwnershipState :=
  [active, released, transferred, fenced].find? fun s => s.value = text

theorem ofValue_value (s : OwnershipState) : ofValue s.value = some s := by
  cases s <;> decide

end OwnershipState

/-- `OwnershipRecord`. -/
structure OwnershipRecord where
  ownershipKey : String
  tenantId : String
  workspaceId : String
  projectId : String
  migrationId : String
  planId : String
  planFingerprint : String
  executionIdentitySealFingerprint : String
  executionId : String
  placementId : String
  assignmentId : String
  siteId : String
  workerId : String
  correlationId : String
  actorId : Option String
  leaseId : String
  fencingGeneration : ℤ
  acquiredAt : String
  expiresAt : String
  state : OwnershipState
  deriving DecidableEq

namespace OwnershipRecord

/-- The items of `ownership_record_to_payload`. -/
def items (r : OwnershipRecord) : List (String × PyInput) :=
  [("ownership_key", .str r.ownershipKey), ("tenant_id", .str r.tenantId),
    ("workspace_id", .str r.workspaceId), ("project_id", .str r.projectId),
    ("migration_id", .str r.migrationId), ("plan_id", .str r.planId),
    ("plan_fingerprint", .str r.planFingerprint),
    ("execution_identity_seal_fingerprint", .str r.executionIdentitySealFingerprint),
    ("execution_id", .str r.executionId), ("placement_id", .str r.placementId),
    ("assignment_id", .str r.assignmentId), ("site_id", .str r.siteId),
    ("worker_id", .str r.workerId), ("correlation_id", .str r.correlationId),
    ("actor_id", optionText r.actorId), ("lease_id", .str r.leaseId),
    ("fencing_generation", .int r.fencingGeneration), ("acquired_at", .str r.acquiredAt),
    ("expires_at", .str r.expiresAt), ("state", .str r.state.value)]

/-- `ownership_record_from_payload`. -/
def restore : PyValue → Option OwnershipRecord
  | .dict members => do
      let ownershipKey ← readText members "ownership_key"
      let tenantId ← readText members "tenant_id"
      let workspaceId ← readText members "workspace_id"
      let projectId ← readText members "project_id"
      let migrationId ← readText members "migration_id"
      let planId ← readText members "plan_id"
      let planFingerprint ← readText members "plan_fingerprint"
      let sealFingerprint ← readText members "execution_identity_seal_fingerprint"
      let executionId ← readText members "execution_id"
      let placementId ← readText members "placement_id"
      let assignmentId ← readText members "assignment_id"
      let siteId ← readText members "site_id"
      let workerId ← readText members "worker_id"
      let correlationId ← readText members "correlation_id"
      let actorId ← readOptionText members "actor_id"
      let leaseId ← readText members "lease_id"
      let fencingGeneration ← readIntOr members "fencing_generation" none
      let acquiredAt ← readText members "acquired_at"
      let expiresAt ← readText members "expires_at"
      let state ← (readTextOr members "state" "ACTIVE").bind OwnershipState.ofValue
      some ⟨ownershipKey, tenantId, workspaceId, projectId, migrationId, planId, planFingerprint,
        sealFingerprint, executionId, placementId, assignmentId, siteId, workerId, correlationId, actorId, leaseId,
        fencingGeneration, acquiredAt, expiresAt, state⟩
  | _ => none

end OwnershipRecord

/-! ## What is read of a payload -/

section Members

variable {items : List (String × PyInput)} {members : List (String × PyValue)}

theorem readText_eq (h : Members items members) (key s : String)
    (hkey : items.lookup key = some (.str s)) :
    readText members key = some s := by
  obtain ⟨u, hu, hlookup⟩ := h.get key _ hkey
  cases hu
  rw [readText, hlookup]

theorem readTextOr_eq (h : Members items members) (key s : String)
    (hkey : items.lookup key = some (.str s)) (default : String) :
    readTextOr members key default = some s := by
  obtain ⟨u, hu, hlookup⟩ := h.get key _ hkey
  cases hu
  rw [readTextOr, hlookup]

theorem readOptionText_eq (h : Members items members) (key : String) (text : Option String)
    (hkey : items.lookup key = some (optionText text)) : readOptionText members key = some text := by
  obtain ⟨u, hu, hlookup⟩ := h.get key _ hkey
  cases text <;> cases hu <;> rw [readOptionText, hlookup]

theorem readIntOr_eq (h : Members items members) (key : String) (z : ℤ)
    (hkey : items.lookup key = some (.int z))
    (default : Option ℤ) : readIntOr members key default = some z := by
  obtain ⟨u, hu, hlookup⟩ := h.get key _ hkey
  cases hu
  rw [readIntOr, hlookup]

theorem readOptionInt_eq (h : Members items members) (key : String) (z : Option ℤ)
    (hkey : items.lookup key = some (optionInt z)) : readOptionInt members key = some z := by
  obtain ⟨u, hu, hlookup⟩ := h.get key _ hkey
  cases z <;> cases hu <;> rw [readOptionInt, hlookup]

theorem readBoolOr_eq (h : Members items members) (key : String) (b : Bool)
    (hkey : items.lookup key = some (.bool b))
    (default : Bool) : readBoolOr members key default = some b := by
  obtain ⟨u, hu, hlookup⟩ := h.get key _ hkey
  cases hu
  rw [readBoolOr, hlookup]

theorem readOptionNumber_eq (h : Members items members) (key : String)
    (number : Option CapacityNumber)
    (hkey : items.lookup key = some (optionNumber number)) :
    readOptionNumber members key = some number := by
  obtain ⟨u, hu, hlookup⟩ := h.get key _ hkey
  rcases number with - | ⟨z | ⟨x, hx⟩⟩
  · cases hu
    rw [readOptionNumber, hlookup]
  · cases hu
    rw [readOptionNumber, hlookup]
  · cases hu
    rw [readOptionNumber, hlookup]
    exact dif_pos hx

end Members

/-! ## Payloads are values -/

theorem isInput_optionInt (z : Option ℤ) : IsInput (optionInt z) := by
  cases z <;> exact trivial

theorem isInput_optionNumber (number : Option CapacityNumber) : IsInput (optionNumber number) := by
  rcases number with - | ⟨z | ⟨x, hx⟩⟩
  · exact trivial
  · exact trivial
  · exact hx

theorem writtenInOrder_optionInt (z : Option ℤ) : WrittenInOrder (optionInt z) := by
  cases z with
  | none => exact writtenInOrder_none
  | some z => exact writtenInOrder_int z

theorem writtenInOrder_optionNumber (number : Option CapacityNumber) :
    WrittenInOrder (optionNumber number) := by
  rcases number with - | ⟨z | ⟨x, hx⟩⟩
  · exact writtenInOrder_none
  · exact writtenInOrder_int z
  · rintro _ ⟨⟩
    exact trivial

/-- What may be stored: a value whose text is in the order of the keys. -/
def Storable (items : List (String × PyInput)) : Prop :=
  IsInput (textDict items) ∧ WrittenInOrder (textDict items)

theorem storable_of_items {items : List (String × PyInput)} (hnodup : (items.map Prod.fst).Nodup)
    (h : ∀ item ∈ items, IsInput item.2 ∧ WrittenInOrder item.2) : Storable items :=
  ⟨isInput_textDict hnodup fun item hitem => (h item hitem).1,
    writtenInOrder_textDict fun item hitem => (h item hitem).2⟩

theorem storable_str (s : String) : IsInput (.str s) ∧ WrittenInOrder (.str s) :=
  ⟨trivial, writtenInOrder_str s⟩

theorem storable_optionText (text : Option String) :
    IsInput (optionText text) ∧ WrittenInOrder (optionText text) :=
  ⟨isInput_optionText text, writtenInOrder_optionText text⟩

theorem storable_optionInt (z : Option ℤ) : IsInput (optionInt z) ∧ WrittenInOrder (optionInt z) :=
  ⟨isInput_optionInt z, writtenInOrder_optionInt z⟩

theorem storable_optionNumber (number : Option CapacityNumber) :
    IsInput (optionNumber number) ∧ WrittenInOrder (optionNumber number) :=
  ⟨isInput_optionNumber number, writtenInOrder_optionNumber number⟩

theorem storable_int (z : ℤ) : IsInput (.int z) ∧ WrittenInOrder (.int z) :=
  ⟨trivial, writtenInOrder_int z⟩

theorem storable_bool (b : Bool) : IsInput (.bool b) ∧ WrittenInOrder (.bool b) :=
  ⟨trivial, writtenInOrder_bool b⟩

theorem storable_texts (texts : List String) :
    IsInput (.list (texts.map .str)) ∧ WrittenInOrder (.list (texts.map .str)) := by
  have hall : ∀ v ∈ texts.map PyInput.str, IsInput v ∧ WrittenInOrder v := by
    intro v hv
    obtain ⟨s, -, rfl⟩ := List.mem_map.mp hv
    exact storable_str s
  exact ⟨isInput_list fun v hv => (hall v hv).1, writtenInOrder_list fun v hv => (hall v hv).2⟩

theorem storable_capacity (capacity : Option WorkerCapacity) :
    IsInput (capacityPayload capacity) ∧ WrittenInOrder (capacityPayload capacity) := by
  cases capacity with
  | none => exact ⟨trivial, writtenInOrder_none⟩
  | some c =>
    refine storable_of_items (by simp [WorkerCapacity.items]) ?_
    simp only [WorkerCapacity.items, List.forall_mem_cons]
    exact ⟨storable_optionNumber _, storable_optionInt _, storable_optionInt _, storable_optionInt _,
      storable_optionNumber _, storable_str _, List.forall_mem_nil _⟩

theorem WorkerNode.storable (w : WorkerNode) : Storable w.items := by
  refine storable_of_items (by simp [WorkerNode.items]) ?_
  simp only [WorkerNode.items, List.forall_mem_cons]
  refine ⟨storable_str _, storable_str _, storable_str _, storable_str _, storable_texts _,
    storable_str _, storable_capacity _, storable_str _, storable_int _, storable_optionText _,
    storable_optionText _, ?_, List.forall_mem_nil _⟩
  refine storable_of_items ?_ fun item hitem => ?_
  · rw [List.map_map]
    have hnodup : (w.labels.map Prod.fst).Nodup :=
      (List.pairwise_map.mpr w.labelsInOrder).imp fun h => ne_of_lt h
    exact hnodup
  · obtain ⟨label, -, rfl⟩ := List.mem_map.mp hitem
    exact storable_str _

theorem LocalityRecord.storable (r : LocalityRecord) : Storable r.items := by
  refine storable_of_items (by simp [LocalityRecord.items, LocalityDimensions.items]) ?_
  simp only [LocalityRecord.items, LocalityDimensions.items, List.cons_append, List.nil_append,
    List.forall_mem_cons]
  exact ⟨storable_str _, storable_str _, storable_str _, storable_optionText _, storable_optionText _,
    storable_optionText _, storable_optionText _, storable_optionText _, storable_optionText _,
    storable_optionText _, storable_optionText _, storable_optionText _, storable_optionText _,
    storable_optionText _, storable_str _, storable_str _, storable_optionText _, storable_bool _,
    List.forall_mem_nil _⟩

theorem OwnershipRecord.storable (r : OwnershipRecord) : Storable r.items := by
  refine storable_of_items (by simp [OwnershipRecord.items]) ?_
  simp only [OwnershipRecord.items, List.forall_mem_cons]
  exact ⟨storable_str _, storable_str _, storable_str _, storable_str _, storable_str _,
    storable_str _, storable_str _, storable_str _, storable_str _, storable_str _, storable_str _,
    storable_str _, storable_str _, storable_str _, storable_optionText _, storable_str _,
    storable_int _, storable_str _, storable_str _, storable_str _, List.forall_mem_nil _⟩

/-! ## Records are restored -/

theorem textsOf_map (texts : List String) : textsOf (texts.map .str) = some texts := by
  induction texts with
  | nil => rfl
  | cons s texts ih => rw [List.map_cons, textsOf, ih, Option.map_some]

theorem textItemsOf_map (items : List (String × String)) :
    textItemsOf (items.map fun item => (item.1, .str item.2)) = some items := by
  induction items with
  | nil => rfl
  | cons item items ih => rw [List.map_cons, textItemsOf, ih, Option.map_some]

theorem ordered_texts (texts : List String) :
    ordered (.list (texts.map .str)) = .ok (.list (texts.map .str)) := by
  refine (ordered_list_eq_ok_iff _ _).mpr ⟨_, ?_, rfl⟩
  induction texts with
  | nil => rfl
  | cons s texts ih =>
    rw [List.map_cons, orderedElements, ih]
    rfl

theorem ordered_labels {labels : List (String × String)} (h : labels.Pairwise fun a b => a.1 < b.1) :
    ordered (textDict (labels.map fun label => (label.1, .str label.2))) =
      .ok (.dict (labels.map fun label => (label.1, .str label.2))) := by
  have hitems : orderedItems ((labels.map fun label => (label.1, PyInput.str label.2)).map fun item =>
      (PyKey.str item.1, item.2)) =
      .ok (labels.map fun label => (PyKey.str label.1, PyValue.str label.2)) := by
    clear h
    induction labels with
    | nil => rfl
    | cons label labels ih =>
      rw [List.map_cons, List.map_cons, orderedItems, ih]
      rfl
  have hsorted : sortItems (labels.map fun label => (PyKey.str label.1, PyValue.str label.2)) =
      labels.map fun label => (PyKey.str label.1, PyValue.str label.2) := by
    refine List.Pairwise.insertionSort_eq ?_
    refine List.pairwise_map.mpr (h.imp fun hlt => ?_)
    exact decide_eq_true hlt.le
  refine (ordered_dict_eq_ok_iff _ _).mpr ⟨_, hitems, ?_, ?_⟩
  · rw [List.map_map, comparable, Bool.or_eq_true, Bool.or_eq_true]
    refine .inl (.inr (List.all_eq_true.mpr fun key hkey => ?_))
    obtain ⟨label, -, rfl⟩ := List.mem_map.mp hkey
    rfl
  · rw [hsorted, textItems, List.map_map]
    rfl

theorem restoreCapacity_payload (capacity : Option WorkerCapacity) {v : PyValue}
    (h : ordered (capacityPayload capacity) = .ok v) : restoreCapacity v = some capacity := by
  rcases capacity with - | c
  · cases h
    rfl
  · obtain ⟨members, rfl, hm⟩ := members_of_ordered (storable_capacity (some c)).1 h
    have hcpu := readOptionNumber_eq hm "cpu_cores" c.cpuCores rfl
    have hmemory := readOptionInt_eq hm "memory_mb" c.memoryMb rfl
    have hdisk := readOptionInt_eq hm "disk_mb" c.diskMb rfl
    have hslots := readOptionInt_eq hm "concurrency_slots" c.concurrencySlots rfl
    have hthroughput :=
      readOptionNumber_eq hm "throughput_mbps" c.throughputMbps rfl
    have hprovenance := readTextOr_eq hm "provenance" c.provenance rfl ""
    simp only [restoreCapacity, hcpu, hmemory, hdisk, hslots, hthroughput, hprovenance,
      Option.bind_eq_bind, Option.bind_some]
    exact dif_pos c.accepted

/-- **A worker is restored** from what is read of its payload. -/
theorem WorkerNode.restore_payload (w : WorkerNode) {v : PyValue}
    (h : ordered (textDict w.items) = .ok v) : restore v = some w := by
  obtain ⟨members, rfl, hm⟩ := members_of_ordered w.storable.1 h
  have hworker := readText_eq hm "worker_id" w.workerId rfl
  have hsite := readText_eq hm "site_id" w.siteId rfl
  have htenant := readText_eq hm "tenant_id" w.tenantId rfl
  have hversion := readText_eq hm "runtime_version" w.runtimeVersion rfl
  have hcapabilities : readCapabilities members = some w.capabilities := by
    obtain ⟨u, hu, hlookup⟩ := hm.get "capabilities" _ rfl
    rw [ordered_texts] at hu
    cases hu
    rw [readCapabilities, hlookup]
    dsimp only
    rw [textsOf_map, Option.map_some, Finset.sort_toFinset]
  have hprovenance :=
    readTextOr_eq hm "capability_provenance" w.capabilityProvenance rfl "UNKNOWN"
  have hcapacity : restoreCapacity ((members.lookup "capacity").getD .none) = some w.capacity := by
    obtain ⟨u, hu, hlookup⟩ := hm.get "capacity" _ rfl
    rw [hlookup, Option.getD_some]
    exact restoreCapacity_payload w.capacity hu
  have hstate := readTextOr_eq hm "state" w.state.value rfl "IDLE"
  have hepoch := readIntOr_eq hm "fencing_epoch" w.fencingEpoch rfl (some 1)
  have hregistered := readOptionText_eq hm "registered_at" w.registeredAt rfl
  have hheartbeat := readOptionText_eq hm "last_heartbeat_at" w.lastHeartbeatAt rfl
  have hlabels : readLabels members = some w.labels := by
    obtain ⟨u, hu, hlookup⟩ := hm.get "labels" _ rfl
    rw [ordered_labels w.labelsInOrder] at hu
    cases hu
    rw [readLabels, hlookup]
    dsimp only
    rw [textItemsOf_map, Option.map_some]
    exact congrArg some (w.labelsInOrder.imp fun hlt => hlt.le).insertionSort_eq
  simp only [restore, hworker, hsite, htenant, hversion, hcapabilities, hprovenance, hcapacity, hstate,
    hepoch, hregistered, hheartbeat, hlabels, WorkerState.ofValue_value, Option.bind_eq_bind,
    Option.bind_some]
  exact dif_pos ⟨w.labelsInOrder, w.accepted⟩

/-- **A locality is restored** from what is read of its payload. -/
theorem LocalityRecord.restore_payload (r : LocalityRecord) {v : PyValue}
    (h : ordered (textDict r.items) = .ok v) : restore v = some r := by
  obtain ⟨members, rfl, hm⟩ := members_of_ordered r.storable.1 h
  have hsubject := readText_eq hm "subject_ref" r.subjectRef rfl
  have hrole := readText_eq hm "subject_role" r.subjectRole.value rfl
  have htenant := readText_eq hm "tenant_id" r.tenantId rfl
  have hdimensions : LocalityDimensions.restore members = some r.dimensions := by
    simp only [LocalityDimensions.restore,
      readOptionText_eq hm "cloud_provider" r.dimensions.cloudProvider rfl,
      readOptionText_eq hm "country" r.dimensions.country rfl,
      readOptionText_eq hm "jurisdiction" r.dimensions.jurisdiction rfl,
      readOptionText_eq hm "sovereignty_zone" r.dimensions.sovereigntyZone rfl,
      readOptionText_eq hm "region" r.dimensions.region rfl,
      readOptionText_eq hm "availability_zone" r.dimensions.availabilityZone rfl,
      readOptionText_eq hm "datacenter" r.dimensions.datacenter rfl,
      readOptionText_eq hm "network" r.dimensions.network rfl,
      readOptionText_eq hm "kubernetes_cluster" r.dimensions.kubernetesCluster rfl,
      readOptionText_eq hm "execution_site" r.dimensions.executionSite rfl,
      readOptionText_eq hm "storage_location" r.dimensions.storageLocation rfl,
      Option.bind_eq_bind, Option.bind_some]
  have hconfidence := readTextOr_eq hm "confidence" r.confidence.value rfl "UNKNOWN"
  have hprovenance :=
    readTextOr_eq hm "provenance_source" r.provenanceSource rfl "UNKNOWN"
  have hobserved := readOptionText_eq hm "observed_at" r.observedAt rfl
  have hstale := readBoolOr_eq hm "stale" r.stale rfl false
  simp only [restore, hsubject, hrole, htenant, hdimensions, hconfidence, hprovenance, hobserved, hstale,
    LocalitySubjectRole.ofValue_value, LocalityConfidence.ofValue_value, Option.bind_eq_bind,
    Option.bind_some]
  exact dif_pos r.accepted

/-- **An ownership is restored** from what is read of its payload. -/
theorem OwnershipRecord.restore_payload (r : OwnershipRecord) {v : PyValue}
    (h : ordered (textDict r.items) = .ok v) : restore v = some r := by
  obtain ⟨members, rfl, hm⟩ := members_of_ordered r.storable.1 h
  simp only [restore, readText_eq hm "ownership_key" r.ownershipKey rfl,
    readText_eq hm "tenant_id" r.tenantId rfl,
    readText_eq hm "workspace_id" r.workspaceId rfl,
    readText_eq hm "project_id" r.projectId rfl,
    readText_eq hm "migration_id" r.migrationId rfl,
    readText_eq hm "plan_id" r.planId rfl,
    readText_eq hm "plan_fingerprint" r.planFingerprint rfl,
    readText_eq hm "execution_identity_seal_fingerprint" r.executionIdentitySealFingerprint rfl,
    readText_eq hm "execution_id" r.executionId rfl,
    readText_eq hm "placement_id" r.placementId rfl,
    readText_eq hm "assignment_id" r.assignmentId rfl,
    readText_eq hm "site_id" r.siteId rfl,
    readText_eq hm "worker_id" r.workerId rfl,
    readText_eq hm "correlation_id" r.correlationId rfl,
    readOptionText_eq hm "actor_id" r.actorId rfl,
    readText_eq hm "lease_id" r.leaseId rfl,
    readIntOr_eq hm "fencing_generation" r.fencingGeneration rfl none,
    readText_eq hm "acquired_at" r.acquiredAt rfl,
    readText_eq hm "expires_at" r.expiresAt rfl,
    readTextOr_eq hm "state" r.state.value rfl "ACTIVE",
    OwnershipState.ofValue_value, Option.bind_eq_bind, Option.bind_some]

end Fabric

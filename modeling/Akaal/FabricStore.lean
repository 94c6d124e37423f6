/-
# The store of the fabric

`FabricDurabilityStore` of `akaalEngine/fabric/durability.py` keeps each record in a document under its
joined key, and the keys of a namespace in an index document that is read, changed and written again.
The `reconstruct` functions load what the index lists.

* `Refines.putRecord`, `Refines.putIndex`, `Refines.loadIndex`, `Refines.loadListed` : the tables as a
  store of documents;
* `Refines.reconstruct_eq_ok_iff` : the records that are reconstructed.
-/
import Akaal.FabricRecords
import Akaal.StateRecords

open CDC JsonText

namespace Fabric

open Durability

/-! ## Records, identities and keys -/

/-- The namespaces. -/
inductive FabricSpace where
  | worker
  | locality
  | ownership
  deriving DecidableEq

/-- The name of a namespace. -/
def FabricSpace.name : FabricSpace → String
  | .worker => "fabric.worker.v1"
  | .locality => "fabric.locality_record.v1"
  | .ownership => "fabric.ownership_record.v1"

/-- Whose record it is: what the registries keep it under. -/
inductive FabricIdentity where
  | worker (tenantId workerId : String)
  | locality (tenantId subjectRef : String) (subjectRole : LocalitySubjectRole)
  | ownership (ownershipKey : String)
  deriving DecidableEq

/-- A record that is saved. -/
inductive FabricRecord where
  | worker (record : WorkerNode)
  | locality (record : LocalityRecord)
  | ownership (record : OwnershipRecord)

/-- `_INDEX_KEY`. -/
def indexKey : String := "__index__"

/-- `_worker_key`. -/
def workerKey (tenantId workerId : String) : String := tenantId ++ "::" ++ workerId

/-- `_locality_key`. -/
def localityKey (tenantId subjectRef subjectRole : String) : String :=
  tenantId ++ "::" ++ subjectRef ++ "::" ++ subjectRole

namespace FabricIdentity

/-- The namespace of an identity. -/
def space : FabricIdentity → FabricSpace
  | .worker _ _ => .worker
  | .locality _ _ _ => .locality
  | .ownership _ => .ownership

/-- The key of the document of an identity. -/
def key : FabricIdentity → String
  | .worker tenantId workerId => workerKey tenantId workerId
  | .locality tenantId subjectRef subjectRole => localityKey tenantId subjectRef subjectRole.value
  | .ownership ownershipKey => ownershipKey

end FabricIdentity

namespace FabricRecord

/-- The identity of a record. -/
def identity : FabricRecord → FabricIdentity
  | .worker w => .worker w.tenantId w.workerId
  | .locality r => .locality r.tenantId r.subjectRef r.subjectRole
  | .ownership r => .ownership r.ownershipKey

/-- The namespace of a record. -/
def space (r : FabricRecord) : FabricSpace := r.identity.space

/-- The key of a record. -/
def key (r : FabricRecord) : String := r.identity.key

/-- The items of the payload of a record. -/
def items : FabricRecord → List (String × PyInput)
  | .worker w => w.items
  | .locality r => r.items
  | .ownership r => r.items

/-- A record from what is read of a payload. -/
def restore (space : FabricSpace) (payload : PyValue) : Option FabricRecord :=
  match space with
  | .worker => (WorkerNode.restore payload).map .worker
  | .locality => (LocalityRecord.restore payload).map .locality
  | .ownership => (OwnershipRecord.restore payload).map .ownership

theorem storable : ∀ r : FabricRecord, Storable r.items
  | .worker w => w.storable
  | .locality r => r.storable
  | .ownership r => r.storable

theorem restore_items (r : FabricRecord) {v : PyValue} (h : ordered (textDict r.items) = .ok v) :
    restore r.space v = some r := by
  cases r with
  | worker w => exact congrArg (Option.map FabricRecord.worker) (w.restore_payload h)
  | locality r => exact congrArg (Option.map FabricRecord.locality) (r.restore_payload h)
  | ownership r => exact congrArg (Option.map FabricRecord.ownership) (r.restore_payload h)

end FabricRecord

/-! ## The store -/

/-- Why the store raises. -/
inductive FabricError where
  | state (error : StateError)
  | corrupt
  | notFound
  | notUnpacked

/-- The payload of some items that may be stored. -/
def payloadOf (items : List (String × PyInput)) (h : Storable items) : StatePayload where
  items := items.map fun item : String × PyInput => (.str item.1, item.2)
  isInput := h.1

/-- The items of an index document. -/
def indexItems (ids : List String) : List (String × PyInput) := [("ids", .list (ids.map .str))]

theorem storable_indexItems (ids : List String) : Storable (indexItems ids) :=
  storable_of_items (List.nodup_singleton _)
    (List.forall_mem_cons.mpr ⟨storable_texts ids, List.forall_mem_nil _⟩)

/-- The ids of what is read of an index document. -/
def indexIds : PyValue → Option (List String)
  | .dict members =>
    match members.lookup "ids" with
    | none => some []
    | some (.list vs) => textsOf vs
    | _ => none
  | _ => none

/-- A key at its first separator. -/
def splitOnce (key : String) : Option (String × String) :=
  match splitAtFirst "::".toList key.toList with
  | (before, some after) => some (String.ofList before, String.ofList after)
  | (_, none) => none

section Operations

variable (rt : DigestRuntime) (t : StateTable)

/-- The document of a record is written. -/
def putRecord (r : FabricRecord) (now : String) (fits : Bool) : Except StateError (ℤ × StateTable) :=
  putState rt t ⟨r.key, r.space.name, payloadOf r.items r.storable, 1⟩ now fits

/-- The index document of a namespace is written. -/
def putIndex (space : FabricSpace) (ids : List String) (now : String) (fits : Bool) :
    Except StateError (ℤ × StateTable) :=
  putState rt t ⟨indexKey, space.name, payloadOf (indexItems ids) (storable_indexItems ids), 1⟩ now fits

/-- `_load_index`. -/
def loadIndex (space : FabricSpace) : Except FabricError (List String) :=
  match getState rt t indexKey space.name with
  | .error e => .error (.state e)
  | .ok none => .ok []
  | .ok (some record) =>
    match indexIds record.payload with
    | none => .error .corrupt
    | some ids => .ok ids

/-- `_add_to_index`. -/
def addToIndex (space : FabricSpace) (entityId now : String) (fits : Bool) :
    Except FabricError StateTable :=
  match loadIndex rt t space with
  | .error e => .error e
  | .ok ids =>
    if entityId ∈ ids then .ok t
    else
      match putIndex rt t space (ids ++ [entityId]) now fits with
      | .error e => .error (.state e)
      | .ok (_, t') => .ok t'

/-- `save_worker`, `save_locality_record` and `save_ownership_record`: whether an exception is raised,
and the tables. -/
def saveRecord (r : FabricRecord) (now : String) (fits fitsIndex : Bool) :
    Option FabricError × StateTable :=
  match putRecord rt t r now fits with
  | .error e => (some (.state e), t)
  | .ok (_, t') =>
    match addToIndex rt t' r.space r.key now fitsIndex with
    | .error e => (some e, t')
    | .ok t'' => (none, t'')

/-- The record of a document. -/
def loadKey (space : FabricSpace) (key : String) : Except FabricError FabricRecord :=
  match getState rt t key space.name with
  | .error _ => .error .corrupt
  | .ok none => .error .notFound
  | .ok (some record) =>
    match FabricRecord.restore space record.payload with
    | none => .error .corrupt
    | some r => .ok r

/-- The record of a key that the index lists: the key is split, and joined again to load it. -/
def loadListed (space : FabricSpace) (key : String) : Except FabricError FabricRecord :=
  match space with
  | .worker =>
    match splitOnce key with
    | none => .error .notUnpacked
    | some (tenantId, workerId) => loadKey rt t .worker (workerKey tenantId workerId)
  | .locality =>
    match splitOnce key with
    | none => .error .notUnpacked
    | some (tenantId, rest) =>
      match splitOnce rest with
      | none => .error .notUnpacked
      | some (subjectRef, subjectRole) =>
        loadKey rt t .locality (localityKey tenantId subjectRef subjectRole)
  | .ownership => loadKey rt t .ownership key

/-- The records of the keys, up to the first that cannot be loaded. -/
def loadAll (space : FabricSpace) : List String → Except FabricError (List FabricRecord)
  | [] => .ok []
  | key :: keys =>
    match loadListed rt t space key with
    | .error e => .error e
    | .ok r =>
      match loadAll space keys with
      | .error e => .error e
      | .ok rs => .ok (r :: rs)

/-- The records that the `reconstruct` function of a namespace registers, in their order. -/
def reconstruct (space : FabricSpace) : Except FabricError (List FabricRecord) :=
  match loadIndex rt t space with
  | .error _ => .error .corrupt
  | .ok ids => loadAll rt t space ids

end Operations

/-! ## Keys -/

theorem splitAtFirst_some {separator text before after : List Char}
    (h : splitAtFirst separator text = (before, some after)) : before ++ separator ++ after = text := by
  induction text generalizing before with
  | nil => cases h
  | cons c rest ih =>
    rw [splitAtFirst] at h
    split_ifs at h with hprefix
    · cases h
      rw [List.nil_append]
      exact List.prefix_append_drop (List.isPrefixOf_iff_prefix.mp hprefix) |>.symm
    · obtain ⟨rfl, hafter⟩ := Prod.mk.inj h
      have hrest := ih (Prod.ext rfl hafter)
      rw [List.cons_append, List.cons_append, hrest]

theorem exists_splitAtFirst (separator before after : List Char) (hne : separator ≠ []) :
    ∃ before' between, splitAtFirst separator (before ++ separator ++ after) =
      (before', some (between ++ after)) := by
  induction before with
  | nil =>
    rcases separator with - | ⟨c, separator⟩
    · exact absurd rfl hne
    · refine ⟨[], [], ?_⟩
      rw [List.nil_append, List.nil_append, List.cons_append, splitAtFirst]
      rw [if_pos (List.isPrefixOf_iff_prefix.mpr ⟨after, List.cons_append⟩), ← List.cons_append,
        List.drop_left]
  | cons c before ih =>
    obtain ⟨before', between, h⟩ := ih
    rw [List.cons_append, List.cons_append, splitAtFirst]
    split_ifs
    · have hle : separator.length ≤ (c :: (before ++ separator)).length := by
        rw [List.length_cons, List.length_append]
        omega
      refine ⟨[], (c :: (before ++ separator)).drop separator.length, ?_⟩
      rw [← List.cons_append, List.drop_append_of_le_length hle]
    · exact ⟨c :: before', between, by rw [h]⟩

theorem splitOnce_eq_some {key before after : String} (h : splitOnce key = some (before, after)) :
    before ++ "::" ++ after = key := by
  unfold splitOnce at h
  split at h
  · next before' after' hsplit =>
      cases h
      have hkey : before' ++ "::".toList ++ after' = key.toList := splitAtFirst_some hsplit
      refine String.toList_injective ?_
      rw [← hkey, String.toList_append, String.toList_append]
      rw [String.toList_ofList (l := before'), String.toList_ofList (l := after')]
  · cases h

theorem exists_splitOnce (before after : String) :
    ∃ before' between, splitOnce (before ++ "::" ++ after) = some (before', between ++ after) := by
  obtain ⟨before', between, h⟩ :=
    exists_splitAtFirst "::".toList before.toList after.toList (by decide)
  refine ⟨String.ofList before', String.ofList between, ?_⟩
  rw [splitOnce, String.toList_append, String.toList_append, h]
  refine congrArg some (Prod.ext rfl (String.toList_injective ?_))
  rw [String.toList_ofList, String.toList_append, String.toList_ofList]

theorem loadListed_key (rt : DigestRuntime) (t : StateTable) (space : FabricSpace) (key : String) :
    loadListed rt t space key = .error .notUnpacked ∨
      loadListed rt t space key = loadKey rt t space key := by
  cases space with
  | worker =>
    rw [loadListed]
    split
    · exact .inl rfl
    · next tenantId workerId hsplit =>
        rw [workerKey, splitOnce_eq_some hsplit]
        exact .inr rfl
  | locality =>
    rw [loadListed]
    split
    · exact .inl rfl
    · next tenantId rest hsplit =>
        split
        · exact .inl rfl
        · next subjectRef subjectRole hrest =>
            have hkey : localityKey tenantId subjectRef subjectRole = key := by
              rw [localityKey, ← splitOnce_eq_some hsplit, ← splitOnce_eq_some hrest]
              simp only [String.append_assoc]
            rw [hkey]
            exact .inr rfl
  | ownership => exact .inr rfl

/-- **The key of a record is loaded as it is**, wherever the separators stand. -/
theorem loadListed_identity (rt : DigestRuntime) (t : StateTable) (i : FabricIdentity) :
    loadListed rt t i.space i.key = loadKey rt t i.space i.key := by
  cases i with
  | worker tenantId workerId =>
    obtain ⟨before, between, hsplit⟩ := exists_splitOnce tenantId workerId
    have hkey := splitOnce_eq_some hsplit
    rw [FabricIdentity.space, FabricIdentity.key, workerKey, loadListed, hsplit]
    dsimp only
    rw [workerKey, hkey]
  | locality tenantId subjectRef subjectRole =>
    obtain ⟨before, between, hsplit⟩ :=
      exists_splitOnce tenantId (subjectRef ++ "::" ++ subjectRole.value)
    obtain ⟨before', between', hrest⟩ :=
      exists_splitOnce (between ++ subjectRef) subjectRole.value
    have hassoc : between ++ (subjectRef ++ "::" ++ subjectRole.value) =
        between ++ subjectRef ++ "::" ++ subjectRole.value := by
      simp only [String.append_assoc]
    rw [hassoc] at hsplit
    have hkey := splitOnce_eq_some hsplit
    rw [← splitOnce_eq_some hrest] at hkey
    have hlocality : localityKey tenantId subjectRef subjectRole.value =
        tenantId ++ "::" ++ (subjectRef ++ "::" ++ subjectRole.value) := by
      simp only [localityKey, String.append_assoc]
    rw [FabricIdentity.space, FabricIdentity.key, hlocality, loadListed, hsplit]
    dsimp only
    rw [hrest]
    dsimp only
    rw [← hkey, localityKey]
    simp only [String.append_assoc]
  | ownership ownershipKey => rfl

/-! ## Related lists -/

theorem exists_forall₂_of_forall_mem {α β : Type*} {R : α → β → Prop} {l : List α}
    (h : ∀ a ∈ l, ∃ b, R a b) : ∃ l', List.Forall₂ R l l' := by
  induction l with
  | nil => exact ⟨[], .nil⟩
  | cons a l ih =>
    obtain ⟨⟨b, hb⟩, hl⟩ := List.forall_mem_cons.mp h
    obtain ⟨l', hl'⟩ := ih hl
    exact ⟨b :: l', .cons hb hl'⟩

/-! ## The tables as a store of documents -/

/-- What a document holds: a record, or the keys of a namespace. -/
inductive FabricDocument where
  | record (r : FabricRecord)
  | index (ids : List String)

namespace FabricDocument

/-- The items of a document. -/
def items : FabricDocument → List (String × PyInput)
  | .record r => r.items
  | .index ids => indexItems ids

theorem storable : ∀ d : FabricDocument, Storable d.items
  | .record r => r.storable
  | .index ids => storable_indexItems ids

/-- The ids that `_load_index` finds in a document: none in that of a record. -/
def ids : FabricDocument → List String
  | .record _ => []
  | .index ids => ids

end FabricDocument

/-- The documents of the namespaces, by their keys. -/
abbrev FabricDocuments := FabricSpace → String → Option FabricDocument

namespace FabricDocuments

/-- No documents. -/
def empty : FabricDocuments := fun _ _ => none

/-- The documents after one is put under a key. -/
def put (docs : FabricDocuments) (space : FabricSpace) (key : String) (d : FabricDocument) :
    FabricDocuments :=
  fun space' key' => if space' = space ∧ key' = key then some d else docs space' key'

/-- The keys that are listed in a namespace. -/
def listed (docs : FabricDocuments) (space : FabricSpace) : List String :=
  (docs space indexKey).elim [] FabricDocument.ids

variable {docs : FabricDocuments} {space space' : FabricSpace} {key key' : String} {d : FabricDocument}

@[simp] theorem put_self : docs.put space key d space key = some d := if_pos ⟨rfl, rfl⟩

theorem put_of_ne (h : ¬ (space' = space ∧ key' = key)) :
    docs.put space key d space' key' = docs space' key' := if_neg h

end FabricDocuments

/-- The row of a document. -/
structure RowOf (rt : DigestRuntime) (row : StateRow) (d : FabricDocument) : Prop where
  version : row.stateSchemaVersion ≤ currentEngineSchemaVersion
  text : ∃ w, ordered (textDict d.items) = .ok w ∧ loads row.payloadJson = some w ∧
    verifyDictChecksum rt w row.checksum = .ok ()

/-- The tables hold the documents, each under its key. -/
def Refines (rt : DigestRuntime) (t : StateTable) (docs : FabricDocuments) : Prop :=
  ∀ space key, match docs space key with
    | none => t space.name key = none
    | some d => ∃ row, t space.name key = some row ∧ RowOf rt row d

theorem FabricSpace.name_injective : Function.Injective FabricSpace.name := by
  intro space space' h
  cases space <;> cases space' <;> first | rfl | exact absurd h (by decide)

theorem lookup_eq_none_of_ordered {items : List (String × PyInput)} {members : List (String × PyValue)}
    {key : String} (h : ordered (textDict items) = .ok (.dict members))
    (hkey : key ∉ items.map Prod.fst) : members.lookup key = none := by
  obtain ⟨out, hout, -, hmembers⟩ := (ordered_dict_eq_ok_iff _ _).mp h
  obtain rfl := PyValue.dict.inj hmembers
  rw [List.lookup_eq_none_iff]
  intro member hmember
  obtain ⟨o, ho, rfl⟩ := mem_textItems hmember
  have hfst : o.1 ∈ out.map Prod.fst := List.mem_map_of_mem ho
  rw [keys_of_orderedItems hout, List.map_map] at hfst
  obtain ⟨item, hitem, hitemkey⟩ := List.mem_map.mp hfst
  have htext : o.1.text = item.1 := by
    rw [← hitemkey]
    rfl
  refine bne_iff_ne.mpr fun heq => hkey ?_
  rw [heq, htext]
  exact List.mem_map_of_mem hitem

theorem ordered_indexItems (ids : List String) :
    ordered (textDict (indexItems ids)) = .ok (.dict [("ids", .list (ids.map .str))]) := by
  refine (ordered_dict_eq_ok_iff _ _).mpr ⟨[(.str "ids", .list (ids.map .str))], ?_, ?_, rfl⟩
  · change orderedItems [(PyKey.str "ids", PyInput.list (ids.map .str))] = _
    rw [orderedItems, ordered_texts]
    rfl
  · rfl

theorem ids_not_mem_items (r : FabricRecord) : "ids" ∉ r.items.map Prod.fst := by
  cases r with
  | worker w => simp [FabricRecord.items, WorkerNode.items]
  | locality r => simp [FabricRecord.items, LocalityRecord.items, LocalityDimensions.items]
  | ownership r => simp [FabricRecord.items, OwnershipRecord.items]

theorem indexIds_document {d : FabricDocument} {v : PyValue}
    (h : ordered (textDict d.items) = .ok v) : indexIds v = some d.ids := by
  cases d with
  | record r =>
    obtain ⟨members, rfl, -⟩ := members_of_ordered r.storable.1 h
    rw [indexIds, lookup_eq_none_of_ordered h (ids_not_mem_items r)]
    rfl
  | index ids =>
    obtain rfl := Except.ok.inj ((ordered_indexItems ids).symm.trans h)
    exact textsOf_map ids

theorem restore_index (space : FabricSpace) {ids : List String} {v : PyValue}
    (h : ordered (textDict (indexItems ids)) = .ok v) : FabricRecord.restore space v = none := by
  obtain rfl := Except.ok.inj ((ordered_indexItems ids).symm.trans h)
  cases space <;> rfl

section Refinement

variable {rt : DigestRuntime} {t t' : StateTable} {docs : FabricDocuments} {space : FabricSpace}
  {key : String}

theorem refines_empty (rt : DigestRuntime) : Refines rt .empty .empty := fun _ _ => rfl

variable {fits : Bool} {n : ℤ} {now : String} {r : FabricRecord}

theorem Refines.putState (h : Refines rt t docs) {d : FabricDocument}
    (hput : Durability.putState rt t ⟨key, space.name, payloadOf d.items d.storable, 1⟩ now fits =
      .ok (n, t')) : Refines rt t' (docs.put space key d) := by
  have hwrites := (putState_writes hput).2
  intro space' key'
  by_cases hself : space' = space ∧ key' = key
  · obtain ⟨rfl, rfl⟩ := hself
    rw [FabricDocuments.put_self]
    obtain ⟨text, schemaVersion, createdAt, updatedAt, hdumps, rfl, hversion⟩ := hwrites.row
    refine ⟨_, StateStore.updateAt_self _ _ _ _, ?_, ?_⟩
    · refine hversion.trans (max_le le_rfl ?_)
      have hold := h space' key'
      split at hold
      · rw [hold]
        exact le_rfl
      · obtain ⟨row, hrow, hof⟩ := hold
        rw [hrow]
        exact hof.version
    · obtain ⟨w, hw, -, -, hloads⟩ := loads_dumpsSorted d.storable.1 hdumps
      obtain ⟨v, hv, hchecksum⟩ := JournalTables.reproduced_of_inTextOrder rt d.storable.1 hdumps hw
        (d.storable.2 w hw)
      obtain rfl := Option.some.inj (hloads.symm.trans hv)
      refine ⟨w, hw, hloads, ?_⟩
      rw [verifyDictChecksum, hchecksum]
      exact if_neg (not_not.mpr rfl)
  · rw [FabricDocuments.put_of_ne hself, hwrites.of_ne fun heq => hself
      ⟨FabricSpace.name_injective heq.1, heq.2⟩]
    exact h space' key'

/-- A record that is put is held under its key. -/
theorem Refines.putRecord (h : Refines rt t docs)
    (hput : Fabric.putRecord rt t r now fits = .ok (n, t')) :
    Refines rt t' (docs.put r.space r.key (.record r)) := h.putState (d := .record r) hput

/-- The ids that are put are held under the key of the index. -/
theorem Refines.putIndex (h : Refines rt t docs) {ids : List String}
    (hput : Fabric.putIndex rt t space ids now fits = .ok (n, t')) :
    Refines rt t' (docs.put space indexKey (.index ids)) := h.putState (d := .index ids) hput

/-- What is read of a document. -/
theorem Refines.getState (h : Refines rt t docs) (space : FabricSpace) (key : String) :
    match docs space key with
    | none => Durability.getState rt t key space.name = .ok none
    | some d => ∃ record, Durability.getState rt t key space.name = .ok (some record) ∧
        ordered (textDict d.items) = .ok record.payload := by
  have hrow := h space key
  split at hrow
  · rw [Durability.getState, hrow]
  · obtain ⟨row, hrow, hversion, w, hw, hloads, hchecksum⟩ := hrow
    rw [Durability.getState, hrow]
    dsimp only
    rw [if_neg (not_lt.mpr hversion), hloads]
    dsimp only
    rw [hchecksum]
    exact ⟨_, rfl, hw⟩

/-- **The ids of the index** are those of the document under its key. -/
theorem Refines.loadIndex (h : Refines rt t docs) (space : FabricSpace) :
    Fabric.loadIndex rt t space = .ok (docs.listed space) := by
  have hread := h.getState space indexKey
  rw [Fabric.loadIndex, FabricDocuments.listed]
  split at hread
  · next hnone => rw [hread, hnone, Option.elim_none]
  · next d hsome =>
      obtain ⟨record, hget, hordered⟩ := hread
      rw [hget, hsome, Option.elim_some]
      dsimp only
      rw [indexIds_document hordered]

theorem Refines.loadKey_record (h : Refines rt t docs)
    (hdoc : docs r.space key = some (.record r)) : loadKey rt t r.space key = .ok r := by
  have hread := h.getState r.space key
  rw [hdoc] at hread
  obtain ⟨record, hget, hordered⟩ := hread
  rw [loadKey, hget]
  dsimp only
  rw [r.restore_items hordered]

theorem Refines.of_loadKey (h : Refines rt t docs) (hload : loadKey rt t space key = .ok r) :
    ∃ r', docs space key = some (.record r') ∧ (r'.space = space → r' = r) := by
  have hread := h.getState space key
  rw [loadKey] at hload
  split at hread
  · rw [hread] at hload
    cases hload
  · next d hdoc =>
      obtain ⟨record, hget, hordered⟩ := hread
      rw [hget] at hload
      dsimp only at hload
      cases d with
      | index ids =>
        rw [restore_index space hordered] at hload
        cases hload
      | record r' =>
        refine ⟨r', hdoc, ?_⟩
        rintro rfl
        rw [r'.restore_items hordered] at hload
        exact Except.ok.inj hload

/-- Records are held in their own namespaces, under their own keys. -/
def FabricDocuments.OwnKeys (docs : FabricDocuments) : Prop :=
  ∀ space key r, docs space key = some (.record r) → r.space = space ∧ r.key = key

theorem ownKeys_empty : FabricDocuments.empty.OwnKeys := by
  intro space key r h
  cases h

/-- A record that is put keeps the records under their keys. -/
theorem FabricDocuments.OwnKeys.putRecord (h : docs.OwnKeys) (r : FabricRecord) :
    (docs.put r.space r.key (.record r)).OwnKeys := by
  intro space key r' hdoc
  by_cases hself : space = r.space ∧ key = r.key
  · obtain ⟨rfl, rfl⟩ := hself
    rw [FabricDocuments.put_self] at hdoc
    cases hdoc
    exact ⟨rfl, rfl⟩
  · rw [FabricDocuments.put_of_ne hself] at hdoc
    exact h space key r' hdoc

/-- An index that is put keeps the records under their keys. -/
theorem FabricDocuments.OwnKeys.putIndex (h : docs.OwnKeys) (space : FabricSpace) (ids : List String) :
    (docs.put space indexKey (.index ids)).OwnKeys := by
  intro space' key r hdoc
  by_cases hself : space' = space ∧ key = indexKey
  · obtain ⟨rfl, rfl⟩ := hself
    rw [FabricDocuments.put_self] at hdoc
    cases hdoc
  · rw [FabricDocuments.put_of_ne hself] at hdoc
    exact h space' key r hdoc

theorem Refines.loadListed_eq_ok_iff (h : Refines rt t docs) (hkeys : docs.OwnKeys) (r : FabricRecord) :
    loadListed rt t space key = .ok r ↔ docs space key = some (.record r) := by
  constructor
  · intro hload
    rcases loadListed_key rt t space key with herror | hkey
    · rw [herror] at hload
      cases hload
    · rw [hkey] at hload
      obtain ⟨r', hdoc, hr⟩ := h.of_loadKey hload
      rw [hdoc, hr (hkeys space key r' hdoc).1]
  · intro hdoc
    obtain ⟨rfl, rfl⟩ := hkeys space key r hdoc
    exact (loadListed_identity rt t r.identity).trans (h.loadKey_record hdoc)

theorem Refines.loadAll_eq_ok_iff (h : Refines rt t docs) (hkeys : docs.OwnKeys) (keys : List String)
    (records : List FabricRecord) : loadAll rt t space keys = .ok records ↔
      List.Forall₂ (fun key r => docs space key = some (.record r)) keys records := by
  induction keys generalizing records with
  | nil =>
    rw [loadAll, List.forall₂_nil_left_iff]
    exact ⟨fun heq => (Except.ok.inj heq).symm, fun heq => congrArg Except.ok heq.symm⟩
  | cons key keys ih =>
    rw [List.forall₂_cons_left_iff, loadAll]
    constructor
    · intro hload
      split at hload
      · cases hload
      · next r hr =>
          split at hload
          · cases hload
          · next rs hrs =>
              cases hload
              exact ⟨r, rs, (h.loadListed_eq_ok_iff hkeys r).mp hr, (ih rs).mp hrs, rfl⟩
    · rintro ⟨r, rs, hr, hrs, rfl⟩
      rw [(h.loadListed_eq_ok_iff hkeys r).mpr hr, (ih rs).mpr hrs]

/-- **The records that are reconstructed** are those of the documents under the listed keys, in their
order, and there are none when one of them is missing. -/
theorem Refines.reconstruct_eq_ok_iff (h : Refines rt t docs) (hkeys : docs.OwnKeys)
    (space : FabricSpace) (records : List FabricRecord) : reconstruct rt t space = .ok records ↔
      List.Forall₂ (fun key r => docs space key = some (.record r)) (docs.listed space) records := by
  rw [reconstruct, h.loadIndex space]
  exact h.loadAll_eq_ok_iff hkeys _ records

/-- The documents after a record is saved. -/
def FabricDocuments.save (docs : FabricDocuments) (r : FabricRecord) : FabricDocuments :=
  let saved := docs.put r.space r.key (.record r)
  if r.key ∈ saved.listed r.space then saved
  else saved.put r.space indexKey (.index (saved.listed r.space ++ [r.key]))

/-- **What a save does**: nothing when it is refused, or the document alone, or the document and its key
in the index. -/
theorem Refines.saveRecord (h : Refines rt t docs) (r : FabricRecord) (now : String)
    (fits fitsIndex : Bool) :
    (∃ e, Fabric.saveRecord rt t r now fits fitsIndex = (some e, t)) ∨
    (∃ e t', Fabric.saveRecord rt t r now fits fitsIndex = (some e, t') ∧
      r.key ∉ (docs.put r.space r.key (.record r)).listed r.space ∧
      Refines rt t' (docs.put r.space r.key (.record r))) ∨
    ∃ t', Fabric.saveRecord rt t r now fits fitsIndex = (none, t') ∧ Refines rt t' (docs.save r) := by
  rw [Fabric.saveRecord]
  cases hput : Fabric.putRecord rt t r now fits with
  | error e => exact .inl ⟨.state e, rfl⟩
  | ok written =>
    obtain ⟨n, t'⟩ := written
    have hrefines := h.putRecord hput
    dsimp only
    rw [addToIndex, hrefines.loadIndex, FabricDocuments.save]
    dsimp only
    by_cases hmem : r.key ∈ (docs.put r.space r.key (.record r)).listed r.space
    · rw [if_pos hmem, if_pos hmem]
      exact .inr (.inr ⟨t', rfl, hrefines⟩)
    · rw [if_neg hmem, if_neg hmem]
      cases hindex : Fabric.putIndex rt t' r.space _ now fitsIndex with
      | error e => exact .inr (.inl ⟨.state e, t', rfl, hmem, hrefines⟩)
      | ok listed =>
        obtain ⟨n', t''⟩ := listed
        exact .inr (.inr ⟨t'', rfl, hrefines.putIndex hindex⟩)

end Refinement

end Fabric

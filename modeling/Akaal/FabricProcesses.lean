/-
# Processes that save fabric records

Several processes call `save_worker`, `save_locality_record` and `save_ownership_record` of
`akaalEngine/fabric/durability.py` on one store.  A save is three steps, between which others save: the
document is put, the index is read, and the index is put with the key when it lacks it.

* `findsSaved_iff` : the runs in which the `reconstruct` functions return exactly the saved records;
* `not_findsSaved_sameKey` : two records whose joined keys are one.
-/
import Akaal.FabricStore

open CDC JsonText TransitionRun

namespace Fabric

open Durability

/-! ## Processes -/

/-- A save that is under way: its record, and the ids it is about to put in the index. -/
structure FabricSave where
  record : FabricRecord
  ids : Option (List String)

/-- The tables, the saves that are under way, the document that was last put under each key, the record
of each identity that was last put, and the identities of the saves that returned. -/
structure FabricRun where
  table : StateTable
  saves : ℕ → Option FabricSave
  documents : FabricDocuments
  latest : FabricIdentity → Option FabricRecord
  saved : List FabricIdentity

namespace FabricRun

/-- Nothing was saved. -/
def empty : FabricRun := ⟨.empty, fun _ => none, .empty, fun _ => none, []⟩

/-- A step of a process. -/
inductive FabricStep where
  | putRecord (process : ℕ) (record : FabricRecord) (now : String) (fits : Bool)
  | readIndex (process : ℕ)
  | putIndex (process : ℕ) (now : String) (fits : Bool)

section Steps

variable (rt : DigestRuntime) (s : FabricRun)

/-- The save of a process. -/
def setSave (process : ℕ) (save : Option FabricSave) : FabricRun :=
  { s with saves := Function.update s.saves process save }

/-- The document of a record is put. -/
def withRecord (t : StateTable) (r : FabricRecord) : FabricRun :=
  { s with
    table := t
    documents := s.documents.put r.space r.key (.record r)
    latest := Function.update s.latest r.identity (some r) }

/-- The document of an index is put. -/
def withIndex (t : StateTable) (space : FabricSpace) (ids : List String) : FabricRun :=
  { s with table := t, documents := s.documents.put space indexKey (.index ids) }

/-- A save returns. -/
def withSaved (i : FabricIdentity) : FabricRun := { s with saved := i :: s.saved }

@[simp] theorem setSave_saves (process : ℕ) (save : Option FabricSave) :
    (s.setSave process save).saves = Function.update s.saves process save := rfl

@[simp] theorem withRecord_documents (t : StateTable) (r : FabricRecord) :
    (s.withRecord t r).documents = s.documents.put r.space r.key (.record r) := rfl

@[simp] theorem withRecord_latest (t : StateTable) (r : FabricRecord) :
    (s.withRecord t r).latest = Function.update s.latest r.identity (some r) := rfl

@[simp] theorem withIndex_documents (t : StateTable) (space : FabricSpace) (ids : List String) :
    (s.withIndex t space ids).documents = s.documents.put space indexKey (.index ids) := rfl

/-- The step of a process; an exception ends its save. -/
def step : FabricStep → Option FabricRun
  | .putRecord p r now fits =>
    match s.saves p with
    | some _ => none
    | none =>
      match putRecord rt s.table r now fits with
      | .error _ => some s
      | .ok (_, t) => some ((s.withRecord t r).setSave p (some ⟨r, none⟩))
  | .readIndex p =>
    match s.saves p with
    | some ⟨r, none⟩ =>
      match loadIndex rt s.table r.space with
      | .error _ => some (s.setSave p none)
      | .ok ids =>
        if r.key ∈ ids then some ((s.withSaved r.identity).setSave p none)
        else some (s.setSave p (some ⟨r, some (ids ++ [r.key])⟩))
    | _ => none
  | .putIndex p now fits =>
    match s.saves p with
    | some ⟨r, some ids⟩ =>
      match putIndex rt s.table r.space ids now fits with
      | .error _ => some (s.setSave p none)
      | .ok (_, t) =>
        some (((s.withIndex t r.space ids).withSaved r.identity).setSave p none)
    | _ => none

end Steps

/-- **The contract.**  The `reconstruct` function of each namespace returns records, each the last that
was put of its identity and each identity once, and among them those of the saves that returned. -/
def Recovered (rt : DigestRuntime) (s : FabricRun) : Prop :=
  ∀ space, ∃ records, reconstruct rt s.table space = .ok records ∧
    (records.map FabricRecord.identity).Nodup ∧
    (∀ r ∈ records, s.latest r.identity = some r) ∧
    ∀ i ∈ s.saved, i.space = space → i ∈ records.map FabricRecord.identity

/-- The document under the key of an identity is that of its record. -/
def Kept (docs : FabricDocuments) (i : FabricIdentity) : Prop :=
  ∃ r, docs i.space i.key = some (.record r) ∧ r.identity = i

/-- When a step leaves the saved records in the store.  A document is not put over that of another saved
identity, nor over the index of saved records; a save returns while its own document is there; and an
index is put only when every id that was added since it was read is in it. -/
def KeepsRecords (rt : DigestRuntime) (s : FabricRun) : FabricStep → Prop
  | .putRecord _ r now fits => (putRecord rt s.table r now fits).toOption.isSome →
      ∀ i ∈ s.saved, i.space = r.space → i ≠ r.identity → i.key ≠ r.key ∧ r.key ≠ indexKey
  | .readIndex p => ∀ r, s.saves p = some ⟨r, none⟩ → r.key ∈ s.documents.listed r.space →
      Kept s.documents r.identity
  | .putIndex p now fits => ∀ r ids, s.saves p = some ⟨r, some ids⟩ →
      (putIndex rt s.table r.space ids now fits).toOption.isSome →
      (∀ id ∈ s.documents.listed r.space, id ∈ ids) ∧ r.key ≠ indexKey ∧ Kept s.documents r.identity

/-! ## What every step keeps -/

/-- The ids are keys of identities that were saved. -/
def KeysOfSaved (s : FabricRun) (space : FabricSpace) (ids : List String) : Prop :=
  ∀ id ∈ ids, ∃ i ∈ s.saved, i.space = space ∧ i.key = id

/-- What every step keeps. -/
structure Consistent (rt : DigestRuntime) (s : FabricRun) : Prop where
  refines : Refines rt s.table s.documents
  ownKeys : s.documents.OwnKeys
  latest : ∀ space key r, s.documents space key = some (.record r) → s.latest r.identity = some r
  index : ∀ space key ids, s.documents space key = some (.index ids) →
    key = indexKey ∧ ids.Nodup ∧ s.KeysOfSaved space ids
  written : ∀ p r ids, s.saves p = some ⟨r, some ids⟩ → ids.Nodup ∧ r.key ∈ ids ∧
    ∀ id ∈ ids, id = r.key ∨ ∃ i ∈ s.saved, i.space = r.space ∧ i.key = id

theorem consistent_empty (rt : DigestRuntime) : Consistent rt empty where
  refines := refines_empty rt
  ownKeys := ownKeys_empty
  latest _ _ _ h := nomatch h
  index _ _ _ h := nomatch h
  written _ _ _ h := nomatch h

section Kept

variable {rt : DigestRuntime} {s s' : FabricRun} {a : FabricStep}

theorem Consistent.listed (hs : Consistent rt s) (space : FabricSpace) :
    (s.documents.listed space).Nodup ∧ s.KeysOfSaved space (s.documents.listed space) := by
  rw [FabricDocuments.listed]
  cases hdoc : s.documents space indexKey with
  | none => exact ⟨List.nodup_nil, List.forall_mem_nil _⟩
  | some d =>
    cases d with
    | record r => exact ⟨List.nodup_nil, List.forall_mem_nil _⟩
    | index ids => exact (hs.index space indexKey ids hdoc).2

/-- **What a step can do.** -/
theorem Consistent.step_cases (hs : Consistent rt s) (h : s.step rt a = some s') :
    (∃ p save, s' = s.setSave p save ∧ KeepsRecords rt s a ∧ ∀ r ids, save = some ⟨r, some ids⟩ →
        ids = s.documents.listed r.space ++ [r.key] ∧ r.key ∉ s.documents.listed r.space) ∨
    (∃ p r now fits n t, a = .putRecord p r now fits ∧ putRecord rt s.table r now fits = .ok (n, t) ∧
      s' = (s.withRecord t r).setSave p (some ⟨r, none⟩)) ∨
    (∃ p r, a = .readIndex p ∧ s.saves p = some ⟨r, none⟩ ∧ r.key ∈ s.documents.listed r.space ∧
      s' = (s.withSaved r.identity).setSave p none) ∨
    ∃ p now fits r ids n t, a = .putIndex p now fits ∧ s.saves p = some ⟨r, some ids⟩ ∧
      putIndex rt s.table r.space ids now fits = .ok (n, t) ∧
      s' = ((s.withIndex t r.space ids).withSaved r.identity).setSave p none := by
  cases a with
  | putRecord p r now fits =>
    rw [step] at h
    split at h
    · cases h
    · next hidle =>
        split at h
        · next e hput =>
            cases h
            refine .inl ⟨p, none, ?_, ?_, fun _ _ hnone => nomatch hnone⟩
            · rw [setSave, ← hidle, Function.update_eq_self]
            · intro hok
              rw [hput] at hok
              cases hok
        · next n t hput =>
            cases h
            exact .inr (.inl ⟨p, r, now, fits, n, t, rfl, hput, rfl⟩)
  | readIndex p =>
    rw [step] at h
    split at h
    · next r hsave =>
        rw [hs.refines.loadIndex] at h
        dsimp only at h
        split_ifs at h with hmem
        · cases h
          exact .inr (.inr (.inl ⟨p, r, rfl, hsave, hmem, rfl⟩))
        · cases h
          refine .inl ⟨p, _, rfl, ?_, ?_⟩
          · intro r' hsave' hmem'
            rw [hsave] at hsave'
            cases hsave'
            exact absurd hmem' hmem
          · rintro r' ids ⟨⟩
            exact ⟨rfl, hmem⟩
    · cases h
  | putIndex p now fits =>
    rw [step] at h
    split at h
    · next r ids hsave =>
        split at h
        · next e hput =>
            cases h
            refine .inl ⟨p, none, rfl, ?_, fun _ _ hnone => nomatch hnone⟩
            intro r' ids' hsave' hok
            rw [hsave] at hsave'
            cases hsave'
            rw [hput] at hok
            cases hok
        · next n t hput =>
            cases h
            exact .inr (.inr (.inr ⟨p, now, fits, r, ids, n, t, rfl, hsave, hput, rfl⟩))
    · cases h

/-- The save of a process may change. -/
theorem Consistent.setSave (hs : Consistent rt s) (p : ℕ) {save : Option FabricSave}
    (hsave : ∀ r ids, save = some ⟨r, some ids⟩ → ids.Nodup ∧ r.key ∈ ids ∧
      ∀ id ∈ ids, id = r.key ∨ ∃ i ∈ s.saved, i.space = r.space ∧ i.key = id) :
    Consistent rt (s.setSave p save) where
  refines := hs.refines
  ownKeys := hs.ownKeys
  latest := hs.latest
  index := hs.index
  written p' r ids h := by
    by_cases hp : p' = p
    · subst hp
      rw [setSave_saves, Function.update_self] at h
      exact hsave r ids h
    · rw [setSave_saves, Function.update_of_ne hp] at h
      exact hs.written p' r ids h

theorem Consistent.withSaved (hs : Consistent rt s) (i : FabricIdentity) :
    Consistent rt (s.withSaved i) where
  refines := hs.refines
  ownKeys := hs.ownKeys
  latest := hs.latest
  index space key ids h := by
    obtain ⟨hkey, hnodup, hkeys⟩ := hs.index space key ids h
    refine ⟨hkey, hnodup, fun id hid => ?_⟩
    obtain ⟨i', hi', hspec⟩ := hkeys id hid
    exact ⟨i', List.mem_cons_of_mem _ hi', hspec⟩
  written p r ids h := by
    obtain ⟨hnodup, hmem, hids⟩ := hs.written p r ids h
    refine ⟨hnodup, hmem, fun id hid => (hids id hid).imp_right ?_⟩
    rintro ⟨i', hi', hspec⟩
    exact ⟨i', List.mem_cons_of_mem _ hi', hspec⟩

/-- A document may be put. -/
theorem Consistent.withRecord (hs : Consistent rt s) {t : StateTable} {r : FabricRecord}
    (ht : Refines rt t (s.documents.put r.space r.key (.record r))) :
    Consistent rt (s.withRecord t r) where
  refines := ht
  ownKeys := hs.ownKeys.putRecord r
  latest space key r' h := by
    rw [withRecord_documents] at h
    rw [withRecord_latest]
    by_cases hself : space = r.space ∧ key = r.key
    · obtain ⟨rfl, rfl⟩ := hself
      rw [FabricDocuments.put_self] at h
      cases h
      exact Function.update_self _ _ _
    · rw [FabricDocuments.put_of_ne hself] at h
      have hne : r'.identity ≠ r.identity := by
        intro heq
        obtain ⟨rfl, rfl⟩ := hs.ownKeys space key r' h
        exact hself ⟨congrArg FabricIdentity.space heq, congrArg FabricIdentity.key heq⟩
      rw [Function.update_of_ne hne]
      exact hs.latest space key r' h
  index space key ids h := by
    rw [withRecord_documents] at h
    by_cases hself : space = r.space ∧ key = r.key
    · obtain ⟨rfl, rfl⟩ := hself
      rw [FabricDocuments.put_self] at h
      cases h
    · rw [FabricDocuments.put_of_ne hself] at h
      exact hs.index space key ids h
  written := hs.written

/-- An index may be put. -/
theorem Consistent.withIndex (hs : Consistent rt s) {t : StateTable} {space : FabricSpace}
    {ids : List String} (ht : Refines rt t (s.documents.put space indexKey (.index ids)))
    (hnodup : ids.Nodup) (hkeys : s.KeysOfSaved space ids) :
    Consistent rt (s.withIndex t space ids) where
  refines := ht
  ownKeys := hs.ownKeys.putIndex space ids
  latest space' key r h := by
    rw [withIndex_documents] at h
    by_cases hself : space' = space ∧ key = indexKey
    · obtain ⟨rfl, rfl⟩ := hself
      rw [FabricDocuments.put_self] at h
      cases h
    · rw [FabricDocuments.put_of_ne hself] at h
      exact hs.latest space' key r h
  index space' key ids' h := by
    rw [withIndex_documents] at h
    by_cases hself : space' = space ∧ key = indexKey
    · obtain ⟨rfl, rfl⟩ := hself
      rw [FabricDocuments.put_self] at h
      cases h
      exact ⟨rfl, hnodup, hkeys⟩
    · rw [FabricDocuments.put_of_ne hself] at h
      exact hs.index space' key ids' h
  written := hs.written

theorem Consistent.keysOfSaved_written (hs : Consistent rt s) {p : ℕ} {r : FabricRecord}
    {ids : List String} (hsave : s.saves p = some ⟨r, some ids⟩) :
    (s.withSaved r.identity).KeysOfSaved r.space ids := by
  intro id hid
  rcases (hs.written p r ids hsave).2.2 id hid with rfl | ⟨i, hi, hspec⟩
  · exact ⟨r.identity, List.mem_cons_self, rfl, rfl⟩
  · exact ⟨i, List.mem_cons_of_mem _ hi, hspec⟩

/-- **Every step keeps it.** -/
theorem Consistent.step (hs : Consistent rt s) (h : s.step rt a = some s') : Consistent rt s' := by
  rcases hs.step_cases h with ⟨p, save, rfl, -, hsave⟩ | ⟨p, r, now, fits, n, t, -, hput, rfl⟩ |
    ⟨p, r, -, hsave, -, rfl⟩ | ⟨p, now, fits, r, ids, n, t, -, hsave, hput, rfl⟩
  · refine hs.setSave p fun r ids heq => ?_
    obtain ⟨rfl, hmem⟩ := hsave r ids heq
    obtain ⟨hnodup, hkeys⟩ := hs.listed r.space
    refine ⟨List.concat_eq_append ▸ hnodup.concat hmem, List.mem_concat_self, ?_⟩
    intro id hid
    rcases List.mem_append.mp hid with hid | hid
    · exact .inr (hkeys id hid)
    · exact .inl (List.mem_singleton.mp hid)
  · exact (hs.withRecord (hs.refines.putRecord hput)).setSave p fun _ _ heq => nomatch heq
  · exact (hs.withSaved r.identity).setSave p fun _ _ heq => nomatch heq
  · have hindex : Consistent rt ((s.withSaved r.identity).withIndex t r.space ids) :=
      (hs.withSaved r.identity).withIndex (hs.refines.putIndex hput) (hs.written p r ids hsave).1
        (hs.keysOfSaved_written hsave)
    exact hindex.setSave p fun _ _ heq => nomatch heq

end Kept

/-! ## When the records are returned -/

/-- The saved identities are listed, and their documents are there. -/
def Intact (s : FabricRun) : Prop :=
  ∀ i ∈ s.saved, i.key ∈ s.documents.listed i.space ∧ Kept s.documents i

section Recovery

variable {rt : DigestRuntime} {s s' : FabricRun} {a : FabricStep}

/-- The records of the listed keys are of identities whose keys these are, one for each. -/
theorem Consistent.map_key_eq (hs : Consistent rt s) {space : FabricSpace} {keys : List String}
    {records : List FabricRecord}
    (h : List.Forall₂ (fun key r => s.documents space key = some (.record r)) keys records) :
    (records.map FabricRecord.identity).map FabricIdentity.key = keys := by
  induction h with
  | nil => rfl
  | cons hdoc _ ih =>
    rw [List.map_cons, List.map_cons, ih]
    exact congrArg (· :: _) (hs.ownKeys space _ _ hdoc).2

/-- **The records are returned** when they are in the store. -/
theorem Consistent.recovered_iff (hs : Consistent rt s) : Recovered rt s ↔ s.Intact := by
  constructor
  · intro h i hi
    obtain ⟨records, hrecords, -, -, hsaved⟩ := h i.space
    rw [hs.refines.reconstruct_eq_ok_iff hs.ownKeys] at hrecords
    obtain ⟨r, hr, rfl⟩ := List.mem_map.mp (hsaved i hi rfl)
    obtain ⟨key, hkey, hdoc⟩ := Traversal.exists_of_forall₂' hrecords hr
    obtain ⟨-, rfl⟩ := hs.ownKeys _ key r hdoc
    exact ⟨hkey, r, hdoc, rfl⟩
  · intro h space
    obtain ⟨hnodup, hkeys⟩ := hs.listed space
    have hall : ∀ key ∈ s.documents.listed space,
        ∃ r, s.documents space key = some (.record r) := by
      intro key hkey
      obtain ⟨i, hi, rfl, rfl⟩ := hkeys key hkey
      obtain ⟨-, r, hdoc, -⟩ := h i hi
      exact ⟨r, hdoc⟩
    obtain ⟨records, hrecords⟩ := exists_forall₂_of_forall_mem hall
    refine ⟨records, (hs.refines.reconstruct_eq_ok_iff hs.ownKeys _ _).mpr hrecords, ?_, ?_, ?_⟩
    · refine List.Nodup.of_map FabricIdentity.key ?_
      rw [hs.map_key_eq hrecords]
      exact hnodup
    · intro r hr
      obtain ⟨key, -, hdoc⟩ := Traversal.exists_of_forall₂' hrecords hr
      exact hs.latest space key r hdoc
    · rintro i hi rfl
      obtain ⟨hlisted, r, hdoc, hr⟩ := h i hi
      obtain ⟨r', hr', hdoc'⟩ := Traversal.exists_of_forall₂ hrecords hlisted
      rw [hdoc] at hdoc'
      cases hdoc'
      exact List.mem_map.mpr ⟨r, hr', hr⟩

theorem ne_indexKey_of_listed {docs : FabricDocuments} {i : FabricIdentity} {key : String}
    (hkey : key ∈ docs.listed i.space) (h : Kept docs i) : i.key ≠ indexKey := by
  intro heq
  obtain ⟨r, hdoc, -⟩ := h
  rw [FabricDocuments.listed, ← heq, hdoc] at hkey
  cases hkey

theorem intact_withRecord_iff (h : s.Intact) (t : StateTable) (r : FabricRecord) :
    (s.withRecord t r).Intact ↔
      ∀ i ∈ s.saved, i.space = r.space → i ≠ r.identity → i.key ≠ r.key ∧ r.key ≠ indexKey := by
  have hsaved : (s.withRecord t r).saved = s.saved := rfl
  constructor
  · intro h' i hi hspace hne
    obtain ⟨hlisted, r', hdoc, hr'⟩ := h' i hi
    rw [withRecord_documents] at hlisted hdoc
    constructor
    · intro hkey
      rw [hspace, hkey, FabricDocuments.put_self] at hdoc
      cases hdoc
      exact hne hr'.symm
    · intro hkey
      rw [FabricDocuments.listed, hspace, hkey, FabricDocuments.put_self] at hlisted
      cases hlisted
  · intro hD i hi
    obtain ⟨hlisted, hkept⟩ := h i hi
    have hindex := ne_indexKey_of_listed hlisted hkept
    have hother : i.space = r.space → r.key ≠ indexKey := by
      intro hspace
      by_cases heq : i = r.identity
      · subst heq
        exact hindex
      · exact (hD i hi hspace heq).2
    constructor
    · rw [withRecord_documents, FabricDocuments.listed,
        FabricDocuments.put_of_ne fun hself => hother hself.1 hself.2.symm]
      exact hlisted
    · by_cases heq : i = r.identity
      · subst heq
        exact ⟨r, FabricDocuments.put_self, rfl⟩
      · obtain ⟨r', hdoc, hr'⟩ := hkept
        refine ⟨r', ?_, hr'⟩
        rw [withRecord_documents,
          FabricDocuments.put_of_ne fun hself => (hD i hi hself.1 heq).1 hself.2]
        exact hdoc

theorem intact_withSaved_iff (h : s.Intact) (i : FabricIdentity) :
    (s.withSaved i).Intact ↔ i.key ∈ s.documents.listed i.space ∧ Kept s.documents i := by
  constructor
  · exact fun h' => h' i List.mem_cons_self
  · intro hi i' hi'
    rcases List.mem_cons.mp hi' with rfl | hi'
    · exact hi
    · exact h i' hi'

/-- An index that is put keeps the saved records precisely when the ids that are listed are in it, and
the record that it is put for is there. -/
theorem intact_withIndex_iff (hs : Consistent rt s) (h : s.Intact) (t : StateTable) {r : FabricRecord}
    {ids : List String} (hmem : r.key ∈ ids) :
    ((s.withIndex t r.space ids).withSaved r.identity).Intact ↔
      (∀ id ∈ s.documents.listed r.space, id ∈ ids) ∧ r.key ≠ indexKey ∧
        Kept s.documents r.identity := by
  have hdocs : ((s.withIndex t r.space ids).withSaved r.identity).documents =
    s.documents.put r.space indexKey (.index ids) := rfl
  have hput : (s.documents.put r.space indexKey (.index ids)).listed r.space = ids := by
    rw [FabricDocuments.listed, FabricDocuments.put_self]
    rfl
  have hown (hindex : r.key ≠ indexKey) :
      s.documents.put r.space indexKey (.index ids) r.space r.key = s.documents r.space r.key :=
    FabricDocuments.put_of_ne fun hself => hindex hself.2
  constructor
  · intro h'
    obtain ⟨-, r', hdoc, hr'⟩ := h' r.identity List.mem_cons_self
    have hindex : r.key ≠ indexKey := by
      intro hkey
      have hself : s.documents.put r.space indexKey (.index ids) r.space r.key = some (.index ids) := by
        rw [hkey, FabricDocuments.put_self]
      cases hself.symm.trans hdoc
    refine ⟨?_, hindex, r', (hown hindex).symm.trans hdoc, hr'⟩
    · intro id hid
      obtain ⟨i, hi, hspace, rfl⟩ := (hs.listed r.space).2 id hid
      have hlisted := (h' i (List.mem_cons_of_mem _ hi)).1
      rw [hdocs, hspace, hput] at hlisted
      exact hlisted
  · rintro ⟨hids, hindex, hkept⟩ i hi
    rw [hdocs]
    rcases List.mem_cons.mp hi with rfl | hi
    · obtain ⟨r', hdoc, hr'⟩ := hkept
      refine ⟨?_, r', (hown hindex).trans hdoc, hr'⟩
      exact hput.symm ▸ hmem
    · obtain ⟨hlisted, hkept⟩ := h i hi
      refine ⟨?_, ?_⟩
      · by_cases hspace : i.space = r.space
        · rw [hspace, hput]
          exact hids _ (hspace ▸ hlisted)
        · rw [FabricDocuments.listed, FabricDocuments.put_of_ne fun hself => hspace hself.1]
          exact hlisted
      · obtain ⟨r', hdoc, hr'⟩ := hkept
        refine ⟨r', ?_, hr'⟩
        rw [FabricDocuments.put_of_ne fun hself =>
          ne_indexKey_of_listed hlisted ⟨r', hdoc, hr'⟩ hself.2]
        exact hdoc

theorem intact_step_iff (hs : Consistent rt s) (h : s.Intact) (hstep : s.step rt a = some s') :
    s'.Intact ↔ KeepsRecords rt s a := by
  rcases hs.step_cases hstep with ⟨p, save, rfl, hkeeps, -⟩ | ⟨p, r, now, fits, n, t, rfl, hput, rfl⟩ |
    ⟨p, r, rfl, hsave, hmem, rfl⟩ | ⟨p, now, fits, r, ids, n, t, rfl, hsave, hput, rfl⟩
  · exact iff_of_true h hkeeps
  · refine (intact_withRecord_iff h t r).trans ⟨fun hD _ => hD, fun hD => hD ?_⟩
    rw [hput]
    rfl
  · refine (intact_withSaved_iff h r.identity).trans ⟨?_, fun hD => ⟨hmem, hD r hsave hmem⟩⟩
    rintro ⟨-, hkept⟩ r' hsave' -
    rw [hsave] at hsave'
    cases hsave'
    exact hkept
  · refine (intact_withIndex_iff hs h t (hs.written p r ids hsave).2.1).trans ⟨?_, fun hD => ?_⟩
    · intro hD r' ids' hsave' _
      rw [hsave] at hsave'
      cases hsave'
      exact hD
    · refine hD r ids hsave ?_
      rw [hput]
      rfl

end Recovery

/-- **The runs in which the saved records are returned**: those in which no document is put over that of
another saved record or over the index, and no index over one that was put since it was read. -/
theorem findsSaved_iff (rt : DigestRuntime) (steps : List FabricStep) :
    HoldsAlong (step rt) (Recovered rt) empty steps ↔ MeetsAlong (step rt) (KeepsRecords rt) empty steps := by
  refine holdsAlong_iff_meetsAlong (I := Consistent rt) (fun s a s' hs hstep => hs.step hstep) ?_
    (consistent_empty rt) ((consistent_empty rt).recovered_iff.mpr (List.forall_mem_nil _)) steps
  intro s a s' hs hP hstep
  rw [(hs.step hstep).recovered_iff]
  exact intact_step_iff hs (hs.recovered_iff.mp hP) hstep

/-- The locality of a source, of which nothing is known. -/
def sourceLocality (tenantId subjectRef : String)
    (accepted : localityAccepted subjectRef tenantId "o" .unknown ⟨none, none, none, none, none, none,
      none, none, none, none, none⟩ = true) : FabricRecord :=
  .locality ⟨subjectRef, .source, tenantId, _, .unknown, "o", none, false, accepted⟩

/-- Two localities whose joined keys are the same. -/
def sameKey : List FabricStep :=
  [.putRecord 0 (sourceLocality "a::b" "c" (by decide)) "t" true, .readIndex 0, .putIndex 0 "t" true,
    .putRecord 0 (sourceLocality "a" "b::c" (by decide)) "t" true, .readIndex 0]

/-- Whether a saved record is not listed, or its document is not there. -/
def misses (s : FabricRun) : Bool :=
  s.saved.any fun i => decide (i.key ∉ s.documents.listed i.space) ||
    match s.documents i.space i.key with
    | some (.record r) => decide (r.identity ≠ i)
    | _ => true

theorem Consistent.not_recovered {rt : DigestRuntime} {s : FabricRun} (hs : Consistent rt s)
    (h : misses s = true) : ¬ Recovered rt s := by
  rw [hs.recovered_iff]
  intro hintact
  obtain ⟨i, hi, hmisses⟩ := List.any_eq_true.mp h
  obtain ⟨hlisted, r, hdoc, hr⟩ := hintact i hi
  rcases Bool.or_eq_true_iff.mp hmisses with hnot | hother
  · exact of_decide_eq_true hnot hlisted
  · rw [hdoc] at hother
    exact of_decide_eq_true hother hr

/-- **A lost record**: one of two under the same key. -/
theorem not_findsSaved_sameKey : ¬ ∀ rt steps, HoldsAlong (step rt) (Recovered rt) empty steps := by
  intro h
  have hlost : (run (step JournalRun.textRuntime) empty sameKey).any misses = true := by
    decide +kernel
  obtain ⟨s, hrun, hmisses⟩ := (Option.any_eq_true _ _).mp hlost
  have hs : Consistent JournalRun.textRuntime s :=
    run_invariant (fun _ _ _ hs hstep => hs.step hstep) (consistent_empty _) hrun
  exact hs.not_recovered hmisses ((h JournalRun.textRuntime sameKey).finish hrun)

end FabricRun

end Fabric

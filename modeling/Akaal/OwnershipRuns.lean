/-
# Runs of one ownership manager

The calls of an `OwnershipManager` in any order, whatever the clock, the sites, the ledger and the store
do, and `reconstruct_ownership_manager` of `akaalEngine/fabric/durability.py` from the records that are
saved.

* `ownership_exclusive` : at every point one pair of lease and generation at most is accepted for a key, the
  generations that are granted for a key increase, and a pair that was replaced, released or fenced is not
  accepted again.

A call that raises because its record is not saved has changed the records already: what it ended is not
accepted again by this manager, but a manager that is reconstructed knows the saved record only.
-/
import Akaal.OwnershipManager

open CDC IsoTimestamps TransitionRun

namespace Fabric

open Durability

/-! ## Runs -/

/-- A lease of a key, with its generation. -/
structure OwnershipLease where
  ownershipKey : String
  leaseId : String
  fencingGeneration : ℤ
  deriving DecidableEq

/-- An active record of a lease. -/
def OwnershipRecord.Carries (r : OwnershipRecord) (l : OwnershipLease) : Prop :=
  r.leaseId = l.leaseId ∧ r.fencingGeneration = l.fencingGeneration ∧ r.state = .active

/-- The manager, the generations that were granted, in their order, and the leases that it replaced or
ended: all of them since it was made, and those of calls that returned. -/
structure OwnershipRun where
  manager : OwnershipManager
  granted : List (String × ℤ)
  dropped : List OwnershipLease
  retired : List OwnershipLease

namespace OwnershipRun

/-- A step: a call, a token that the ledger issues elsewhere, or a new process. -/
inductive Step where
  | call (call : OwnershipManager.Call) (input : OwnershipInput)
  | issueElsewhere (resourceId workerId now : String)
  | reconstruct

/-- A new manager. -/
def start (epochs : EpochTable) (hasStore : Bool) : OwnershipRun :=
  ⟨⟨.empty, epochs, if hasStore then some .empty else none⟩, [], [], []⟩

/-- The lease that is lost when the record of a key changes. -/
def lost (key : String) (old new : Option OwnershipRecord) : List OwnershipLease :=
  match old with
  | none => []
  | some e =>
    if new = some e then []
    else if new.any fun r => r.leaseId = e.leaseId && r.fencingGeneration = e.fencingGeneration &&
        r.state = .active then []
    else [⟨key, e.leaseId, e.fencingGeneration⟩]

/-- The records of a manager that is reconstructed. -/
def registered (records : List FabricRecord) : PyDict OwnershipRecord :=
  records.foldl (fun registered r =>
    match r with
    | .ownership o => registered.set o.ownershipKey o
    | _ => registered) .empty

section Steps

variable (rt : DigestRuntime) (signingKey : List UInt8) (s : OwnershipRun)

/-- The run after a call. -/
def withCall (call : OwnershipManager.Call) (input : OwnershipInput) : OwnershipRun :=
  let result := s.manager.perform rt signingKey input call
  let new := result.2.records.get? call.key
  let gone := lost call.key (s.manager.records.get? call.key) new
  { manager := result.2
    granted := s.granted ++
      if (s.manager.grantedClaim rt input call).isSome then
        (new.map fun r => (call.key, r.fencingGeneration)).toList
      else []
    dropped := s.dropped ++ gone
    retired := s.retired ++ if result.1 then [] else gone }

/-- The run after a step. -/
def step : Step → Option OwnershipRun
  | .call call input => some (s.withCall rt signingKey call input)
  | .issueElsewhere resourceId workerId now =>
    some { s with
      manager := { s.manager with
        epochs := (issueToken rt signingKey s.manager.epochs resourceId workerId now).2 } }
  | .reconstruct =>
    match s.manager.store with
    | none => none
    | some t =>
      match reconstruct rt t .ownership with
      | .error _ => none
      | .ok records => some { s with
          manager := { s.manager with records := registered records }
          dropped := s.retired }

end Steps

/-- A pair of lease and generation is accepted. -/
def Accepted (m : OwnershipManager) (l : OwnershipLease) (now : Instant) : Prop :=
  ∃ r, m.validate l.ownershipKey l.leaseId l.fencingGeneration now = .ok r

/-- **The contract.** -/
structure Exclusive (s : OwnershipRun) : Prop where
  unique : ∀ l l' now, Accepted s.manager l now → Accepted s.manager l' now →
    l.ownershipKey = l'.ownershipKey → l = l'
  increasing : s.granted.Pairwise fun a b => a.1 = b.1 → a.2 < b.2
  gone : ∀ l ∈ s.dropped ++ s.retired, ∀ now, ¬ Accepted s.manager l now

/-! ## Generations -/

/-- A generation that was issued for a key. -/
def Known (epochs : EpochTable) (key : String) (generation : ℤ) : Prop := generation < nextEpoch epochs key

variable {epochs epochs' : EpochTable}

theorem nextEpoch_of_issued {key : String}
    (h : OwnershipManager.Issued epochs key epochs') (key' : String) :
    nextEpoch epochs' key' = nextEpoch epochs key' + if key' = key then 1 else 0 := by
  obtain ⟨row, rfl, hrow⟩ := h
  by_cases hkey : key' = key
  · subst hkey
    rw [if_pos rfl, nextEpoch, PyDict.get?_set, Option.elim_some, hrow]
  · rw [if_neg hkey, nextEpoch, nextEpoch, PyDict.get?_set_of_ne _ _ hkey, add_zero]

theorem Known.of_issued {key key' : String} {generation : ℤ}
    (h : Known epochs key' generation) (hissued : OwnershipManager.Issued epochs key epochs') :
    Known epochs' key' generation := by
  rw [Known, nextEpoch_of_issued hissued]
  exact lt_of_lt_of_le h (by split_ifs <;> omega)

theorem known_nextEpoch {key : String}
    (hissued : OwnershipManager.Issued epochs key epochs') : Known epochs' key (nextEpoch epochs key) := by
  rw [Known, nextEpoch_of_issued hissued, if_pos rfl]
  exact lt_add_one _

/-! ## The store -/

/-- What the documents keep: the listed keys have records, with known generations, and none of them is
active with a lease that was retired. -/
structure Records (epochs : EpochTable) (retired : List OwnershipLease) (docs : FabricDocuments) :
    Prop where
  ownKeys : docs.OwnKeys
  listed : ∀ key ∈ docs.listed .ownership, key ≠ indexKey ∧
    ∃ r, docs .ownership key = some (.record (.ownership r))
  known : ∀ key r, docs .ownership key = some (.record (.ownership r)) →
    Known epochs key r.fencingGeneration
  gone : ∀ key r, docs .ownership key = some (.record (.ownership r)) →
    ∀ l ∈ retired, l.ownershipKey = key → ¬ r.Carries l

theorem records_empty (epochs : EpochTable) : Records epochs [] .empty where
  ownKeys := ownKeys_empty
  listed := List.forall_mem_nil _
  known _ _ h := nomatch h
  gone _ _ h := nomatch h

section Kept

variable {rt : DigestRuntime} {signingKey : List UInt8} {epochs epochs' : EpochTable}
  {retired retired' : List OwnershipLease} {docs : FabricDocuments} {t : StateTable}

/-- A record may be put that carries no retired lease. -/
theorem Records.putRecord (h : Records epochs retired docs) (r : OwnershipRecord)
    (hindex : r.ownershipKey ≠ indexKey) (hknown : Known epochs r.ownershipKey r.fencingGeneration)
    (hgone : ∀ l ∈ retired', l.ownershipKey = r.ownershipKey → ¬ r.Carries l)
    (hretired : ∀ l ∈ retired', l ∈ retired ∨ l.ownershipKey = r.ownershipKey) :
    Records epochs retired' (docs.put .ownership r.ownershipKey (.record (.ownership r))) := by
  have hof (key : String) (r' : OwnershipRecord)
      (hdoc : docs.put .ownership r.ownershipKey (.record (.ownership r)) .ownership key =
        some (.record (.ownership r'))) :
      key = r.ownershipKey ∧ r' = r ∨
        key ≠ r.ownershipKey ∧ docs .ownership key = some (.record (.ownership r')) := by
    by_cases hkey : key = r.ownershipKey
    · subst hkey
      rw [FabricDocuments.put_self] at hdoc
      cases hdoc
      exact .inl ⟨rfl, rfl⟩
    · rw [FabricDocuments.put_of_ne fun hself => hkey hself.2] at hdoc
      exact .inr ⟨hkey, hdoc⟩
  refine ⟨h.ownKeys.putRecord (.ownership r), ?_, ?_, ?_⟩
  · intro key hkey
    rw [FabricDocuments.listed, FabricDocuments.put_of_ne fun hself => hindex hself.2.symm] at hkey
    obtain ⟨hne, r', hdoc⟩ := h.listed key hkey
    refine ⟨hne, ?_⟩
    by_cases hself : key = r.ownershipKey
    · exact ⟨r, hself ▸ FabricDocuments.put_self⟩
    · exact ⟨r', (FabricDocuments.put_of_ne fun heq => hself heq.2).trans hdoc⟩
  · intro key r' hdoc
    rcases hof key r' hdoc with ⟨rfl, rfl⟩ | ⟨-, hdoc⟩
    · exact hknown
    · exact h.known key r' hdoc
  · intro key r' hdoc l hl hkey
    rcases hof key r' hdoc with ⟨rfl, rfl⟩ | ⟨hne, hdoc⟩
    · exact hgone l hl hkey
    · exact h.gone key r' hdoc l ((hretired l hl).resolve_right fun heq => hne (hkey.symm.trans heq)) hkey

theorem Records.putIndex (h : Records epochs retired docs) {ids : List String}
    (hids : ∀ key ∈ ids, key ≠ indexKey ∧ ∃ r, docs .ownership key = some (.record (.ownership r))) :
    Records epochs retired (docs.put .ownership indexKey (.index ids)) := by
  have hof (key : String) (r : OwnershipRecord)
      (hdoc : docs.put .ownership indexKey (.index ids) .ownership key =
        some (.record (.ownership r))) : docs .ownership key = some (.record (.ownership r)) := by
    by_cases hkey : key = indexKey
    · subst hkey
      rw [FabricDocuments.put_self] at hdoc
      cases hdoc
    · rwa [FabricDocuments.put_of_ne fun hself => hkey hself.2] at hdoc
  refine ⟨h.ownKeys.putIndex _ ids, ?_, ?_, ?_⟩
  · intro key hkey
    rw [FabricDocuments.listed, FabricDocuments.put_self] at hkey
    obtain ⟨hne, r, hdoc⟩ := hids key hkey
    exact ⟨hne, r, (FabricDocuments.put_of_ne fun hself => hne hself.2).trans hdoc⟩
  · exact fun key r hdoc => h.known key r (hof key r hdoc)
  · exact fun key r hdoc => h.gone key r (hof key r hdoc)

/-- What the tables keep. -/
def Stored (rt : DigestRuntime) (epochs : EpochTable) (retired : List OwnershipLease) (t : StateTable) :
    Prop :=
  ∃ docs, Refines rt t docs ∧ Records epochs retired docs

theorem Stored.of_issued (h : Stored rt epochs retired t) {key : String}
    (hissued : OwnershipManager.Issued epochs key epochs') : Stored rt epochs' retired t := by
  obtain ⟨docs, hrefines, hrecords⟩ := h
  exact ⟨docs, hrefines, hrecords.ownKeys, hrecords.listed,
    fun key r hdoc => (hrecords.known key r hdoc).of_issued hissued, hrecords.gone⟩

/-- **A record may be saved** that carries no retired lease; once the save returned, the leases that it
replaced may be retired. -/
theorem Stored.save (h : Stored rt epochs retired t) (r : OwnershipRecord) (save : SaveInput)
    (hindex : r.ownershipKey ≠ indexKey) (hknown : Known epochs r.ownershipKey r.fencingGeneration)
    (hgone : ∀ l ∈ retired', l.ownershipKey = r.ownershipKey → ¬ r.Carries l)
    (hretired : ∀ l ∈ retired', l ∈ retired ∨ l.ownershipKey = r.ownershipKey ∧
      (saveRecord rt t (.ownership r) save.now save.fits save.fitsIndex).1 = none) :
    Stored rt epochs retired' (saveRecord rt t (.ownership r) save.now save.fits save.fitsIndex).2 := by
  obtain ⟨docs, hrefines, hrecords⟩ := h
  have hput : Records epochs retired'
      (docs.put .ownership r.ownershipKey (.record (.ownership r))) :=
    hrecords.putRecord r hindex hknown hgone fun l hl => (hretired l hl).imp_right And.left
  rcases hrefines.saveRecord (.ownership r) save.now save.fits save.fitsIndex with
    ⟨e, hsave⟩ | ⟨e, t', hsave, -, ht'⟩ | ⟨t', hsave, ht'⟩
  · -- the document is refused: no lease is retired
    rw [hsave] at hretired ⊢
    have hold : ∀ l ∈ retired', l ∈ retired := fun l hl =>
      (hretired l hl).resolve_right fun hreturned => nomatch hreturned.2
    exact ⟨docs, hrefines, hrecords.ownKeys, hrecords.listed, hrecords.known,
      fun key r' hdoc l hl => hrecords.gone key r' hdoc l (hold l hl)⟩
  · rw [hsave]
    exact ⟨_, ht', hput⟩
  · rw [hsave]
    refine ⟨_, ht', ?_⟩
    rw [FabricDocuments.save]
    split_ifs with hmem
    · exact hput
    · refine hput.putIndex fun key hkey => ?_
      rcases List.mem_append.mp hkey with hkey | hkey
      · exact hput.listed key hkey
      · rw [List.mem_singleton.mp hkey]
        exact ⟨hindex, r, FabricDocuments.put_self⟩

variable {r : OwnershipRecord}

theorem get?_registered {records : List FabricRecord} {key : String}
    (h : (registered records).get? key = some r) :
    .ownership r ∈ records ∧ r.ownershipKey = key := by
  have hfold : ∀ (d : PyDict OwnershipRecord), (records.foldl (fun registered r =>
      match r with
      | .ownership o => registered.set o.ownershipKey o
      | _ => registered) d).get? key = some r →
      (.ownership r ∈ records ∧ r.ownershipKey = key) ∨ d.get? key = some r := by
    clear h
    induction records with
    | nil => exact fun d h => .inr h
    | cons first records ih =>
      intro d h
      rw [List.foldl_cons] at h
      rcases ih _ h with ⟨hmem, hkey⟩ | hget
      · exact .inl ⟨List.mem_cons_of_mem _ hmem, hkey⟩
      · cases first with
        | worker w => exact .inr hget
        | locality l => exact .inr hget
        | ownership o =>
          by_cases hkey : key = o.ownershipKey
          · subst hkey
            rw [PyDict.get?_set] at hget
            cases hget
            exact .inl ⟨List.mem_cons_self, rfl⟩
          · rw [PyDict.get?_set_of_ne _ _ hkey] at hget
            exact .inr hget
  rcases hfold .empty h with hspec | hempty
  · exact hspec
  · cases hempty

/-- **The manager is reconstructed** from what the store keeps. -/
theorem Stored.exists_reconstruct (h : Stored rt epochs retired t) :
    ∃ records, reconstruct rt t .ownership = .ok records ∧
      ∀ key r, (registered records).get? key = some r → r.ownershipKey = key ∧ key ≠ indexKey ∧
        Known epochs key r.fencingGeneration ∧ ∀ l ∈ retired, l.ownershipKey = key → ¬ r.Carries l := by
  obtain ⟨docs, hrefines, hrecords⟩ := h
  have hall : ∀ key ∈ docs.listed .ownership, ∃ r, docs .ownership key = some (.record r) := by
    intro key hkey
    obtain ⟨-, r, hdoc⟩ := hrecords.listed key hkey
    exact ⟨_, hdoc⟩
  obtain ⟨records, hrelated⟩ := exists_forall₂_of_forall_mem hall
  refine ⟨records, (hrefines.reconstruct_eq_ok_iff hrecords.ownKeys _ _).mpr hrelated, ?_⟩
  intro key r hget
  obtain ⟨hmem, rfl⟩ := get?_registered hget
  obtain ⟨key, hlisted, hdoc⟩ := Traversal.exists_of_forall₂' hrelated hmem
  obtain rfl : r.ownershipKey = key := (hrecords.ownKeys .ownership key _ hdoc).2
  exact ⟨rfl, (hrecords.listed _ hlisted).1, hrecords.known _ r hdoc, hrecords.gone _ r hdoc⟩

/-! ## What every step keeps -/

/-- A lease that is lost is that of the record that was there, and the new one does not carry it. -/
theorem mem_lost {key : String} {old new : Option OwnershipRecord} {l : OwnershipLease}
    (h : l ∈ lost key old new) : l.ownershipKey = key ∧
      (∃ e, old = some e ∧ l.fencingGeneration = e.fencingGeneration) ∧
      ∀ r, new = some r → ¬ r.Carries l := by
  cases old with
  | none => cases h
  | some e =>
    unfold lost at h
    dsimp only at h
    split_ifs at h with hsame hcarried
    · cases h
    · cases h
    · obtain rfl := List.mem_singleton.mp h
      refine ⟨rfl, ⟨e, rfl, rfl⟩, ?_⟩
      rintro r rfl ⟨hlease, hgeneration, hactive⟩
      refine hcarried ?_
      rw [Option.any_some, hlease, hgeneration, hactive]
      simp

theorem lost_self (key : String) (old : Option OwnershipRecord) : lost key old old = [] := by
  cases old with
  | none => rfl
  | some e => exact if_pos rfl

theorem ownershipKey_ne_indexKey (claim : OwnershipClaim) : claim.ownershipKey ≠ indexKey := by
  intro h
  have hmem : ':' ∈ claim.ownershipKey.toList := by
    simp [OwnershipClaim.ownershipKey]
  rw [h] at hmem
  revert hmem
  decide

/-- What every step keeps. -/
structure Held (rt : DigestRuntime) (m : OwnershipManager) (granted : List (String × ℤ))
    (dropped retired : List OwnershipLease) : Prop where
  own : ∀ key r, m.records.get? key = some r →
    r.ownershipKey = key ∧ key ≠ indexKey ∧ Known m.epochs key r.fencingGeneration
  gone : ∀ key r, m.records.get? key = some r → ∀ l ∈ dropped, l.ownershipKey = key → ¬ r.Carries l
  knownDropped : ∀ l ∈ dropped, Known m.epochs l.ownershipKey l.fencingGeneration
  droppedOfRetired : ∀ l ∈ retired, l ∈ dropped
  knownGranted : ∀ g ∈ granted, Known m.epochs g.1 g.2
  increasing : granted.Pairwise fun a b => a.1 = b.1 → a.2 < b.2
  stored : ∀ t, m.store = some t → Stored rt m.epochs retired t

variable {m m' : OwnershipManager} {input : OwnershipInput} {call : OwnershipManager.Call}
  {granted : List (String × ℤ)} {dropped : List OwnershipLease}

/-- A token may be issued. -/
theorem Held.issued (h : Held rt m granted dropped retired) {key : String}
    (hissued : OwnershipManager.Issued m.epochs key epochs) :
    Held rt { m with epochs := epochs } granted dropped retired where
  own key' r hget := by
    obtain ⟨hkey, hindex, hknown⟩ := h.own key' r hget
    exact ⟨hkey, hindex, hknown.of_issued hissued⟩
  gone := h.gone
  knownDropped l hl := (h.knownDropped l hl).of_issued hissued
  droppedOfRetired := h.droppedOfRetired
  knownGranted g hg := (h.knownGranted g hg).of_issued hissued
  increasing := h.increasing
  stored t ht := (h.stored t ht).of_issued hissued

theorem Held.persist (h : Held rt m granted dropped retired) (save : SaveInput)
    (hindex : r.ownershipKey ≠ indexKey) (hknown : Known m.epochs r.ownershipKey r.fencingGeneration)
    (hstate : r.state ≠ .active) : Held rt (m.persist rt r save).2 granted dropped retired := by
  obtain ⟨hrecords, hepochs⟩ := OwnershipManager.persist_snd rt m r save
  refine ⟨?_, ?_, ?_, h.droppedOfRetired, ?_, h.increasing, ?_⟩
  · rw [hrecords, hepochs]
    exact h.own
  · rw [hrecords]
    exact h.gone
  · rw [hepochs]
    exact h.knownDropped
  · rw [hepochs]
    exact h.knownGranted
  · rw [hepochs]
    intro t ht
    rcases OwnershipManager.persist_store rt m r save with
      ⟨-, hnone⟩ | ⟨t₀, hstore, hsaved, -⟩
    · exact nomatch hnone.symm.trans ht
    · obtain rfl := Option.some.inj (hsaved.symm.trans ht)
      exact (h.stored t₀ hstore).save r save hindex hknown (fun l _ _ hcarries => hstate hcarries.2.2)
        fun l hl => .inl hl

/-- **A record may be replaced** by one with a known generation that carries no lease that was lost. -/
theorem Held.replace (h : Held rt m granted dropped retired) (input : OwnershipInput) {key : String}
    {gone : List OwnershipLease} (hkey : r.ownershipKey = key) (hindex : key ≠ indexKey)
    (hknown : Known m.epochs key r.fencingGeneration)
    (hlost : ∀ l ∈ gone, l.ownershipKey = key ∧ Known m.epochs key l.fencingGeneration)
    (hfresh : ∀ l ∈ dropped ++ gone, l.ownershipKey = key → ¬ r.Carries l) :
    Held rt (m.replace rt input key r).2 granted (dropped ++ gone)
      (retired ++ if OwnershipManager.raises (m.replace rt input key r).1 then [] else gone) := by
  obtain ⟨-, hepochs⟩ := OwnershipManager.replace_snd rt m input key r
  have hretired : ∀ l ∈ retired ++ (if OwnershipManager.raises (m.replace rt input key r).1 then []
      else gone), l ∈ retired ∨
        OwnershipManager.raises (m.replace rt input key r).1 = false ∧ l ∈ gone := by
    intro l hl
    rcases List.mem_append.mp hl with hl | hl
    · exact .inl hl
    · split_ifs at hl with hraised
      · cases hl
      · exact .inr ⟨Bool.eq_false_iff.mpr hraised, hl⟩
  refine ⟨?_, ?_, ?_, ?_, ?_, h.increasing, ?_⟩
  · intro key' r' h'
    rw [hepochs]
    rcases OwnershipManager.get?_replace rt m input h' with ⟨rfl, rfl⟩ | ⟨-, hold⟩
    · exact ⟨hkey, hindex, hknown⟩
    · exact h.own key' r' hold
  · intro key' r' h' l hl hlkey
    rcases OwnershipManager.get?_replace rt m input h' with ⟨rfl, rfl⟩ | ⟨hne, hold⟩
    · exact hfresh l hl hlkey
    · rcases List.mem_append.mp hl with hl | hl
      · exact h.gone key' r' hold l hl hlkey
      · exact absurd (hlkey.symm.trans (hlost l hl).1) hne
  · intro l hl
    rw [hepochs]
    rcases List.mem_append.mp hl with hl | hl
    · exact h.knownDropped l hl
    · obtain ⟨hlkey, hlknown⟩ := hlost l hl
      exact hlkey ▸ hlknown
  · intro l hl
    rcases hretired l hl with hl | ⟨-, hl⟩
    · exact List.mem_append_left _ (h.droppedOfRetired l hl)
    · exact List.mem_append_right _ hl
  · rw [hepochs]
    exact h.knownGranted
  · intro t ht
    rw [hepochs]
    rcases OwnershipManager.replace_store rt m input key r with
      ⟨-, hnone⟩ | ⟨t₀, hstore, hsaved, hraises⟩
    · exact nomatch hnone.symm.trans ht
    · obtain rfl := Option.some.inj (hsaved.symm.trans ht)
      refine (h.stored t₀ hstore).save r input.save (hkey ▸ hindex) (hkey ▸ hknown) ?_ ?_
      · intro l hl hlkey
        refine hfresh l ?_ (hlkey.trans hkey)
        rcases hretired l hl with hl | ⟨-, hl⟩
        · exact List.mem_append_left _ (h.droppedOfRetired l hl)
        · exact List.mem_append_right _ hl
      · intro l hl
        rcases hretired l hl with hl | ⟨hraised, hl⟩
        · exact .inl hl
        · refine .inr ⟨(hlost l hl).1.trans hkey.symm, ?_⟩
          rw [hraises] at hraised
          exact Option.not_isSome_iff_eq_none.mp (Bool.eq_false_iff.mp hraised)

/-- A replacement of the record of a key, with the leases that are lost. -/
theorem Held.replace_lost (h : Held rt m granted dropped retired) (input : OwnershipInput)
    {key : String} (hkey : r.ownershipKey = key) (hindex : key ≠ indexKey)
    (hknown : Known m.epochs key r.fencingGeneration)
    (hfresh : ∀ l ∈ dropped, l.ownershipKey = key → ¬ r.Carries l) :
    let result := m.replace rt input key r
    let gone := lost key (m.records.get? key) (result.2.records.get? key)
    Held rt result.2 granted (dropped ++ gone)
      (retired ++ if OwnershipManager.raises result.1 then [] else gone) := by
  obtain ⟨hrecords, -⟩ := OwnershipManager.replace_snd rt m input key r
  have hnew : (m.replace rt input key r).2.records.get? key = some r := by
    rw [hrecords, PyDict.get?_set]
  refine h.replace input hkey hindex hknown ?_ ?_
  · intro l hl
    obtain ⟨hlkey, ⟨e, hold, hgeneration⟩, -⟩ := mem_lost hl
    exact ⟨hlkey, hgeneration ▸ (h.own key e hold).2.2⟩
  · intro l hl hlkey
    rcases List.mem_append.mp hl with hl | hl
    · exact hfresh l hl hlkey
    · exact (mem_lost hl).2.2 r hnew

/-- A generation that is granted is the next one. -/
theorem Held.withGranted (h : Held rt m granted dropped retired) {key : String} {generation : ℤ}
    (hknown : Known m.epochs key generation)
    (hlt : ∀ g ∈ granted, g.1 = key → g.2 < generation) :
    Held rt m (granted ++ [(key, generation)]) dropped retired where
  own := h.own
  gone := h.gone
  knownDropped := h.knownDropped
  droppedOfRetired := h.droppedOfRetired
  knownGranted g hg := by
    rcases List.mem_append.mp hg with hg | hg
    · exact h.knownGranted g hg
    · rw [List.mem_singleton.mp hg]
      exact hknown
  increasing := by
    refine List.pairwise_append.mpr ⟨h.increasing, List.pairwise_singleton _ _, ?_⟩
    intro g hg g' hg' hkey
    rw [List.mem_singleton.mp hg'] at hkey ⊢
    exact hlt g hg hkey
  stored := h.stored

/-- **What a call keeps.** -/
theorem Held.effect (h : Held rt m granted dropped retired) {claim : Option OwnershipClaim}
    {raised : Bool} (heffect : OwnershipManager.Effect rt m input call claim raised m') :
    let new := m'.records.get? call.key
    let gone := lost call.key (m.records.get? call.key) new
    Held rt m' (granted ++ if claim.isSome then
        (new.map fun r => (call.key, r.fencingGeneration)).toList else [])
      (dropped ++ gone) (retired ++ if raised then [] else gone) := by
  have hsame (raised : Bool) (hrecords : m'.records = m.records)
      (h' : Held rt m' granted dropped retired) :
      Held rt m' (granted ++ []) (dropped ++ lost call.key (m.records.get? call.key)
        (m'.records.get? call.key)) (retired ++ if raised then [] else
          lost call.key (m.records.get? call.key) (m'.records.get? call.key)) := by
    rw [hrecords, lost_self, ite_self, List.append_nil, List.append_nil, List.append_nil]
    exact h'
  cases heffect with
  | nothing raised => exact hsame raised rfl h
  | issued epochs hissued => exact hsame true rfl (h.issued hissued)
  | notTransferred existing epochs hget hissued =>
    obtain ⟨hown, hindex, hknown⟩ := h.own call.key existing hget
    refine hsame true (OwnershipManager.persist_snd rt _ _ _).1
      ((h.issued hissued).persist _ ?_ ?_ fun hactive => nomatch hactive)
    · exact hown ▸ hindex
    · exact hown ▸ hknown.of_issued hissued
  | renewed existing r hget hvalid expiresAt assignmentId hr =>
    obtain ⟨hown, hindex, hknown⟩ := h.own call.key existing hget
    have hcarries (l : OwnershipLease) : r.Carries l → existing.Carries l := by
      rw [hr]
      exact id
    have hrown : r.ownershipKey = call.key := hr ▸ hown
    have hrknown : Known m.epochs call.key r.fencingGeneration := hr ▸ hknown
    have hreplaced := h.replace_lost input hrown hindex hrknown fun l hl hlkey hl' =>
      h.gone call.key existing hget l hl hlkey (hcarries l hl')
    rw [← List.append_nil granted] at hreplaced
    exact hreplaced
  | ended existing r hget hactive state hstate hr =>
    obtain ⟨hown, hindex, hknown⟩ := h.own call.key existing hget
    have hrstate : r.state ≠ .active := by
      rw [hr]
      exact hstate
    have hrown : r.ownershipKey = call.key := hr ▸ hown
    have hrknown : Known m.epochs call.key r.fencingGeneration := hr ▸ hknown
    have hreplaced := h.replace_lost input hrown hindex hrknown fun l _ _ hcarries => hrstate hcarries.2.2
    rw [← List.append_nil granted] at hreplaced
    exact hreplaced
  | granted claim epochs m₁ r acquiredAt expiresAt hkey hissued hm₁ hexpires hr =>
    have hissuedHeld := h.issued hissued
    have hm₁ : Held rt m₁ granted dropped retired ∧ m₁.records = m.records ∧ m₁.epochs = epochs := by
      rcases hm₁ with rfl | ⟨existing, hget, rfl⟩
      · exact ⟨hissuedHeld, rfl, rfl⟩
      · obtain ⟨hown, hindex, hknown⟩ := h.own call.key existing hget
        obtain ⟨hrecords, hepochs⟩ := OwnershipManager.persist_snd rt
          { m with epochs := epochs } { existing with state := .transferred } input.saveTransferred
        refine ⟨hissuedHeld.persist _ ?_ ?_ (fun hactive => nomatch hactive), hrecords, hepochs⟩
        · exact hown ▸ hindex
        · exact hown ▸ hknown.of_issued hissued
    obtain ⟨hheld, hrecords, hepochs⟩ := hm₁
    have hgeneration : r.fencingGeneration = nextEpoch m.epochs call.key := by
      rw [hr]
      rfl
    have hown : r.ownershipKey = call.key := by
      rw [hr]
      exact hkey
    have hnext : Known m₁.epochs call.key r.fencingGeneration := by
      rw [hepochs, hgeneration]
      exact known_nextEpoch hissued
    obtain ⟨hsnd, hsndEpochs⟩ :=
      OwnershipManager.replace_snd rt m₁ input call.key r
    have hreplaced := hheld.replace_lost input hown
      (hkey ▸ ownershipKey_ne_indexKey claim) hnext fun l hl hlkey hcarries => by
        have hlt : Known m.epochs l.ownershipKey l.fencingGeneration := h.knownDropped l hl
        rw [Known, hlkey, ← hcarries.2.1, hgeneration] at hlt
        exact lt_irrefl _ hlt
    have hnew : (m₁.replace rt input call.key r).2.records.get? call.key = some r := by
      rw [hsnd, PyDict.get?_set]
    dsimp only at hreplaced ⊢
    rw [hrecords] at hreplaced
    rw [hnew] at hreplaced ⊢
    refine hreplaced.withGranted ?_ ?_
    · rw [hsndEpochs]
      exact hnext
    · intro g hg hgkey
      have hlt : Known m.epochs g.1 g.2 := h.knownGranted g hg
      rwa [Known, hgkey, ← hgeneration] at hlt

theorem held_start (rt : DigestRuntime) (epochs : EpochTable) (hasStore : Bool) :
    Held rt (start epochs hasStore).manager [] [] [] where
  own _ _ h := nomatch h
  gone _ _ h := nomatch h
  knownDropped := List.forall_mem_nil _
  droppedOfRetired := List.forall_mem_nil _
  knownGranted := List.forall_mem_nil _
  increasing := List.Pairwise.nil
  stored t ht := by
    rw [start] at ht
    dsimp only at ht
    split_ifs at ht
    cases ht
    exact ⟨.empty, refines_empty rt, records_empty epochs⟩

theorem Held.exists_reconstruct (h : Held rt m granted dropped retired) (hstore : m.store = some t) :
    ∃ records, reconstruct rt t .ownership = .ok records ∧
      Held rt { m with records := registered records } granted retired retired := by
  obtain ⟨records, hrecords, hregistered⟩ := (h.stored t hstore).exists_reconstruct
  refine ⟨records, hrecords, ?_, ?_, ?_, fun _ hl => hl, h.knownGranted, h.increasing, h.stored⟩
  · intro key r hget
    obtain ⟨hown, hindex, hknown, -⟩ := hregistered key r hget
    exact ⟨hown, hindex, hknown⟩
  · intro key r hget
    exact (hregistered key r hget).2.2.2
  · exact fun l hl => h.knownDropped l (h.droppedOfRetired l hl)

/-- What is held, in a run. -/
def HeldIn (rt : DigestRuntime) (s : OwnershipRun) : Prop :=
  Held rt s.manager s.granted s.dropped s.retired

/-- **Every step keeps it.** -/
theorem HeldIn.step {s s' : OwnershipRun} {a : Step} (h : HeldIn rt s)
    (hstep : s.step rt signingKey a = some s') : HeldIn rt s' := by
  cases a with
  | call call input =>
    cases hstep
    exact Held.effect h (OwnershipManager.perform_effect rt signingKey s.manager input call)
  | issueElsewhere resourceId workerId now =>
    cases hstep
    exact Held.issued h ⟨_, rfl, rfl⟩
  | reconstruct =>
    rw [OwnershipRun.step] at hstep
    split at hstep
    · cases hstep
    · next t hstore =>
        obtain ⟨records, hrecords, hheld⟩ := Held.exists_reconstruct h hstore
        rw [hrecords] at hstep
        cases hstep
        exact hheld

theorem Accepted.exists_carries {l : OwnershipLease} {now : Instant} (h : Accepted m l now) :
    ∃ r, m.records.get? l.ownershipKey = some r ∧ r.Carries l := by
  obtain ⟨r, hvalidate⟩ := h
  obtain ⟨hget, hvalid, hlease, hgeneration⟩ := OwnershipManager.validate_eq_ok_iff.mp hvalidate
  exact ⟨r, hget, hlease, hgeneration, OwnershipManager.state_of_valid hvalid⟩

/-- What is held gives the contract. -/
theorem HeldIn.exclusive {s : OwnershipRun} (h : HeldIn rt s) : Exclusive s where
  unique l l' now hl hl' hkey := by
    obtain ⟨r, hget, hlease, hgeneration, -⟩ := hl.exists_carries
    obtain ⟨r', hget', hlease', hgeneration', -⟩ := hl'.exists_carries
    rw [← hkey] at hget'
    obtain rfl := Option.some.inj (hget.symm.trans hget')
    cases l
    cases l'
    congr
    · exact hlease.symm.trans hlease'
    · exact hgeneration.symm.trans hgeneration'
  increasing := h.increasing
  gone l hl now hl' := by
    obtain ⟨r, hget, hcarries⟩ := hl'.exists_carries
    have hdropped : l ∈ s.dropped := by
      rcases List.mem_append.mp hl with hl | hl
      · exact hl
      · exact h.droppedOfRetired l hl
    exact h.gone l.ownershipKey r hget l hdropped rfl hcarries

end Kept

end OwnershipRun

end Fabric

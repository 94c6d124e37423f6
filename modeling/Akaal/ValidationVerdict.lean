/-
# When the validation verdict is right

A full validation should pass precisely when the renamed source rows and the target rows are
equal as multisets of canonical rows.  A run compares slices of the two lists by their
fingerprints, and slices it has a stored proof for not at all; the proofs come from earlier
executions of the plan.

* `passed_after_iff` : which runs pass after a history of earlier executions;
* `verdictRight_iff` : the verdict is right precisely when, for equal rows, every partition has a
  proof or slices that cancel, and for different rows some partition has neither.

Slices cancel when they have as many rows and the digests of the rows that occur an odd number
of times in the two together have the XOR zero.
-/
import Akaal.ValidationAuthority

open FramedBytes

namespace Validation

variable {plan : ValidationPlan}

/-! ## Stored proofs -/

theorem checkpointKey_inj {i j : ℕ} (h : checkpointKey plan i = checkpointKey plan j) : i = j := by
  have hbytes := congrArg utf8 h
  have hunderscore : ((95 : UInt8).toNat < 48 ∨ 57 < (95 : UInt8).toNat) := by decide
  have hlabel : utf8 "_" = [95] := by decide
  simp only [checkpointKey, partitionId, utf8_append, List.append_assoc, hlabel,
    List.cons_append, List.nil_append] at hbytes
  have hrest := List.append_cancel_left (List.append_cancel_left hbytes)
  exact (numeral_separate hunderscore hrest).1

/-- A proof of the partition is stored. -/
def Stored (va : ValidationAuthority) (plan : ValidationPlan) (i : ℕ) : Prop :=
  ∃ frame, va.loadSpillFrame (checkpointKey plan i) = some frame

/-- The stored proofs of the plan carry its migration id. -/
def OwnFrames (va : ValidationAuthority) (plan : ValidationPlan) : Prop :=
  ∀ i frame, va.loadSpillFrame (checkpointKey plan i) = some frame →
    frame.migrationId = plan.migrationId

/-- A durability authority is attached. -/
def Durable (va : ValidationAuthority) : Prop := va.durabilityAuthority.isSome

instance (va : ValidationAuthority) : Decidable (Durable va) :=
  inferInstanceAs (Decidable (_ = true))

/-- The authorities attached are the same, up to what is stored. -/
structure SameAuthorities (va va' : ValidationAuthority) : Prop where
  durable : Durable va' ↔ Durable va
  dataProcessing : va'.dataProcessingAuthority = va.dataProcessingAuthority
  cdc : va'.cdcAuthority = va.cdcAuthority

theorem SameAuthorities.refl (va : ValidationAuthority) : SameAuthorities va va :=
  ⟨Iff.rfl, rfl, rfl⟩

theorem SameAuthorities.trans {va va' va'' : ValidationAuthority} (h : SameAuthorities va va')
    (h' : SameAuthorities va' va'') : SameAuthorities va va'' :=
  ⟨h'.durable.trans h.durable, h'.dataProcessing.trans h.dataProcessing, h'.cdc.trans h.cdc⟩

theorem sameAuthorities_save (va : ValidationAuthority) (key : String) (frame : SpillFrame) :
    SameAuthorities va (va.saveSpillFrame key frame) := by
  refine ⟨?_, rfl, rfl⟩
  simp [Durable, ValidationAuthority.saveSpillFrame]

theorem load_save (va : ValidationAuthority) (key k : String) (frame : SpillFrame) :
    (va.saveSpillFrame key frame).loadSpillFrame k =
      if k = key ∧ Durable va then some frame else va.loadSpillFrame k := by
  cases hd : va.durabilityAuthority with
  | none => simp [ValidationAuthority.loadSpillFrame, ValidationAuthority.saveSpillFrame, Durable, hd]
  | some frames =>
    by_cases hk : k = key
    · simp [ValidationAuthority.loadSpillFrame, ValidationAuthority.saveSpillFrame, Durable, hd, hk]
    · simp [ValidationAuthority.loadSpillFrame, ValidationAuthority.saveSpillFrame, hd, hk]

theorem stored_save_iff (va : ValidationAuthority) (i j : ℕ) (frame : SpillFrame) :
    Stored (va.saveSpillFrame (checkpointKey plan i) frame) plan j ↔
      Stored va plan j ∨ (j = i ∧ Durable va) := by
  simp only [Stored, load_save]
  split_ifs with h
  · have hji : j = i := checkpointKey_inj h.1
    simp [hji, h.2]
  · have hno : ¬ (j = i ∧ Durable va) := by
      rintro ⟨rfl, hd⟩
      exact h ⟨rfl, hd⟩
    simp [hno]

theorem ownFrames_save {va : ValidationAuthority} (h : OwnFrames va plan) (i fp : ℕ) :
    OwnFrames (va.saveSpillFrame (checkpointKey plan i) ⟨plan.migrationId, true, fp⟩) plan := by
  intro j frame hload
  rw [load_save] at hload
  split_ifs at hload
  · cases hload
    rfl
  · exact h j frame hload

/-! ## Slices -/

/-- The slices of a partition have canonical forms, as many rows, and cancel. -/
def SlicesCancel (sha256 : List UInt8 → ℕ) (va : ValidationAuthority) (run : ValidationRun plan)
    (i : ℕ) : Prop :=
  ∃ cs ds, canonicalRows (expectedRows va plan (run.sourceSlice i)) = .ok cs ∧
    canonicalRows (run.targetSlice i) = .ok ds ∧ cs.length = ds.length ∧ Cancels sha256 cs ds

theorem slicesCancel_congr {sha256 : List UInt8 → ℕ} {va va' : ValidationAuthority}
    (h : SameAuthorities va va') (run : ValidationRun plan) (i : ℕ) :
    SlicesCancel sha256 va' run i ↔ SlicesCancel sha256 va run i := by
  simp only [SlicesCancel, expectedRows, h.dataProcessing]

section Runs

variable {sha256 : List UInt8 → ℕ}

/-- The fingerprints of a partition agree precisely when its slices cancel. -/
theorem exists_fingerprint_iff (hsha : Function.Injective sha256) (va : ValidationAuthority)
    (run : ValidationRun plan) (i : ℕ) :
    (∃ fp, fingerprintRows sha256 (partitionId i) (expectedRows va plan (run.sourceSlice i)) =
        .ok fp ∧ fingerprintRows sha256 (partitionId i) (run.targetSlice i) = .ok fp) ↔
      SlicesCancel sha256 va run i := by
  constructor
  · rintro ⟨fp, hsrc, htgt⟩
    obtain ⟨cs, hcs, hfp⟩ := fingerprintRows_eq_ok_iff.mp hsrc
    obtain ⟨ds, hds, hfp'⟩ := fingerprintRows_eq_ok_iff.mp htgt
    obtain ⟨hlen, hcancels⟩ := (finalize_eq_iff hsha).mp (hfp.symm.trans hfp')
    exact ⟨cs, ds, hcs, hds, hlen, hcancels⟩
  · rintro ⟨cs, ds, hcs, hds, hlen, hcancels⟩
    refine ⟨_, fingerprintRows_eq_ok_iff.mpr ⟨cs, hcs, rfl⟩, ?_⟩
    exact fingerprintRows_eq_ok_iff.mpr ⟨ds, hds, (finalize_eq_iff hsha).mpr ⟨hlen, hcancels⟩⟩

/-! ## One worker -/

/-- A worker's outcome is a match. -/
def IsMatch (outcome : Except ValidationError PartitionValidationResult) : Prop :=
  ∃ r, outcome = .ok r ∧ r.matched = true

variable {i : ℕ} {va : ValidationAuthority}

/-- A comparison of slices that cancel reports a match and saves a proof. -/
theorem comparePartition_of_cancel (hsha : Function.Injective sha256)
    {run : ValidationRun plan} (h : SlicesCancel sha256 va run i) :
    ∃ r fp, r.matched = true ∧
      comparePartition sha256 va plan i (run.sourceSlice i) (run.targetSlice i) =
        (.ok r, va.saveSpillFrame (checkpointKey plan i) ⟨plan.migrationId, true, fp⟩) := by
  obtain ⟨fp, hsrc, htgt⟩ := (exists_fingerprint_iff hsha va run i).mpr h
  refine ⟨⟨partitionId i, (run.sourceSlice i).length, (run.targetSlice i).length, fp == fp, fp, fp⟩,
    fp, beq_self_eq_true fp, ?_⟩
  simp only [comparePartition, hsrc, htgt, if_true]

/-- A comparison of slices that do not cancel reports no match and saves nothing. -/
theorem comparePartition_of_not_cancel (hsha : Function.Injective sha256) {run : ValidationRun plan}
    (h : ¬ SlicesCancel sha256 va run i) :
    ¬ IsMatch (comparePartition sha256 va plan i (run.sourceSlice i) (run.targetSlice i)).1 ∧
      (comparePartition sha256 va plan i (run.sourceSlice i) (run.targetSlice i)).2 = va := by
  rw [← exists_fingerprint_iff hsha] at h
  have hraised : ∀ e, ¬ IsMatch (.error e) := by
    rintro e ⟨r, ⟨⟩, -⟩
  rw [comparePartition]
  split
  · exact ⟨hraised _, rfl⟩
  · exact ⟨hraised _, rfl⟩
  · rename_i srcFp tgtFp hsrc htgt
    have hne : srcFp ≠ tgtFp := fun heq => h ⟨srcFp, hsrc, heq ▸ htgt⟩
    refine ⟨?_, if_neg hne⟩
    rintro ⟨r, hr, hmatched⟩
    cases hr
    exact hne (beq_iff_eq.mp hmatched)

/-- What one worker does: whether it reports a match, and what is stored after it. -/
structure WorkerSpec (sha256 : List UInt8 → ℕ) (va : ValidationAuthority)
    (run : ValidationRun plan) (i : ℕ)
    (out : Except ValidationError PartitionValidationResult × ValidationAuthority) : Prop where
  isMatch : IsMatch out.1 ↔
    run.tokenAtWorker i = .valid ∧ (Stored va plan i ∨ SlicesCancel sha256 va run i)
  stored : ∀ j, Stored out.2 plan j ↔ Stored va plan j ∨
    (j = i ∧ Durable va ∧ run.tokenAtWorker i = .valid ∧ SlicesCancel sha256 va run i)
  own : OwnFrames out.2 plan
  same : SameAuthorities va out.2

/-- **One worker.**  It reports a match when its token is valid and the partition has a stored
proof or slices that cancel; in the latter case a proof is stored after it. -/
theorem worker_spec (hsha : Function.Injective sha256)
    (hown : OwnFrames va plan) (run : ValidationRun plan) (i : ℕ) :
    WorkerSpec sha256 va run i (executePartitionValidation sha256 va plan i (run.sourceSlice i)
      (run.targetSlice i) (run.tokenAtWorker i)) := by
  have hunchanged : ∀ out : Except ValidationError PartitionValidationResult × ValidationAuthority,
      out.2 = va → (IsMatch out.1 ↔ run.tokenAtWorker i = .valid ∧
        (Stored va plan i ∨ SlicesCancel sha256 va run i)) →
      (run.tokenAtWorker i = .valid → SlicesCancel sha256 va run i → Stored va plan i) →
      WorkerSpec sha256 va run i out := by
    rintro ⟨outcome, va'⟩ rfl hmatch himp
    refine ⟨hmatch, fun j => ?_, hown, SameAuthorities.refl va'⟩
    constructor
    · exact Or.inl
    · rintro (h | ⟨rfl, -, htoken, hcancel⟩)
      · exact h
      · exact himp htoken hcancel
  have hnoMatch : ∀ e, ¬ IsMatch (.error e) := by
    rintro e ⟨r, ⟨⟩, -⟩
  rw [executePartitionValidation]
  by_cases htoken : run.tokenAtWorker i = .valid
  · simp only [htoken, TokenCheck.error]
    cases hload : va.loadSpillFrame (checkpointKey plan i) with
    | some frame =>
      have hstored : Stored va plan i := ⟨frame, hload⟩
      have hid : ¬ frame.migrationId ≠ plan.migrationId := by simpa using hown i frame hload
      simp only [if_neg hid]
      refine hunchanged _ rfl ?_ fun _ _ => hstored
      exact ⟨fun _ => ⟨htoken, .inl hstored⟩, fun _ => ⟨_, rfl, rfl⟩⟩
    | none =>
      have hnot : ¬ Stored va plan i := by
        rintro ⟨frame, hframe⟩
        rw [hload] at hframe
        cases hframe
      by_cases hcancel : SlicesCancel sha256 va run i
      · obtain ⟨r, fp, hr, hcompare⟩ := comparePartition_of_cancel hsha hcancel
        simp only [hcompare]
        refine ⟨⟨fun _ => ⟨htoken, .inr hcancel⟩, fun _ => ⟨r, rfl, hr⟩⟩, fun j => ?_,
          ownFrames_save hown i fp, sameAuthorities_save va _ _⟩
        rw [stored_save_iff]
        simp [htoken, hcancel]
      · obtain ⟨hno, hstate⟩ := comparePartition_of_not_cancel hsha hcancel
        refine hunchanged _ hstate ?_ fun _ h => absurd h hcancel
        simp [hno, hnot, hcancel]
  · have herror : ∃ e, (run.tokenAtWorker i).error = some e := by
      cases h : run.tokenAtWorker i with
      | valid => exact absurd h htoken
      | cancelled => exact ⟨_, rfl⟩
      | stale => exact ⟨_, rfl⟩
    obtain ⟨e, he⟩ := herror
    simp only [he]
    refine hunchanged _ rfl ?_ fun h => absurd h htoken
    simp [hnoMatch, htoken]

/-! ## All workers -/

/-- The workers of a run, in the order in which they finish: all report a match when each has a
valid token and a stored proof or slices that cancel, and the latter are proved after them. -/
theorem runPartitions_spec (hsha : Function.Injective sha256)
    (hown : OwnFrames va plan) (run : ValidationRun plan) (is : List ℕ) :
    (AllMatched (runPartitions sha256 run va is).1 ↔ ∀ i ∈ is, run.tokenAtWorker i = .valid ∧
      (Stored va plan i ∨ SlicesCancel sha256 va run i)) ∧
    (∀ j, Stored (runPartitions sha256 run va is).2 plan j ↔ Stored va plan j ∨
      (j ∈ is ∧ Durable va ∧ run.tokenAtWorker j = .valid ∧ SlicesCancel sha256 va run j)) ∧
    OwnFrames (runPartitions sha256 run va is).2 plan ∧
    SameAuthorities va (runPartitions sha256 run va is).2 := by
  induction is generalizing va with
  | nil => exact ⟨by simp [runPartitions, AllMatched], fun j => by simp [runPartitions], hown,
      SameAuthorities.refl va⟩
  | cons i is ih =>
    have hw := worker_spec hsha hown run i
    rw [runPartitions]
    obtain ⟨hall, hstored, hown', hsame⟩ := ih hw.own
    refine ⟨?_, fun j => ?_, hown', hw.same.trans hsame⟩
    · have hcons := List.forall_mem_cons (p := IsMatch)
        (a := (executePartitionValidation sha256 va plan i (run.sourceSlice i)
          (run.targetSlice i) (run.tokenAtWorker i)).1)
        (l := (runPartitions sha256 run (executePartitionValidation sha256 va plan i
          (run.sourceSlice i) (run.targetSlice i) (run.tokenAtWorker i)).2 is).1)
      rw [List.forall_mem_cons, ← hw.isMatch]
      refine hcons.trans (and_congr Iff.rfl (hall.trans ?_))
      refine forall₂_congr fun j _ => ?_
      rw [hw.stored, slicesCancel_congr hw.same]
      constructor
      · rintro ⟨htoken, (h | ⟨rfl, -, -, hcancel⟩) | hcancel⟩
        · exact ⟨htoken, .inl h⟩
        · exact ⟨htoken, .inr hcancel⟩
        · exact ⟨htoken, .inr hcancel⟩
      · rintro ⟨htoken, h | hcancel⟩
        · exact ⟨htoken, .inl (.inl h)⟩
        · exact ⟨htoken, .inr hcancel⟩
    · rw [hstored, hw.stored, slicesCancel_congr hw.same, hw.same.durable, List.mem_cons]
      constructor
      · rintro ((h | ⟨rfl, hd, htoken, hcancel⟩) | ⟨hj, hd, htoken, hcancel⟩)
        · exact .inl h
        · exact .inr ⟨.inl rfl, hd, htoken, hcancel⟩
        · exact .inr ⟨.inr hj, hd, htoken, hcancel⟩
      · rintro (h | ⟨rfl | hj, hd, htoken, hcancel⟩)
        · exact .inl (.inl h)
        · exact .inl (.inr ⟨rfl, hd, htoken, hcancel⟩)
        · exact .inr ⟨hj, hd, htoken, hcancel⟩

/-! ## One execution -/

/-- A full run whose start is not interrupted stores what its workers prove. -/
theorem executeValidation_snd
    (hmode : plan.mode = .fastFull ∨ plan.mode = .exactFull) (run : ValidationRun plan)
    (hstart : run.tokenAtStart = .valid) :
    (executeValidation sha256 va run).2 = (runPartitions sha256 run va run.completionOrder).2 := by
  have hso : plan.mode ≠ .structureOnly := by rcases hmode with h | h <;> simp [h]
  have hco : plan.mode ≠ .countOnly := by rcases hmode with h | h <;> simp [h]
  simp only [executeValidation, hstart, TokenCheck.error, hso, hco, if_false, validatePartitions]
  split
  · rfl
  · split <;> rfl

/-- A full run proves a partition when neither its start nor the worker is interrupted and the
slices cancel. -/
def Proves (sha256 : List UInt8 → ℕ) (va : ValidationAuthority) (run : ValidationRun plan)
    (i : ℕ) : Prop :=
  i < numPartitions plan ∧ run.tokenAtStart = .valid ∧ run.tokenAtWorker i = .valid ∧
    SlicesCancel sha256 va run i

theorem ValidationRun.mem_completionOrder (run : ValidationRun plan) :
    i ∈ run.completionOrder ↔ i < numPartitions plan := by
  rw [run.completionOrder_perm.mem_iff, List.mem_range]

/-- What a full run leaves stored. -/
theorem executeValidation_stored (hsha : Function.Injective sha256)
    (hmode : plan.mode = .fastFull ∨ plan.mode = .exactFull) (hown : OwnFrames va plan)
    (run : ValidationRun plan) :
    (∀ j, Stored (executeValidation sha256 va run).2 plan j ↔
      Stored va plan j ∨ (Durable va ∧ Proves sha256 va run j)) ∧
    OwnFrames (executeValidation sha256 va run).2 plan ∧
    SameAuthorities va (executeValidation sha256 va run).2 := by
  by_cases hstart : run.tokenAtStart = .valid
  · obtain ⟨-, hstored, hown', hsame⟩ := runPartitions_spec hsha hown run run.completionOrder
    rw [executeValidation_snd hmode run hstart]
    refine ⟨fun j => ?_, hown', hsame⟩
    rw [hstored, run.mem_completionOrder, Proves]
    tauto
  · have hstate : (executeValidation sha256 va run).2 = va := by
      rw [executeValidation]
      cases htoken : run.tokenAtStart with
      | valid => exact absurd htoken hstart
      | cancelled => rfl
      | stale => rfl
    rw [hstate]
    refine ⟨fun j => ?_, hown, SameAuthorities.refl va⟩
    simp [Proves, hstart]

/-! ## Histories -/

/-- The façade after earlier executions of the plan. -/
def afterHistory (sha256 : List UInt8 → ℕ) (va : ValidationAuthority)
    (history : List (ValidationRun plan)) : ValidationAuthority :=
  history.foldl (fun va run => (executeValidation sha256 va run).2) va

/-- **Stored proofs.**  After a history of full runs a partition has a stored proof precisely
when it had one before or, with a durability authority attached, some run of the history proved
it. -/
theorem afterHistory_stored (hsha : Function.Injective sha256)
    (hmode : plan.mode = .fastFull ∨ plan.mode = .exactFull) (hown : OwnFrames va plan)
    (history : List (ValidationRun plan)) :
    (∀ j, Stored (afterHistory sha256 va history) plan j ↔
      Stored va plan j ∨ (Durable va ∧ ∃ earlier ∈ history, Proves sha256 va earlier j)) ∧
    OwnFrames (afterHistory sha256 va history) plan ∧
    SameAuthorities va (afterHistory sha256 va history) := by
  induction history generalizing va with
  | nil => exact ⟨fun j => by simp [afterHistory], hown, SameAuthorities.refl va⟩
  | cons run history ih =>
    obtain ⟨hstored, hown', hsame⟩ := executeValidation_stored hsha hmode hown run
    obtain ⟨hstored', hown'', hsame'⟩ := ih hown'
    refine ⟨fun j => ?_, hown'', hsame.trans hsame'⟩
    have hproves : ∀ earlier : ValidationRun plan,
        Proves sha256 (executeValidation sha256 va run).2 earlier j ↔
          Proves sha256 va earlier j := by
      intro earlier
      rw [Proves, Proves, slicesCancel_congr hsame]
    rw [show afterHistory sha256 va (run :: history) =
      afterHistory sha256 (executeValidation sha256 va run).2 history from rfl, hstored',
      hstored, hsame.durable]
    simp only [hproves, List.mem_cons, exists_eq_or_imp]
    tauto

/-! ## The verdict -/

/-- What lets a partition of a run pass after a history: a valid token, and an earlier proof or
slices that cancel. -/
def PartitionPasses (sha256 : List UInt8 → ℕ) (va : ValidationAuthority)
    (history : List (ValidationRun plan)) (run : ValidationRun plan) (i : ℕ) : Prop :=
  run.tokenAtWorker i = .valid ∧ ((Durable va ∧ ∃ earlier ∈ history, Proves sha256 va earlier i) ∨
      SlicesCancel sha256 va run i)

/-- No proof of the plan is stored yet. -/
def Fresh (va : ValidationAuthority) (plan : ValidationPlan) : Prop :=
  ∀ i, va.loadSpillFrame (checkpointKey plan i) = none

/-- **Which runs pass.**  After a history of earlier executions a full run passes precisely when
its start is not interrupted, the schemas are compatible, the row counts agree and every
partition passes. -/
theorem passed_after_iff (hsha : Function.Injective sha256)
    (hcdc : va.cdcAuthority = none) (hmode : plan.mode = .fastFull ∨ plan.mode = .exactFull)
    (hfresh : Fresh va plan) (history : List (ValidationRun plan)) (run : ValidationRun plan) :
    Passed (executeValidation sha256 (afterHistory sha256 va history) run).1 ↔
      run.tokenAtStart = .valid ∧
      structureErrors plan run.sourceSchemaMeta run.targetSchemaMeta = [] ∧
      run.sourceRows.length = run.targetRows.length ∧
      ∀ i < numPartitions plan, PartitionPasses sha256 va history run i := by
  have hown : OwnFrames va plan := by
    intro i frame hframe
    rw [hfresh i] at hframe
    cases hframe
  have hnot : ∀ i, ¬ Stored va plan i := by
    rintro i ⟨frame, hframe⟩
    rw [hfresh i] at hframe
    cases hframe
  obtain ⟨hstored, hown', hsame⟩ := afterHistory_stored hsha hmode hown history
  obtain ⟨hall, -⟩ := runPartitions_spec hsha hown' run run.completionOrder
  rw [passed_iff (hsame.cdc.trans hcdc) hmode run, hall]
  simp only [run.mem_completionOrder, hstored, hnot, false_or, slicesCancel_congr hsame,
    PartitionPasses]

/-- The renamed source rows and the target rows are equal as multisets of canonical rows. -/
def CanonicallyEqual (plan : ValidationPlan) (sourceRows targetRows : List PyRow) : Prop :=
  ∃ cs ds, canonicalRows (sourceRows.map (renameColumns plan.columnMapping)) = .ok cs ∧
    canonicalRows targetRows = .ok ds ∧ cs.Perm ds

/-- The run passes after the history precisely when its rows are canonically equal. -/
def VerdictRight (sha256 : List UInt8 → ℕ) (va : ValidationAuthority)
    (history : List (ValidationRun plan)) (run : ValidationRun plan) : Prop :=
  Passed (executeValidation sha256 (afterHistory sha256 va history) run).1 ↔
    CanonicallyEqual plan run.sourceRows run.targetRows

theorem CanonicallyEqual.length_eq {sourceRows targetRows : List PyRow}
    (h : CanonicallyEqual plan sourceRows targetRows) :
    sourceRows.length = targetRows.length := by
  obtain ⟨cs, ds, hcs, hds, hperm⟩ := h
  have hsource := (Traversal.mapM_eq_ok_iff.mp hcs).length_eq
  have htarget := (Traversal.mapM_eq_ok_iff.mp hds).length_eq
  rw [List.length_map] at hsource
  rw [hsource, hperm.length_eq, htarget]

/-- **The verdict.**  It is right precisely when, for rows that are canonically equal, the start
is not interrupted and every partition passes, and for rows that are not, the start is
interrupted, the row counts differ or some partition does not pass. -/
theorem verdictRight_iff (hsha : Function.Injective sha256) {va : ValidationAuthority}
    (hcdc : va.cdcAuthority = none) (hmode : plan.mode = .fastFull ∨ plan.mode = .exactFull)
    (hfresh : Fresh va plan) (history : List (ValidationRun plan)) (run : ValidationRun plan)
    (hschema : structureErrors plan run.sourceSchemaMeta run.targetSchemaMeta = []) :
    VerdictRight sha256 va history run ↔ (CanonicallyEqual plan run.sourceRows run.targetRows →
        run.tokenAtStart = .valid ∧
        ∀ i < numPartitions plan, PartitionPasses sha256 va history run i) ∧
      (¬ CanonicallyEqual plan run.sourceRows run.targetRows →
        run.tokenAtStart ≠ .valid ∨ run.sourceRows.length ≠ run.targetRows.length ∨
        ∃ i < numPartitions plan, ¬ PartitionPasses sha256 va history run i) := by
  rw [VerdictRight, passed_after_iff hsha hcdc hmode hfresh]
  by_cases heq : CanonicallyEqual plan run.sourceRows run.targetRows
  · have hlen := heq.length_eq
    simp [heq, hschema, hlen]
  · simp only [heq, hschema, true_and, iff_false, not_and, not_forall, false_implies,
      not_false_eq_true, true_implies, exists_prop]
    constructor
    · intro h
      by_cases hstart : run.tokenAtStart = .valid
      · by_cases hlen : run.sourceRows.length = run.targetRows.length
        · exact .inr (.inr (h hstart hlen))
        · exact .inr (.inl hlen)
      · exact .inl hstart
    · rintro (h | h | h) hstart hlen
      · exact absurd hstart h
      · exact absurd hlen h
      · exact h

end Runs

/-! ## Two runs -/

/-- A number for every byte string. -/
def bytesNumber : List UInt8 → ℕ
  | [] => 0
  | b :: bytes => 256 * bytesNumber bytes + b.toNat + 1

theorem bytesNumber_injective : Function.Injective bytesNumber := by
  intro x y h
  induction x generalizing y with
  | nil =>
    cases y with
    | nil => rfl
    | cons c y =>
      simp only [bytesNumber] at h
      omega
  | cons b x ih =>
    cases y with
    | nil =>
      simp only [bytesNumber] at h
      omega
    | cons c y =>
      simp only [bytesNumber] at h
      have hb := b.toNat_lt
      have hc := c.toNat_lt
      have hbc : b.toNat = c.toNat := by omega
      rw [UInt8.toNat_inj.mp hbc, ih (show bytesNumber x = bytesNumber y by omega)]

/-- The digests of the texts below, and numbers that no digest reaches for all others. -/
def sampleDigests : List (List UInt8 × ℕ) :=
  [(utf8 "2:id:INT:1:1;",
      8251936055205254436072924015839378336546716732534865286372438718372253537944),
    (utf8 "2:id:INT:1:2;",
      54018134377257804313221351800918181201681853576664524325346262069207440796382),
    (utf8 "COUNT:2#ACCUM:0000000000000000000000000000000000000000000000000000000000000000",
      92209134772370018116704911891603252087342498047485729193939878390588534233380),
    (utf8 "COUNT:2#ACCUM:6553401d7b2fd49b8e365c15599a4eebfc0d5dffe9c438ed1b2db96589f7bc46",
      60744267081704723674507178213345583521761286842003220306224131178132512570994)]

/-- A hash without collisions that gives the texts below their digests. -/
def sampleSha256 (bytes : List UInt8) : ℕ :=
  match List.lookup bytes sampleDigests with
  | some d => d
  | none => 2 ^ 256 + bytesNumber bytes

theorem sampleSha256_injective : Function.Injective sampleSha256 := by
  have hsmall : ∀ entry ∈ sampleDigests, entry.2 < 2 ^ 256 := by decide
  have hdistinct : ∀ entry ∈ sampleDigests, ∀ entry' ∈ sampleDigests,
      entry.2 = entry'.2 → entry.1 = entry'.1 := by decide
  have hmem : ∀ {bytes d}, List.lookup bytes sampleDigests = some d →
      (bytes, d) ∈ sampleDigests := by
    intro bytes d h
    obtain ⟨l, l', hsplit, -⟩ := List.lookup_eq_some_iff.mp h
    simp [hsplit]
  intro x y h
  rw [sampleSha256, sampleSha256] at h
  cases hx : List.lookup x sampleDigests with
  | some d =>
    cases hy : List.lookup y sampleDigests with
    | some d' =>
      rw [hx, hy] at h
      exact hdistinct _ (hmem hx) _ (hmem hy) h
    | none =>
      rw [hx, hy] at h
      have hlt := hsmall _ (hmem hx)
      dsimp only at h hlt
      omega
  | none =>
    cases hy : List.lookup y sampleDigests with
    | some d' =>
      rw [hx, hy] at h
      have hlt := hsmall _ (hmem hy)
      dsimp only at h hlt
      omega
    | none =>
      rw [hx, hy] at h
      exact bytesNumber_injective (Nat.add_left_cancel h)

/-- A row with an id. -/
def idRow (id : ℤ) : PyRow where
  items := [("id", .int id)]
  nodup := by simp

/-- The canonical form of a row with an id. -/
def idFields (id : ℤ) : List CanonicalField := [⟨"id", "INT", intText id⟩]

/-- A plan with one partition. -/
def samplePlan : ValidationPlan where
  planId := "plan"
  migrationId := "mig"
  tableName := "customers"
  columnMapping := .empty
  mode := .fastFull
  partitionCount := 1
  cdcBoundaryPosition := none

/-- A façade with a durability authority that stores nothing yet. -/
def sampleAuthority : ValidationAuthority where
  durabilityAuthority := some fun _ => none
  dataProcessingAuthority := none
  cdcAuthority := none

/-- An uninterrupted run of the plan. -/
def sampleRun (sourceRows targetRows : List PyRow) : ValidationRun samplePlan where
  sourceRows := sourceRows
  targetRows := targetRows
  pkColumns := ["id"]
  sourceSchemaMeta := none
  targetSchemaMeta := none
  tokenAtStart := .valid
  tokenAtWorker := fun _ => .valid
  completionOrder := [0]
  completionOrder_perm := by decide

/-- Two rows in the other order on the target. -/
def reorderedRun : ValidationRun samplePlan := sampleRun [idRow 1, idRow 2] [idRow 2, idRow 1]

/-- Two copies of one row against two copies of another. -/
def duplicatesRun : ValidationRun samplePlan := sampleRun [idRow 1, idRow 1] [idRow 2, idRow 2]

/-- **The verdict on reordered rows.**  It is right, also after an earlier run. -/
theorem verdictRight_of_reordered :
    VerdictRight sampleSha256 sampleAuthority [duplicatesRun] reorderedRun := by
  have hsource : canonicalRows [idRow 1, idRow 2] = .ok [idFields 1, idFields 2] := rfl
  have htarget : canonicalRows [idRow 2, idRow 1] = .ok [idFields 2, idFields 1] := rfl
  have hperm : [idFields 1, idFields 2].Perm [idFields 2, idFields 1] := .swap _ _ _
  have heq : CanonicallyEqual samplePlan reorderedRun.sourceRows reorderedRun.targetRows :=
    ⟨_, _, hsource, htarget, hperm⟩
  refine (verdictRight_iff sampleSha256_injective rfl (.inl rfl) (fun _ => rfl) [duplicatesRun]
    reorderedRun rfl).mpr ⟨fun _ => ⟨rfl, fun i hi => ?_⟩, fun h => absurd heq h⟩
  have hi0 : i = 0 := Nat.lt_one_iff.mp hi
  subst hi0
  exact ⟨rfl, .inr ⟨_, _, hsource, htarget, rfl, cancels_of_perm hperm⟩⟩

/-- **Cancelling duplicates.**  Two copies of one row against two copies of another pass, though
the rows differ. -/
theorem not_verdictRight_of_cancelling_duplicates :
    ¬ VerdictRight sampleSha256 sampleAuthority [] duplicatesRun := by
  have hsource : canonicalRows [idRow 1, idRow 1] = .ok [idFields 1, idFields 1] := rfl
  have htarget : canonicalRows [idRow 2, idRow 2] = .ok [idFields 2, idFields 2] := rfl
  have hcancel : Cancels sampleSha256 [idFields 1, idFields 1] [idFields 2, idFields 2] := by
    have hodd : XorParity.oddPart ([idFields 1, idFields 1] ++ [idFields 2, idFields 2]) = [] := by
      decide
    rw [Cancels, hodd, XorParity.xorSum_nil]
  have hpassed : Passed (executeValidation sampleSha256
      (afterHistory sampleSha256 sampleAuthority ([] : List (ValidationRun samplePlan)))
      duplicatesRun).1 := by
    refine (passed_after_iff sampleSha256_injective rfl (.inl rfl) (fun _ => rfl) []
      duplicatesRun).mpr ⟨rfl, rfl, rfl, fun i hi => ?_⟩
    have hi0 : i = 0 := Nat.lt_one_iff.mp hi
    subst hi0
    exact ⟨rfl, .inr ⟨_, _, hsource, htarget, rfl, hcancel⟩⟩
  intro h
  obtain ⟨cs, ds, hcs, hds, hperm⟩ := h.mp hpassed
  rw [show duplicatesRun.sourceRows.map (renameColumns samplePlan.columnMapping) =
    [idRow 1, idRow 1] from rfl, hsource] at hcs
  rw [show duplicatesRun.targetRows = [idRow 2, idRow 2] from rfl, htarget] at hds
  cases hcs
  cases hds
  have hdiffer : ¬ [idFields 1, idFields 1].Perm [idFields 2, idFields 2] := by decide
  exact hdiffer hperm

end Validation

/-
# The writers of a migration

Runs of `issue_token`, `save_checkpoint`, `save_row_position` and `save_watermark` by any workers: each
resource has its own newest token, and a migration is written under the tokens of several resources.

* `Ledger.newest_of_current` : the token that has the current epoch of a resource;
* `fenced_mutations` : what holds of every mutation that is accepted;
* `not_singleWriter_of_parts` : two workers that both write the checkpoint of a migration.
-/
import Akaal.Watermarks

open CDC JsonText TransitionRun

namespace Durability

/-! ## Mutations -/

/-- A mutation of the checkpoint or the watermarks of a migration, under a token. -/
inductive Mutation where
  | saveCheckpoint (checkpoint : MigrationCheckpoint) (token : FencingToken) (now : String)
      (fits : Bool)
  | saveRowPosition (migrationId tableName : String) (position : RowPosition) (token : FencingToken)
      (now : String) (fits : Bool)
  | saveWatermark (watermark : Watermark) (token : FencingToken) (now : String)

namespace Mutation

/-- The token of a mutation. -/
def token : Mutation → FencingToken
  | saveCheckpoint _ token _ _ | saveRowPosition _ _ _ token _ _ | saveWatermark _ token _ => token

/-- The migration that is changed. -/
def migrationId : Mutation → String
  | saveCheckpoint checkpoint _ _ _ => checkpoint.migrationId
  | saveRowPosition migrationId _ _ _ _ _ => migrationId
  | saveWatermark watermark _ _ => watermark.migrationId

end Mutation

/-- The tables, and the tokens that were issued, the newest one last. -/
structure FencedRun where
  epochs : EpochTable
  checkpoints : CheckpointTable
  watermarks : WatermarkTable
  issued : List FencingToken

/-- What any worker does next. -/
inductive FencedAction where
  | issueToken (resourceId workerId now : String)
  | mutate (mutation : Mutation)

namespace FencedRun

/-- The run before the first action. -/
def empty : FencedRun := ⟨PyDict.empty, PyDict.empty, PyDict.empty, []⟩

/-- The fencing epoch that is stored with what a mutation changes. -/
def storedEpoch (s : FencedRun) : Mutation → Option ℤ
  | .saveCheckpoint checkpoint _ _ _ =>
    (s.checkpoints.get? checkpoint.migrationId).map CheckpointRow.fencingEpoch
  | .saveRowPosition migrationId _ _ _ _ _ =>
    (s.checkpoints.get? migrationId).map CheckpointRow.fencingEpoch
  | .saveWatermark watermark _ _ =>
    (getWatermarkRow s.watermarks watermark.migrationId watermark.tableName).map
      WatermarkRow.fencingEpoch

section Runs

variable {δ : Type} (rt : WatermarkRuntime δ) (signingKey : List UInt8)

/-- A mutation; `none` when it raises. -/
def mutate (s : FencedRun) : Mutation → Option FencedRun
  | .saveCheckpoint checkpoint token now fits =>
    (saveCheckpoint rt.toDigestRuntime signingKey s.epochs s.checkpoints checkpoint token now
      fits).toOption.map fun checkpoints => { s with checkpoints := checkpoints }
  | .saveRowPosition migrationId tableName position token now fits =>
    (saveRowPosition rt.toDigestRuntime signingKey s.epochs s.checkpoints migrationId tableName
      position token now fits).toOption.map fun checkpoints => { s with checkpoints := checkpoints }
  | .saveWatermark watermark token now =>
    (saveWatermark rt signingKey s.epochs s.watermarks watermark token now).toOption.map
      fun watermarks => { s with watermarks := watermarks }

/-- A step; a mutation that raises leaves the tables as they are. -/
def step (s : FencedRun) : FencedAction → Option FencedRun
  | .issueToken resourceId workerId now =>
    let result := issueToken rt.toDigestRuntime signingKey s.epochs resourceId workerId now
    some { s with epochs := result.2, issued := s.issued ++ [result.1] }
  | .mutate mutation => some ((s.mutate rt signingKey mutation).getD s)

/-- A mutation under the newest of the tokens that cover the migration, which is stored under the epoch
of this token. -/
def SingleWriter (s : FencedRun) (mutation : Mutation) (s' : FencedRun) : Prop :=
  (∃ before after, s.issued = before ++ mutation.token :: after ∧
    ∀ t ∈ after, covers t.resourceId mutation.migrationId = false) ∧
  covers mutation.token.resourceId mutation.migrationId = true ∧
  s'.storedEpoch mutation = some mutation.token.fencingEpoch

/-- The epoch that a mutation brings with it; a position has none. -/
def givenEpoch : Mutation → Option ℤ
  | .saveCheckpoint checkpoint _ _ _ => some checkpoint.fencingEpoch
  | .saveRowPosition _ _ _ _ _ _ => none
  | .saveWatermark watermark _ _ => some watermark.fencingEpoch

/-- A mutation under the newest token of its own resource. -/
structure Fenced (s : FencedRun) (mutation : Mutation) (s' : FencedRun) : Prop where
  signed : mutation.token.signature = rt.hmacHex signingKey mutation.token.data
  newest : ∃ before t after, s.issued = before ++ t :: after ∧
    t.resourceId = mutation.token.resourceId ∧ t.fencingEpoch = mutation.token.fencingEpoch ∧
    (∀ t' ∈ after, t'.resourceId ≠ mutation.token.resourceId) ∧
    (mutation.token ∈ s.issued → mutation.token = t)
  covered : ∀ epoch, givenEpoch mutation = some epoch →
    covers mutation.token.resourceId mutation.migrationId = true
  stored : ∃ epoch, s'.storedEpoch mutation = some epoch ∧
    (∀ given, givenEpoch mutation = some given → epoch = given) ∧
    (givenEpoch mutation = none → s.storedEpoch mutation = some epoch) ∧
    ∀ old, s.storedEpoch mutation = some old → old ≤ epoch

end Runs

end FencedRun

/-! ## The newest token of a resource -/

section Newest

variable {rt : DigestRuntime} {signingKey : List UInt8} {table : EpochTable}
  {issued : List FencingToken}

theorem Ledger.eq_of_epoch (h : Ledger rt signingKey table issued) {t t' : FencingToken}
    (ht : t ∈ issued) (ht' : t' ∈ issued) (hresource : t.resourceId = t'.resourceId)
    (hepoch : t.fencingEpoch = t'.fencingEpoch) : t = t' := by
  obtain ⟨before, after, rfl⟩ := List.append_of_mem ht
  have hgrowing := h.growing
  obtain ⟨-, hrest, hcross⟩ := List.pairwise_append.mp hgrowing
  rcases List.mem_append.mp ht' with hbefore | hafter
  · have hlt := hcross t' hbefore t List.mem_cons_self hresource.symm
    omega
  · rcases List.mem_cons.mp hafter with rfl | hlater
    · rfl
    · have hlt := (List.pairwise_cons.mp hrest).1 t' hlater hresource
      omega

/-- **The token that has the current epoch of a resource** is the newest one of it. -/
theorem Ledger.newest_of_current (h : Ledger rt signingKey table issued) {token : FencingToken}
    {row : EpochRow} (hrow : table.get? token.resourceId = some row)
    (hepoch : token.fencingEpoch = row.currentEpoch) :
    ∃ before t after, issued = before ++ t :: after ∧ t.resourceId = token.resourceId ∧
      t.fencingEpoch = token.fencingEpoch ∧ (∀ t' ∈ after, t'.resourceId ≠ token.resourceId) ∧
      (token ∈ issued → token = t) := by
  obtain ⟨t, ht, hresource, hcurrent⟩ := h.recorded _ row hrow
  have hsame : t.fencingEpoch = token.fencingEpoch := hcurrent.trans hepoch.symm
  obtain ⟨before, after, hissued⟩ := List.append_of_mem ht
  refine ⟨before, t, after, hissued, hresource, hsame, ?_, ?_⟩
  · rw [← hresource]
    exact (h.current_iff hissued).mp ⟨row, hresource ▸ hrow, hcurrent⟩
  · exact fun hmem => h.eq_of_epoch hmem ht hresource.symm hsame.symm

end Newest

namespace FencedRun

section Fencing

variable {δ : Type} {rt : WatermarkRuntime δ} {signingKey : List UInt8} {s s' : FencedRun}

/-- The tables of tokens are those of the tokens that were issued. -/
def Kept (rt : WatermarkRuntime δ) (signingKey : List UInt8) (s : FencedRun) : Prop :=
  Ledger rt.toDigestRuntime signingKey s.epochs s.issued

theorem eq_ok_of_toOption {ε α : Type*} {result : Except ε α} {a : α}
    (h : result.toOption = some a) : result = .ok a := by
  cases result with
  | error e => cases h
  | ok b => exact congrArg Except.ok (Option.some.inj h)

variable {mutation : Mutation}

theorem mutate_epochs (h : s.mutate rt signingKey mutation = some s') :
    s'.epochs = s.epochs ∧ s'.issued = s.issued := by
  cases mutation with
  | saveCheckpoint checkpoint token now fits =>
    obtain ⟨_, -, rfl⟩ := Option.map_eq_some_iff.mp h
    exact ⟨rfl, rfl⟩
  | saveRowPosition migrationId tableName position token now fits =>
    obtain ⟨_, -, rfl⟩ := Option.map_eq_some_iff.mp h
    exact ⟨rfl, rfl⟩
  | saveWatermark watermark token now =>
    obtain ⟨_, -, rfl⟩ := Option.map_eq_some_iff.mp h
    exact ⟨rfl, rfl⟩

theorem Kept.step (hs : Kept rt signingKey s) {action : FencedAction}
    (hstep : s.step rt signingKey action = some s') : Kept rt signingKey s' := by
  cases action with
  | issueToken resourceId workerId now =>
    cases hstep
    exact hs.issue resourceId workerId now
  | mutate mutation =>
    cases hstep
    cases hmutate : s.mutate rt signingKey mutation with
    | none => exact hs
    | some t =>
      obtain ⟨hepochs, hissued⟩ := mutate_epochs hmutate
      show Ledger rt.toDigestRuntime signingKey t.epochs t.issued
      rw [hepochs, hissued]
      exact hs

theorem validateTokenInTx_of_mutate (h : s.mutate rt signingKey mutation = some s') :
    validateTokenInTx rt.toDigestRuntime signingKey s.epochs mutation.token = .ok () := by
  cases mutation with
  | saveCheckpoint checkpoint token now fits =>
    obtain ⟨_, hsave, -⟩ := Option.map_eq_some_iff.mp h
    exact (saveCheckpoint_spec (eq_ok_of_toOption hsave)).2.1
  | saveRowPosition migrationId tableName position token now fits =>
    obtain ⟨_, hsave, -⟩ := Option.map_eq_some_iff.mp h
    exact (saveRowPosition_spec (eq_ok_of_toOption hsave)).1
  | saveWatermark watermark token now =>
    obtain ⟨_, hsave, -⟩ := Option.map_eq_some_iff.mp h
    exact (saveWatermark_spec (eq_ok_of_toOption hsave)).2.1

theorem covers_of_mutate (h : s.mutate rt signingKey mutation = some s')
    {epoch : ℤ} (hepoch : givenEpoch mutation = some epoch) :
    covers mutation.token.resourceId mutation.migrationId = true := by
  cases mutation with
  | saveCheckpoint checkpoint token now fits =>
    obtain ⟨_, hsave, -⟩ := Option.map_eq_some_iff.mp h
    exact (saveCheckpoint_spec (eq_ok_of_toOption hsave)).1
  | saveRowPosition migrationId tableName position token now fits => cases hepoch
  | saveWatermark watermark token now =>
    obtain ⟨_, hsave, -⟩ := Option.map_eq_some_iff.mp h
    exact (saveWatermark_spec (eq_ok_of_toOption hsave)).1

/-- The epoch that is stored is the one that was given, and no lower than the one before. -/
theorem storedEpoch_of_mutate (h : s.mutate rt signingKey mutation = some s') :
    ∃ epoch, s'.storedEpoch mutation = some epoch ∧
      (∀ given, givenEpoch mutation = some given → epoch = given) ∧
      (givenEpoch mutation = none → s.storedEpoch mutation = some epoch) ∧
      ∀ old, s.storedEpoch mutation = some old → old ≤ epoch := by
  cases mutation with
  | saveCheckpoint checkpoint token now fits =>
    obtain ⟨_, hsave, rfl⟩ := Option.map_eq_some_iff.mp h
    obtain ⟨-, -, holder, text, -, rfl⟩ := saveCheckpoint_spec (eq_ok_of_toOption hsave)
    refine ⟨checkpoint.fencingEpoch, ?_, ?_, nofun, ?_⟩
    · rw [storedEpoch, PyDict.get?_set]
      rfl
    · rintro _ ⟨⟩
      rfl
    · intro old hold
      obtain ⟨row, hrow, rfl⟩ := Option.map_eq_some_iff.mp hold
      exact holder row hrow
  | saveRowPosition migrationId tableName position token now fits =>
    obtain ⟨_, hsave, rfl⟩ := Option.map_eq_some_iff.mp h
    obtain ⟨-, row, _, _, text, hrow, -, -, -, rfl⟩ := saveRowPosition_spec (eq_ok_of_toOption hsave)
    have hsame : s.storedEpoch (.saveRowPosition migrationId tableName position token now fits) =
        some row.fencingEpoch := by
      rw [storedEpoch, hrow]
      rfl
    refine ⟨row.fencingEpoch, ?_, nofun, fun _ => hsame, ?_⟩
    · rw [storedEpoch, PyDict.get?_set]
      rfl
    · intro old hold
      rw [hsame, Option.some.injEq] at hold
      exact hold.ge
  | saveWatermark watermark token now =>
    obtain ⟨_, hsave, rfl⟩ := Option.map_eq_some_iff.mp h
    obtain ⟨-, -, hcheck, row, hrow, rfl⟩ := saveWatermark_spec (eq_ok_of_toOption hsave)
    refine ⟨watermark.fencingEpoch, ?_, ?_, nofun, ?_⟩
    · rw [storedEpoch, getWatermarkRow_set, Option.map_some, hrow]
    · rintro _ ⟨⟩
      rfl
    · intro old hold
      obtain ⟨row', hrow', rfl⟩ := Option.map_eq_some_iff.mp hold
      exact le_of_checkWatermark hcheck hrow'

theorem Kept.fenced (hs : Kept rt signingKey s)
    (h : s.mutate rt signingKey mutation = some s') : Fenced rt signingKey s mutation s' := by
  obtain ⟨hsigned, row, hrow, hepoch⟩ :=
    (validateTokenInTx_eq_ok_iff mutation.token).mp (validateTokenInTx_of_mutate h)
  exact ⟨hsigned, hs.newest_of_current hrow hepoch, fun _ => covers_of_mutate h,
    storedEpoch_of_mutate h⟩

/-- **The mutations of a run.**  In every run by any workers, every mutation that is accepted is under a
token that has the signature and the epoch of the newest token of its own resource, for a checkpoint
and a watermark this resource is the migration or a part of it, and the epoch that is stored is the
one that was given with them and never decreases. -/
theorem fenced_mutations (rt : WatermarkRuntime δ) (signingKey : List UInt8)
    (actions : List FencedAction) :
    HoldsAlong (step rt signingKey)
      (fun s => ∀ mutation s', s.mutate rt signingKey mutation = some s' →
        Fenced rt signingKey s mutation s') empty actions := by
  have hempty : Kept rt signingKey empty := ledger_empty
  have hkept : HoldsAlong (step rt signingKey) (Kept rt signingKey) empty actions :=
    HoldsAlong.of_step (fun _ _ _ hs hstep => Kept.step hs hstep) hempty actions
  refine hkept.imp fun s hs => ?_
  intro mutation s' h
  exact Kept.fenced hs h

end Fencing

/-! ## Two writers -/

/-- Digests that are their texts; nothing is read. -/
def textWatermarks : WatermarkRuntime Unit where
  toDigestRuntime := ⟨id, fun _ text => text, fun _ => ""⟩
  float _ := none
  text _ := ""
  fromIsoFormat _ := none
  less _ _ := none

/-- A checkpoint of the migration `m`. -/
def checkpointOfMigration : MigrationCheckpoint where
  migrationId := "m"
  jobId := "b"
  fencingEpoch := 1
  status := "RUNNING"
  endpointIdentity := none
  tableCheckpoints := PyDict.empty
  metadata := []
  isInput := isInput_noMetadata

/-- A token for the migration. -/
def migrationToken : FencingToken := (issueToken textWatermarks.toDigestRuntime [] PyDict.empty "m" "w1"
  "2024-01-01").1

/-- A token for a part of it. -/
def partToken : FencingToken := (issueToken textWatermarks.toDigestRuntime [] PyDict.empty "m/x" "w2"
  "2024-01-02").1

/-- The two tokens are issued. -/
def issuedTwice : List FencedAction :=
  [.issueToken "m" "w1" "2024-01-01", .issueToken "m/x" "w2" "2024-01-02"]

/-- The older one is used. -/
def saveUnderFirst : Mutation := .saveCheckpoint checkpointOfMigration migrationToken "2024-01-03" true

/-- **Two writers.**  The token of the migration is accepted after a newer one was issued that covers
it. -/
theorem not_singleWriter_of_parts :
    ¬ ∀ (rt : WatermarkRuntime Unit) signingKey actions, HoldsAlong (step rt signingKey)
      (fun s => ∀ mutation s', s.mutate rt signingKey mutation = some s' →
        SingleWriter s mutation s') empty actions := by
  intro h
  have hresult : (run (step textWatermarks []) empty issuedTwice).map (fun s =>
      (s.issued, (s.mutate textWatermarks [] saveUnderFirst).isSome)) =
      some ([migrationToken, partToken], true) := by
    decide +kernel
  obtain ⟨s, hrun, hresult⟩ := Option.map_eq_some_iff.mp hresult
  obtain ⟨hissued, haccepted⟩ := Prod.mk.inj hresult
  obtain ⟨s', hmutate⟩ := Option.isSome_iff_exists.mp haccepted
  obtain ⟨⟨before, after, hsplit, hnewest⟩, -⟩ :=
    (h textWatermarks [] issuedTwice).finish hrun saveUnderFirst s' hmutate
  rw [hissued] at hsplit
  cases before with
  | nil =>
    obtain ⟨-, rfl⟩ := List.cons.inj hsplit
    exact absurd (hnewest partToken (List.mem_singleton_self _)) (by decide +kernel)
  | cons t before =>
    obtain ⟨-, hrest⟩ := List.cons.inj hsplit
    have hmem : migrationToken ∈ [partToken] := by
      rw [hrest]
      exact List.mem_append_right before List.mem_cons_self
    exact absurd hmem (by decide +kernel)

end FencedRun

end Durability

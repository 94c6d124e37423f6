/-
# What becomes of an idempotency record

The operations of `DurabilityAuthority` by any workers, where the statements of a rollback operation may
be interleaved with all others: a record changes by the table of transitions, except that
`rollback_batch` abandons it from any state.

* `abandon_evolves_iff` : when the update of `rollback_batch` follows the table;
* `perform_evolves` : all other operations do;
* `evolves_iff` : the runs in which every change follows the table;
* `not_evolves_of_rollback` : a committed record that is abandoned.
-/
import Akaal.DurabilityAuthority

open CDC TransitionRun

namespace Durability

/-! ## One step -/

section Steps

variable {rt : DigestRuntime} {rb : RollbackRuntime} {signingKey anchorKey : List UInt8}
  {t t' : DurabilityTables}

theorem abandoned_mem_allowedTransitions {state : IdempotencyState} (h : state ≠ .committed)
    (hne : .abandoned ≠ state) : .abandoned ∈ allowedTransitions state := by
  cases state with
  | committed => exact absurd rfl h
  | abandoned => exact absurd rfl hne
  | reserved => decide
  | inProgress => decide
  | failed => decide

/-- The update of `rollback_batch` follows the table of transitions precisely when the record is not
committed. -/
theorem abandon_evolves_iff (batchId now : String) (table : IdempotencyTable) :
    TableEvolves table (abandon batchId now table) ↔
      ∀ row, table.get? batchId = some row → row.state ≠ .committed := by
  unfold abandon
  cases hrow : table.get? batchId with
  | none => exact iff_of_true (TableEvolves.refl table) nofun
  | some row =>
    dsimp only
    rw [tableEvolves_set_iff, hrow]
    constructor
    · rintro h _ ⟨⟩ hcommitted
      have hsame := congrArg IdempotencyRow.state ((h row rfl).final hcommitted)
      rw [hcommitted] at hsame
      cases hsame
    · rintro h _ ⟨⟩
      have hstate := h row rfl
      exact ⟨fun hne => abandoned_mem_allowedTransitions hstate hne,
        fun hcommitted => absurd hcommitted hstate, le_rfl, rfl⟩

theorem transitionStateIn_evolves {call : TransitionCall} (h : transitionStateIn t call = .ok t') :
    TableEvolves t.idempotency t'.idempotency := by
  unfold transitionStateIn at h
  cases hcall : transitionState t.idempotency call with
  | error e =>
    rw [hcall] at h
    cases h
  | ok idempotency =>
    rw [hcall] at h
    cases h
    exact transitionState_evolves hcall

/-- A saved checkpoint leaves the records alone. -/
theorem saveCheckpointIn_idempotency {checkpoint : MigrationCheckpoint} {token : FencingToken}
    {now : String} {fits : Bool}
    (h : saveCheckpointIn rt signingKey t checkpoint token now fits = .ok t') :
    t'.idempotency = t.idempotency := by
  unfold saveCheckpointIn at h
  split at h
  · cases h
  · cases h
    rfl

theorem appendRecordIn_idempotency {call : JournalTables.AppendCall}
    (h : appendRecordIn rt t call = .ok t') : t'.idempotency = t.idempotency := by
  unfold appendRecordIn at h
  split at h
  · cases h
  · cases h
    rfl

/-- **Operations that are one transaction** follow the table of transitions. -/
theorem perform_evolves {call : AuthorityCall} (h : perform rt signingKey anchorKey t call = .ok t') :
    TableEvolves t.idempotency t'.idempotency := by
  have hkept : t'.idempotency = t.idempotency → TableEvolves t.idempotency t'.idempotency := by
    intro heq
    rw [heq]
    exact TableEvolves.refl _
  cases call with
  | transitionIdempotencyState call => exact transitionStateIn_evolves h
  | transitionIdempotencyWithCheckpoint call checkpoint token now fits =>
    obtain ⟨u, hu, h⟩ := Traversal.bind_eq_ok_iff.mp h
    rw [saveCheckpointIn_idempotency h]
    exact transitionStateIn_evolves hu
  | saveCheckpointWithJournal checkpoint token now fits call =>
    obtain ⟨u, hu, h⟩ := Traversal.bind_eq_ok_iff.mp h
    exact hkept ((appendRecordIn_idempotency h).trans (saveCheckpointIn_idempotency hu))
  | saveCheckpoint checkpoint token now fits => exact hkept (saveCheckpointIn_idempotency h)
  | appendJournalRecord call => exact hkept (appendRecordIn_idempotency h)
  | saveRowPosition migrationId tableName position token now fits =>
    rw [perform] at h
    split at h
    · cases h
    · cases h
      exact hkept rfl
  | issueFencingToken resourceId workerId now =>
    cases h
    exact hkept rfl
  | compactJournal b now =>
    cases h
    exact hkept rfl
  | purgeExpiredJournalRecords cutoff now =>
    cases h
    exact hkept rfl

/-- A step that does not abandon a committed record. -/
def SparesCommitted (t : DurabilityTables) : AuthorityAction → Prop
  | .statement (.abandon batchId _) false =>
    ∀ row, t.idempotency.get? batchId = some row → row.state ≠ .committed
  | _ => True

/-- **A step** follows the table of transitions precisely when it does not abandon a committed
record. -/
theorem authorityStep_evolves_iff {action : AuthorityAction}
    (h : authorityStep rt rb signingKey anchorKey t action = some t') :
    TableEvolves t.idempotency t'.idempotency ↔ SparesCommitted t action := by
  have hkept : t'.idempotency = t.idempotency → TableEvolves t.idempotency t'.idempotency := by
    intro heq
    rw [heq]
    exact TableEvolves.refl _
  cases action with
  | call call =>
    cases h
    refine iff_of_true ?_ trivial
    cases hcall : perform rt signingKey anchorKey t call with
    | error e => exact TableEvolves.refl _
    | ok u => exact perform_evolves hcall
  | statement statement fails =>
    cases h
    cases fails with
    | true => exact iff_of_true (TableEvolves.refl _) (by cases statement <;> trivial)
    | false =>
      cases statement with
      | abandon batchId now => exact abandon_evolves_iff batchId now t.idempotency
      | setStatus status batchId now =>
        refine iff_of_true (hkept ?_) trivial
        unfold RollbackStatement.execute
        rw [if_neg Bool.false_ne_true]
        dsimp only
        split <;> rfl
      | append call =>
        refine iff_of_true (hkept ?_) trivial
        unfold RollbackStatement.execute
        rw [if_neg Bool.false_ne_true]
        dsimp only
        cases happend : appendRecordIn rt t call with
        | error e => rfl
        | ok u => exact appendRecordIn_idempotency happend

end Steps

/-! ## Runs -/

/-- The tables before and after the last step. -/
structure IdempotencyRun where
  before : DurabilityTables
  tables : DurabilityTables

namespace IdempotencyRun

section Runs

variable (rt : DigestRuntime) (rb : RollbackRuntime) (signingKey anchorKey : List UInt8)

/-- One step. -/
def step (s : IdempotencyRun) (action : AuthorityAction) : Option IdempotencyRun :=
  (authorityStep rt rb signingKey anchorKey s.tables action).map fun t => ⟨s.tables, t⟩

/-- The last step followed the table of transitions. -/
def Evolved (s : IdempotencyRun) : Prop := TableEvolves s.before.idempotency s.tables.idempotency

/-- **What becomes of the records.**  In every run of the operations from any tables, all changes of all
records follow the table of transitions, keep the fingerprint, do not decrease the epoch and end with
a commit, precisely when no rollback abandons a committed record. -/
theorem evolves_iff (t : DurabilityTables) (actions : List AuthorityAction) :
    HoldsAlong (step rt rb signingKey anchorKey) Evolved ⟨t, t⟩ actions ↔
      MeetsAlong (step rt rb signingKey anchorKey) (fun s action => SparesCommitted s.tables action)
        ⟨t, t⟩ actions := by
  have hstart : Evolved ⟨t, t⟩ := TableEvolves.refl _
  refine holdsAlong_iff_meetsAlong (I := fun _ => True) (fun _ _ _ _ _ => trivial) ?_ trivial hstart
    actions
  intro s action s' _ _ hstep
  obtain ⟨t', ht', rfl⟩ := Option.map_eq_some_iff.mp hstep
  exact authorityStep_evolves_iff ht'

end Runs

/-- A transition of a new key to a committed record. -/
def commitKey : TransitionCall where
  idempotencyKey := "b"
  expectedState := none
  newState := .committed
  fencingEpoch := 1
  inputFingerprint := "f"
  resultHash := none
  migrationId := "m"
  now := "2024-01-01"
  fits := true

/-- A commit, and the first two statements of `rollback_batch` after it. -/
def rolledBack : List AuthorityAction :=
  .call (.transitionIdempotencyState commitKey) ::
    ((rollbackBatch "b" "2024-01-02" "2024-01-02" true "m").take 2).map (.statement · false)

/-- **A rollback** abandons a committed record. -/
theorem not_evolves_of_rollback : ¬ ∀ rt rb signingKey anchorKey t actions,
      HoldsAlong (step rt rb signingKey anchorKey) Evolved ⟨t, t⟩ actions := by
  intro h
  have hstates : (run (step JournalRun.textRuntime ⟨fun _ _ => none, id⟩ [] []) ⟨.empty, .empty⟩
      rolledBack).map (fun s => ((s.before.idempotency.get? "b").map IdempotencyRow.state,
        (s.tables.idempotency.get? "b").map IdempotencyRow.state)) =
      some (some .committed, some .abandoned) := by
    decide +kernel
  obtain ⟨s, hrun, hstates⟩ := Option.map_eq_some_iff.mp hstates
  obtain ⟨hbefore, hafter⟩ := Prod.mk.inj hstates
  obtain ⟨row, hrow, hcommitted⟩ := Option.map_eq_some_iff.mp hbefore
  have hevolved : Evolved s := (h JournalRun.textRuntime ⟨fun _ _ => none, id⟩ [] [] .empty
    rolledBack).finish hrun
  obtain ⟨row', hrow', hevolves⟩ := hevolved "b" row hrow
  rw [hrow', hevolves.final hcommitted, Option.map_some, hcommitted] at hafter
  cases hafter

end IdempotencyRun

end Durability

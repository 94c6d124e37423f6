/-
# When a rollback operation is atomic

`stage_pending_rollback`, `record_rollback_failure` and `rollback_batch` of
`akaalEngine/durability/api.py`: in autocommit mode a statement that raises does not undo the ones before
it.

* `setStatus_statement_spec`, `append_statement_spec` : when a statement raises, and what it does;
* `rollback_atomic_iff` : when a call that raises leaves all tables as they were;
* `not_atomic_of_repetition` : a second call.
-/
import Akaal.DurabilityAuthority

open CDC JsonText Autocommit

namespace PyDict

theorem setItem_eq_self {α : Type*} {items : List (String × α)} {key : String} {value : α}
    (h : items.lookup key = some value) : setItem key value items = items := by
  induction items with
  | nil => cases h
  | cons item items ih =>
    rw [setItem]
    split_ifs with hkey
    · subst hkey
      rw [List.lookup_cons_self, Option.some.injEq] at h
      rw [← h]
    · rw [List.lookup_cons, beq_false_of_ne (Ne.symm hkey)] at h
      rw [ih h]

theorem set_eq_self_iff {α : Type*} {d : PyDict α} {key : String} {value value' : α}
    (h : d.get? key = some value) : d.set key value' = d ↔ value' = value := by
  constructor
  · intro heq
    have hget := get?_set d key value'
    rw [heq, h] at hget
    exact (Option.some.inj hget).symm
  · rintro rfl
    rw [PyDict.ext_iff]
    exact setItem_eq_self h

end PyDict

namespace Durability

section Atomicity

variable (rt : DigestRuntime) (rb : RollbackRuntime) (fails : RollbackStatement → Bool)

/-! ## The statements -/

/-- The update of the checkpoints of a batch raises. -/
def SetStatusRaises (status batchId now : String) (t : DurabilityTables) : Prop :=
  fails (.setStatus status batchId now) = true ∨
    ∃ item ∈ t.checkpoints.items, item.2.jobId = batchId ∧
      rb.jsonSetStatus item.2.checkpointJson status = none

/-- The checkpoints of a batch have this status and this time already. -/
def StatusKept (status batchId now : String) (t : DurabilityTables) : Prop :=
  ∀ item ∈ t.checkpoints.items, item.2.jobId = batchId →
    rb.jsonSetStatus item.2.checkpointJson status = some item.2.checkpointJson ∧
      item.2.updatedAt = now

/-- The record of a batch is abandoned since this time already. -/
def AbandonKept (batchId now : String) (t : DurabilityTables) : Prop :=
  ∀ row, t.idempotency.get? batchId = some row → row.state = .abandoned ∧ row.updatedAt = now

/-- The record of a call is not appended. -/
def AppendRaises (call : JournalTables.AppendCall) (t : DurabilityTables) : Prop :=
  fails (.append call) = true ∨ ∀ text, ¬ JournalRun.Admitted t.journal call text

variable {rt rb fails}

/-- **The update of the checkpoints** raises, or sets the status of those of the batch. -/
theorem setStatus_statement_spec (status batchId now : String) (t : DurabilityTables) :
    ((∃ e, (RollbackStatement.setStatus status batchId now).execute rt rb fails t = .error e) ↔
      SetStatusRaises rb fails status batchId now t) ∧
    ∀ t', (RollbackStatement.setStatus status batchId now).execute rt rb fails t = .ok t' →
      t' = { t with checkpoints := t.checkpoints.mapValues (withStatus rb status batchId now) } := by
  unfold RollbackStatement.execute SetStatusRaises
  by_cases hfails : fails (.setStatus status batchId now) = true
  · rw [if_pos hfails]
    exact ⟨iff_of_true ⟨_, rfl⟩ (.inl hfails), nofun⟩
  · rw [if_neg hfails, or_iff_right hfails]
    dsimp only
    unfold Durability.setStatus
    by_cases hmalformed : (t.checkpoints.items.any fun item => item.2.jobId = batchId &&
        (rb.jsonSetStatus item.2.checkpointJson status).isNone) = true
    · rw [if_pos hmalformed]
      refine ⟨iff_of_true ⟨_, rfl⟩ ?_, nofun⟩
      simpa using hmalformed
    · rw [if_neg hmalformed]
      refine ⟨iff_of_false nofun ?_, ?_⟩
      · simpa using hmalformed
      · rintro _ ⟨⟩
        rfl

/-- The update of the checkpoints changes nothing precisely when all of the batch have the status and
the time already. -/
theorem mapValues_withStatus_iff {status batchId now : String} {t : DurabilityTables}
    (h : ¬ SetStatusRaises rb fails status batchId now t) :
    t.checkpoints.mapValues (withStatus rb status batchId now) = t.checkpoints ↔
      StatusKept rb status batchId now t := by
  rw [PyDict.mapValues_eq_self_iff]
  refine forall₂_congr fun item hitem => ?_
  unfold withStatus
  by_cases hjob : item.2.jobId = batchId
  · rw [if_pos hjob, imp_iff_right hjob]
    cases hset : rb.jsonSetStatus item.2.checkpointJson status with
    | none => exact absurd (.inr ⟨item, hitem, hjob, hset⟩) h
    | some text =>
      rw [Option.getD_some, Option.some.injEq]
      constructor
      · intro heq
        exact ⟨congrArg CheckpointRow.checkpointJson heq, (congrArg CheckpointRow.updatedAt heq).symm⟩
      · rintro ⟨hjson, htime⟩
        rw [hjson, ← htime]
  · rw [if_neg hjob]
    exact iff_of_true rfl fun heq => absurd heq hjob

theorem abandon_eq_self_iff {batchId now : String} {t : DurabilityTables} :
    Durability.abandon batchId now t.idempotency = t.idempotency ↔ AbandonKept batchId now t := by
  unfold Durability.abandon AbandonKept
  cases hrow : t.idempotency.get? batchId with
  | none => exact iff_of_true rfl nofun
  | some row =>
    dsimp only
    rw [PyDict.set_eq_self_iff hrow]
    constructor
    · rintro heq _ ⟨⟩
      exact ⟨(congrArg IdempotencyRow.state heq).symm, (congrArg IdempotencyRow.updatedAt heq).symm⟩
    · intro h
      obtain ⟨hstate, htime⟩ := h row rfl
      rw [← hstate, ← htime]

/-- The update of the record of a batch raises only when SQLite fails. -/
theorem abandon_statement_eq (batchId now : String) (t : DurabilityTables) :
    (RollbackStatement.abandon batchId now).execute rt rb fails t =
      if fails (.abandon batchId now) then .error .sqlite
      else .ok { t with idempotency := Durability.abandon batchId now t.idempotency } := rfl

/-- The append raises when its record is not admitted. -/
theorem append_statement_spec (call : JournalTables.AppendCall) (t : DurabilityTables) :
    (∃ e, (RollbackStatement.append call).execute rt rb fails t = .error e) ↔
      AppendRaises fails call t := by
  unfold RollbackStatement.execute AppendRaises
  by_cases hfails : fails (.append call) = true
  · rw [if_pos hfails]
    exact iff_of_true ⟨_, rfl⟩ (.inl hfails)
  · rw [if_neg hfails, or_iff_right hfails]
    dsimp only
    unfold appendRecordIn
    rcases @JournalRun.appendRecord_cases rt t.journal call with
      ⟨⟨e, heq⟩, hnone⟩ | ⟨text, hadmitted, heq⟩
    · rw [heq]
      exact iff_of_true ⟨_, rfl⟩ hnone
    · rw [heq]
      exact iff_of_false nofun fun hnone => hnone text hadmitted

/-! ## The calls -/

theorem restores_append_iff (call : JournalTables.AppendCall) (t target : DurabilityTables) :
    Restores [(RollbackStatement.append call).execute rt rb fails] t target ↔
      (AppendRaises fails call t → t = target) := by
  rw [restores_cons_iff, ← @append_statement_spec rt rb fails]
  constructor
  · rintro ⟨h, -⟩ ⟨e, herror⟩
    exact h e herror
  · intro h
    exact ⟨fun e herror => h ⟨e, herror⟩, fun s' _ => restores_nil s' target⟩

/-- An update of the checkpoints and what follows it. -/
theorem restores_setStatus_iff (status batchId now : String)
    (sts : List (DurabilityTables → Except AuthorityError DurabilityTables)) (t : DurabilityTables) :
    Restores ((RollbackStatement.setStatus status batchId now).execute rt rb fails :: sts) t t ↔
      (¬ SetStatusRaises rb fails status batchId now t → Restores sts
          { t with checkpoints := t.checkpoints.mapValues (withStatus rb status batchId now) } t) := by
  obtain ⟨hraises, hwritten⟩ := @setStatus_statement_spec rt rb fails status
    batchId now t
  rw [restores_cons_iff, and_iff_right fun _ _ => rfl, ← hraises]
  cases hst : (RollbackStatement.setStatus status batchId now).execute rt rb fails t with
  | error e => exact iff_of_true nofun fun h => absurd ⟨e, rfl⟩ h
  | ok t' =>
    rw [hwritten t' hst]
    constructor
    · exact fun h _ => h _ rfl
    · rintro h _ ⟨⟩
      exact h nofun

variable (rb fails)

/-- A call of two statements: when the append raises, the checkpoints were as they are set. -/
def StageSettled (status batchId now : String) (call : JournalTables.AppendCall)
    (t : DurabilityTables) : Prop :=
  ¬ SetStatusRaises rb fails status batchId now t → AppendRaises fails call t →
    StatusKept rb status batchId now t

/-- A call of three statements: when one of the last two raises, what is updated before it was so. -/
def BatchSettled (status batchId now : String) (call : JournalTables.AppendCall)
    (t : DurabilityTables) : Prop :=
  ¬ SetStatusRaises rb fails status batchId now t →
    (fails (.abandon batchId now) = true → StatusKept rb status batchId now t) ∧
    (fails (.abandon batchId now) = false → AppendRaises fails call t →
      StatusKept rb status batchId now t ∧ AbandonKept batchId now t)

/-- What is updated before a statement of a call that raises was so already. -/
def RollbackCall.Settled (migrationId : String) (t : DurabilityTables) : RollbackCall → Prop
  | .stagePendingRollback batchId now appendedAt fits =>
    StageSettled rb fails "PENDING_ROLLBACK" batchId now
      (pendingRollbackRecord batchId appendedAt fits migrationId) t
  | .recordRollbackFailure batchId errorMsg now appendedAt fits =>
    StageSettled rb fails "ROLLBACK_FAILED" batchId now
      (rollbackFailedRecord rb batchId errorMsg appendedAt fits migrationId) t
  | .rollbackBatch batchId now appendedAt fits =>
    BatchSettled rb fails "ROLLED_BACK" batchId now
      (tombstoneRecord batchId appendedAt fits migrationId) t

variable {rb fails}

/-- An update of the checkpoints and an append. -/
theorem restores_stage_iff (status batchId now : String) (call : JournalTables.AppendCall)
    (t : DurabilityTables) :
    Restores ([RollbackStatement.setStatus status batchId now, .append call].map
        (RollbackStatement.execute rt rb fails)) t t ↔
      StageSettled rb fails status batchId now call t := by
  rw [List.map_cons, List.map_singleton, restores_setStatus_iff]
  refine imp_congr_right fun hset => ?_
  rw [restores_append_iff, ← mapValues_withStatus_iff hset]
  refine imp_congr_right fun _ => ?_
  constructor
  · exact congrArg DurabilityTables.checkpoints
  · intro heq
    rw [heq]

/-- The updates of the checkpoints and of a record, and an append. -/
theorem restores_batch_iff (status batchId now : String) (call : JournalTables.AppendCall)
    (t : DurabilityTables) :
    Restores ([RollbackStatement.setStatus status batchId now, .abandon batchId now, .append call].map
        (RollbackStatement.execute rt rb fails)) t t ↔
      BatchSettled rb fails status batchId now call t := by
  rw [List.map_cons, List.map_cons, List.map_singleton, restores_setStatus_iff]
  refine imp_congr_right fun hset => ?_
  rw [restores_cons_iff, abandon_statement_eq, ← mapValues_withStatus_iff hset,
    ← abandon_eq_self_iff]
  by_cases hfails : fails (.abandon batchId now) = true
  · rw [if_pos hfails, imp_iff_right hfails, hfails]
    constructor
    · rintro ⟨h, -⟩
      exact ⟨congrArg DurabilityTables.checkpoints (h _ rfl), nofun⟩
    · rintro ⟨heq, -⟩
      refine ⟨fun _ _ => ?_, nofun⟩
      rw [heq]
  · rw [if_neg hfails, eq_false_of_ne_true hfails]
    constructor
    · rintro ⟨-, h⟩
      refine ⟨nofun, fun _ hraises => ?_⟩
      have heq := (restores_append_iff call _ t).mp (h _ rfl) hraises
      exact ⟨congrArg DurabilityTables.checkpoints heq, congrArg DurabilityTables.idempotency heq⟩
    · rintro ⟨-, h⟩
      refine ⟨nofun, ?_⟩
      rintro _ ⟨⟩
      refine (restores_append_iff call _ t).mpr fun hraises => ?_
      obtain ⟨hcheckpoints, hidempotency⟩ := h rfl hraises
      dsimp only
      rw [hcheckpoints, hidempotency]

/-- **When a rollback operation is atomic**: a call that raises leaves all tables as they were precisely
when what is updated before the statement that raises was so already. -/
theorem rollback_atomic_iff (rt : DigestRuntime) (rb : RollbackRuntime)
    (fails : RollbackStatement → Bool) (call : RollbackCall) (t : DurabilityTables) :
    Atomic (call.perform rt rb fails) t ↔
      ∀ migrationId, call.check t = .ok migrationId → call.Settled rb fails migrationId t := by
  cases hcheck : call.check t with
  | error e =>
    have heq : call.perform rt rb fails t = (.error e, t) := by
      unfold RollbackCall.perform
      rw [hcheck]
    exact iff_of_true (fun _ _ => congrArg Prod.snd heq) nofun
  | ok migrationId =>
    have heq : call.perform rt rb fails t = Autocommit.execute ((call.statements rb migrationId).map
        (RollbackStatement.execute rt rb fails)) t := by
      unfold RollbackCall.perform
      rw [hcheck]
    have hrestores : Restores ((call.statements rb migrationId).map
        (RollbackStatement.execute rt rb fails)) t t ↔ call.Settled rb fails migrationId t := by
      cases call with
      | stagePendingRollback batchId now appendedAt fits => exact restores_stage_iff _ _ _ _ t
      | recordRollbackFailure batchId errorMsg now appendedAt fits =>
        exact restores_stage_iff _ _ _ _ t
      | rollbackBatch batchId now appendedAt fits => exact restores_batch_iff _ _ _ _ t
    unfold Atomic
    rw [heq]
    refine hrestores.trans ?_
    constructor
    · rintro h _ ⟨⟩
      exact h
    · exact fun h => h migrationId rfl

end Atomicity

/-! ## A second call -/

/-- `json_set` of a JSON text that has a status only. -/
def statusRuntime : RollbackRuntime where
  jsonSetStatus _ status := some ("\x7b\"status\":\"" ++ status ++ "\"\x7d")
  sanitizeText := id

/-- A batch with a checkpoint and a record. -/
def batchInProgress : DurabilityTables where
  checkpoints := PyDict.empty.set "m"
    ⟨"b", "RUNNING", 1, "\x7b\"status\": \"RUNNING\"\x7d", "", "2024-01-01"⟩
  idempotency := PyDict.empty.set "b" ⟨"m", .inProgress, none, 1, "f", "2024-01-01"⟩
  journal := ⟨[], []⟩
  epochs := PyDict.empty

/-- A call of `rollback_batch` that SQLite does not fail. -/
def rollbackAt (now : String) (t : DurabilityTables) : Except AuthorityError Unit × DurabilityTables :=
  (RollbackCall.rollbackBatch "b" now now true).perform JournalRun.textRuntime statusRuntime
    (fun _ => false) t

/-- **A second call** raises, since its record is there already, after it has updated the tables. -/
theorem not_atomic_of_repetition :
    ¬ ∀ rt rb fails (call : RollbackCall) t, Atomic (call.perform rt rb fails) t := by
  intro h
  have hatomic := h JournalRun.textRuntime statusRuntime (fun _ => false)
    (.rollbackBatch "b" "2024-01-03" "2024-01-03" true) (rollbackAt "2024-01-02" batchInProgress).2
  have hfirst : ((rollbackAt "2024-01-02" batchInProgress).2.idempotency.get? "b").map
      IdempotencyRow.updatedAt = some "2024-01-02" := by decide +kernel
  have hsecond : ((rollbackAt "2024-01-03" (rollbackAt "2024-01-02" batchInProgress).2).2.idempotency.get?
      "b").map IdempotencyRow.updatedAt = some "2024-01-03" := by decide +kernel
  have hraises : (rollbackAt "2024-01-03" (rollbackAt "2024-01-02" batchInProgress).2).1.toBool =
      false := by decide +kernel
  cases hresult : (rollbackAt "2024-01-03" (rollbackAt "2024-01-02" batchInProgress).2).1 with
  | ok _ =>
    rw [hresult] at hraises
    cases hraises
  | error e =>
    have hsame := hatomic e hresult
    change (rollbackAt "2024-01-03" (rollbackAt "2024-01-02" batchInProgress).2).2 = _ at hsame
    rw [hsame, hfirst] at hsecond
    exact absurd hsecond (by decide)

end Durability

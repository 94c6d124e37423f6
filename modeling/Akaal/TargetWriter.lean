/-
# The generic SQL target writer

`GenericSQLTargetWriter` of `transport/drivers/generic_sql.py`, followed through the life of
one batch: which of its rows are in the open transaction (`pending`) and which are durable.

The database decides how each statement ends; what it decides is an argument of the
operation.  A connection may be in autocommit mode, as the ones made for MySQL are: its
statements are durable at once.

* `nothingLater_iff` : no later operation on the writer makes a row of the batch durable
  exactly when none is pending.
-/
import Akaal.TransportSpec

namespace Transport

variable {ρ : Type*}

/-! ## State -/

/-- The writer, its connection, and the rows of the batch at hand that are in the open
transaction or durable. -/
structure TargetWriter (ρ : Type*) where
  connected : Bool
  autocommit : Bool
  inTransaction : Bool
  activeTxUncommittedRows : ℕ
  pending : List ρ
  durable : List ρ

/-- A writer about to be given a batch: no row of it is in the target yet. -/
def TargetWriter.begin (connected autocommit inTransaction : Bool)
    (activeTxUncommittedRows : ℕ) : TargetWriter ρ where
  connected := connected
  autocommit := autocommit
  inTransaction := inTransaction
  activeTxUncommittedRows := activeTxUncommittedRows
  pending := []
  durable := []

/-- What a write is called with. -/
structure WriteRequest (ρ : Type*) where
  batch : TransportBatch ρ
  pkColumns : List String

/-! ## What the database decides -/

/-- How `_connect` ends: the open connection is kept, a closed one is replaced (and its
transaction is gone), or there is none to be had. -/
inductive ConnectOutcome where
  | kept
  | fresh
  | failed
  deriving DecidableEq

/-- How the statements of the upsert fallback for one row end: the `UPDATE` changes rows, or
none and the `INSERT` follows, or its row count is not measured (and it matched the row or
not), or a statement raises. -/
inductive FallbackRow where
  | updated (rowcount : ℕ)
  | inserted
  | unmeasured (matched : Bool)
  | failed (message : String)
  deriving DecidableEq

/-- How `executemany` ends: it returns, with a row count or without, or it raises once it has
applied the first rows; the fallback then goes through the rows. -/
inductive ExecuteOutcome where
  | executed (rowcount : Option ℕ)
  | failed (message : String) (applied : ℕ) (fallback : ℕ → FallbackRow)

/-- What happens during one call of `write_batch`. -/
structure WriteScript where
  fencingValid : Bool
  connect : ConnectOutcome
  execute : ExecuteOutcome

/-- How `commit` ends.  A commit that raises may have left the transaction open, may have
landed, or may have lost the transaction. -/
inductive CommitEffect where
  | kept
  | landed
  | lost
  deriving DecidableEq

/-- What happens during one call of `commit`. -/
inductive CommitOutcome where
  | stale
  | committed
  | failed (message : String) (effect : CommitEffect)
  deriving DecidableEq

/-- What happens during one call of `rollback`; one that raises may have lost the
transaction all the same. -/
inductive RollbackOutcome where
  | done
  | failed (message : String) (lost : Bool)
  deriving DecidableEq

/-! ## Operations -/

/-- The error of `verify_fencing`. -/
def staleError : TransportError :=
  .staleFencingEpoch "Physical TargetWriter fencing check failed: worker epoch is stale"

/-- The error of `_connect`. -/
def noConnectionError : TransportError :=
  .write "GenericSQLTargetWriter has no active database connection or cursor."

/-- The rows are put into the target by a statement. -/
def TargetWriter.put (w : TargetWriter ρ) (rows : List ρ) : TargetWriter ρ :=
  if w.autocommit then { w with durable := w.durable ++ rows }
  else { w with pending := w.pending ++ rows }

/-- `_connect`. -/
def TargetWriter.connect (w : TargetWriter ρ) :
    ConnectOutcome → TargetWriter ρ × Option TransportError
  | .kept => ({ w with connected := true }, none)
  | .fresh => ({ w with connected := true, pending := [] }, none)
  | .failed => ({ w with connected := false, pending := [] }, some noConnectionError)

/-- `str.upper`, on the ASCII letters. -/
def upper (s : String) : String := String.ofList (s.toList.map Char.toUpper)

/-- Whether a failed `executemany` is followed by the upsert fallback: there are key columns
and a column that is not one of them. -/
def WriteRequest.hasFallback (request : WriteRequest ρ) : Bool :=
  !request.pkColumns.isEmpty && request.batch.columnNames.any fun c =>
      !(request.pkColumns.map upper).contains (upper c)

/-- The upsert fallback from row number `i` on: the rows it puts into the target besides the
`applied` ones already there, and the count it returns or the error it raises. -/
def upsertRows (applied : ℕ) (outcome : ℕ → FallbackRow) :
    ℕ → ℕ → List ρ → List ρ × Except TransportError ℕ
  | _, written, [] => ([], .ok written)
  | i, written, row :: rows =>
    match outcome i with
    | .updated n =>
      let (put, result) := upsertRows applied outcome (i + 1) (written + n) rows
      (if i < applied then put else row :: put, result)
    | .inserted =>
      let (put, result) := upsertRows applied outcome (i + 1) (written + 1) rows
      (row :: put, result)
    | .unmeasured matched =>
      -- counted as written, whether or not the `UPDATE` found the row
      let (put, result) := upsertRows applied outcome (i + 1) (written + 1) rows
      (if matched && applied ≤ i then row :: put else put, result)
    | .failed message => ([], .error (.external message))

/-- Rows are counted as written in the open transaction. -/
def TargetWriter.count (w : TargetWriter ρ) (written : ℕ) : TargetWriter ρ :=
  { w with activeTxUncommittedRows := w.activeTxUncommittedRows + written }

/-- The statements of `write_batch`: `executemany`, and the fallback if it raises.  Only a
failure without fallback sets `_in_transaction`. -/
def TargetWriter.execute (w : TargetWriter ρ) (request : WriteRequest ρ) :
    ExecuteOutcome → TargetWriter ρ × Except TransportError ℕ
  | .executed rowcount =>
    let written := rowcount.getD request.batch.rows.length
    ((w.put request.batch.rows).count written, .ok written)
  | .failed message applied fallback =>
    let w := w.put (request.batch.rows.take applied)
    if request.hasFallback then
      match upsertRows applied fallback 0 0 request.batch.rows with
      | (put, .ok written) => ((w.put put).count written, .ok written)
      | (put, .error e) => (w.put put, .error e)
    else ({ w with inTransaction := true }, .error (.external message))

/-- `write_batch`. -/
def TargetWriter.writeBatch (w : TargetWriter ρ) (request : WriteRequest ρ)
    (script : WriteScript) : TargetWriter ρ × Except TransportError ℕ :=
  if !script.fencingValid then (w, .error staleError)
  else if request.batch.rows.isEmpty then (w, .ok 0)
  else
    match w.connect script.connect with
    | (w, some e) => (w, .error e)
    | (w, none) => w.execute request script.execute

/-- The flags after the transaction is over. -/
def TargetWriter.closeTransaction (w : TargetWriter ρ) : TargetWriter ρ :=
  { w with inTransaction := false, activeTxUncommittedRows := 0 }

/-- `commit`. -/
def TargetWriter.commit (w : TargetWriter ρ) : CommitOutcome → TargetWriter ρ × Option TransportError
  | .stale => (w, some staleError)
  | .committed =>
    if w.connected then
      ({ w with durable := w.durable ++ w.pending, pending := [] }.closeTransaction, none)
    else (w.closeTransaction, none)
  | .failed message effect =>
    if w.connected then
      match effect with
      | .kept => (w, some (.external message))
      | .landed =>
        ({ w with durable := w.durable ++ w.pending, pending := [] }, some (.external message))
      | .lost => ({ w with pending := [] }, some (.external message))
    else (w.closeTransaction, none)

/-- `rollback`. -/
def TargetWriter.rollback (w : TargetWriter ρ) (outcome : RollbackOutcome) :
    TargetWriter ρ × Option TransportError :=
  if !w.inTransaction && w.activeTxUncommittedRows == 0 then
    (w, some (.write ("Physical target rollback rejected: " ++
      "target writer has no active uncommitted transaction to roll back.")))
  else if !w.connected then
    (w, some (.write ("Physical target rollback rejected: " ++
      "target writer database connection is not active or connected.")))
  else
    match outcome with
    | .done => ({ w with pending := [] }.closeTransaction, none)
    | .failed message lost =>
      ({ w with pending := if lost then [] else w.pending }, some (.external message))

/-! ## A row is pending only on a connection -/

/-- A row is pending only on a connection. -/
def TargetWriter.Sound (w : TargetWriter ρ) : Prop := w.pending ≠ [] → w.connected = true

theorem TargetWriter.sound_begin (connected autocommit inTransaction : Bool) (rows : ℕ) :
    (TargetWriter.begin connected autocommit inTransaction rows : TargetWriter ρ).Sound :=
  fun h => absurd rfl h

theorem TargetWriter.connected_put (w : TargetWriter ρ) (rows : List ρ) :
    (w.put rows).connected = w.connected := by
  unfold put
  split_ifs <;> rfl

theorem TargetWriter.connected_execute (w : TargetWriter ρ) (request : WriteRequest ρ)
    (outcome : ExecuteOutcome) : (w.execute request outcome).1.connected = w.connected := by
  cases outcome with
  | executed rowcount => exact connected_put w _
  | failed message applied fallback =>
    simp only [execute]
    split_ifs
    · rcases upsertRows applied fallback 0 0 request.batch.rows with ⟨put, e | n⟩
      · exact (connected_put _ _).trans (connected_put w _)
      · exact (connected_put _ _).trans (connected_put w _)
    · exact connected_put w _

theorem TargetWriter.connect_cases (w : TargetWriter ρ) (outcome : ConnectOutcome) :
    (∃ w', w.connect outcome = (w', none) ∧ w'.connected = true) ∨
      ∃ w', w.connect outcome = (w', some noConnectionError) ∧ w'.pending = [] := by
  cases outcome with
  | kept => exact .inl ⟨_, rfl, rfl⟩
  | fresh => exact .inl ⟨_, rfl, rfl⟩
  | failed => exact .inr ⟨_, rfl, rfl⟩

variable {w : TargetWriter ρ}

theorem TargetWriter.Sound.writeBatch (h : w.Sound)
    (request : WriteRequest ρ) (script : WriteScript) :
    (w.writeBatch request script).1.Sound := by
  unfold TargetWriter.writeBatch
  split_ifs
  · exact h
  · exact h
  · rcases w.connect_cases script.connect with ⟨w', hw', hc⟩ | ⟨w', hw', hp⟩
    · rw [hw']
      exact fun _ => (w'.connected_execute request script.execute).trans hc
    · rw [hw']
      exact fun hne => absurd hp hne

theorem TargetWriter.Sound.commit (h : w.Sound) (outcome : CommitOutcome) :
    (w.commit outcome).1.Sound := by
  cases outcome with
  | stale => exact h
  | committed =>
    simp only [TargetWriter.commit]
    split_ifs
    · exact fun hne => absurd rfl hne
    · exact h
  | failed message effect =>
    simp only [TargetWriter.commit]
    split_ifs
    · cases effect with
      | kept => exact h
      | landed => exact fun hne => absurd rfl hne
      | lost => exact fun hne => absurd rfl hne
    · exact h

theorem TargetWriter.Sound.rollback (h : w.Sound)
    (outcome : RollbackOutcome) : (w.rollback outcome).1.Sound := by
  unfold TargetWriter.rollback
  split_ifs with hflags hconnected
  · exact h
  · exact h
  · cases outcome with
    | done => exact fun hne => absurd rfl hne
    | failed message lost =>
      cases lost with
      | true => exact fun hne => absurd rfl hne
      | false => exact h

theorem TargetWriter.rollback_durable (w : TargetWriter ρ) (outcome : RollbackOutcome) :
    (w.rollback outcome).1.durable = w.durable := by
  unfold TargetWriter.rollback
  split_ifs
  · rfl
  · rfl
  · cases outcome <;> rfl

/-! ## Later operations -/

/-- A later operation on the writer that is not a write of the same batch. -/
inductive LaterOp where
  | commit (outcome : CommitOutcome)
  | rollback (outcome : RollbackOutcome)
  /-- `execute_ddl`: it commits, unless the statement fails. -/
  | ddl (connect : ConnectOutcome) (commits : Bool)
  /-- A write or delete of another batch, of which only the flags and the connection matter. -/
  | other (connect : ConnectOutcome) (inTransaction : Bool) (rows : ℕ)

/-- The writer after a later operation. -/
def TargetWriter.later (w : TargetWriter ρ) : LaterOp → TargetWriter ρ
  | .commit outcome => (w.commit outcome).1
  | .rollback outcome => (w.rollback outcome).1
  | .ddl connect commits =>
    match w.connect connect with
    | (w, some _) => w
    | (w, none) =>
      if commits then { w with durable := w.durable ++ w.pending, pending := [] } else w
  | .other connect inTransaction rows =>
    match w.connect connect with
    | (w, some _) => w
    | (w, none) =>
      { w with
        inTransaction := w.inTransaction || inTransaction
        activeTxUncommittedRows := w.activeTxUncommittedRows + rows }

/-- No later operation on the writer makes a row of the batch durable. -/
def NothingLater (w : TargetWriter ρ) : Prop :=
  ∀ ops : List LaterOp, (ops.foldl TargetWriter.later w).durable = w.durable

theorem later_of_pending_eq_nil (h : w.pending = []) (op : LaterOp) :
    (w.later op).pending = [] ∧ (w.later op).durable = w.durable := by
  cases op with
  | commit outcome =>
    cases outcome with
    | stale => exact ⟨h, rfl⟩
    | committed =>
      simp only [TargetWriter.later, TargetWriter.commit]
      split_ifs
      · exact ⟨rfl, by simp [TargetWriter.closeTransaction, h]⟩
      · exact ⟨h, rfl⟩
    | failed message effect =>
      simp only [TargetWriter.later, TargetWriter.commit]
      split_ifs
      · cases effect <;> simp [h]
      · exact ⟨h, rfl⟩
  | rollback outcome =>
    refine ⟨?_, w.rollback_durable outcome⟩
    simp only [TargetWriter.later, TargetWriter.rollback]
    split_ifs
    · exact h
    · exact h
    · cases outcome <;> simp [TargetWriter.closeTransaction, h]
  | ddl connect commits => cases connect <;> cases commits <;> simp [TargetWriter.later,
      TargetWriter.connect, h]
  | other connect inTransaction rows => cases connect <;> simp [TargetWriter.later,
      TargetWriter.connect, h]

/-- **No later operation makes a row durable exactly when none is pending.** -/
theorem nothingLater_iff (hw : w.Sound) : NothingLater w ↔ w.pending = [] := by
  constructor
  · intro h
    by_contra hne
    have hcommit := h [.commit .committed]
    simp only [List.foldl_cons, List.foldl_nil, TargetWriter.later, TargetWriter.commit, hw hne,
      if_true, TargetWriter.closeTransaction, List.append_right_eq_self] at hcommit
    exact hne hcommit
  · intro h ops
    induction ops generalizing w with
    | nil => rfl
    | cons op ops ih =>
      obtain ⟨hpending, hdurable⟩ := later_of_pending_eq_nil h op
      rw [List.foldl_cons, ih (fun hne => absurd hpending hne) hpending, hdurable]

end Transport

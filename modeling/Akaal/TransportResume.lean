/-
# Resuming a partition from its last checkpoint

A checkpoint records the resume position of the reader: the value of the first key column
in the last row read.  A run that crashes is continued by a new reader opened with that
position, which reads the rows of the partition whose first key column is greater.

* `perm_append_filter_iff` : when a filtered second pass completes a first pass;
* `readerCoherent_of_run` : what a reader has left is what its call has not produced yet, and
  every checkpoint carries the key of the last row of its batch;
* `resume_exact_iff` : the rows written before the crash and the rows read after it are the
  rows of the partition exactly when the crash is at a safe point (`ResumeSafe`);
* `not_resume_exact_of_composite_key` : under a composite key a batch may end between two
  rows that agree in the first column, and the second of them is lost.
-/
import Akaal.PartitionIsolation

namespace Transport

open TransitionRun

variable {κ β : Type*}

/-! ## Two passes over a list -/

/-- A first pass over the part `A` of a list and a second over what a filter selects of the
whole list are together the list precisely when the filter selects nothing of `A` and
everything outside it. -/
theorem perm_append_filter_iff {α : Type*} (p : α → Bool) (A B : List α) :
    (A ++ (A ++ B).filter p).Perm (A ++ B) ↔ (∀ a ∈ A, p a = false) ∧ ∀ b ∈ B, p b = true := by
  rw [List.perm_append_left_iff, List.filter_append]
  constructor
  · intro h
    have hB : ∀ b ∈ B, p b = true := by
      intro b hb
      rcases List.mem_append.mp (h.mem_iff.mpr hb) with hmem | hmem
      · exact (List.mem_filter.mp hmem).2
      · exact (List.mem_filter.mp hmem).2
    have hlen := h.length_eq
    rw [List.length_append, List.filter_eq_self.mpr hB] at hlen
    have hA : (A.filter p).length = 0 := by omega
    refine ⟨fun a ha => ?_, hB⟩
    rw [List.length_eq_zero_iff, List.filter_eq_nil_iff] at hA
    exact Bool.eq_false_of_not_eq_true (hA a ha)
  · rintro ⟨hA, hB⟩
    rw [List.filter_eq_self.mpr hB, List.filter_eq_nil_iff.mpr (by simpa using hA)]
    exact List.Perm.refl B

/-! ## The key of the last row -/

/-- The key of the last of some rows, if there is one and it is not NULL. -/
def lastRowKey (partition : TransportPartition β) (rows : List (SqlRow κ)) : Option κ :=
  rows.getLast?.bind (rowKey partition)

theorem lastRowKey_append {rows : List (SqlRow κ)} (h : rows ≠ [])
    (partition : TransportPartition β) (before : List (SqlRow κ)) :
    lastRowKey partition (before ++ rows) = lastRowKey partition rows := by
  unfold lastRowKey
  rw [List.getLast?_append_of_ne_nil _ h]

theorem lookup_eq_none_of_columns_eq {r t : SqlRow κ} {column : String}
    (hcolumns : t.map Prod.fst = r.map Prod.fst) (hr : List.lookup column r = none) :
    List.lookup column t = none := by
  rw [List.lookup_eq_none_iff] at hr ⊢
  intro p hp
  have hmem : p.1 ∈ r.map Prod.fst := hcolumns ▸ List.mem_map_of_mem hp
  obtain ⟨q, hq, hqp⟩ := List.mem_map.mp hmem
  exact hqp ▸ hr q hq

variable {batchSize : ℕ} {c : CallState (GenericSqlReader κ β) (SqlRow κ) κ} {columns : List String}
  {strLen : SqlRow κ → ℕ}

/-- After a fetch the resume position is the key of the last row fetched so far, as long as
it was before. -/
theorem nextLastKey_eq {reader : GenericSqlReader κ β}
    {before rows : List (SqlRow κ)} (hrows : rows ≠ [])
    (hcolumns : ∀ r ∈ before ++ rows, r.map Prod.fst = columns)
    (hlast : reader.lastKey = lastRowKey reader.partition before) :
    nextLastKey reader rows = lastRowKey reader.partition (before ++ rows) := by
  rw [lastRowKey_append hrows]
  obtain ⟨row, hrow⟩ : ∃ row, rows.getLast? = some row :=
    ⟨rows.getLast hrows, List.getLast?_eq_some_getLast hrows⟩
  have hmem : row ∈ rows := List.mem_of_getLast? hrow
  unfold nextLastKey lastRowKey
  simp only [hrow, Option.bind_some]
  cases hlookup : List.lookup (lower (pkColumn reader.partition)) row with
  | some value => simp [rowKey, SqlRow.value, hlookup]
  | none =>
    -- no row of the table has the column, so the position is still the initial `None`
    simp only [rowKey, SqlRow.value, hlookup, Option.join_none, hlast, lastRowKey]
    cases hbefore : before.getLast? with
    | none => rfl
    | some r =>
      have hr : r ∈ before := List.mem_of_getLast? hbefore
      have hcolumns' : r.map Prod.fst = row.map Prod.fst := by
        rw [hcolumns r (List.mem_append_left _ hr), hcolumns row (List.mem_append_right _ hmem)]
      simp [rowKey, SqlRow.value, lookup_eq_none_of_columns_eq hcolumns' hlookup]

/-! ## The reader of a call -/

/-- The rows of some batches, in order. -/
def batchRows {ρ : Type*} (batches : List (TransportBatch ρ)) : List ρ :=
  batches.flatMap (·.rows)

/-- The reader of a call over the answer `rows`: what the call has produced comes first in
the answer, its resume position is the key of the last row produced, and every checkpoint
carries the key of the last row of its batch. -/
structure ReaderCoherent (partition : TransportPartition β) (batchSize : ℕ)
    (rows : List (SqlRow κ)) (c : CallState (GenericSqlReader κ β) (SqlRow κ) κ) : Prop where
  partition_eq : c.reader.partition = partition
  cursor_eq : ∃ rest, c.reader.cursor = some rest ∧ rows = batchRows c.produced ++ rest
  lastKey_eq : c.reader.lastKey = lastRowKey partition (batchRows c.produced)
  sizes : ∀ b ∈ c.produced, b.rows ≠ [] ∧ b.rows.length ≤ batchSize
  positions : ∀ ck ∈ c.checkpoints, ck.2.readPosition = lastRowKey partition ck.1.rows

theorem readerCoherent_init (partition : TransportPartition β) (columnNames : List String)
    (batchSize : ℕ) (rows : List (SqlRow κ)) :
    ReaderCoherent partition batchSize rows
      (.init (openPartition partition columnNames none (some rows))) where
  partition_eq := rfl
  cursor_eq := ⟨rows, rfl, rfl⟩
  lastKey_eq := rfl
  sizes := by simp [CallState.init]
  positions := by simp [CallState.init]

/-- Steps that leave the reader and the history alone keep the reader coherent. -/
theorem ReaderCoherent.congr {partition : TransportPartition β}
    {rows : List (SqlRow κ)} {c' : CallState (GenericSqlReader κ β) (SqlRow κ) κ}
    (h : ReaderCoherent partition batchSize rows c) (hreader : c'.reader = c.reader)
    (hproduced : c'.produced = c.produced) (hcheckpoints : c'.checkpoints = c.checkpoints) :
    ReaderCoherent partition batchSize rows c' where
  partition_eq := by rw [hreader, h.partition_eq]
  cursor_eq := by rw [hreader, hproduced]; exact h.cursor_eq
  lastKey_eq := by rw [hreader, hproduced, h.lastKey_eq]
  sizes := by rw [hproduced]; exact h.sizes
  positions := by rw [hcheckpoints]; exact h.positions

/-- The read of the loop keeps the reader coherent. -/
theorem ReaderCoherent.readStep {partition : TransportPartition β} {rows : List (SqlRow κ)}
    (h : ReaderCoherent partition batchSize rows c)
    (hcolumns : ∀ r ∈ rows, r.map Prod.fst = columns) (barrier throttle : Option TransportError) :
    ReaderCoherent partition batchSize rows
      (Transport.readStep (sqlReaderApi κ β strLen batchSize) c barrier throttle) := by
  cases barrier with
  | some e => exact h.congr rfl rfl rfl
  | none =>
    simp only [Transport.readStep, sqlReaderApi]
    rcases hread : readBatch strLen batchSize c.reader with ⟨reader, _ | batch⟩
    · obtain ⟨rfl, -⟩ := readBatch_eq_none hread
      exact h.congr rfl rfl rfl
    · obtain ⟨rest, hcursor, hne, hlength, rfl⟩ := readBatch_eq_some hread
      obtain ⟨pending, hpending, hrows⟩ := h.cursor_eq
      rw [hcursor, Option.some.injEq] at hpending
      have happend : batchRows (c.produced ++ [batch]) = batchRows c.produced ++ batch.rows := by
        simp [batchRows]
      have hsplit : rows = (batchRows c.produced ++ batch.rows) ++ rest := by
        rw [hrows, ← hpending, List.append_assoc]
      simp only [hne, if_false]
      refine ⟨h.partition_eq, ⟨rest, rfl, by rw [happend]; exact hsplit⟩, ?_, ?_, h.positions⟩
      · show nextLastKey c.reader batch.rows = lastRowKey partition _
        have hlast : c.reader.lastKey = lastRowKey c.reader.partition (batchRows c.produced) := by
          rw [h.partition_eq]
          exact h.lastKey_eq
        have hcolumns' : ∀ r ∈ batchRows c.produced ++ batch.rows, r.map Prod.fst = columns :=
          fun r hr => hcolumns r (hsplit ▸ List.mem_append_left rest hr)
        rw [happend, nextLastKey_eq hne hcolumns' hlast, h.partition_eq]
      · intro b hb
        rcases List.mem_append.mp hb with hold | hnew
        · exact h.sizes b hold
        · rw [List.mem_singleton.mp hnew]
          exact ⟨hne, hlength⟩

/-- The checkpoint of the batch last produced keeps the reader coherent. -/
theorem ReaderCoherent.checkpointStep {call : TransportCall β (SqlRow κ)} {rows : List (SqlRow κ)}
    {popped : TransportBatch (SqlRow κ)}
    (h : ReaderCoherent call.partition batchSize rows c) (hcall : CallCoherent call c)
    (hphase : c.phase = .checkpointing popped) (rejected : Option TransportError) :
    ReaderCoherent call.partition batchSize rows
      (Transport.checkpointStep (sqlReaderApi κ β strLen batchSize) call c popped rejected) := by
  cases rejected with
  | some e => exact h.congr rfl rfl rfl
  | none =>
    refine ⟨h.partition_eq, h.cursor_eq, h.lastKey_eq, h.sizes, ?_⟩
    obtain ⟨src, -, hp⟩ := hcall
    rw [hphase] at hp
    obtain ⟨hproduced, hsrc, -⟩ := hp
    rw [hsrc] at hproduced
    have hne : popped.rows ≠ [] := (h.sizes popped (by simp [hproduced])).1
    intro ck hck
    rcases List.mem_append.mp hck with hold | hnew
    · exact h.positions ck hold
    · rw [List.mem_singleton.mp hnew]
      show c.reader.lastKey = lastRowKey call.partition popped.rows
      rw [h.lastKey_eq, hproduced, batchRows, List.flatMap_append]
      simpa using lastRowKey_append hne call.partition _

/-- A step of a call that is alone on its authority keeps its reader coherent. -/
theorem ReaderCoherent.step {call : TransportCall β (SqlRow κ)} {rows : List (SqlRow κ)}
    {s s' : TransportState Unit (GenericSqlReader κ β) (SqlRow κ) κ} {a : TransportAction Unit}
    (hcolumns : ∀ r ∈ rows, r.map Prod.fst = columns) (hcoherent : Coherent (fun _ => call) s)
    (h : ReaderCoherent call.partition batchSize rows (s.calls ()))
    (hstep : transportStep (sqlReaderApi κ β strLen batchSize) (fun _ => call) s a = some s') :
    ReaderCoherent call.partition batchSize rows (s'.calls ()) := by
  cases a with
  | read i barrier throttle =>
    simp only [transportStep] at hstep
    cases hphase : (s.calls i).phase <;> simp only [hphase, reduceCtorEq] at hstep
    rw [← Option.some.inj hstep]
    simpa [TransportState.setCall] using h.readStep hcolumns barrier throttle
  | push i isCancelled =>
    simp only [transportStep] at hstep
    cases hphase : (s.calls i).phase <;> simp only [hphase, reduceCtorEq] at hstep
    rename_i batch
    rcases hpush : s.buffer.push batch isCancelled with ⟨buffer, _ | e | _⟩ <;>
      simp only [hpush, reduceCtorEq] at hstep
    all_goals
      rw [← Option.some.inj hstep]
      exact h.congr (by simp) (by simp) (by simp)
  | pop i isCancelled =>
    simp only [transportStep] at hstep
    cases hphase : (s.calls i).phase <;> simp only [hphase, reduceCtorEq] at hstep
    rcases hpop : s.buffer.pop isCancelled with ⟨buffer, (_ | popped) | e | _⟩ <;>
      simp only [hpop, reduceCtorEq] at hstep
    all_goals
      rw [← Option.some.inj hstep]
      exact h.congr (by simp [TransportState.setCall]) (by simp [TransportState.setCall])
        (by simp [TransportState.setCall])
  | write i outcome =>
    simp only [transportStep] at hstep
    cases hphase : (s.calls i).phase <;> simp only [hphase, reduceCtorEq] at hstep
    rw [← Option.some.inj hstep]
    cases outcome <;>
      exact h.congr (by simp [TransportState.setCall, writeStep])
        (by simp [TransportState.setCall, writeStep]) (by simp [TransportState.setCall, writeStep])
  | checkpoint i rejected =>
    simp only [transportStep] at hstep
    cases hphase : (s.calls i).phase <;> simp only [hphase, reduceCtorEq] at hstep
    rw [← Option.some.inj hstep]
    simpa [TransportState.setCall] using h.checkpointStep (hcoherent.call ()) hphase rejected

/-- A run of a call that is alone on its authority keeps the call and its reader coherent. -/
theorem readerCoherent_of_run {call : TransportCall β (SqlRow κ)} {rows : List (SqlRow κ)}
    {policy : TransportTuningPolicy} {schedule : List (TransportAction Unit)}
    {s : TransportState Unit (GenericSqlReader κ β) (SqlRow κ) κ}
    (hcolumns : ∀ r ∈ rows, r.map Prod.fst = columns)
    (hrun : run (transportStep (sqlReaderApi κ β strLen batchSize) fun _ => call)
      (.init policy fun _ => openPartition call.partition columns none (some rows)) schedule =
        some s) :
    Coherent (fun _ => call) s ∧ ReaderCoherent call.partition batchSize rows (s.calls ()) := by
  refine run_invariant
    (P := fun s => Coherent (fun _ => call) s ∧
      ReaderCoherent call.partition batchSize rows (s.calls ())) ?_ ?_ hrun
  · rintro t a t' ⟨hcoherent, hreader⟩ hstep
    exact ⟨hcoherent.step (hcoherent.popsOwn hstep) hstep, hreader.step hcolumns hcoherent hstep⟩
  · exact ⟨coherent_init _ _ _, readerCoherent_init _ _ _ _⟩

/-! ## Reading to the end -/

/-- The rows a reader delivers until a read returns nothing. -/
def readToEnd (strLen : SqlRow κ → ℕ) (batchSize : ℕ) (reader : GenericSqlReader κ β) :
    List (SqlRow κ) :=
  match _hread : readBatch strLen batchSize reader with
  | (_, none) => []
  | (reader', some batch) => batch.rows ++ readToEnd strLen batchSize reader'
termination_by (reader.cursor.getD []).length
decreasing_by
  obtain ⟨rest, hcursor, hne, -, rfl⟩ := readBatch_eq_some _hread
  have hpos : 0 < batch.rows.length := List.length_pos_of_ne_nil hne
  simp only [hcursor, Option.getD_some, List.length_append]
  omega

theorem readToEnd_eq (hsize : 0 < batchSize) (reader : GenericSqlReader κ β) :
    readToEnd strLen batchSize reader = reader.cursor.getD [] := by
  induction reader using readToEnd.induct strLen batchSize with
  | case1 reader reader' hread =>
    rw [readToEnd]
    split
    · obtain ⟨-, h0 | hnone | hnil⟩ := readBatch_eq_none hread
      · omega
      · rw [hnone, Option.getD_none]
      · rw [hnil, Option.getD_some]
    · simp_all
  | case2 reader reader' batch hread ih =>
    obtain ⟨rest, hcursor, -, -, rfl⟩ := readBatch_eq_some hread
    rw [readToEnd]
    split
    · simp_all
    · rename_i hread'
      rw [hread, Prod.mk.injEq, Option.some.injEq] at hread'
      rw [← hread'.1, ← hread'.2, ih, hcursor, Option.getD_some, Option.getD_some]

/-! ## The crash and the resumed run -/

/-- The rows a call has written. -/
def rowsWritten {R : Type*} (c : CallState R (SqlRow κ) κ) : List (SqlRow κ) :=
  c.written.flatMap (·.2.rows)

/-- The rows of the batches a call has checkpointed. -/
def rowsCheckpointed {R : Type*} (c : CallState R (SqlRow κ) κ) : List (SqlRow κ) :=
  batchRows (c.checkpoints.map Prod.fst)

section Resume

variable [LinearOrder κ]

/-- The row's first key column is not NULL and is greater than `key`. -/
def KeyAfter (partition : TransportPartition β) (key : κ) (row : SqlRow κ) : Prop :=
  ∃ k, rowKey partition row = some k ∧ key < k

/-- A crash point that the resume position separates.  Of the rows of a partition, in the
order of the query, the first `saved` are in a checkpointed batch and the first `committed`
are written: the last checkpointed row has a key, the rows written after the checkpoint
(if any) do not have a greater one, and the rows not yet written all do. -/
def ResumeSafe (partition : TransportPartition β) (rows : List (SqlRow κ))
    (saved committed : ℕ) : Prop :=
  ∃ key, lastRowKey partition (rows.take saved) = some key ∧
    (∀ r ∈ (rows.take committed).drop saved, ¬ KeyAfter partition key r) ∧
    ∀ r ∈ rows.drop committed, KeyAfter partition key r

/-- The resumed query selects the rows whose key is after the resume key. -/
theorem holds_after_iff (d : SqlDialect κ β) (partition : TransportPartition β) (key : κ)
    (row : SqlRow κ) :
    (SqlCondition.after key).holds d (rowKey partition row) = true ↔
      KeyAfter partition key row := by
  unfold KeyAfter
  cases rowKey partition row with
  | none => simp [SqlCondition.holds]
  | some k => simp [SqlCondition.holds]

theorem not_keyAfter_of_keyOrdered {d : SqlDialect κ β} {partition : TransportPartition β}
    {rows : List (SqlRow κ)} (hordered : KeyOrdered d partition rows) {key : κ}
    (hlast : lastRowKey partition rows = some key) : ∀ r ∈ rows, ¬ KeyAfter partition key r := by
  obtain ⟨row, hrow, hkey⟩ := Option.bind_eq_some_iff.mp hlast
  obtain ⟨before, hrows⟩ := List.getLast?_eq_some_iff.mp hrow
  intro r hr ⟨k, hk, hlt⟩
  rw [hrows, List.mem_append, List.mem_singleton] at hr
  rcases hr with hr | rfl
  · unfold KeyOrdered at hordered
    rw [hrows, List.pairwise_append] at hordered
    have hle := hordered.2.2 r hr row (List.mem_singleton_self row)
    rw [hk, hkey] at hle
    exact absurd hlt (not_lt.mpr hle)
  · rw [hkey, Option.some.injEq] at hk
    exact absurd hlt (hk ▸ lt_irrefl key)

/-- What a first pass over the rows `A` of a partition and a resumed query leave to show:
together they are the rows `A ++ B` of the partition exactly when the resume key separates
`A` from `B`. -/
theorem perm_append_resumed_iff {d : SqlDialect κ β} {table : SqlTable κ}
    {partition : TransportPartition β} {A B resumed : List (SqlRow κ)} {position : Option κ}
    (hA : A ≠ []) (hquery : IsQueryResult d table partition none (A ++ B))
    (hresumed : IsQueryResult d table partition position resumed) :
    (A ++ resumed).Perm (selectedRows d table partition none) ↔
      ∃ key, position = some key ∧ (∀ r ∈ A, ¬ KeyAfter partition key r) ∧
        ∀ r ∈ B, KeyAfter partition key r := by
  cases position with
  | none =>
    -- without a resume key the new reader reads the partition from its start
    have hlen : resumed.length = (A ++ B).length :=
      (hresumed.perm.trans hquery.perm.symm).length_eq
    have hpos : 0 < A.length := List.length_pos_of_ne_nil hA
    constructor
    · intro h
      have hlen' := (h.trans hquery.perm.symm).length_eq
      rw [List.length_append] at hlen'
      omega
    · rintro ⟨key, hkey, -⟩
      exact absurd hkey (by simp)
  | some key =>
    let p : SqlRow κ → Bool := fun r => (SqlCondition.after key).holds d (rowKey partition r)
    have hfilter : resumed.Perm ((A ++ B).filter p) := by
      refine hresumed.perm.trans ?_
      rw [selectedRows_some_eq]
      exact (hquery.perm.filter p).symm
    have hp : ∀ r, p r = true ↔ KeyAfter partition key r := holds_after_iff d partition key
    calc (A ++ resumed).Perm (selectedRows d table partition none)
        ↔ (A ++ (A ++ B).filter p).Perm (A ++ B) :=
          ⟨fun h => ((hfilter.append_left A).symm.trans h).trans hquery.perm.symm,
            fun h => ((hfilter.append_left A).trans h).trans hquery.perm⟩
      _ ↔ (∀ r ∈ A, p r = false) ∧ ∀ r ∈ B, p r = true := perm_append_filter_iff p A B
      _ ↔ _ := by simp [← hp]

/-- **Resuming loses and repeats nothing exactly at safe points.**  Take any run of a call up
to a crash after at least one checkpoint, whatever the batch size and wherever the crash
falls.  The rows written before it, with the rows a new reader reads from the last
checkpoint's position, are the rows of the partition precisely when the crash point is
`ResumeSafe`. -/
theorem resume_exact_iff {d : SqlDialect κ β} {table : SqlTable κ}
    {call : TransportCall β (SqlRow κ)} {rows resumed : List (SqlRow κ)}
    (hquery : IsQueryResult d table call.partition none rows) (hplain : call.processing = none)
    (strLen : SqlRow κ → ℕ) (batchSize : ℕ) (policy : TransportTuningPolicy)
    (schedule : List (TransportAction Unit))
    {s : TransportState Unit (GenericSqlReader κ β) (SqlRow κ) κ}
    (hrun : run (transportStep (sqlReaderApi κ β strLen batchSize) fun _ => call)
      (.init policy fun _ => openPartition call.partition table.columns none (some rows))
        schedule = some s)
    {last : TransportBatch (SqlRow κ) × MigrationCheckpoint κ}
    (hlast : (s.calls ()).checkpoints.getLast? = some last)
    (hresumed : IsQueryResult d table call.partition last.2.readPosition resumed) :
    (rowsWritten (s.calls ()) ++ readToEnd strLen batchSize
        (openPartition call.partition table.columns last.2.readPosition (some resumed))).Perm
        (selectedRows d table call.partition none) ↔
      ResumeSafe call.partition rows (rowsCheckpointed (s.calls ())).length
        (rowsWritten (s.calls ())).length := by
  obtain ⟨hcoherent, hreader⟩ :=
    readerCoherent_of_run (fun r hr => table.columns_eq r (hquery.mem_rows hr)) hrun
  obtain ⟨src, hwritten, hphase⟩ := hcoherent.call ()
  obtain ⟨⟨unwritten, hsrc⟩, ⟨unsaved, hsaved⟩⟩ := hphase.prefixes
  obtain ⟨earlier, hcheckpoints⟩ := List.getLast?_eq_some_iff.mp hlast
  obtain ⟨rest, -, hrows⟩ := hreader.cursor_eq
  -- the rows: checkpointed, then written, then the rest of the answer
  have hA : rowsWritten (s.calls ()) = batchRows src := by
    simp [rowsWritten, hwritten, batchRows, List.flatMap_map, TransportCall.entry,
      TransportCall.writeBatch, hplain]
  have hsplit : rows = batchRows src ++ (batchRows unwritten ++ rest) := by
    rw [hrows, ← hsrc, batchRows, List.flatMap_append, List.append_assoc]
    rfl
  have hAsplit : batchRows src = rowsCheckpointed (s.calls ()) ++ batchRows unsaved := by
    rw [← hsaved, batchRows, List.flatMap_append]
    rfl
  have hmem : last.1 ∈ (s.calls ()).produced := by
    rw [← hsrc, ← hsaved, hcheckpoints]
    simp
  obtain ⟨hne, hle⟩ := hreader.sizes last.1 hmem
  have hsize : 0 < batchSize := lt_of_lt_of_le (List.length_pos_of_ne_nil hne) hle
  have hckrows : rowsCheckpointed (s.calls ()) =
      batchRows (earlier.map Prod.fst) ++ last.1.rows := by
    simp [rowsCheckpointed, hcheckpoints, batchRows]
  have hposition : last.2.readPosition =
      lastRowKey call.partition (rowsCheckpointed (s.calls ())) := by
    rw [hckrows, lastRowKey_append hne]
    exact hreader.positions last (hcheckpoints ▸ List.mem_concat_self)
  have hAne : batchRows src ≠ [] := by simp [hAsplit, hckrows, hne]
  have hordered : KeyOrdered d call.partition (rowsCheckpointed (s.calls ())) := by
    have hall := hquery.ordered
    rw [hsplit, hAsplit, List.append_assoc] at hall
    exact (List.pairwise_append.mp hall).1
  have htake : rows.take (rowsCheckpointed (s.calls ())).length =
      rowsCheckpointed (s.calls ()) := by
    rw [hsplit, hAsplit, List.append_assoc, List.take_left]
  have hdrop : (rows.take (batchRows src).length).drop (rowsCheckpointed (s.calls ())).length =
      batchRows unsaved := by
    rw [hsplit, List.take_left, hAsplit, List.drop_left]
  rw [readToEnd_eq hsize, hA]
  show (batchRows src ++ resumed).Perm _ ↔ _
  rw [perm_append_resumed_iff hAne (hsplit ▸ hquery) hresumed]
  unfold ResumeSafe
  rw [htake, hdrop, ← hposition]
  have hrest : rows.drop (batchRows src).length = batchRows unwritten ++ rest := by
    rw [hsplit, List.drop_left]
  rw [hrest]
  constructor
  · rintro ⟨key, hkey, hbefore, hafter⟩
    exact ⟨key, hkey, fun r hr => hbefore r (hAsplit ▸ List.mem_append_right _ hr), hafter⟩
  · rintro ⟨key, hkey, hbetween, hafter⟩
    refine ⟨key, hkey, fun r hr => ?_, hafter⟩
    rw [hAsplit, List.mem_append] at hr
    rcases hr with hr | hr
    · exact not_keyAfter_of_keyOrdered hordered (hposition ▸ hkey) r hr
    · exact hbetween r hr

/-- A crash between a checkpoint and the next write is safe when no two rows of the partition
share a value of the first key column, and none is NULL there. -/
theorem resumeSafe_of_strictly_ordered {partition : TransportPartition β}
    {rows : List (SqlRow κ)} (hkeys : ∀ r ∈ rows, rowKey partition r ≠ none)
    (hstrict : rows.Pairwise fun r t => ∀ k, rowKey partition r = some k → KeyAfter partition k t)
    {saved : ℕ} (hsaved : 0 < saved) (hle : saved ≤ rows.length) :
    ResumeSafe partition rows saved saved := by
  have hne : rows.take saved ≠ [] := by
    intro hnil
    have hlen := congrArg List.length hnil
    rw [List.length_take, List.length_nil] at hlen
    omega
  obtain ⟨key, hkey⟩ :=
    Option.ne_none_iff_exists'.mp (hkeys _ (List.mem_of_mem_take (List.getLast_mem hne)))
  have hlast : lastRowKey partition (rows.take saved) = some key := by
    rw [lastRowKey, List.getLast?_eq_some_getLast hne, Option.bind_some, hkey]
  refine ⟨key, hlast, ?_, ?_⟩
  · rw [List.drop_eq_nil_of_le (List.length_take_le saved rows)]
    simp
  · intro r hr
    rw [← List.take_append_drop saved rows, List.pairwise_append] at hstrict
    exact hstrict.2.2 _ (List.getLast_mem hne) r hr key hkey

end Resume

/-! ### A simple key and a composite key -/

/-- A call that transports the whole of a table with the given key columns, with checkpoints. -/
def checkpointedCall (pkColumns : List String) : TransportCall ℤ (SqlRow ℤ) :=
  { wholeTableCall "items" with
    partition := { wholeTable "items" with pkColumns := pkColumns }
    checkpointing := true }

/-- Integer keys and bounds compare as integers, and NULL is sorted first. -/
def integerDialect : SqlDialect ℤ ℤ where
  atLeast k lower := decide (lower ≤ k)
  below k upper := decide (k < upper)
  nullsFirst := true

/-- One batch is read, written and checkpointed. -/
def oneBatch : List (TransportAction Unit) :=
  [.read () none none, .push () false, .pop () false, .write () (.returned 1), .checkpoint () none]

/-- A table with the key column `id`. -/
def simpleTable : SqlTable ℤ where
  columns := ["id"]
  rows := [[("id", some 1)], [("id", some 2)]]
  columns_eq := by decide

/-- A table with the key columns `a` and `b`. -/
def compositeTable : SqlTable ℤ where
  columns := ["a", "b"]
  rows := [[("a", some 1), ("b", some 1)], [("a", some 1), ("b", some 2)]]
  columns_eq := by decide

instance (nullsFirst : Bool) (a b : Option ℤ) : Decidable (keyLe nullsFirst a b) :=
  match a, b with
  | some a, some b => inferInstanceAs (Decidable (a ≤ b))
  | none, some _ => inferInstanceAs (Decidable (nullsFirst = true))
  | some _, none => inferInstanceAs (Decidable (nullsFirst = false))
  | none, none => inferInstanceAs (Decidable True)

instance (d : SqlDialect ℤ ℤ) (partition : TransportPartition ℤ) (rows : List (SqlRow ℤ)) :
    Decidable (KeyOrdered d partition rows) :=
  inferInstanceAs (Decidable (rows.Pairwise _))

theorem simpleTable_strictly_ordered : simpleTable.rows.Pairwise fun r t =>
      ∀ k, rowKey (checkpointedCall ["id"]).partition r = some k →
        KeyAfter (checkpointedCall ["id"]).partition k t := by
  show List.Pairwise _ [[("id", some 1)], [("id", some 2)]]
  rw [List.pairwise_pair]
  intro k hk
  have hone : k = 1 := (Option.some.inj hk).symm
  exact ⟨2, rfl, by omega⟩

theorem isQueryResult_simpleTable :
    IsQueryResult integerDialect simpleTable (checkpointedCall ["id"]).partition none
      simpleTable.rows := ⟨by decide, by decide⟩

theorem isQueryResult_simpleTable_resumed :
    IsQueryResult integerDialect simpleTable (checkpointedCall ["id"]).partition (some 1)
      [[("id", some 2)]] := ⟨by decide, by decide⟩

/-- The rule at work on the simple key: after one of two batches the crash is safe, and the
resumed reader reads the other row. -/
theorem resume_exact_simpleTable :
    (([[("id", some 1)]] : List (SqlRow ℤ)) ++ readToEnd (fun _ => 10) 1
      (openPartition (checkpointedCall ["id"]).partition ["id"] (some 1)
        (some [[("id", some 2)]]))).Perm
      (selectedRows integerDialect simpleTable (checkpointedCall ["id"]).partition none) :=
  (resume_exact_iff isQueryResult_simpleTable rfl (fun _ => 10) 1 {} oneBatch rfl rfl
    isQueryResult_simpleTable_resumed).mpr
    (resumeSafe_of_strictly_ordered (by decide) simpleTable_strictly_ordered (by decide)
      (by decide))

/-- **This fails for a composite key**: both rows have a `1` in the first key column, so
after a first batch of one row the resumed reader reads nothing, and the second row is lost. -/
theorem not_resume_exact_of_composite_key :
    (compositeTable.rows.map fun r => ["a", "b"].map r.value).Nodup ∧
      ¬ ∀ (schedule : List (TransportAction Unit))
          (s : TransportState Unit (GenericSqlReader ℤ ℤ) (SqlRow ℤ) ℤ)
          (last : TransportBatch (SqlRow ℤ) × MigrationCheckpoint ℤ)
          (rows resumed : List (SqlRow ℤ)),
        IsQueryResult integerDialect compositeTable (checkpointedCall ["a", "b"]).partition none
          rows →
        run (transportStep (sqlReaderApi ℤ ℤ (fun _ => 10) 1) fun _ =>
          checkpointedCall ["a", "b"])
          (.init {} fun _ => openPartition (checkpointedCall ["a", "b"]).partition ["a", "b"] none
            (some rows)) schedule = some s →
        (s.calls ()).checkpoints.getLast? = some last →
        IsQueryResult integerDialect compositeTable (checkpointedCall ["a", "b"]).partition
          last.2.readPosition resumed →
        (rowsWritten (s.calls ()) ++ readToEnd (fun _ => 10) 1
          (openPartition (checkpointedCall ["a", "b"]).partition ["a", "b"] last.2.readPosition
            (some resumed))).Perm
          (selectedRows integerDialect compositeTable (checkpointedCall ["a", "b"]).partition
            none) := by
  refine ⟨by decide, fun h => ?_⟩
  have hperm := h oneBatch _ _ compositeTable.rows [] ⟨by decide, by decide⟩ rfl rfl
    ⟨by decide, by decide⟩
  rw [readToEnd_eq (by decide)] at hperm
  exact absurd hperm.length_eq (by decide)

end Transport

/-
# The idempotency service of the pipeline

`IdempotencyService` of `akaalPipeline/operations/idempotency.py`: results are stored in
`idempotency_records` under one text that joins the tenant, the workspace, the project, the command and
the key of a request, and a later request with that text gets the stored result.

* `returnsRecorded_iff` : over any history, a stored result is returned for the identifiers it was
  recorded for precisely when no lookup finds the row of other identifiers;
* `not_returnsRecorded_of_separator` : otherwise one tenant gets the result of another.
-/
import Akaal.JsonPayload
import Akaal.TransitionRun

open JsonText TransitionRun

namespace IdempotencyService

/-! ## Requests -/

/-- `text or default`. -/
def textOr (text : Option String) (default : String) : String :=
  if text.getD "" = "" then default else text.getD ""

/-- The identifiers of a request, as they are given. -/
structure Request where
  idempotencyKey : String
  tenantId : String
  workspaceId : Option String := none
  projectId : Option String := none
  commandName : Option String := none
  deriving DecidableEq

/-- The identifiers that a request stands for: the workspace and the command have a default, and an
empty project is no project. -/
structure Scope where
  tenantId : String
  workspaceId : String
  projectId : String
  commandName : String
  idempotencyKey : String
  deriving DecidableEq

/-- The identifiers that a request stands for. -/
def Request.scope (r : Request) : Scope where
  tenantId := r.tenantId
  workspaceId := textOr r.workspaceId "default-workspace"
  projectId := textOr r.projectId ""
  commandName := textOr r.commandName "command"
  idempotencyKey := r.idempotencyKey

/-- `compute_record_id`. -/
def Scope.recordId (s : Scope) : String :=
  s.tenantId ++ "::" ++ s.workspaceId ++ "::" ++ s.projectId ++ "::" ++ s.commandName ++ "::" ++
    s.idempotencyKey

/-! ## The table -/

/-- A row of `idempotency_records`. -/
structure IdempotencyRow where
  idempotencyKey : String
  tenantId : String
  workspaceId : String
  projectId : Option String
  commandName : String
  commandId : String
  payloadFingerprint : String
  resultPayload : String
  createdAt : String
  deriving DecidableEq

/-- The identifiers that a row is stored with. -/
def IdempotencyRow.scope (row : IdempotencyRow) : Scope where
  tenantId := row.tenantId
  workspaceId := row.workspaceId
  projectId := textOr row.projectId ""
  commandName := row.commandName
  idempotencyKey := row.idempotencyKey

/-- The table `idempotency_records`, by record id. -/
abbrev IdempotencyTable := PyDict IdempotencyRow

/-- Why a call raises. -/
inductive IdempotencyError where
  /-- `IdempotencyConflictError`: the request has another fingerprint. -/
  | fingerprint (key stored given : String)
  /-- `IdempotencyConflictError`: the request has another project. -/
  | project (key stored given : String)
  /-- `IdempotencyConflictError`: the result is already there. -/
  | executed (key : String)
  /-- The stored text is no JSON. -/
  | decode
  /-- The payload is not JSON serializable. -/
  | encode (e : PyException)

/-- Both projects are given, and they differ. -/
def IdempotencyRow.projectConflict (row : IdempotencyRow) (r : Request) : Bool :=
  r.projectId.getD "" ≠ "" && row.projectId.getD "" ≠ "" && row.projectId ≠ r.projectId

/-! ## The calls -/

/-- `get_idempotent_result`. -/
def getIdempotentResult (t : IdempotencyTable) (r : Request) (payloadFingerprint : String) :
    Except IdempotencyError (Option PyValue) :=
  match t.get? r.scope.recordId with
  | none => .ok none
  | some row =>
    if row.payloadFingerprint ≠ payloadFingerprint then
      .error (.fingerprint r.idempotencyKey row.payloadFingerprint payloadFingerprint)
    else if row.projectConflict r then
      .error (.project r.idempotencyKey (row.projectId.getD "") (r.projectId.getD ""))
    else
      match loads row.resultPayload with
      | none => .error .decode
      | some v => .ok (some v)

/-- What is to be recorded for a request: a result is a dictionary. -/
structure Recording where
  request : Request
  commandId : String
  payloadFingerprint : String
  resultPayload : List (String × PyValue)
  isValue : IsValue (.dict resultPayload)
  now : String

/-- The row of a recording, with the text of its result. -/
def Recording.row (c : Recording) (text : String) : IdempotencyRow where
  idempotencyKey := c.request.idempotencyKey
  tenantId := c.request.tenantId
  workspaceId := c.request.scope.workspaceId
  projectId := c.request.projectId
  commandName := c.request.scope.commandName
  commandId := c.commandId
  payloadFingerprint := c.payloadFingerprint
  resultPayload := text
  createdAt := c.now

/-- `record_idempotent_result`. -/
def recordIdempotentResult (t : IdempotencyTable) (c : Recording) :
    Except IdempotencyError IdempotencyTable :=
  match dumps false (.dict c.resultPayload) with
  | .error e => .error (.encode e)
  | .ok text =>
    match t.get? c.request.scope.recordId with
    | some row =>
      if row.payloadFingerprint ≠ c.payloadFingerprint then
        .error (.fingerprint c.request.idempotencyKey row.payloadFingerprint
          c.payloadFingerprint)
      else .error (.executed c.request.idempotencyKey)
    | none => .ok (t.set c.request.scope.recordId (c.row text))

/-- `check_and_store`. -/
def checkAndStore (t : IdempotencyTable) (c : Recording) :
    Except IdempotencyError (Option PyValue × IdempotencyTable) := do
  match ← getIdempotentResult t c.request c.payloadFingerprint with
  | some .none | none =>
    if c.resultPayload.isEmpty then .ok (none, t)
    else .ok (none, ← recordIdempotentResult t c)
  | some cached => .ok (some cached, t)

/-! ## Histories -/

/-- A call of the service. -/
inductive Call where
  | get (request : Request) (payloadFingerprint : String)
  | record (c : Recording)
  | checkAndStore (c : Recording)

/-- The table, and what has been recorded. -/
structure Ledger where
  table : IdempotencyTable
  recorded : List Recording

/-- Nothing is recorded. -/
def Ledger.empty : Ledger := ⟨.empty, []⟩

/-- A ledger after the recording of a result. -/
def Ledger.append (s : Ledger) (t : IdempotencyTable) (c : Recording) : Ledger := ⟨t, c :: s.recorded⟩

/-- One call; a call that raises changes nothing. -/
def step (s : Ledger) : Call → Option Ledger
  | .get _ _ => some s
  | .record c =>
    match recordIdempotentResult s.table c with
    | .error _ => some s
    | .ok t => some (s.append t c)
  | .checkAndStore c =>
    match checkAndStore s.table c with
    | .ok (none, t) => some (if c.resultPayload.isEmpty then s else s.append t c)
    | _ => some s

/-- What a call looks up: a request and a fingerprint. -/
def Call.lookup : Call → Option (Request × String)
  | .get r fingerprint => some (r, fingerprint)
  | .record _ => none
  | .checkAndStore c => some (c.request, c.payloadFingerprint)

/-- A stored result that a call gets was recorded for the identifiers and the fingerprint of its
request. -/
def ReturnsRecorded (s : Ledger) (call : Call) : Prop :=
  ∀ r fingerprint, call.lookup = some (r, fingerprint) → ∀ v,
    getIdempotentResult s.table r fingerprint = .ok (some v) →
      ∃ c ∈ s.recorded, c.request.scope = r.scope ∧ c.payloadFingerprint = fingerprint ∧
        v = .dict c.resultPayload

/-- The row that a call finds under the joined text, with its fingerprint and no conflict of projects,
is one of the identifiers of its request. -/
def FindsOwnRow (s : Ledger) (call : Call) : Prop :=
  ∀ r fingerprint, call.lookup = some (r, fingerprint) → ∀ row,
    s.table.get? r.scope.recordId = some row → row.payloadFingerprint = fingerprint →
      row.projectConflict r = false → row.scope = r.scope

/-! ## What the calls do -/

@[simp] theorem Recording.scope_row (c : Recording) (text : String) :
    (c.row text).scope = c.request.scope := rfl

variable {c : Recording} {s : Ledger} {t : IdempotencyTable}

/-- When a stored result is returned. -/
theorem getIdempotentResult_eq_some_iff {r : Request} {fingerprint : String}
    {v : PyValue} : getIdempotentResult t r fingerprint = .ok (some v) ↔
      ∃ row, t.get? r.scope.recordId = some row ∧ row.payloadFingerprint = fingerprint ∧
        row.projectConflict r = false ∧ loads row.resultPayload = some v := by
  rw [getIdempotentResult]
  cases hrow : t.get? r.scope.recordId with
  | none => simp
  | some row =>
    by_cases hfingerprint : row.payloadFingerprint = fingerprint
    · by_cases hconflict : row.projectConflict r = true
      · simp [hfingerprint, hconflict]
      · cases hloads : loads row.resultPayload <;> simp [hfingerprint, hconflict, hloads]
    · simp [hfingerprint]

/-- What a recording does: it adds a row where there is none. -/
theorem recordIdempotentResult_ok {t' : IdempotencyTable}
    (h : recordIdempotentResult t c = .ok t') :
    ∃ text, dumps false (.dict c.resultPayload) = .ok text ∧
      t.get? c.request.scope.recordId = none ∧ t' = t.set c.request.scope.recordId (c.row text) := by
  rw [recordIdempotentResult] at h
  cases htext : dumps false (.dict c.resultPayload) with
  | error e =>
    rw [htext] at h
    cases h
  | ok text =>
    simp only [htext] at h
    cases hrow : t.get? c.request.scope.recordId with
    | none =>
      simp only [hrow, Except.ok.injEq] at h
      exact ⟨text, rfl, rfl, h.symm⟩
    | some row =>
      simp only [hrow] at h
      split_ifs at h

theorem recordIdempotentResult_of_checkAndStore {t' : IdempotencyTable}
    (hne : c.resultPayload.isEmpty = false) (h : checkAndStore t c = .ok (none, t')) :
    recordIdempotentResult t c = .ok t' := by
  obtain ⟨cached, -, h⟩ := Traversal.bind_eq_ok_iff.mp h
  rw [hne, if_neg Bool.false_ne_true] at h
  have hnone : ∀ {e : Except IdempotencyError IdempotencyTable},
      (e >>= fun t'' => Except.ok ((none : Option PyValue), t'')) = .ok (none, t') → e = .ok t' := by
    intro e he
    obtain ⟨t'', he, ht''⟩ := Traversal.bind_eq_ok_iff.mp he
    cases ht''
    exact he
  cases cached with
  | none => exact hnone h
  | some v =>
    cases v with
    | none => exact hnone h
    | _ => cases h

theorem step_cases {s' : Ledger} {call : Call} (h : step s call = some s') :
    s' = s ∨ ∃ t c, recordIdempotentResult s.table c = .ok t ∧ s' = s.append t c := by
  cases call with
  | get r fingerprint => exact .inl (Option.some.inj h).symm
  | record c =>
    rw [step] at h
    cases hrecord : recordIdempotentResult s.table c with
    | error e =>
      rw [hrecord] at h
      exact .inl (Option.some.inj h).symm
    | ok t =>
      rw [hrecord] at h
      exact .inr ⟨t, c, hrecord, (Option.some.inj h).symm⟩
  | checkAndStore c =>
    rw [step] at h
    split at h
    · next t hcheck =>
        cases hempty : c.resultPayload.isEmpty with
        | true =>
          rw [hempty, if_pos rfl] at h
          exact .inl (Option.some.inj h).symm
        | false =>
          rw [hempty, if_neg Bool.false_ne_true] at h
          exact .inr ⟨t, c, recordIdempotentResult_of_checkAndStore hempty hcheck,
            (Option.some.inj h).symm⟩
    · exact .inl (Option.some.inj h).symm

/-! ## What is recorded -/

/-- The row of a recording is in the table. -/
def Stored (t : IdempotencyTable) (c : Recording) : Prop :=
  ∃ text, dumps false (.dict c.resultPayload) = .ok text ∧
    t.get? c.request.scope.recordId = some (c.row text)

/-- The rows are those of what has been recorded. -/
structure Kept (s : Ledger) : Prop where
  stored : ∀ c ∈ s.recorded, Stored s.table c
  recorded : ∀ id row, s.table.get? id = some row →
    ∃ c ∈ s.recorded, c.request.scope.recordId = id ∧ Stored s.table c

theorem kept_empty : Kept .empty where
  stored _ hc := absurd hc List.not_mem_nil
  recorded _ _ hrow := by cases hrow

theorem Kept.append (h : Kept s)
    (hrecord : recordIdempotentResult s.table c = .ok t) : Kept (s.append t c) := by
  obtain ⟨text, htext, hnone, rfl⟩ := recordIdempotentResult_ok hrecord
  have hnew : Stored (s.table.set c.request.scope.recordId (c.row text)) c :=
    ⟨text, htext, PyDict.get?_set _ _ _⟩
  have hold : ∀ d, Stored s.table d →
      Stored (s.table.set c.request.scope.recordId (c.row text)) d := by
    rintro d ⟨text', htext', hd⟩
    have hne : d.request.scope.recordId ≠ c.request.scope.recordId := by
      intro heq
      rw [heq, hnone] at hd
      cases hd
    exact ⟨text', htext', (PyDict.get?_set_of_ne _ _ hne).trans hd⟩
  constructor
  · intro d hd
    rcases List.mem_cons.mp hd with rfl | hd
    · exact hnew
    · exact hold d (h.stored d hd)
  · intro id row hrow
    by_cases hid : id = c.request.scope.recordId
    · exact ⟨c, List.mem_cons_self, hid.symm, hnew⟩
    · have hrow' : s.table.get? id = some row := (PyDict.get?_set_of_ne _ _ hid).symm.trans hrow
      obtain ⟨d, hd, hdid, hstored⟩ := h.recorded id row hrow'
      exact ⟨d, List.mem_cons_of_mem c hd, hdid, hold d hstored⟩

theorem Kept.step {s' : Ledger} {call : Call} (h : Kept s)
    (hstep : IdempotencyService.step s call = some s') : Kept s' := by
  rcases step_cases hstep with rfl | ⟨t, c, hrecord, rfl⟩
  · exact h
  · exact h.append hrecord

theorem Kept.returnsRecorded_iff_findsOwnRow (h : Kept s) (call : Call) :
    ReturnsRecorded s call ↔ FindsOwnRow s call := by
  constructor
  · intro hreturns r fingerprint hlookup row hrow hfingerprint hconflict
    -- The row is that of a recording, whose text is read.
    obtain ⟨d, -, hd, text, htext, hstored⟩ := h.recorded _ _ hrow
    rw [hd, hrow, Option.some.injEq] at hstored
    subst hstored
    have hget : getIdempotentResult s.table r fingerprint = .ok (some (.dict d.resultPayload)) :=
      getIdempotentResult_eq_some_iff.mpr
        ⟨d.row text, hrow, hfingerprint, hconflict, loads_dumps d.isValue htext⟩
    obtain ⟨c, hc, hscope, -⟩ := hreturns r fingerprint hlookup _ hget
    -- What was recorded for the same identifiers is under the same text.
    obtain ⟨text', -, hrow'⟩ := h.stored c hc
    rw [hscope, hrow, Option.some.injEq] at hrow'
    rw [hrow', Recording.scope_row, hscope]
  · intro hfinds r fingerprint hlookup v hget
    obtain ⟨row, hrow, hfingerprint, hconflict, hloads⟩ := getIdempotentResult_eq_some_iff.mp hget
    obtain ⟨c, hc, hid, text, htext, hstored⟩ := h.recorded _ _ hrow
    rw [hid, hrow, Option.some.injEq] at hstored
    subst hstored
    refine ⟨c, hc, hfinds r fingerprint hlookup _ hrow hfingerprint hconflict, hfingerprint, ?_⟩
    have := (loads_dumps c.isValue htext).symm.trans hloads
    exact (Option.some.inj this).symm

/-- **Results of one's own.**  Over any history of calls, a stored result is returned only for the
identifiers and the fingerprint that it was recorded for precisely when no call finds, under the joined
text of its identifiers, a row of other identifiers with its fingerprint. -/
theorem returnsRecorded_iff (calls : List Call) :
    MeetsAlong step ReturnsRecorded .empty calls ↔ MeetsAlong step FindsOwnRow .empty calls :=
  meetsAlong_iff_meetsAlong (fun _ _ _ h _ hstep => Kept.step h hstep)
    (fun _ call _ h _ => h.returnsRecorded_iff_findsOwnRow call) kept_empty calls

/-! ## Identifiers with the separator -/

/-- A result of the workspace `c` of the tenant `a::b`. -/
def sampleRecording : Recording where
  request := { idempotencyKey := "k", tenantId := "a::b", workspaceId := some "c" }
  commandId := "cmd-1"
  payloadFingerprint := "fp"
  resultPayload := [("migration_id", .str "m-1")]
  isValue := ⟨List.nodup_singleton _, trivial, trivial⟩
  now := "2026-01-01T00:00:00+00:00"

/-- A request of the workspace `b::c` of the tenant `a`. -/
def sampleRequest : Request := { idempotencyKey := "k", tenantId := "a", workspaceId := some "b::c" }

/-- The tenant `a` gets the result of the tenant `a::b`. -/
theorem not_returnsRecorded_of_separator :
    ¬ ∀ calls, MeetsAlong step ReturnsRecorded .empty calls := by
  intro h
  obtain ⟨text, htext⟩ : Dumps false (.dict sampleRecording.resultPayload) := ⟨_, rfl⟩
  obtain ⟨t, ht⟩ : ∃ t, t = PyDict.empty.set sampleRecording.request.scope.recordId
      (sampleRecording.row text) := ⟨_, rfl⟩
  have hrecord : recordIdempotentResult .empty sampleRecording = .ok t := by
    rw [recordIdempotentResult, htext, ht]
    rfl
  have hstep : step .empty (.record sampleRecording) =
      some (Ledger.empty.append t sampleRecording) := by
    rw [step, show Ledger.empty.table = PyDict.empty from rfl, hrecord]
  have hkept := kept_empty.step hstep
  have hget := ((h [.record sampleRecording, .get sampleRequest "fp"] _ hstep).2 _ rfl).1
  -- Both requests have the text `a::b::c::::command::k`.
  have hrow := (hkept.returnsRecorded_iff_findsOwnRow _).mp hget sampleRequest "fp" rfl
    (sampleRecording.row text)
    (ht ▸ PyDict.get?_set _ _ _) rfl rfl
  have htenant : "a::b" = "a" := congrArg Scope.tenantId hrow
  exact absurd htenant (by decide)

end IdempotencyService

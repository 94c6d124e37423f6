/-
# Fencing tokens

`FencingTokenManager` of `akaalEngine/durability/fencing/manager.py` and `validate_fencing_envelope` of
`akaalEngine/durability/api.py`: each resource has an epoch that grows with every token, and a token is
signed under its resource, its worker, its epoch and its time.

* `Ledger.issue` : what a new token keeps of the tokens that were issued;
* `Ledger.current_iff` : the token whose epoch is the current one is the newest of its resource.

The values of an envelope may be of any class; how `int`, `str` and SQLite take values that are no
texts is left open.
-/
import Akaal.DurableBuffer
import Akaal.StateClaims

open CDC

namespace Durability

/-! ## Tokens -/

/-- `FencingToken`. -/
structure FencingToken where
  resourceId : String
  workerId : String
  fencingEpoch : ℤ
  issuedAt : String
  signature : String
  deriving DecidableEq

/-- A row of `fencing_tokens`. -/
structure EpochRow where
  currentEpoch : ℤ
  lastWorkerId : String
  updatedAt : String
  deriving DecidableEq

/-- The table `fencing_tokens`, by resource. -/
abbrev EpochTable := PyDict EpochRow

/-- Why a token is not accepted. -/
inductive FencingError where
  | signature
  | notComparable
  | notAnInteger
  | unsupportedType
  | neverIssued (resourceId : String)
  | notCurrent (epoch current : ℤ) (resourceId : String)
  | stale (epoch current : ℤ)
  deriving DecidableEq

/-- The data of a token that are signed. -/
def tokenData (resourceId workerId : String) (fencingEpoch : ℤ) (issuedAt : String) : String :=
  resourceId ++ "|" ++ workerId ++ "|" ++ intText fencingEpoch ++ "|" ++ issuedAt

/-- The signed data of a token. -/
def FencingToken.data (token : FencingToken) : String :=
  tokenData token.resourceId token.workerId token.fencingEpoch token.issuedAt

section Manager

variable (rt : DigestRuntime) (signingKey : List UInt8) (table : EpochTable)

/-- The epoch of the next token for a resource. -/
def nextEpoch (resourceId : String) : ℤ :=
  ((table.get? resourceId).elim 0 EpochRow.currentEpoch) + 1

/-- `issue_token`. -/
def issueToken (resourceId workerId now : String) : FencingToken × EpochTable :=
  let newEpoch := nextEpoch table resourceId
  ({ resourceId := resourceId
     workerId := workerId
     fencingEpoch := newEpoch
     issuedAt := now
     signature := rt.hmacHex signingKey (tokenData resourceId workerId newEpoch now) },
    table.set resourceId ⟨newEpoch, workerId, now⟩)

/-- `_verify_hmac`, for the signed data and a signature of any class. -/
def verifyHmac (data : String) : PyValue → Except FencingError Unit
  | .str signature =>
    if signature = rt.hmacHex signingKey data then .ok ()
    else if signature.toList.any fun c => 128 ≤ c.toNat then .error .notComparable
    else .error .signature
  | _ => .error .notComparable

/-- `validate_token_in_tx`. -/
def validateTokenInTx (token : FencingToken) : Except FencingError Unit :=
  match verifyHmac rt signingKey token.data (.str token.signature) with
  | .error e => .error e
  | .ok () =>
    match table.get? token.resourceId with
    | none => .error (.neverIssued token.resourceId)
    | some row =>
      if token.fencingEpoch ≠ row.currentEpoch then
        .error (.notCurrent token.fencingEpoch row.currentEpoch token.resourceId)
      else .ok ()

end Manager

/-! ## Envelopes -/

/-- What `int`, `str` and SQLite make of a value. -/
structure ValueRuntime extends DigestRuntime where
  /-- `int(v)`; `none` when it raises. -/
  int : PyValue → Option ℤ
  /-- The text a value is compared as in a column of texts; `none` when it is not supported. -/
  columnText : PyValue → Option String

/-- A token of an envelope. -/
structure PresentedToken where
  resourceId : PyValue
  workerId : PyValue
  fencingEpoch : ℤ
  issuedAt : PyValue
  signature : PyValue

section Envelopes

variable (rt : ValueRuntime) (signingKey : List UInt8) (table : EpochTable)

/-- A value in an f-string. -/
def formatted : PyValue → String
  | .str s => s
  | v => rt.str v

/-- The signed data of a token of an envelope. -/
def PresentedToken.data (token : PresentedToken) : String :=
  tokenData (formatted rt token.resourceId) (formatted rt token.workerId) token.fencingEpoch
    (formatted rt token.issuedAt)

/-- `validate_token`. -/
def validateToken (token : PresentedToken) : Except FencingError Bool :=
  match verifyHmac rt.toDigestRuntime signingKey (token.data rt) token.signature with
  | .error e => .error e
  | .ok () =>
    match rt.columnText token.resourceId with
    | none => .error .unsupportedType
    | some resourceId =>
      match table.get? resourceId with
      | none => .ok true
      | some row =>
        if token.fencingEpoch < row.currentEpoch then
          .error (.stale token.fencingEpoch row.currentEpoch)
        else .ok true

/-- `envelope.get(key)`. -/
def getValue (envelope : List (String × PyValue)) (key : String) : PyValue :=
  (envelope.lookup key).getD .none

/-- `envelope.get(key) or envelope.get(other, default)`. -/
def eitherValue (envelope : List (String × PyValue)) (key other : String) (default : PyValue) :
    PyValue :=
  if StateStore.truthy (getValue envelope key) then getValue envelope key
  else (envelope.lookup other).getD default

/-- The token of an envelope, when its values allow one. -/
def envelopeToken (envelope : List (String × PyValue)) : Except FencingError (Option PresentedToken) :=
  let resourceId := eitherValue envelope "resource_id" "canonical_resource_id" .none
  let workerId := eitherValue envelope "worker_id" "owner_id" (.str "gateway")
  let epoch := eitherValue envelope "fencing_epoch" "epoch" (.int 0)
  let issuedAt := eitherValue envelope "issued_at" "timestamp" (.str "")
  let signature := eitherValue envelope "signature" "engine_signature" (.str "")
  if ¬ StateStore.truthy resourceId ∨ ¬ StateStore.truthy workerId ∨ ¬ StateStore.truthy signature then
    .ok none
  else
    match rt.int epoch with
    | none => .error .notAnInteger
    | some epoch => .ok (some ⟨resourceId, workerId, epoch, issuedAt, signature⟩)

/-- `validate_fencing_envelope`. -/
def validateFencingEnvelope (envelope : List (String × PyValue)) : Except FencingError Bool :=
  match envelopeToken rt envelope with
  | .error e => .error e
  | .ok none => .ok false
  | .ok (some token) => validateToken rt signingKey table token

end Envelopes

/-! ## The tokens that were issued -/

/-- The table, and the tokens that were issued, the newest one last. -/
structure Ledger (rt : DigestRuntime) (signingKey : List UInt8) (table : EpochTable)
    (issued : List FencingToken) : Prop where
  signed : ∀ t ∈ issued, t.signature = rt.hmacHex signingKey t.data
  recorded : ∀ resourceId row, table.get? resourceId = some row →
    ∃ t ∈ issued, t.resourceId = resourceId ∧ t.fencingEpoch = row.currentEpoch
  bounded : ∀ t ∈ issued, ∃ row, table.get? t.resourceId = some row ∧
    t.fencingEpoch ≤ row.currentEpoch
  growing : issued.Pairwise fun t t' => t.resourceId = t'.resourceId → t.fencingEpoch < t'.fencingEpoch

variable {rt : DigestRuntime} {signingKey : List UInt8} {table : EpochTable}
  {issued : List FencingToken}

theorem ledger_empty : Ledger rt signingKey PyDict.empty [] where
  signed := List.forall_mem_nil _
  recorded := nofun
  bounded := List.forall_mem_nil _
  growing := List.Pairwise.nil

/-- **A new token** has the greatest epoch of its resource. -/
theorem Ledger.issue (h : Ledger rt signingKey table issued) (resourceId workerId now : String) :
    Ledger rt signingKey (issueToken rt signingKey table resourceId workerId now).2
      (issued ++ [(issueToken rt signingKey table resourceId workerId now).1]) := by
  have hbelow : ∀ t ∈ issued, t.resourceId = resourceId → t.fencingEpoch < nextEpoch table resourceId := by
    rintro t ht rfl
    obtain ⟨row, hrow, hle⟩ := h.bounded t ht
    rw [nextEpoch, hrow, Option.elim_some]
    omega
  refine ⟨?_, ?_, ?_, ?_⟩
  · exact List.forall_mem_append.mpr ⟨h.signed, List.forall_mem_singleton.mpr rfl⟩
  · intro r row hrow
    by_cases hr : r = resourceId
    · subst hr
      refine ⟨_, List.mem_concat_self, rfl, ?_⟩
      rw [issueToken, PyDict.get?_set, Option.some.injEq] at hrow
      rw [← hrow]
      rfl
    · rw [issueToken, PyDict.get?_set_of_ne _ _ hr] at hrow
      obtain ⟨t, ht, heq⟩ := h.recorded r row hrow
      exact ⟨t, List.mem_append_left _ ht, heq⟩
  · refine List.forall_mem_append.mpr ⟨fun t ht => ?_, List.forall_mem_singleton.mpr ?_⟩
    · by_cases hr : t.resourceId = resourceId
      · rw [issueToken, hr, PyDict.get?_set]
        exact ⟨_, rfl, (hbelow t ht hr).le⟩
      · rw [issueToken, PyDict.get?_set_of_ne _ _ hr]
        exact h.bounded t ht
    · rw [issueToken, PyDict.get?_set]
      exact ⟨_, rfl, le_rfl⟩
  · refine List.pairwise_append.mpr ⟨h.growing, List.pairwise_singleton _ _, fun t ht t' ht' hr => ?_⟩
    rw [List.mem_singleton.mp ht'] at hr ⊢
    exact hbelow t ht hr

/-- **The token with the current epoch** is the newest one of its resource. -/
theorem Ledger.current_iff (h : Ledger rt signingKey table issued) {before after : List FencingToken}
    {t : FencingToken} (hissued : issued = before ++ t :: after) :
    (∃ row, table.get? t.resourceId = some row ∧ t.fencingEpoch = row.currentEpoch) ↔
      ∀ t' ∈ after, t'.resourceId ≠ t.resourceId := by
  have hgrowing := h.growing
  rw [hissued] at hgrowing
  obtain ⟨-, hrest, hcross⟩ := List.pairwise_append.mp hgrowing
  have hafter := (List.pairwise_cons.mp hrest).1
  have hmem : t ∈ issued := by simp [hissued]
  constructor
  · rintro ⟨row, hrow, hepoch⟩ t' ht' hr
    obtain ⟨row', hrow', hle⟩ := h.bounded t' (by simp [hissued, ht'])
    rw [hr, hrow] at hrow'
    cases hrow'
    have hlt := hafter t' ht' hr.symm
    omega
  · intro hnone
    obtain ⟨row, hrow, hle⟩ := h.bounded t hmem
    refine ⟨row, hrow, ?_⟩
    obtain ⟨t', ht', hr, hepoch⟩ := h.recorded _ row hrow
    rw [hissued, List.mem_append, List.mem_cons] at ht'
    rcases ht' with hbefore | rfl | hlater
    · have hlt := hcross t' hbefore t List.mem_cons_self hr
      omega
    · exact hepoch
    · exact absurd hr (hnone t' hlater)

theorem verifyHmac_eq_ok_iff (data : String) (signature : PyValue) :
    verifyHmac rt signingKey data signature = .ok () ↔
      signature = .str (rt.hmacHex signingKey data) := by
  unfold verifyHmac
  split
  · rw [PyValue.str.injEq]
    split_ifs with hsame
    · exact iff_of_true rfl hsame
    · exact iff_of_false nofun hsame
    · exact iff_of_false nofun hsame
  · next hclass => exact iff_of_false nofun (hclass _)

/-- A token that is accepted is signed and has the current epoch. -/
theorem validateTokenInTx_eq_ok_iff (token : FencingToken) :
    validateTokenInTx rt signingKey table token = .ok () ↔
      token.signature = rt.hmacHex signingKey token.data ∧
        ∃ row, table.get? token.resourceId = some row ∧ token.fencingEpoch = row.currentEpoch := by
  have hverify := @verifyHmac_eq_ok_iff rt signingKey token.data (.str token.signature)
  rw [PyValue.str.injEq] at hverify
  rw [← hverify]
  unfold validateTokenInTx
  cases verifyHmac rt signingKey token.data (.str token.signature) with
  | error e => simp
  | ok _ =>
    dsimp only
    cases table.get? token.resourceId with
    | none => simp
    | some row => simp

/-- A token of an envelope that is accepted is signed and not older than the current epoch. -/
theorem validateToken_eq_ok_iff (rt : ValueRuntime) (token : PresentedToken) :
    validateToken rt signingKey table token = .ok true ↔
      token.signature = .str (rt.hmacHex signingKey (token.data rt)) ∧
        ∃ resourceId, rt.columnText token.resourceId = some resourceId ∧
          ∀ row, table.get? resourceId = some row → row.currentEpoch ≤ token.fencingEpoch := by
  rw [← verifyHmac_eq_ok_iff]
  unfold validateToken
  cases verifyHmac rt.toDigestRuntime signingKey (token.data rt) token.signature with
  | error e => simp
  | ok _ =>
    dsimp only
    cases rt.columnText token.resourceId with
    | none => simp
    | some resourceId =>
      dsimp only
      cases hrow : table.get? resourceId with
      | none => simp [hrow]
      | some row => simp [hrow]

end Durability

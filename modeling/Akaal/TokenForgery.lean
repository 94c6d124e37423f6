/-
# Which tokens are accepted

Tokens that are presented to `validate_token_in_tx` and `validate_fencing_envelope` after any history of
`issue_token`: the signed data are joined by bars, so the fields of a token can be split elsewhere.

* `tokenData_inj` : the data determine the fields when the bars in two of them are counted;
* `unforgeable_iff` : when only issued tokens are accepted;
* `not_unforgeable` : a token with its fields split again.
-/
import Akaal.FencingTokens
import Akaal.DelimitedText

open CDC FramedBytes DelimitedText

namespace Durability

/-! ## Histories -/

/-- A call of `issue_token`. -/
structure IssueCall where
  resourceId : String
  workerId : String
  now : String

/-- The table and the tokens after some calls. -/
structure IssueHistory where
  table : EpochTable
  issued : List FencingToken

namespace IssueHistory

section Histories

variable (rt : DigestRuntime) (signingKey : List UInt8)

/-- One call. -/
def issue (s : IssueHistory) (call : IssueCall) : IssueHistory :=
  let (token, table) := issueToken rt signingKey s.table call.resourceId call.workerId call.now
  ⟨table, s.issued ++ [token]⟩

/-- All calls of a history. -/
def after (calls : List IssueCall) : IssueHistory :=
  calls.foldl (issue rt signingKey) ⟨PyDict.empty, []⟩

theorem ledger_after (calls : List IssueCall) :
    Ledger rt signingKey (after rt signingKey calls).table (after rt signingKey calls).issued := by
  unfold after
  induction calls using List.reverseRecOn with
  | nil => exact ledger_empty
  | append_singleton calls call ih =>
    rw [List.foldl_append]
    exact ih.issue call.resourceId call.workerId call.now

end Histories

end IssueHistory

/-! ## Fields joined by bars -/

theorem toList_tokenData (resourceId workerId : String) (fencingEpoch : ℤ) (issuedAt : String) :
    (tokenData resourceId workerId fencingEpoch issuedAt).toList = resourceId.toList ++ '|' ::
      (workerId.toList ++ '|' :: ((intText fencingEpoch).toList ++ '|' :: issuedAt.toList)) := by
  simp [tokenData]

/-- **The fields of a token** are determined by its data when the bars in the resource and in the
worker are counted. -/
theorem tokenData_inj {resourceId resourceId' workerId workerId' issuedAt issuedAt' : String}
    {epoch epoch' : ℤ} (hresource : bars resourceId = bars resourceId')
    (hworker : bars workerId = bars workerId')
    (h : tokenData resourceId workerId epoch issuedAt =
      tokenData resourceId' workerId' epoch' issuedAt') :
    resourceId = resourceId' ∧ workerId = workerId' ∧ epoch = epoch' ∧ issuedAt = issuedAt' := by
  have hlist := congrArg String.toList h
  rw [toList_tokenData, toList_tokenData] at hlist
  have hepoch : bars (intText epoch) = bars (intText epoch') := by rw [bars_intText, bars_intText]
  obtain ⟨h1, hlist⟩ := separate_count hresource hlist
  obtain ⟨h2, hlist⟩ := separate_count hworker hlist
  obtain ⟨h3, h4⟩ := separate_count hepoch hlist
  exact ⟨String.toList_injective h1, String.toList_injective h2,
    intText_injective (String.toList_injective h3), String.toList_injective h4⟩

/-! ## Presented tokens -/

/-- A token as an envelope presents it. -/
def FencingToken.presented (token : FencingToken) : PresentedToken where
  resourceId := .str token.resourceId
  workerId := .str token.workerId
  fencingEpoch := token.fencingEpoch
  issuedAt := .str token.issuedAt
  signature := .str token.signature

/-- The token, as far as it is not its signature, was issued. -/
def WasIssued (issued : List FencingToken) (token : PresentedToken) : Prop :=
  ∃ t ∈ issued, token.resourceId = .str t.resourceId ∧ token.workerId = .str t.workerId ∧
    token.fencingEpoch = t.fencingEpoch ∧ token.issuedAt = .str t.issuedAt

/-- A value that is a text with as many bars as another one. -/
def SameBars (v : PyValue) (text : String) : Prop := ∃ s, v = .str s ∧ bars s = bars text

/-- When the token carries the data and the signature of an issued one, its fields are texts that are
split as those of an issued token with these data. -/
def SplitAsIssued (rt : ValueRuntime) (issued : List FencingToken) (token : PresentedToken) : Prop :=
  (∃ t ∈ issued, t.data = token.data rt ∧ token.signature = .str t.signature) →
    ∃ t ∈ issued, t.data = token.data rt ∧ SameBars token.resourceId t.resourceId ∧
      SameBars token.workerId t.workerId ∧ ∃ s, token.issuedAt = .str s

/-- The key is secret: whoever presents a valid signature has it from an issued token. -/
def KeySecret (rt : ValueRuntime) (signingKey : List UInt8) (issued : List FencingToken)
    (token : PresentedToken) : Prop :=
  token.signature = .str (rt.hmacHex signingKey (token.data rt)) →
    ∃ t ∈ issued, token.signature = .str t.signature

section Forgery

variable {rt : ValueRuntime} {signingKey : List UInt8} {issued : List FencingToken}
  {token : PresentedToken}

/-- A token that is split as an issued one is that one. -/
theorem wasIssued_iff (hsigned : ∀ t ∈ issued, t.signature = rt.hmacHex signingKey t.data)
    (hinj : ∀ text text', rt.hmacHex signingKey text = rt.hmacHex signingKey text' → text = text')
    (hsecret : KeySecret rt signingKey issued token)
    (hvalid : token.signature = .str (rt.hmacHex signingKey (token.data rt))) :
    WasIssued issued token ↔ SplitAsIssued rt issued token := by
  constructor
  · rintro ⟨t, ht, hresource, hworker, hepoch, hissuedAt⟩ -
    refine ⟨t, ht, ?_, ⟨_, hresource, rfl⟩, ⟨_, hworker, rfl⟩, _, hissuedAt⟩
    rw [PresentedToken.data, hresource, hworker, hepoch, hissuedAt]
    rfl
  · intro hsplit
    obtain ⟨t, ht, hsame⟩ := hsecret hvalid
    have hdata : t.data = token.data rt := by
      apply hinj
      rw [← hsigned t ht]
      rw [hvalid, PyValue.str.injEq] at hsame
      exact hsame.symm
    obtain ⟨t', ht', hdata', ⟨r, hr, hrbars⟩, ⟨w, hw, hwbars⟩, a, ha⟩ := hsplit ⟨t, ht, hdata, hsame⟩
    rw [PresentedToken.data, hr, hw, ha] at hdata'
    obtain ⟨h1, h2, h3, h4⟩ := tokenData_inj hrbars.symm hwbars.symm hdata'
    exact ⟨t', ht', by rw [hr, h1], by rw [hw, h2], h3.symm, ha.trans (congrArg PyValue.str h4.symm)⟩

end Forgery

/-- The epoch of a token is the current one of its resource. -/
def IsCurrent (table : EpochTable) (token : FencingToken) : Prop :=
  ∃ row, table.get? token.resourceId = some row ∧ token.fencingEpoch = row.currentEpoch

/-- The epoch of a token of an envelope is not below the current one of its resource. -/
def NotStale (rt : ValueRuntime) (table : EpochTable) (token : PresentedToken) : Prop :=
  ∃ resourceId, rt.columnText token.resourceId = some resourceId ∧
    ∀ row, table.get? resourceId = some row → row.currentEpoch ≤ token.fencingEpoch

/-- An envelope is accepted for its token. -/
theorem validateFencingEnvelope_eq_ok_iff (rt : ValueRuntime) (signingKey : List UInt8)
    (table : EpochTable) (envelope : List (String × PyValue)) :
    validateFencingEnvelope rt signingKey table envelope = .ok true ↔
      ∃ token, envelopeToken rt envelope = .ok (some token) ∧
        token.signature = .str (rt.hmacHex signingKey (token.data rt)) ∧ NotStale rt table token := by
  unfold validateFencingEnvelope NotStale
  cases envelopeToken rt envelope with
  | error e => simp
  | ok token =>
    cases token with
    | none => simp
    | some token => simp [validateToken_eq_ok_iff]

/-- **Which tokens are accepted.**  After every history a token is accepted in a transaction only when
it was issued, precisely when one with the current epoch that carries the data and the signature of an
issued token has its fields split as that token; and so for an envelope that is not stale. -/
theorem unforgeable_iff (rt : ValueRuntime) (signingKey : List UInt8)
    (hinj : ∀ text text', rt.hmacHex signingKey text = rt.hmacHex signingKey text' → text = text')
    (calls : List IssueCall) (token : FencingToken) (envelope : List (String × PyValue)) :
    let s := IssueHistory.after rt.toDigestRuntime signingKey calls
    (KeySecret rt signingKey s.issued token.presented →
      ((validateTokenInTx rt.toDigestRuntime signingKey s.table token = .ok () →
          WasIssued s.issued token.presented) ↔
        (IsCurrent s.table token → SplitAsIssued rt s.issued token.presented))) ∧
    ∀ p, envelopeToken rt envelope = .ok (some p) → KeySecret rt signingKey s.issued p →
      ((validateFencingEnvelope rt signingKey s.table envelope = .ok true → WasIssued s.issued p) ↔
        (NotStale rt s.table p → SplitAsIssued rt s.issued p)) := by
  intro s
  have hsigned := (IssueHistory.ledger_after rt.toDigestRuntime signingKey calls).signed
  have hvalid : ∀ p : PresentedToken, (∃ t ∈ s.issued, t.data = p.data rt ∧
      p.signature = .str t.signature) → p.signature = .str (rt.hmacHex signingKey (p.data rt)) := by
    rintro p ⟨t, ht, hdata, hsame⟩
    rw [hsame, hsigned t ht, hdata]
  constructor
  · intro hsecret
    rw [validateTokenInTx_eq_ok_iff]
    constructor
    · intro haccepted hcurrent hcopied
      have hsignature := hvalid _ hcopied
      have hissued := haccepted ⟨PyValue.str.inj hsignature, hcurrent⟩
      exact (wasIssued_iff hsigned hinj hsecret hsignature).mp hissued hcopied
    · rintro hsplit ⟨hsignature, hcurrent⟩
      have hsame := congrArg PyValue.str hsignature
      exact (wasIssued_iff hsigned hinj hsecret hsame).mpr (hsplit hcurrent)
  · intro p hp hsecret
    rw [validateFencingEnvelope_eq_ok_iff]
    constructor
    · intro haccepted hfresh hcopied
      have hsignature := hvalid p hcopied
      have hissued := haccepted ⟨p, hp, hsignature, hfresh⟩
      exact (wasIssued_iff hsigned hinj hsecret hsignature).mp hissued hcopied
    · rintro hsplit ⟨q, hq, hsignature, hfresh⟩
      obtain rfl : q = p := Option.some.inj (Except.ok.inj (hq.symm.trans hp))
      exact (wasIssued_iff hsigned hinj hsecret hsignature).mpr (hsplit hfresh)

/-! ## Split fields -/

/-- The digests below under the key `k`. -/
def tokenDigests : List (String × String) :=
  [("a|b|c|1|2024-01-01T00:00:00+00:00",
      "5b6c71feaa43bd310dd93c8255b5b36f9cbc5c82995e4182d1f3c4d6807c7ad0"),
    ("a|z|1|2024-01-01T00:00:00+00:00",
      "d0254f26b1ed482532bb6e7108f912f5e68a9faf586d9be69585705584e231a5"),
    ("m|w|1|2024-01-01T00:00:00+00:00",
      "441eb63ed66271b9a220028ee712bc8689d039ffd01a1566df43cb83ddd8ff81")]

/-- A digest without collisions that gives the texts above their digests under the key `k`. -/
def tokenRuntime : ValueRuntime where
  sha256Hex _ := ""
  hmacHex _ text := (tokenDigests.lookup text).getD ("x" ++ text)
  str _ := ""
  int
    | .int z => some z
    | _ => none
  columnText
    | .str s => some s
    | _ => none

theorem tokenRuntime_injective (text text' : String)
    (h : tokenRuntime.hmacHex [107] text = tokenRuntime.hmacHex [107] text') : text = text' := by
  have hdistinct : ∀ d ∈ tokenDigests, ∀ d' ∈ tokenDigests, d.2 = d'.2 → d.1 = d'.1 := by
    decide +kernel
  have hhead : ∀ d ∈ tokenDigests, d.2.toList.head? ≠ some 'x' := by decide +kernel
  have hmem : ∀ {text digest}, tokenDigests.lookup text = some digest →
      (text, digest) ∈ tokenDigests := by
    intro text digest hlookup
    obtain ⟨before, after, hsplit, -⟩ := List.lookup_eq_some_iff.mp hlookup
    simp [hsplit]
  simp only [tokenRuntime] at h
  cases hx : tokenDigests.lookup text with
  | some d =>
    cases hy : tokenDigests.lookup text' with
    | some d' =>
      rw [hx, hy] at h
      exact hdistinct _ (hmem hx) _ (hmem hy) h
    | none =>
      rw [hx, hy, Option.getD_some, Option.getD_none] at h
      refine absurd ?_ (hhead _ (hmem hx))
      simp [h]
  | none =>
    cases hy : tokenDigests.lookup text' with
    | some d' =>
      rw [hx, hy, Option.getD_some, Option.getD_none] at h
      refine absurd ?_ (hhead _ (hmem hy))
      simp [← h]
    | none =>
      rw [hx, hy, Option.getD_none, Option.getD_none] at h
      exact String.toList_injective (by simpa using congrArg String.toList h)

/-- The time of the tokens below. -/
def tokenTime : String := "2024-01-01T00:00:00+00:00"

/-- A token with epoch 1 under its digest. -/
def firstToken (resourceId workerId : String) : FencingToken where
  resourceId := resourceId
  workerId := workerId
  fencingEpoch := 1
  issuedAt := tokenTime
  signature := tokenRuntime.hmacHex [107] (tokenData resourceId workerId 1 tokenTime)

/-- The envelope of a token. -/
def envelopeOf (token : FencingToken) : List (String × PyValue) :=
  [("resource_id", .str token.resourceId), ("worker_id", .str token.workerId),
    ("fencing_epoch", .int token.fencingEpoch), ("issued_at", .str token.issuedAt),
    ("signature", .str token.signature)]

/-- A token that was issued is accepted as such, also in its envelope. -/
theorem unforgeable_firstToken :
    let s := IssueHistory.after tokenRuntime.toDigestRuntime [107] [⟨"m", "w", tokenTime⟩]
    (IsCurrent s.table (firstToken "m" "w") →
        SplitAsIssued tokenRuntime s.issued (firstToken "m" "w").presented) ∧
      (NotStale tokenRuntime s.table (firstToken "m" "w").presented →
        SplitAsIssued tokenRuntime s.issued (firstToken "m" "w").presented) := by
  intro s
  have hissued : s.issued = [firstToken "m" "w"] := rfl
  have hwas : WasIssued s.issued (firstToken "m" "w").presented :=
    ⟨firstToken "m" "w", by simp [hissued], rfl, rfl, rfl, rfl⟩
  have hsecret : KeySecret tokenRuntime [107] s.issued (firstToken "m" "w").presented :=
    fun _ => ⟨firstToken "m" "w", by simp [hissued], rfl⟩
  obtain ⟨htx, henvelope⟩ := unforgeable_iff tokenRuntime [107] tokenRuntime_injective
    [⟨"m", "w", tokenTime⟩] (firstToken "m" "w") (envelopeOf (firstToken "m" "w"))
  exact ⟨(htx hsecret).mp fun _ => hwas, (henvelope _ rfl hsecret).mp fun _ => hwas⟩

/-- **A token with its fields split again** is accepted in a transaction when the other resource has the
same epoch, and in an envelope when the other resource has none. -/
theorem not_unforgeable :
    (let s := IssueHistory.after tokenRuntime.toDigestRuntime [107]
        [⟨"a|b", "c", tokenTime⟩, ⟨"a", "z", tokenTime⟩]
      let token := firstToken "a" "b|c"
      KeySecret tokenRuntime [107] s.issued token.presented ∧
        validateTokenInTx tokenRuntime.toDigestRuntime [107] s.table token = .ok () ∧
        ¬ WasIssued s.issued token.presented) ∧
    (let s := IssueHistory.after tokenRuntime.toDigestRuntime [107] [⟨"a|b", "c", tokenTime⟩]
      let token := firstToken "a" "b|c"
      KeySecret tokenRuntime [107] s.issued token.presented ∧
        validateFencingEnvelope tokenRuntime [107] s.table (envelopeOf token) = .ok true ∧
        ¬ WasIssued s.issued token.presented) := by
  constructor
  · intro s token
    have hissued : s.issued = [firstToken "a|b" "c", firstToken "a" "z"] := rfl
    refine ⟨fun _ => ⟨firstToken "a|b" "c", by simp [hissued], ?_⟩, by decide +kernel, ?_⟩
    · exact congrArg PyValue.str (by decide +kernel)
    · rintro ⟨t, ht, hresource, hworker, -⟩
      rw [hissued, List.mem_cons, List.mem_singleton] at ht
      rcases ht with rfl | rfl
      · exact absurd (PyValue.str.inj hresource) (by decide)
      · exact absurd (PyValue.str.inj hworker) (by decide)
  · intro s token
    have hissued : s.issued = [firstToken "a|b" "c"] := rfl
    refine ⟨fun _ => ⟨firstToken "a|b" "c", by simp [hissued], ?_⟩, by decide +kernel, ?_⟩
    · exact congrArg PyValue.str (by decide +kernel)
    · rintro ⟨t, ht, hresource, -⟩
      rw [hissued, List.mem_singleton] at ht
      rw [ht] at hresource
      exact absurd (PyValue.str.inj hresource) (by decide)

end Durability

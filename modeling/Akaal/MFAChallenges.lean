/-
# Step-up challenges

`MFAAuthority.verify_challenge` of `akaalPipeline/security/mfa.py` over `SQLiteMFARepository`: calls read
a challenge, count their attempt, compare a code with the factor that the challenge is bound to and claim
the challenge.  Each SQL statement is one step, and so are the readings of the clock and the comparison;
the steps of any calls interleave, time passes and factors are disabled between them.

* `exec_rules` : what a call relies on withstands the steps of the others;
* `redeemed_along` : a challenge is redeemed once, by whom and for what it was issued, and with a bounded
  number of comparisons; the calls that redeem it checked its expiry in time;
* `not_redeemed_in_time` : a challenge is redeemed after its expiry.

HMAC-SHA1, the decryption of secrets and the digits of Unicode are parameters.  The transactions of
`_durability_scope` are not treated: statements take effect at once.
-/
import Akaal.InterleavedCalls
import Akaal.PythonValue

open InterleavedCalls TransitionRun

namespace MFA

/-! ## Challenges and factors -/

/-- A row of `mfa_challenges`, with the columns that the calls read or write. -/
structure MFAChallenge where
  principalId : String
  factorId : String
  purpose : String
  expiresAt : ℤ
  consumed : Bool
  attemptCount : ℕ
  deriving DecidableEq

/-- The status of a factor. -/
inductive FactorStatus where
  | pendingActivation
  | active
  | disabled
  deriving DecidableEq

/-- A row of `mfa_factors`, with the columns that the calls read or write. -/
structure MFAFactor where
  encryptedSecretBlob : List ℕ
  status : FactorStatus
  failedAttempts : ℕ
  lastUsedAt : Option ℤ
  deriving DecidableEq

/-- The clock, in microseconds, and the tables by tenant and id. -/
structure MFAStore where
  clock : ℤ
  challenges : String × String → Option MFAChallenge
  factors : String × String → Option MFAFactor

/-- `UPDATE … WHERE tenant_id = ? AND challenge_id = ?`. -/
def MFAStore.updateChallenge (st : MFAStore) (key : String × String)
    (change : MFAChallenge → MFAChallenge) : MFAStore :=
  { st with challenges := Function.update st.challenges key ((st.challenges key).map change) }

@[simp] theorem MFAStore.updateChallenge_self (st : MFAStore) (key : String × String)
    (change : MFAChallenge → MFAChallenge) :
    (st.updateChallenge key change).challenges key = (st.challenges key).map change :=
  Function.update_self _ _ _

theorem MFAStore.updateChallenge_of_ne (st : MFAStore) {key other : String × String} (h : other ≠ key)
    (change : MFAChallenge → MFAChallenge) :
    (st.updateChallenge key change).challenges other = st.challenges other :=
  Function.update_of_ne h _ _

/-- `UPDATE … WHERE tenant_id = ? AND factor_id = ?`. -/
def MFAStore.updateFactor (st : MFAStore) (key : String × String) (change : MFAFactor → MFAFactor) :
    MFAStore :=
  { st with factors := Function.update st.factors key ((st.factors key).map change) }

/-- `record_use`. -/
def recordUse (key : String × String) (resetFailures : Bool) (st : MFAStore) : MFAStore :=
  st.updateFactor key fun factor =>
    if resetFailures then { factor with lastUsedAt := some st.clock, failedAttempts := 0 }
    else { factor with failedAttempts := factor.failedAttempts + 1 }

/-- The exceptions of `verify_challenge`. -/
inductive MFAException where
  | challengeInvalid (message : String)
  | attemptsExceeded (message : String)
  | enrollmentRequired (message : String)
  | verificationFailed (message : String)
  /-- The decryption of the secret failed. -/
  | keystore
  /-- `TypeError` of `hmac.compare_digest`. -/
  | notAscii
  deriving DecidableEq

/-! ## Codes -/

/-- `MFAAuthority`, with what it takes from elsewhere. -/
structure MFAAuthority where
  maxChallengeAttempts : ℤ
  hmacSha1 : List ℕ → List ℕ → List ℕ
  decryptBlob : List ℕ → Option (List ℕ)
  isDigit : Char → Bool

namespace MFAAuthority

variable (authority : MFAAuthority)

/-- `struct.pack(">Q", counter)`. -/
def counterBytes (counter : ℤ) : List ℕ :=
  (List.range 8).map fun i => (counter.toNat / 256 ^ (7 - i)) % 256

/-- `_hotp`, with six digits. -/
def hotp (secret : List ℕ) (counter : ℤ) : String :=
  let mac := authority.hmacSha1 secret (counterBytes counter)
  let offset := mac.getLastD 0 &&& 0x0F
  let byte (k : ℕ) : ℕ := mac.getD (offset + k) 0
  let truncated := (byte 0 &&& 0x7F) <<< 24 ||| byte 1 <<< 16 ||| byte 2 <<< 8 ||| byte 3
  String.ofList (zfill 6 (truncated % 10 ^ 6))

/-- `_totp_counter` of a time in microseconds. -/
def totpCounter (now : ℤ) : ℤ := now / (30 * 1000000)

/-- `_verify_totp_code` at a time. -/
def verifyTotpCode (now : ℤ) (rawSecret : List ℕ) (submittedCode : String) :
    Except MFAException Bool :=
  let code := submittedCode.toList
  if code = [] ∨ ¬ code.all authority.isDigit ∨ code.length ≠ 6 then .ok false
  else if code.any fun c => 128 ≤ c.toNat then .error .notAscii
  else .ok (([-1, 0, 1] : List ℤ).any fun offset =>
    authority.hotp rawSecret (totpCounter now + offset) = submittedCode)

end MFAAuthority

/-! ## Calls -/

/-- The arguments of `verify_challenge`. -/
structure VerifyRequest where
  tenantId : String
  principalId : String
  challengeId : String
  purpose : String
  submittedCode : String
  deriving DecidableEq

/-- The challenge that a request names. -/
def VerifyRequest.key (r : VerifyRequest) : String × String := (r.tenantId, r.challengeId)

/-- Where a call stands; it keeps the row that it read. -/
inductive CallState where
  | start
  | loaded (challenge : MFAChallenge)
  | timely (challenge : MFAChallenge)
  | counted (challenge : MFAChallenge)
  | admitted (challenge : MFAChallenge)
  | bound (challenge : MFAChallenge) (factor : MFAFactor)
  | mismatched (challenge : MFAChallenge)
  | matched (challenge : MFAChallenge)
  | claimed (challenge : MFAChallenge)
  /-- It returned `AuthenticationAssurance.HIGH`, at a time. -/
  | returned (time : ℤ)
  | raised (e : MFAException)
  deriving DecidableEq

/-- A call, with a record of the time at which it checked the expiry, of the number of its attempt and of
whether it compared its code. -/
structure Call where
  request : VerifyRequest
  state : CallState := .start
  checkedAt : Option ℤ := none
  ticket : Option ℕ := none
  compared : Bool := false
  deriving DecidableEq

/-- A call that raises. -/
def Call.raise (c : Call) (e : MFAException) : Call := { c with state := .raised e }

/-- The challenge that a call is about. -/
def Call.key (c : Call) : String × String := c.request.key

/-- The next step of `verify_challenge`. -/
def exec (authority : MFAAuthority) (st : MFAStore) (c : Call) : Option (MFAStore × Call) :=
  match c.state with
  | .start =>
    match st.challenges c.key with
    | none => some (st, c.raise (.challengeInvalid
        "MFA challenge not found or bound to a different principal/tenant/purpose"))
    | some challenge =>
      if challenge.principalId ≠ c.request.principalId ∨ challenge.purpose ≠ c.request.purpose then
        some (st, c.raise (.challengeInvalid
          "MFA challenge not found or bound to a different principal/tenant/purpose"))
      else if challenge.consumed then
        some (st, c.raise (.challengeInvalid
          "MFA challenge has already been consumed (replay rejected)"))
      else some (st, { c with state := .loaded challenge })
  | .loaded challenge =>
    if challenge.expiresAt ≤ st.clock then
      some (st, c.raise (.challengeInvalid "MFA challenge has expired"))
    else some (st, { c with state := .timely challenge, checkedAt := some st.clock })
  | .timely challenge =>
    let st' := st.updateChallenge c.key fun row => { row with attemptCount := row.attemptCount + 1 }
    some (st', { c with
      state := .counted challenge, ticket := (st'.challenges c.key).map MFAChallenge.attemptCount })
  | .counted challenge =>
    let attempts := ((st.challenges c.key).map MFAChallenge.attemptCount).getD 0
    if (attempts : ℤ) > authority.maxChallengeAttempts then
      some (st, c.raise (.attemptsExceeded
        "MFA challenge attempt limit exceeded; challenge fails closed"))
    else some (st, { c with state := .admitted challenge })
  | .admitted challenge =>
    match st.factors (c.request.tenantId, challenge.factorId) with
    | none => some (st, c.raise (.enrollmentRequired "Bound MFA factor is no longer ACTIVE"))
    | some factor =>
      if factor.status ≠ .active then
        some (st, c.raise (.enrollmentRequired "Bound MFA factor is no longer ACTIVE"))
      else some (st, { c with state := .bound challenge factor })
  | .bound challenge factor =>
    match authority.decryptBlob factor.encryptedSecretBlob with
    | none => some (st, c.raise .keystore)
    | some rawSecret =>
      match authority.verifyTotpCode st.clock rawSecret c.request.submittedCode with
      | .error e => some (st, { c with state := .raised e, compared := true })
      | .ok false => some (st, { c with state := .mismatched challenge, compared := true })
      | .ok true => some (st, { c with state := .matched challenge, compared := true })
  | .mismatched challenge =>
    some (recordUse (c.request.tenantId, challenge.factorId) false st, c.raise (.verificationFailed
      "Submitted TOTP code did not validate against the bound factor"))
  | .matched challenge =>
    match st.challenges c.key with
    | some row =>
      if row.consumed then
        some (st, c.raise (.challengeInvalid
          "MFA challenge was already consumed by a concurrent redemption (replay rejected)"))
      else
        some (st.updateChallenge c.key fun row => { row with consumed := true },
          { c with state := .claimed challenge })
    | none =>
      some (st, c.raise (.challengeInvalid
        "MFA challenge was already consumed by a concurrent redemption (replay rejected)"))
  | .claimed challenge =>
    some (recordUse (c.request.tenantId, challenge.factorId) true st,
      { c with state := .returned st.clock })
  | .returned _ => none
  | .raised _ => none

/-- What happens outside of the calls. -/
inductive Outside where
  | tick (elapsed : ℕ)
  | disableFactor (tenantId factorId : String)
  deriving DecidableEq

/-- Time passes, or `disable_factor` is called. -/
def outside (st : MFAStore) : Outside → MFAStore
  | .tick elapsed => { st with clock := st.clock + elapsed }
  | .disableFactor tenantId factorId =>
    st.updateFactor (tenantId, factorId) fun factor => { factor with status := .disabled }

/-- Calls that have not begun, over a store. -/
def start {ι : Type*} (st : MFAStore) (requests : ι → VerifyRequest) : Config MFAStore Call ι where
  store := st
  calls := fun i => { request := requests i }

/-! ## What calls rely on -/

/-- How far a call is; a call that has raised is no further than one that has not begun. -/
def CallState.stage : CallState → ℕ
  | .start => 0
  | .loaded _ => 1
  | .timely _ => 2
  | .counted _ => 3
  | .admitted _ => 4
  | .bound _ _ => 4
  | .mismatched _ => 4
  | .matched _ => 4
  | .claimed _ => 5
  | .returned _ => 5
  | .raised _ => 0

/-- A later state of a challenge: it is bound as before, no attempt is forgotten, and it is not given back
once it is consumed. -/
structure MFAChallenge.Follows (row row' : MFAChallenge) : Prop where
  principalId : row'.principalId = row.principalId
  purpose : row'.purpose = row.purpose
  expiresAt : row'.expiresAt = row.expiresAt
  attemptCount : row.attemptCount ≤ row'.attemptCount
  consumed : row.consumed → row'.consumed

/-- Every challenge is there still, in a later state. -/
def Rely (st st' : MFAStore) : Prop :=
  ∀ key, ∀ row ∈ st.challenges key, ∃ row' ∈ st'.challenges key, row.Follows row'

/-- What holds of a call, by how far it is. -/
structure Good (authority : MFAAuthority) (st : MFAStore) (c : Call) : Prop where
  bound : 1 ≤ c.state.stage → ∃ row ∈ st.challenges c.key,
    row.principalId = c.request.principalId ∧ row.purpose = c.request.purpose
  loaded : ∀ challenge, c.state = .loaded challenge →
    ∃ row ∈ st.challenges c.key, row.expiresAt = challenge.expiresAt
  checked : 2 ≤ c.state.stage → c.checkedAt.isSome
  timely : ∀ time ∈ c.checkedAt, ∃ row ∈ st.challenges c.key, time < row.expiresAt
  counted : 3 ≤ c.state.stage → c.ticket.isSome
  ticket : ∀ r ∈ c.ticket, 1 ≤ r ∧ ∃ row ∈ st.challenges c.key, r ≤ row.attemptCount
  admitted : 4 ≤ c.state.stage → ∃ r ∈ c.ticket, (r : ℤ) ≤ authority.maxChallengeAttempts
  compared : c.compared → ∃ r ∈ c.ticket, (r : ℤ) ≤ authority.maxChallengeAttempts
  uncompared : c.state.stage < 4 → (∀ e, c.state ≠ .raised e) → ¬ c.compared
  claimed : 5 ≤ c.state.stage → ∃ row ∈ st.challenges c.key, row.consumed

/-- Two calls about one challenge have different numbers, and not both have claimed it. -/
structure Apart (c d : Call) : Prop where
  ticket : c.key = d.key → ∀ r ∈ c.ticket, r ∉ d.ticket
  claimed : c.key = d.key → 5 ≤ c.state.stage → ¬ 5 ≤ d.state.stage

section Rules

variable {authority : MFAAuthority} {st st' : MFAStore} {c c' d : Call}

theorem Rely.of_eq (h : st'.challenges = st.challenges) : Rely st st' := by
  intro key row hrow
  exact ⟨row, by rw [h]; exact hrow, rfl, rfl, rfl, le_rfl, id⟩

theorem rely_updateChallenge (st : MFAStore) (key : String × String)
    {change : MFAChallenge → MFAChallenge} (h : ∀ row : MFAChallenge, row.Follows (change row)) :
    Rely st (st.updateChallenge key change) := by
  intro other row hrow
  by_cases hkey : other = key
  · subst hkey
    refine ⟨change row, ?_, h row⟩
    rw [MFAStore.updateChallenge_self, Option.mem_def.mp hrow]
    rfl
  · refine ⟨row, ?_, rfl, rfl, rfl, le_rfl, id⟩
    rw [MFAStore.updateChallenge_of_ne _ hkey]
    exact hrow

theorem Good.stable (hrely : Rely st st') (h : Good authority st c) : Good authority st' c where
  bound hstage := by
    obtain ⟨row, hrow, hprincipal, hpurpose⟩ := h.bound hstage
    obtain ⟨row', hrow', hfollows⟩ := hrely _ row hrow
    exact ⟨row', hrow', hfollows.principalId.trans hprincipal, hfollows.purpose.trans hpurpose⟩
  loaded challenge hstate := by
    obtain ⟨row, hrow, hexpires⟩ := h.loaded challenge hstate
    obtain ⟨row', hrow', hfollows⟩ := hrely _ row hrow
    exact ⟨row', hrow', hfollows.expiresAt.trans hexpires⟩
  checked := h.checked
  timely time htime := by
    obtain ⟨row, hrow, hlt⟩ := h.timely time htime
    obtain ⟨row', hrow', hfollows⟩ := hrely _ row hrow
    exact ⟨row', hrow', by rwa [hfollows.expiresAt]⟩
  counted := h.counted
  ticket r hr := by
    obtain ⟨hpos, row, hrow, hle⟩ := h.ticket r hr
    obtain ⟨row', hrow', hfollows⟩ := hrely _ row hrow
    exact ⟨hpos, row', hrow', hle.trans hfollows.attemptCount⟩
  admitted := h.admitted
  compared := h.compared
  uncompared := h.uncompared
  claimed hstage := by
    obtain ⟨row, hrow, hconsumed⟩ := h.claimed hstage
    obtain ⟨row', hrow', hfollows⟩ := hrely _ row hrow
    exact ⟨row', hrow', hfollows.consumed hconsumed⟩

/-- What one step of a call can do: it reads the challenge, checks its expiry, counts the attempt, is
admitted, claims the challenge, or goes on without a change to any challenge. -/
inductive Advance (authority : MFAAuthority) (st : MFAStore) (c : Call) : MFAStore → Call → Prop
  | load {row : MFAChallenge} (hstate : c.state = .start) (hrow : row ∈ st.challenges c.key)
      (hprincipal : row.principalId = c.request.principalId) (hpurpose : row.purpose = c.request.purpose) :
      Advance authority st c st { c with state := .loaded row }
  | check {challenge : MFAChallenge} (hstate : c.state = .loaded challenge)
      (hlt : st.clock < challenge.expiresAt) :
      Advance authority st c st { c with state := .timely challenge, checkedAt := some st.clock }
  | count {challenge : MFAChallenge} {st' : MFAStore} (hstate : c.state = .timely challenge)
      (hst' : st' = st.updateChallenge c.key fun row => { row with attemptCount := row.attemptCount + 1 }) :
      Advance authority st c st' { c with
        state := .counted challenge, ticket := (st'.challenges c.key).map MFAChallenge.attemptCount }
  | pass {challenge : MFAChallenge} (hstate : c.state = .counted challenge)
      (hle : (((st.challenges c.key).map MFAChallenge.attemptCount).getD 0 : ℤ) ≤
        authority.maxChallengeAttempts) :
      Advance authority st c st { c with state := .admitted challenge }
  | claim {challenge row : MFAChallenge} (hstate : c.state = .matched challenge)
      (hrow : row ∈ st.challenges c.key) (hfree : row.consumed = false) :
      Advance authority st c (st.updateChallenge c.key fun row => { row with consumed := true })
        { c with state := .claimed challenge }
  | other {state : CallState} {compared : Bool} {st' : MFAStore}
      (hst' : st'.challenges = st.challenges)
      (hstage : (∃ e, state = .raised e) ∨ 4 ≤ c.state.stage ∧ state.stage = c.state.stage)
      (hcompared : compared = c.compared ∨ 4 ≤ c.state.stage) :
      Advance authority st c st' { c with state := state, compared := compared }

theorem Advance.raise {st' : MFAStore} (hst' : st'.challenges = st.challenges) (e : MFAException) :
    Advance authority st c st' (c.raise e) :=
  .other hst' (.inl ⟨e, rfl⟩) (.inl rfl)

/-- **One step of a call** does one of these. -/
theorem advance_of_exec (h : exec authority st c = some (st', c')) : Advance authority st c st' c' := by
  cases hstate : c.state with
  | start =>
    rw [exec, hstate] at h
    dsimp only at h
    split at h
    case h_1 =>
      cases h
      exact .raise rfl _
    case h_2 challenge hchallenge =>
      split_ifs at h with hother hconsumed
      · cases h
        exact .raise rfl _
      · cases h
        exact .raise rfl _
      · cases h
        push Not at hother
        exact .load hstate hchallenge hother.1 hother.2
  | loaded challenge =>
    rw [exec, hstate] at h
    dsimp only at h
    split_ifs at h with hexpired
    · cases h
      exact .raise rfl _
    · cases h
      exact .check hstate (not_le.mp hexpired)
  | timely challenge =>
    rw [exec, hstate] at h
    cases h
    exact .count hstate rfl
  | counted challenge =>
    rw [exec, hstate] at h
    dsimp only at h
    split_ifs at h with hexceeded
    · cases h
      exact .raise rfl _
    · cases h
      exact .pass hstate (not_lt.mp hexceeded)
  | admitted challenge =>
    rw [exec, hstate] at h
    dsimp only at h
    split at h
    · cases h
      exact .raise rfl _
    · split_ifs at h
      · cases h
        exact .raise rfl _
      · cases h
        have hadmitted : 4 ≤ c.state.stage := by rw [hstate]; exact le_rfl
        exact .other rfl (.inr ⟨hadmitted, by rw [hstate]; rfl⟩) (.inl rfl)
  | bound challenge factor =>
    have hcompared : 4 ≤ c.state.stage := by rw [hstate]; exact le_rfl
    rw [exec, hstate] at h
    dsimp only at h
    split at h
    · cases h
      exact .raise rfl _
    · split at h
      · cases h
        exact .other rfl (.inl ⟨_, rfl⟩) (.inr hcompared)
      · cases h
        exact .other rfl (.inr ⟨hcompared, by rw [hstate]; rfl⟩) (.inr hcompared)
      · cases h
        exact .other rfl (.inr ⟨hcompared, by rw [hstate]; rfl⟩) (.inr hcompared)
  | mismatched challenge =>
    rw [exec, hstate] at h
    cases h
    have hst' : (recordUse (c.request.tenantId, challenge.factorId) false st).challenges =
      st.challenges := rfl
    exact .raise hst' _
  | matched challenge =>
    rw [exec, hstate] at h
    dsimp only at h
    split at h
    case h_1 row hrow =>
      split_ifs at h with hconsumed
      · cases h
        exact .raise rfl _
      · cases h
        exact .claim hstate hrow (by simpa using hconsumed)
    case h_2 =>
      cases h
      exact .raise rfl _
  | claimed challenge =>
    rw [exec, hstate] at h
    cases h
    have hadmitted : 4 ≤ c.state.stage := by rw [hstate]; exact Nat.le_succ 4
    exact .other rfl (.inr ⟨hadmitted, by rw [hstate]; rfl⟩) (.inl rfl)
  | returned time =>
    rw [exec, hstate] at h
    cases h
  | raised e =>
    rw [exec, hstate] at h
    cases h

theorem Advance.rely (h : Advance authority st c st' c') : Rely st st' := by
  cases h with
  | load => exact .of_eq rfl
  | check => exact .of_eq rfl
  | count _ hst' =>
    rw [hst']
    exact rely_updateChallenge st c.key fun row => ⟨rfl, rfl, rfl, Nat.le_succ _, id⟩
  | pass => exact .of_eq rfl
  | claim => exact rely_updateChallenge st c.key fun row => ⟨rfl, rfl, rfl, le_rfl, fun _ => rfl⟩
  | other hst' => exact .of_eq hst'

theorem Advance.good (hc : Good authority st c) (h : Advance authority st c st' c') :
    Good authority st' c' := by
  have hstable := hc.stable h.rely
  cases h with
  | load hstate hrow hprincipal hpurpose =>
    have hstage : c.state.stage = 0 := by rw [hstate]; rfl
    have hcompared : ¬ c.compared :=
      hc.uncompared (by omega) fun e he => by rw [hstate] at he; cases he
    exact
      { bound := fun _ => ⟨_, hrow, hprincipal, hpurpose⟩
        loaded := fun challenge hstate => by
          obtain rfl := CallState.loaded.inj hstate
          exact ⟨_, hrow, rfl⟩
        checked := fun hstage : 2 ≤ 1 => absurd hstage (by decide)
        timely := hc.timely
        counted := fun hstage : 3 ≤ 1 => absurd hstage (by decide)
        ticket := hc.ticket
        admitted := fun hstage : 4 ≤ 1 => absurd hstage (by decide)
        compared := hc.compared
        uncompared := fun _ _ => hcompared
        claimed := fun hstage : 5 ≤ 1 => absurd hstage (by decide) }
  | check hstate hlt =>
    have hstage : c.state.stage = 1 := by rw [hstate]; rfl
    have hcompared : ¬ c.compared :=
      hc.uncompared (by omega) fun e he => by rw [hstate] at he; cases he
    obtain ⟨row, hrow, hexpires⟩ := hc.loaded _ hstate
    exact
      { bound := fun _ => hc.bound (by omega)
        loaded := fun _ hstate => by cases hstate
        checked := fun _ => rfl
        timely := fun time htime => by
          cases htime
          exact ⟨row, hrow, by rwa [hexpires]⟩
        counted := fun hstage : 3 ≤ 2 => absurd hstage (by decide)
        ticket := hc.ticket
        admitted := fun hstage : 4 ≤ 2 => absurd hstage (by decide)
        compared := hc.compared
        uncompared := fun _ _ => hcompared
        claimed := fun hstage : 5 ≤ 2 => absurd hstage (by decide) }
  | count hstate hst' =>
    have hstage : c.state.stage = 2 := by rw [hstate]; rfl
    have hcompared : ¬ c.compared :=
      hc.uncompared (by omega) fun e he => by rw [hstate] at he; cases he
    -- the row was there before, and its attempts have become more
    obtain ⟨before, hbefore, -⟩ := hc.bound (by omega)
    obtain ⟨row, hrow, hrequest⟩ := hstable.bound (by omega)
    have hcount : row.attemptCount = before.attemptCount + 1 := by
      rw [hst', MFAStore.updateChallenge_self, Option.mem_def.mp hbefore] at hrow
      exact congrArg MFAChallenge.attemptCount (Option.some.inj hrow).symm
    have hticket : (st'.challenges c.key).map MFAChallenge.attemptCount = some row.attemptCount := by
      rw [Option.mem_def.mp hrow]
      rfl
    exact
      { bound := fun _ => ⟨row, hrow, hrequest⟩
        loaded := fun _ hstate => by cases hstate
        checked := fun _ => hc.checked (by omega)
        timely := hstable.timely
        counted := fun _ => by rw [hticket]; rfl
        ticket := fun r hr => by
          rw [hticket] at hr
          cases hr
          exact ⟨by omega, row, hrow, le_rfl⟩
        admitted := fun hstage : 4 ≤ 3 => absurd hstage (by decide)
        compared := fun h => absurd h hcompared
        uncompared := fun _ _ => hcompared
        claimed := fun hstage : 5 ≤ 3 => absurd hstage (by decide) }
  | pass hstate hle =>
    have hstage : c.state.stage = 3 := by rw [hstate]; rfl
    obtain ⟨row, hrow, hrequest⟩ := hc.bound (by omega)
    rw [Option.mem_def.mp hrow] at hle
    have hticket := hc.counted (by omega)
    obtain ⟨r, hr⟩ := Option.isSome_iff_exists.mp hticket
    obtain ⟨-, row', hrow', hcount⟩ := hc.ticket r hr
    obtain rfl := Option.some.inj (hrow.symm.trans hrow')
    have hbound : (r : ℤ) ≤ authority.maxChallengeAttempts :=
      (Int.ofNat_le.mpr hcount).trans hle
    exact
      { bound := fun _ => ⟨row, hrow, hrequest⟩
        loaded := fun _ hstate => by cases hstate
        checked := fun _ => hc.checked (by omega)
        timely := hc.timely
        counted := fun _ => hticket
        ticket := hc.ticket
        admitted := fun _ => ⟨r, hr, hbound⟩
        compared := hc.compared
        uncompared := fun hstage : 4 < 4 => absurd hstage (by decide)
        claimed := fun hstage : 5 ≤ 4 => absurd hstage (by decide) }
  | @claim challenge row hstate hrow hfree =>
    have hstage : c.state.stage = 4 := by rw [hstate]; rfl
    exact
      { bound := fun _ => hstable.bound (by omega)
        loaded := fun _ hstate => by cases hstate
        checked := fun _ => hc.checked (by omega)
        timely := hstable.timely
        counted := fun _ => hc.counted (by omega)
        ticket := hstable.ticket
        admitted := fun _ => hc.admitted (by omega)
        compared := hc.compared
        uncompared := fun hstage : 5 < 4 => absurd hstage (by decide)
        claimed := fun _ => ⟨{ row with consumed := true }, by
          change _ ∈ (st.updateChallenge c.key _).challenges c.key
          rw [MFAStore.updateChallenge_self, Option.mem_def.mp hrow]
          rfl, rfl⟩ }
  | @other state compared _ hst' hstage hcompared =>
    have hle : ∀ n, 1 ≤ n → n ≤ state.stage → n ≤ c.state.stage := by
      intro n hn hle
      rcases hstage with ⟨e, rfl⟩ | ⟨-, hsame⟩
      · exact absurd (hn.trans hle) (show ¬ 1 ≤ 0 by decide)
      · omega
    exact
      { bound := fun hstage => hstable.bound (hle 1 le_rfl hstage)
        loaded := fun challenge hstate => by
          replace hstate : state = .loaded challenge := hstate
          rcases hstage with ⟨e, rfl⟩ | ⟨hadmitted, hsame⟩
          · cases hstate
          · rw [← hsame, hstate] at hadmitted
            exact absurd hadmitted (show ¬ 4 ≤ 1 by decide)
        checked := fun hstage => hc.checked (hle 2 (by decide) hstage)
        timely := hstable.timely
        counted := fun hstage => hc.counted (hle 3 (by decide) hstage)
        ticket := hstable.ticket
        admitted := fun hstage => hc.admitted (hle 4 (by decide) hstage)
        compared := fun h => by
          rcases hcompared with rfl | hadmitted
          · exact hc.compared h
          · exact hc.admitted hadmitted
        uncompared := fun hlt hraised => by
          replace hlt : state.stage < 4 := hlt
          rcases hstage with ⟨e, rfl⟩ | ⟨hadmitted, hsame⟩
          · exact absurd rfl (hraised e)
          · omega
        claimed := fun hstage => hstable.claimed (hle 5 (by decide) hstage) }

theorem Advance.apart (hd : Good authority st d) (hapart : Apart c d)
    (h : Advance authority st c st' c') : Apart c' d := by
  cases h with
  | load => exact ⟨hapart.ticket, fun _ hstage => absurd (show 5 ≤ 1 from hstage) (by decide)⟩
  | check => exact ⟨hapart.ticket, fun _ hstage => absurd (show 5 ≤ 2 from hstage) (by decide)⟩
  | count hstate hst' =>
    refine ⟨fun hkey r hr hother => ?_, fun _ hstage => absurd (show 5 ≤ 3 from hstage) (by decide)⟩
    replace hkey : c.key = d.key := hkey
    replace hr : r ∈ (st'.challenges c.key).map MFAChallenge.attemptCount := hr
    -- the number of the attempt is greater than all before it
    obtain ⟨-, row, hrow, hle⟩ := hd.ticket r hother
    rw [hst', MFAStore.updateChallenge_self, hkey, Option.mem_def.mp hrow] at hr
    have heq : row.attemptCount + 1 = r := Option.some.inj hr
    omega
  | pass => exact ⟨hapart.ticket, fun _ hstage => absurd (show 5 ≤ 4 from hstage) (by decide)⟩
  | claim _ hrow hfree =>
    refine ⟨hapart.ticket, fun hkey _ hstage => ?_⟩
    replace hkey : c.key = d.key := hkey
    obtain ⟨row', hrow', hconsumed⟩ := hd.claimed hstage
    rw [hkey] at hrow
    obtain rfl := Option.some.inj (hrow.symm.trans hrow')
    rw [hfree] at hconsumed
    cases hconsumed
  | @other state _ _ _ hstage _ =>
    refine ⟨hapart.ticket, fun hkey hclaimed => hapart.claimed hkey ?_⟩
    replace hclaimed : 5 ≤ state.stage := hclaimed
    rcases hstage with ⟨e, rfl⟩ | ⟨-, hsame⟩
    · exact absurd hclaimed (show ¬ 5 ≤ 0 by decide)
    · omega

/-- **What calls rely on** withstands their steps, and what happens outside of them. -/
theorem exec_rules (authority : MFAAuthority) :
    InterleavedCalls.Rules (exec authority) outside Rely (Good authority) Apart where
  stable hrely hc := hc.stable hrely
  outside st e := by
    cases e with
    | tick elapsed => exact .of_eq rfl
    | disableFactor tenantId factorId => exact .of_eq rfl
  rely _ h := (advance_of_exec h).rely
  good hc h := (advance_of_exec h).good hc
  apart _ hd hapart h := (advance_of_exec h).apart hd hapart
  symm hapart :=
    ⟨fun hkey r hr hother => hapart.ticket hkey.symm r hother hr,
      fun hkey hd hc => hapart.claimed hkey.symm hc hd⟩

end Rules

/-! ## Redemptions -/

section Redemptions

variable {ι : Type*}

/-- What is promised of the calls on every challenge: at most one returns `HIGH`, for the principal and
the purpose of the challenge, and at most so many compare a code as there are attempts. -/
structure Redeemed (authority : MFAAuthority) (config : Config MFAStore Call ι) : Prop where
  once : ∀ i j time time', (config.calls i).key = (config.calls j).key →
    (config.calls i).state = .returned time → (config.calls j).state = .returned time' → i = j
  bound : ∀ i time, (config.calls i).state = .returned time →
    ∃ row ∈ config.store.challenges (config.calls i).key,
      row.principalId = (config.calls i).request.principalId ∧
        row.purpose = (config.calls i).request.purpose
  attempts : ∀ (key : String × String) (s : Finset ι),
    (∀ i ∈ s, (config.calls i).key = key ∧ (config.calls i).compared) →
      s.card ≤ authority.maxChallengeAttempts.toNat

/-- Calls that return `HIGH` do so before the challenge expires. -/
def InTime (config : Config MFAStore Call ι) : Prop :=
  ∀ i time, (config.calls i).state = .returned time →
    ∃ row ∈ config.store.challenges (config.calls i).key, time < row.expiresAt

/-- Calls that return `HIGH` have checked, before the challenge expires, that it has not. -/
def CheckedInTime (config : Config MFAStore Call ι) : Prop :=
  ∀ i time, (config.calls i).state = .returned time → ∃ checkedAt ∈ (config.calls i).checkedAt,
      ∃ row ∈ config.store.challenges (config.calls i).key, checkedAt < row.expiresAt

theorem redeemed_of_together {authority : MFAAuthority} {config : Config MFAStore Call ι}
    (h : Together (Good authority) Apart config) :
    Redeemed authority config ∧ CheckedInTime config := by
  have hstage : ∀ {i time}, (config.calls i).state = .returned time →
      5 ≤ (config.calls i).state.stage := by
    intro i time hi
    rw [hi]
    exact le_rfl
  refine ⟨⟨?_, ?_, ?_⟩, ?_⟩
  · intro i j time time' hkey hi hj
    by_contra hne
    exact (h.apart i j hne).claimed hkey (hstage hi) (hstage hj)
  · intro i time hi
    exact (h.good i).bound ((by decide : 1 ≤ 5).trans (hstage hi))
  · intro key s hs
    -- the numbers of the attempts are different, positive and not above the limit
    have hticket : ∀ i ∈ s, ∃ r ∈ (config.calls i).ticket, 1 ≤ r ∧
        r ≤ authority.maxChallengeAttempts.toNat := by
      intro i hi
      obtain ⟨r, hr, hle⟩ := (h.good i).compared (hs i hi).2
      exact ⟨r, hr, ((h.good i).ticket r hr).1, by omega⟩
    choose! ticket hmem hpos hle using hticket
    have hcard := Finset.card_le_card_of_injOn ticket
      (t := Finset.Icc 1 authority.maxChallengeAttempts.toNat)
      (fun i hi => Finset.mem_coe.mpr (Finset.mem_Icc.mpr ⟨hpos i hi, hle i hi⟩)) (by
        intro i hi j hj heq
        by_contra hne
        have hkey : (config.calls i).key = (config.calls j).key :=
          (hs i hi).1.trans (hs j hj).1.symm
        exact (h.apart i j hne).ticket hkey _ (hmem i hi) (heq ▸ hmem j hj))
    simpa using hcard
  · intro i time hi
    have hchecked := (h.good i).checked ((by decide : 2 ≤ 5).trans (hstage hi))
    obtain ⟨checkedAt, hcheckedAt⟩ := Option.isSome_iff_exists.mp hchecked
    exact ⟨checkedAt, hcheckedAt, (h.good i).timely checkedAt hcheckedAt⟩

theorem together_start (authority : MFAAuthority) (st : MFAStore) (requests : ι → VerifyRequest) :
    Together (Good authority) Apart (start st requests) where
  good i :=
    { bound := fun hstage : 1 ≤ 0 => absurd hstage (by decide)
      loaded := fun _ hstate => by cases hstate
      checked := fun hstage : 2 ≤ 0 => absurd hstage (by decide)
      timely := fun _ htime => by cases htime
      counted := fun hstage : 3 ≤ 0 => absurd hstage (by decide)
      ticket := fun _ hr => by cases hr
      admitted := fun hstage : 4 ≤ 0 => absurd hstage (by decide)
      compared := fun h => by cases h
      uncompared := fun _ _ h => by cases h
      claimed := fun hstage : 5 ≤ 0 => absurd hstage (by decide) }
  apart i j _ :=
    { ticket := fun _ _ hr => by cases hr
      claimed := fun _ hstage => absurd (show 5 ≤ 0 from hstage) (by decide) }

/-- **Redemption.**  In every interleaving of any calls, a challenge is redeemed at most once, by whom and
for what it was issued, at most as many codes are compared as there are attempts, and whoever redeems it
has checked its expiry in time. -/
theorem redeemed_along [DecidableEq ι] (authority : MFAAuthority) (st : MFAStore)
    (requests : ι → VerifyRequest) (schedule : List (Action ι Outside)) :
    HoldsAlong (step (exec authority) outside)
      (fun config => Redeemed authority config ∧ CheckedInTime config) (start st requests) schedule :=
  (holdsAlong_together (exec_rules authority) (together_start authority st requests) schedule).imp
    fun _ => redeemed_of_together

end Redemptions

/-! ## Late redemptions -/

/-- Five attempts, and a digest whose codes are all zeros. -/
def sampleAuthority : MFAAuthority where
  maxChallengeAttempts := 5
  hmacSha1 := fun _ _ => List.replicate 20 0
  decryptBlob := some
  isDigit := Char.isDigit

/-- A challenge that expires after five minutes, and its factor. -/
def sampleStore : MFAStore where
  clock := 0
  challenges := fun key => if key = ("acme", "mfachal-1") then
    some { principalId := "alice", factorId := "mfa-1", purpose := "approve", expiresAt := 300000000,
           consumed := false, attemptCount := 0 }
    else none
  factors := fun key => if key = ("acme", "mfa-1") then
    some { encryptedSecretBlob := [1], status := .active, failedAttempts := 0, lastUsedAt := none }
    else none

/-- The request of the principal. -/
def sampleRequest : VerifyRequest where
  tenantId := "acme"
  principalId := "alice"
  challengeId := "mfachal-1"
  purpose := "approve"
  submittedCode := "000000"

/-- Ten minutes pass after the expiry is checked. -/
def sampleSchedule : List (Action Unit Outside) :=
  [.exec (), .exec (), .outside (.tick 600000000), .exec (), .exec (), .exec (), .exec (), .exec (),
    .exec ()]

/-- A call that checked the expiry in time redeems the challenge after it. -/
theorem not_redeemed_in_time : ¬ HoldsAlong (step (exec sampleAuthority) outside)
      (fun config => Redeemed sampleAuthority config ∧ InTime config)
      (start sampleStore fun _ : Unit => sampleRequest) sampleSchedule := by
  intro h
  obtain ⟨config, hrun, hstate, hrow⟩ : ∃ config, run (step (exec sampleAuthority) outside)
      (start sampleStore fun _ : Unit => sampleRequest) sampleSchedule = some config ∧
      (config.calls ()).state = .returned 600000000 ∧
      (config.store.challenges (config.calls ()).key).map MFAChallenge.expiresAt = some 300000000 :=
    ⟨_, rfl, rfl, rfl⟩
  obtain ⟨row, hmem, hlt⟩ := (h.finish hrun).2 () _ hstate
  rw [Option.mem_def.mp hmem] at hrow
  have hexpires : row.expiresAt = 300000000 := Option.some.inj hrow
  omega

end MFA

/-
# What a signed receipt says

The receipts that `reconcile_result` accepts, against those that the engine signs with `sign_receipt` of
`akaalEngine/gateway/models/responses.py`: the signed message joins seven fields by colons, and the
reconciler reads each field through a chain of names of which only the first is signed.

* `signed_view_iff` : an accepted result is one the engine signed a receipt for precisely when the
  signed fields are the expected ones and contain no colon;
* `not_signed_view` : a receipt that is signed for no node is accepted for any.
-/
import Akaal.ResultReconciliation
import Akaal.DelimitedText

open StateStore (truthy)

namespace PipelineLeases

/-! ## Receipts of the engine -/

/-- What the engine signs in a receipt; an epoch, a fingerprint or a job that is not given is signed as
zero or as the empty text. -/
structure EngineReceipt where
  migrationId : String
  runId : String
  operationId : String
  fencingEpoch : ℤ
  statusCode : String
  initializationFingerprint : String
  jobId : String
  deriving DecidableEq

/-- The fields as texts. -/
def EngineReceipt.parts (r : EngineReceipt) : List String :=
  [r.migrationId, r.runId, r.operationId, intText r.fencingEpoch, r.statusCode,
    r.initializationFingerprint, r.jobId]

/-- The message of `sign_receipt`. -/
def EngineReceipt.message (r : EngineReceipt) : String := String.intercalate ":" r.parts

/-- The message, field by field. -/
theorem EngineReceipt.message_eq (r : EngineReceipt) :
    r.message = r.migrationId ++ ":" ++ r.runId ++ ":" ++ r.operationId ++ ":" ++
      intText r.fencingEpoch ++ ":" ++ r.statusCode ++ ":" ++ r.initializationFingerprint ++ ":" ++
      r.jobId := by
  simp only [message, parts, String.intercalate_cons_cons, String.intercalate_singleton,
    String.append_assoc]

theorem EngineReceipt.eq_of_parts {r r' : EngineReceipt} (h : r.parts = r'.parts) : r = r' := by
  simp only [parts, List.cons.injEq] at h
  obtain ⟨hmigration, hrun, hoperation, hepoch, hstatus, hfingerprint, hjob, -⟩ := h
  have hepoch' := DelimitedText.intText_injective hepoch
  cases r
  cases r'
  simp_all

/-- No field contains a colon. -/
def EngineReceipt.NoColon (r : EngineReceipt) : Prop := ∀ text ∈ r.parts, ':' ∉ text.toList

theorem parts_eq_of_noColon {texts texts' : List String} (hfree : ∀ text ∈ texts, ':' ∉ text.toList)
    (hlength : texts'.length = texts.length)
    (h : String.intercalate ":" texts' = String.intercalate ":" texts) : texts' = texts := by
  have hlist := congrArg String.toList h
  rw [String.toList_intercalate, String.toList_intercalate] at hlist
  have hmap : texts'.map String.toList = texts.map String.toList := by
    apply DelimitedText.intercalate_inj ?_ (by simpa using hlength) hlist
    intro l hl
    obtain ⟨text, htext, rfl⟩ := List.mem_map.mp hl
    exact hfree text htext
  have hinjective : Function.Injective String.toList := fun _ _ => String.toList_injective
  exact List.map_injective_iff.mpr hinjective hmap

/-! ## Fields with colons -/

theorem exists_split {text : String} (h : ':' ∈ text.toList) : ∃ a b : String, text = a ++ ":" ++ b := by
  obtain ⟨a, b, hab⟩ := List.append_of_mem h
  refine ⟨String.ofList a, String.ofList b, String.toList_injective ?_⟩
  simp [hab]

theorem ne_append_colon (a b : String) : a ≠ a ++ ":" ++ b := by
  intro h
  have hlength := congrArg (fun text => text.toList.length) h
  simp at hlength

theorem EngineReceipt.exists_other {r : EngineReceipt} (h : ¬ r.NoColon) (hstatus : ':' ∉ r.statusCode.toList) :
    ∃ r' : EngineReceipt, r' ≠ r ∧ r'.message = r.message := by
  have hepoch : ':' ∉ (intText r.fencingEpoch).toList :=
    DelimitedText.not_mem_intText (by decide) (by decide)
  have hcolon : ':' ∈ r.migrationId.toList ∨ ':' ∈ r.runId.toList ∨ ':' ∈ r.operationId.toList ∨
      ':' ∈ r.initializationFingerprint.toList ∨ ':' ∈ r.jobId.toList := by
    by_contra hnone
    push Not at hnone
    obtain ⟨hmigration, hrun, hoperation, hfingerprint, hjob⟩ := hnone
    apply h
    simp [NoColon, parts, hmigration, hrun, hoperation, hepoch, hstatus, hfingerprint, hjob]
  -- The colon becomes the separator, and the separator next to the field a part of its neighbour.
  rcases hcolon with hc | hc | hc | hc | hc
  all_goals obtain ⟨a, b, hab⟩ := exists_split hc
  · refine ⟨{ r with migrationId := a, runId := b ++ ":" ++ r.runId }, fun heq => ?_, ?_⟩
    · exact ne_append_colon a b ((congrArg migrationId heq).trans hab)
    · simp only [message_eq, hab, String.append_assoc]
  · refine ⟨{ r with migrationId := r.migrationId ++ ":" ++ a, runId := b }, fun heq => ?_, ?_⟩
    · exact ne_append_colon _ a (congrArg migrationId heq).symm
    · simp only [message_eq, hab, String.append_assoc]
  · refine ⟨{ r with runId := r.runId ++ ":" ++ a, operationId := b }, fun heq => ?_, ?_⟩
    · exact ne_append_colon _ a (congrArg runId heq).symm
    · simp only [message_eq, hab, String.append_assoc]
  · refine ⟨{ r with initializationFingerprint := a, jobId := b ++ ":" ++ r.jobId },
      fun heq => ?_, ?_⟩
    · exact ne_append_colon a b ((congrArg initializationFingerprint heq).trans hab)
    · simp only [message_eq, hab, String.append_assoc]
  · refine ⟨{ r with
      initializationFingerprint := r.initializationFingerprint ++ ":" ++ a, jobId := b },
      fun heq => ?_, ?_⟩
    · exact ne_append_colon _ a (congrArg initializationFingerprint heq).symm
    · simp only [message_eq, hab, String.append_assoc]

/-! ## Receipts of a result -/

/-- The receipt of a result. -/
def EngineInvocationResult.receipt (result : EngineInvocationResult) : List (String × PyValue) :=
  match result.resultPayload with
  | .dict payload =>
    match orElse (getKey payload "engine_execution_receipt") (getKey payload "execution_receipt") with
    | .dict receipt => receipt
    | _ => []
  | _ => []

/-- The signature that a receipt presents. -/
def presentedSignature (receipt : List (String × PyValue)) : PyValue :=
  orElse (getKey receipt "receipt_signature") (getKey receipt "signature")

/-- The secret is known to the engine only: a signature that a receipt presents is one of what the
engine signed. -/
def OnlyEngineSigns (signature : String → String) (signed : Set EngineReceipt)
    (receipt : List (String × PyValue)) : Prop :=
  ∀ message, presentedSignature receipt = .str (signature message) →
    ∃ r ∈ signed, signature message = signature r.message

/-- The engine may have signed nothing but the receipt whose signature is presented. -/
theorem onlyEngineSigns_singleton {signature : String → String} {r : EngineReceipt}
    {receipt : List (String × PyValue)}
    (h : presentedSignature receipt = .str (signature r.message)) :
    OnlyEngineSigns signature {r} receipt := by
  intro message hmessage
  rw [h, PyValue.str.injEq] at hmessage
  exact ⟨r, rfl, hmessage.symm⟩

section Reading

variable (receiptCheck : ReceiptCheck)

/-- The fields of a receipt that its message is made of. -/
def ReceiptCheck.parts (receipt : List (String × PyValue)) : List String :=
  let field := fun key => receiptCheck.text ((receipt.lookup key).getD (.str ""))
  let fencingEpoch := getKey receipt "gateway_fencing_epoch"
  [field "gateway_migration_id", field "gateway_run_id", field "gateway_operation_id",
    if truthy fencingEpoch then receiptCheck.text fencingEpoch else "0",
    field "gateway_status_code", field "initialization_fingerprint", field "gateway_job_id"]

theorem ReceiptCheck.message_eq (receipt : List (String × PyValue)) :
    receiptCheck.message receipt = String.intercalate ":" (receiptCheck.parts receipt) := rfl

/-- What the engine must have signed for a successful result: the expected migration, or the one that
the receipt names when none is expected, the attempt, the operation, the epoch, the fingerprint, and the
node of the result, or the one that the receipt names when the result has none. -/
def ReceiptCheck.view (result : EngineInvocationResult) (expected : Expected) : EngineReceipt :=
  let get := getKey result.receipt
  let migration := orElse (get "gateway_migration_id") (get "migration_id")
  let node := orElse (orElse (get "gateway_job_id") (get "graph_node_id")) (get "job_id")
  { migrationId :=
      if missing expected.migrationId then receiptCheck.text migration
      else expected.migrationId.getD ""
    runId := result.attemptId
    operationId := receiptCheck.text ((result.receipt.lookup "gateway_operation_id").getD (.str ""))
    fencingEpoch := result.fenceEpoch
    statusCode := "SUCCESS"
    initializationFingerprint := expected.initializationFingerprint
    jobId :=
      if missing result.graphNodeId then if truthy node then receiptCheck.text node else ""
      else result.graphNodeId.getD "" }

/-- The fields that are signed are the expected ones, and none contains a colon. -/
def ReceiptCheck.SignsView (result : EngineInvocationResult) (expected : Expected) : Prop :=
  receiptCheck.parts result.receipt = (receiptCheck.view result expected).parts ∧
    (receiptCheck.view result expected).NoColon

variable {receiptCheck}

/-- A receipt that is verified presents the signature of its message. -/
theorem presentedSignature_of_verified {signature : String → String}
    (hsignature : receiptCheck.signature = some signature) {receipt : List (String × PyValue)}
    (h : receiptCheck.verifyExecutionReceipt receipt = .ok true) :
    presentedSignature receipt = .str (signature (receiptCheck.message receipt)) := by
  rw [ReceiptCheck.verifyExecutionReceipt, hsignature] at h
  rw [presentedSignature]
  split at h
  · cases h
  · next signature' heq =>
      rw [Option.some.injEq] at heq
      subst heq
      split at h
      · next sig hsig =>
          split_ifs at h
          · cases h
          · rw [hsig, of_decide_eq_true (Except.ok.inj h)]
      · cases h

/-- The receipt of a successful result is verified. -/
theorem verified_of_reconcileResult {t : LeaseTable} {result : EngineInvocationResult}
    {expected : Expected} {payload : PyValue}
    (h : receiptCheck.reconcileResult t result expected = .ok (.succeeded payload)) :
    receiptCheck.verifyExecutionReceipt result.receipt = .ok true := by
  rw [ReceiptCheck.reconcileResult] at h
  replace h := (check_bind_eq_ok h).2
  split at h
  · cases h
  · replace h := (check_bind_eq_ok h).2
    split at h
    · next items hitems =>
        split at h
        · next receipt hreceipt =>
            have heq : result.receipt = receipt := by
              rw [EngineInvocationResult.receipt, hitems]
              dsimp only
              rw [hreceipt]
            replace h := (check_bind_eq_ok h).2
            obtain ⟨_, hcheck, -⟩ := Traversal.bind_eq_ok_iff.mp h
            replace hcheck := (check_bind_eq_ok hcheck).2
            obtain ⟨verified, hverified, hcheck⟩ := Traversal.bind_eq_ok_iff.mp hcheck
            cases verified with
            | true => rw [heq, hverified]
            | false => cases hcheck
        · cases h
    · cases h

/-- **Signed receipts.**  When a result is accepted as successful, whatever the engine has signed, it has
signed a receipt for exactly the expected fields, precisely when the signed fields of the receipt are
the expected ones and none of them contains a colon. -/
theorem signed_view_iff {signature : String → String}
    (hsignature : receiptCheck.signature = some signature) (hinj : Function.Injective signature)
    {t : LeaseTable} {result : EngineInvocationResult} {expected : Expected} {payload : PyValue}
    (h : receiptCheck.reconcileResult t result expected = .ok (.succeeded payload))
    (hengine : ∃ signed, OnlyEngineSigns signature signed result.receipt) :
    (∀ signed, OnlyEngineSigns signature signed result.receipt →
      receiptCheck.view result expected ∈ signed) ↔ receiptCheck.SignsView result expected := by
  have hpresented := presentedSignature_of_verified hsignature (verified_of_reconcileResult h)
  constructor
  · intro hall
    obtain ⟨signed, honly⟩ := hengine
    obtain ⟨r, -, hr⟩ := honly _ hpresented
    -- Any receipt with this message may be the one that the engine signed.
    have hunique : ∀ r' : EngineReceipt, r'.message = receiptCheck.message result.receipt →
        receiptCheck.view result expected = r' := by
      intro r' hr'
      exact hall {r'} (onlyEngineSigns_singleton (hr' ▸ hpresented))
    have hview := hunique r (hinj hr).symm
    have hmessage : (receiptCheck.view result expected).message =
        receiptCheck.message result.receipt := by rw [hview, hinj hr]
    have hfree : (receiptCheck.view result expected).NoColon := by
      by_contra hcolon
      have hstatus : ':' ∉ "SUCCESS".toList := by decide
      obtain ⟨r', hne, hr'⟩ := EngineReceipt.exists_other hcolon hstatus
      exact hne (hunique r' (hr'.trans hmessage)).symm
    refine ⟨parts_eq_of_noColon hfree rfl ?_, hfree⟩
    rw [← ReceiptCheck.message_eq]
    exact hmessage.symm
  · rintro ⟨hparts, hfree⟩ signed honly
    obtain ⟨r, hr, hsame⟩ := honly _ hpresented
    have hmessage := hinj hsame
    rw [ReceiptCheck.message_eq, hparts] at hmessage
    have hpartsr : r.parts = (receiptCheck.view result expected).parts :=
      parts_eq_of_noColon hfree rfl hmessage.symm
    rw [← EngineReceipt.eq_of_parts hpartsr]
    exact hr

end Reading

/-! ## A receipt for no node -/

/-- `==` on texts and integers, and the message itself as its signature. -/
def sampleCheck : ReceiptCheck where
  equal
    | .str a, .str b => a = b
    | .int a, .int b => a = b
    | _, _ => false
  str
    | .int z => intText z
    | _ => ""
  signature := some fun message => message

/-- A lease of the attempt `a`. -/
def sampleLeases : LeaseTable := PyDict.empty.set "a"
  { leaseId := "l"
    attemptId := "a"
    ownerId := "w"
    fenceEpoch := 1
    issuedAt := ""
    expiresAt := ""
    renewedAt := ""
    initializationFingerprint := "f" }

/-- A result of the node `n`, with a receipt that names its node under the given key. -/
def sampleResult (nodeKey signature : String) : EngineInvocationResult where
  invocationId := "i"
  attemptId := "a"
  leaseId := "l"
  fenceEpoch := 1
  isSuccess := true
  initializationFingerprint := some "f"
  graphNodeId := some "n"
  resultPayload := .dict [("execution_receipt", .dict [
    ("gateway_migration_id", .str "m"), ("gateway_run_id", .str "a"),
    ("gateway_operation_id", .str "o"), ("gateway_fencing_epoch", .int 1),
    ("gateway_status_code", .str "SUCCESS"), ("initialization_fingerprint", .str "f"),
    (nodeKey, .str "n"), ("receipt_signature", .str signature)])]

/-- What is expected of it. -/
def sampleExpected : Expected where
  initializationFingerprint := "f"
  migrationId := some "m"

/-- A receipt with all signed fields was signed by the engine. -/
theorem signed_view_sample : (∀ signed, OnlyEngineSigns (fun message => message) signed
        (sampleResult "gateway_job_id" "m:a:o:1:SUCCESS:f:n").receipt →
      sampleCheck.view (sampleResult "gateway_job_id" "m:a:o:1:SUCCESS:f:n") sampleExpected ∈ signed) ↔
      sampleCheck.SignsView (sampleResult "gateway_job_id" "m:a:o:1:SUCCESS:f:n") sampleExpected :=
  signed_view_iff rfl (fun _ _ h => h) (t := sampleLeases) rfl
    ⟨_, onlyEngineSigns_singleton (r := ⟨"m", "a", "o", 1, "SUCCESS", "f", "n"⟩) rfl⟩

/-- A receipt that the engine signed for no node is accepted for the node `n`. -/
theorem not_signed_view : ¬ ∀ (receiptCheck : ReceiptCheck) (signature : String → String)
    (signed : Set EngineReceipt) (t : LeaseTable) (result : EngineInvocationResult)
    (expected : Expected) (payload : PyValue),
    receiptCheck.signature = some signature → Function.Injective signature →
      OnlyEngineSigns signature signed result.receipt →
      receiptCheck.reconcileResult t result expected = .ok (.succeeded payload) →
      receiptCheck.view result expected ∈ signed := by
  intro h
  have hview := h sampleCheck (fun message => message) {⟨"m", "a", "o", 1, "SUCCESS", "f", ""⟩}
    sampleLeases (sampleResult "graph_node_id" "m:a:o:1:SUCCESS:f:") sampleExpected _ rfl
    (fun _ _ h => h) (onlyEngineSigns_singleton rfl) rfl
  have hnode : "n" = "" := congrArg EngineReceipt.jobId hview
  exact absurd hnode (by decide)

end PipelineLeases

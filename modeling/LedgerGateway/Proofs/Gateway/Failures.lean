import LedgerGateway.Proofs.Call.Method
import LedgerGateway.Proofs.Gateway.Calls
import LedgerGateway.Proofs.Gateway.Lookup

/-!
# Failed executions

The node reports the status of an execution in the output of a call or in a receipt. Three
operations make a response of it, each in its own way, and `Reflects` holds of all three: only a
status of zero is told as a success, and whatever failed is told with a positive code, without a
result, and with the best explanation there is.
-/

namespace LedgerGateway.Gateway

open Exchange Text

variable {g : Gateway} {node : Node} {before after : History} {status : UInt64} {output : Bytes}
  {message? : Option String} {response : TransactionResponse}

/-! ## Explanations -/

/-- The text that explains a failed execution. -/
inductive Explains (p : CryptoProfile) (status : UInt64) (output : Bytes)
    (message? : Option String) : String → Prop
  | reason {reason : String} : RevertReason.Reports p output reason →
      Explains p status output message? reason
  /-- The output reports no reason, but the receipt has a message. -/
  | message {message : String} : (∀ reason, ¬ RevertReason.Reports p output reason) →
      message? = some message → message ≠ "" → Explains p status output message? message
  /-- Nothing is known but the status. -/
  | status : (∀ reason, ¬ RevertReason.Reports p output reason) →
      (∀ message, message? = some message → message = "") →
      Explains p status output message?
        ("Execution failed with status " ++ decimal status.toNat)

theorem explains_reverted (g : Gateway) (status : UInt64) (output : Bytes)
    (message? : Option String) :
    Explains g.profile status output message? (g.reverted status output message?).message := by
  simp only [reverted, TransactionResponse.reverted]
  cases hreason : RevertReason.decode? g.profile output with
  | some reason => exact .reason (RevertReason.decode?_eq_some.mp hreason)
  | none =>
    have hnone : ∀ reason, ¬ RevertReason.Reports g.profile output reason := by
      intro reason hreports
      rw [RevertReason.decode?_eq_some.mpr hreports] at hreason
      cases hreason
    cases hmessage : message?.filter (!·.isEmpty) with
    | some message =>
      obtain ⟨hgiven, hcontent⟩ := Option.filter_eq_some_iff.mp hmessage
      exact .message hnone hgiven (by simpa using hcontent)
    | none =>
      refine .status hnone fun message hgiven => ?_
      have hempty := Option.filter_eq_none_iff.mp hmessage message hgiven
      simpa using hempty

/-! ## Responses -/

/-- The response tells how an execution ended that is reported with this status, this output and
this message. -/
structure Reflects (g : Gateway) (status : UInt64) (output : Bytes) (message? : Option String)
    (response : TransactionResponse) : Prop where
  success : response.errorCode = 0 ↔ status = 0
  positive : status ≠ 0 → 0 < response.errorCode
  /-- The status is told where it is no greater than the greatest code. -/
  same : status.toNat < 2147483648 → response.errorCode.toInt = status.toNat
  greatest : 2147483648 ≤ status.toNat → response.errorCode = Int32.maxValue
  result : status ≠ 0 → response.result = []
  message : status ≠ 0 → Explains g.profile status output message? response.message

/-- The code alone decides what is told of the status. -/
theorem reflects_of_code
    (hcode : response.errorCode = (g.reverted status output message?).errorCode)
    (hfailed : status ≠ 0 → response.result = [] ∧
      Explains g.profile status output message? response.message) :
    Reflects g status output message? response := by
  have hvalue := toInt_errorCode_reverted g status output message?
  rw [← hcode] at hvalue
  -- Codes and statuses are compared as integers, for only these know of both ranges.
  have hzero : status = 0 ↔ status.toNat = 0 := UInt64.toNat_inj.symm
  constructor
  case success =>
    rw [hzero, ← Int32.toInt_inj, hvalue, Int32.toInt_zero]
    omega
  case positive =>
    intro hstatus
    rw [ne_eq, hzero] at hstatus
    rw [Int32.lt_iff_toInt_lt, hvalue, Int32.toInt_zero]
    omega
  case same =>
    intro hsmall
    rw [hvalue]
    omega
  case greatest =>
    intro hlarge
    rw [← Int32.toInt_inj, hvalue, show Int32.maxValue.toInt = 2147483647 by decide]
    omega
  case result => exact fun hstatus => (hfailed hstatus).1
  case message => exact fun hstatus => (hfailed hstatus).2

theorem reflects_success (g : Gateway) (output : Bytes) (message? : Option String)
    (result : List String) (hash : String) (blockNumber : UInt64) :
    Reflects g 0 output message?
      { TransactionResponse.success result with hash, blockNumber } :=
  reflects_of_code rfl fun hstatus => absurd rfl hstatus

theorem reflects_reverted (g : Gateway) (status : UInt64) (output : Bytes)
    (message? : Option String) (hash : String) (blockNumber : UInt64) :
    Reflects g status output message?
      { g.reverted status output message? with hash, blockNumber } :=
  reflects_of_code rfl fun _ => ⟨rfl, explains_reverted g status output message?⟩

/-! ## Operations -/

section

variable {context : RequestContext} {request : TransactionRequest} {byProxy : Bool} {draws : Draws}
  {blocks : BlockSource} {invocation : Invocation} {answer : CallOutput} {receipt : Receipt}

theorem reflects_of_settleCall (h : g.settleCall invocation answer = .ok response) :
    ∃ output, readHex answer.output = .ok output ∧
      Reflects g answer.status output none response := by
  obtain ⟨output, houtput, h⟩ := except_bind_eq_ok.mp h
  refine ⟨output, houtput, ?_⟩
  split at h
  · cases h
    exact reflects_reverted g answer.status output none "" answer.currentBlockNumber
  · rename_i hstatus
    have hzero : answer.status = 0 := by simpa using hstatus
    obtain ⟨result, -, h⟩ := except_bind_eq_ok.mp h
    cases h
    rw [hzero]
    exact reflects_success g output none result "" answer.currentBlockNumber

theorem reflects_of_respondsTo (h : RespondsTo g receipt output response) :
    Reflects g receipt.status output receipt.message response := by
  cases hstatus : receipt.isStatusOk with
  | true =>
    have hzero : receipt.status = 0 := by simpa [Receipt.isStatusOk] using hstatus
    obtain ⟨-, hresponse⟩ := h.succeeded hstatus
    rw [hresponse, hzero]
    exact reflects_success g output receipt.message _ _ _
  | false =>
    rw [h.failed hstatus]
    exact reflects_reverted g receipt.status output receipt.message _ _

/-- A settled receipt is told like one that was looked up. -/
theorem respondsTo_of_settle
    (h : outcome (g.settle node blocks invocation receipt) before = (.ok response, after)) :
    ∃ output, RespondsTo g receipt output response := by
  cases hstatus : receipt.isStatusOk with
  | true =>
    rw [settle, if_pos hstatus] at h
    obtain ⟨_, _, -, h⟩ := outcome_bind_eq_ok.mp h
    obtain ⟨output, houtput, h⟩ := outcome_liftM_bind_eq_ok.mp h
    obtain ⟨result, hresult, h⟩ := outcome_liftM_bind_eq_ok.mp h
    cases h
    refine ⟨output, houtput, fun _ => ⟨.inr ⟨_, _, mapError_eq_ok.mp hresult⟩, rfl⟩, ?_⟩
    intro hfailed
    rw [hstatus] at hfailed
    cases hfailed
  | false =>
    obtain ⟨output, houtput, rfl, -⟩ := (settle_of_failure hstatus).mp h
    refine ⟨output, houtput, ?_, fun _ => rfl⟩
    intro hok
    rw [hstatus] at hok
    cases hok

/-- However an execution is run or looked up, a response tells how it has ended. -/
theorem responses_reflect (g : Gateway) (node : Node) (before after : History) :
    (∀ context request byProxy draws response,
      outcome (g.call node context request byProxy draws) before = (.ok response, after) →
      ∃ account invocation answer output,
        Called g node context request byProxy draws before account invocation answer ∧
        readHex answer.output = .ok output ∧ Reflects g answer.status output none response) ∧
    (∀ context request byProxy draws response,
      outcome (g.sendTransaction node context request byProxy draws) before =
        (.ok response, after) →
      ∃ blocks invocation signed receipt output,
        Sent g node context request byProxy draws before blocks invocation signed receipt ∧
        readHex receipt.output = .ok output ∧
        Reflects g receipt.status output receipt.message response) ∧
    (∀ hash number blocks v,
      outcome (g.getTransaction node hash number blocks) before = (.ok v, after) →
      ∃ proof output, ProofAnswered node (trim hash) before proof ∧
        readHex proof.receipt.receipt.output = .ok output ∧
        Reflects g proof.receipt.receipt.status output proof.receipt.receipt.message v.response) ∧
    ∀ reason, (RevertReason.encode g.profile reason).length < UInt64.size →
      RevertReason.decode? g.profile (RevertReason.encode g.profile reason) = some reason := by
  refine ⟨?call, ?send, ?lookup, fun _ hsize => RevertReason.decode?_encode hsize⟩
  case call =>
    intro context request byProxy draws response h
    obtain ⟨account, invocation, answer, hcalled, hsettle, -⟩ := call_eq_ok.mp h
    obtain ⟨output, houtput, hreflects⟩ := reflects_of_settleCall hsettle
    exact ⟨account, invocation, answer, output, hcalled, houtput, hreflects⟩
  case send =>
    intro context request byProxy draws response h
    obtain ⟨blocks, invocation, signed, receipt, hsent, hsettle⟩ := sendTransaction_eq_ok.mp h
    obtain ⟨output, hresponds⟩ := respondsTo_of_settle hsettle
    exact ⟨blocks, invocation, signed, receipt, output, hsent, hresponds.readable,
      reflects_of_respondsTo hresponds⟩
  case lookup =>
    intro hash number blocks v h
    obtain ⟨proof, -, hanswered, -, hreport⟩ := getTransaction_eq_ok_iff.mp h
    obtain ⟨output, hresponds⟩ := respondsTo_of_report hreport
    exact ⟨proof, output, hanswered, hresponds.readable, reflects_of_respondsTo hresponds⟩

end

namespace OneBlock

/-- A node that answers every call with a failure and its reason. -/
def callNode (status : UInt64) : Node :=
  { OneBlock.node [1] status with
    call := fun _ _ _ _ =>
      .ok ⟨7, status, Hex.encode (RevertReason.encode gateway.profile "no")⟩ }

theorem called_request (status : UInt64) :
    Called gateway (callNode status) (context [1]) request false draws [] ⟨"a", keyPair⟩ invocation
      ⟨7, status, Hex.encode (RevertReason.encode gateway.profile "no")⟩ where
  checked := ⟨source [1], rfl⟩
  encoded := rfl
  answered := rfl

theorem outcome_call {status : UInt64} (h : status ≠ 0) :
    outcome (gateway.call (callNode status) (context [1]) request false draws) [] =
      (.ok { gateway.reverted status (RevertReason.encode gateway.profile "no") none with
        blockNumber := 7 }, [callQuestion ⟨"a", keyPair⟩ invocation]) := by
  refine call_eq_ok.mpr ⟨_, _, _, called_request status, ?_, rfl⟩
  exact settleCall_of_failure h (readHex_encode _)

theorem outcome_sendTransaction_of_failure {status : UInt64} (h : status ≠ 0) :
    outcome (gateway.sendTransaction (OneBlock.node [1] status) (context [1]) request false draws)
        [] =
      (.ok (gateway.failed (receipt [1] status) []), [.height, .submit signed.raw]) := by
  refine sendTransaction_eq_ok.mpr ⟨source [1], invocation, signed, receipt [1] status,
    sent_transaction [1] status, (settle_of_failure ?_).mpr ⟨[], readHex_empty, rfl, rfl⟩⟩
  simpa [Receipt.isStatusOk, receipt] using h

theorem outcome_getTransaction_of_failure (status : UInt64) :
    ∃ v, outcome (oldGateway.getTransaction (OneBlock.node [1] status) (Hex.encode [1]) 7 noBlocks)
      [] = (.ok v, [.transaction (trim (Hex.encode [1])), .receipt (trim (Hex.encode [1]))]) := by
  obtain ⟨v, hreport⟩ : ∃ v, oldGateway.report (Hex.encode [1]) 7 (proof [1] status) = .ok v :=
    exists_report_iff.mpr ⟨⟨[], readHex_empty⟩, [], readHex_empty⟩
  refine ⟨v, getTransaction_eq_ok_iff.mpr ⟨proof [1] status, isEmpty_trim_encode [1],
    ⟨rfl, rfl, rfl⟩, ?_, hreport⟩⟩
  rw [Verified, proofsSupported_oldGateway, if_neg (by decide)]
  rfl

end OneBlock

/-- A status whose low bits are zero, told of a call, of a transaction and of a lookup; and a reason
that is read back. -/
theorem responses_reflect_highStatus :
    let status : UInt64 := 0x100000000
    (∃ response after, outcome (OneBlock.gateway.call (OneBlock.callNode status)
        (OneBlock.context [1]) OneBlock.request false OneBlock.draws) [] = (.ok response, after) ∧
      response.errorCode = Int32.maxValue) ∧
    (∃ response after, outcome (OneBlock.gateway.sendTransaction (OneBlock.node [1] status)
        (OneBlock.context [1]) OneBlock.request false OneBlock.draws) [] = (.ok response, after) ∧
      response.errorCode = Int32.maxValue) ∧
    (∃ v after, outcome (OneBlock.oldGateway.getTransaction (OneBlock.node [1] status)
        (Hex.encode [1]) 7 OneBlock.noBlocks) [] = (.ok v, after) ∧
      v.response.errorCode = Int32.maxValue) ∧
    RevertReason.decode? OneBlock.gateway.profile
      (RevertReason.encode OneBlock.gateway.profile "no") = some "no" := by
  intro status
  have hstatus : status ≠ 0 := by decide
  have hlarge : 2147483648 ≤ status.toNat := by decide
  have hcall := OneBlock.outcome_call hstatus
  have hsend := OneBlock.outcome_sendTransaction_of_failure hstatus
  obtain ⟨v, hget⟩ := OneBlock.outcome_getTransaction_of_failure status
  refine ⟨⟨_, _, hcall, ?_⟩, ⟨_, _, hsend, ?_⟩, ⟨v, _, hget, ?_⟩, ?_⟩
  · obtain ⟨_, _, answer, _, hcalled, -, hreflects⟩ :=
      (responses_reflect _ _ _ _).1 _ _ _ _ _ hcall
    obtain rfl := Except.ok.inj hcalled.answered
    exact hreflects.greatest hlarge
  · obtain ⟨_, _, _, receipt, _, hsent, -, hreflects⟩ :=
      (responses_reflect _ _ _ _).2.1 _ _ _ _ _ hsend
    obtain rfl := Option.some.inj (Except.ok.inj hsent.answered)
    exact hreflects.greatest hlarge
  · obtain ⟨proof, _, hanswered, -, hreflects⟩ :=
      (responses_reflect _ _ _ _).2.2.1 _ _ _ _ hget
    have hreceipt := Option.some.inj (Except.ok.inj hanswered.receipt)
    rw [← hreceipt] at hreflects
    exact hreflects.greatest hlarge
  · refine (responses_reflect OneBlock.gateway (OneBlock.callNode 0) [] []).2.2.2 "no" ?_
    rw [RevertReason.encode, CryptoProfile.length_callData]
    decide

end LedgerGateway.Gateway

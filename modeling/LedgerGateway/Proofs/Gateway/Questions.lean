import LedgerGateway.Gateway.Operations
import LedgerGateway.Proofs.Gateway.Dispatcher
import LedgerGateway.Proofs.Ledger.Written

/-!
# Questions of the gateway

The gateway speaks to the node through the dispatcher only. What it gets back is what the node has
said, because requests and responses are read as they were written.
-/

namespace LedgerGateway.Gateway

open Exchange Text

variable {node : Node} {before after : History}

theorem outcome_request {kind : RequestKind} {data : Bytes} {fallback : StatusCode}
    {response : Response}
    (h : (node.handle (.ofKind kind data)).run before = (response, after)) :
    outcome (request node kind data fallback) before =
      (if response.isSuccess then .ok response.data else .error (.ofResponse response fallback),
        after) := by
  have hstep : outcome (liftM (node.handle (.ofKind kind data)) : Exchange GatewayError Response)
      before = (.ok response, after) := by
    rw [outcome_liftM_state, h]
  rw [request, outcome_bind_of_ok hstep]
  split <;> rfl

/-- A request that is understood succeeds with the answer to the inquiry. -/
theorem request_eq_ok {kind : RequestKind} {data bytes : Bytes} {fallback : StatusCode}
    {inquiry : Inquiry} (hr : Inquiry.ofRequest (.ofKind kind data) = .ok inquiry) :
    outcome (request node kind data fallback) before = (.ok bytes, after) ↔
      outcome (node.answer inquiry) before = (.ok bytes, after) := by
  match h : outcome (node.answer inquiry) before with
  | (.ok answer, middle) =>
    have hok : (Response.success answer).isSuccess = true := rfl
    rw [outcome_request (Node.handle_of_ok hr h), if_pos hok]
    simp [Response.success]
  | (.error f, middle) =>
    rw [outcome_request (Node.handle_of_error hr h), f.isSuccess_failure]
    simp

/-- A request that is not understood does not succeed. -/
theorem request_ne_ok {kind : RequestKind} {data bytes : Bytes} {fallback : StatusCode}
    {e : RequestError} (hr : Inquiry.ofRequest (.ofKind kind data) = .error e) :
    outcome (request node kind data fallback) before ≠ (.ok bytes, after) := by
  have hhandle : (node.handle (.ofKind kind data)).run before =
      (.failure .unrecognizedRequestType e.message, before) := by
    rw [Node.handle, hr]
    rfl
  rw [outcome_request hhandle]
  intro h
  cases h

theorem readData_json {α : Type} {decode : Json.Decoder α} {data : Bytes} {a : α} :
    readData decode data = .ok a ↔ Json.decodeBytes decode data = .ok a := by
  rw [readData, mapError_eq_ok]

/-- Bytes in a text are read as they were written. -/
theorem readHex_encode (bytes : Bytes) : readHex (Hex.encode bytes) = .ok bytes := by
  rw [readHex, mapError_eq_ok, Hex.read, mapError_eq_ok, Hex.trim_encode, Hex.stripMark_encode,
    Hex.decode_digits]

theorem getHeight_eq_ok {height : UInt64} :
    outcome (getHeight node) before = (.ok height, after) ↔
      node.height before = .ok height ∧ before ++ [.height] = after := by
  rw [getHeight, outcome_bind_eq_ok]
  simp only [request_eq_ok Inquiry.ofRequest_height, Node.answer_height]
  constructor
  · rintro ⟨_, _, ⟨height', hheight, rfl, rfl⟩, hend⟩
    simp only [BlockNumber.decode?_encode, outcome_pure, Prod.mk.injEq, Except.ok.injEq] at hend
    exact ⟨hend.1 ▸ hheight, hend.2⟩
  · rintro ⟨hheight, rfl⟩
    refine ⟨_, _, ⟨height, hheight, rfl, rfl⟩, ?_⟩
    simp only [BlockNumber.decode?_encode, outcome_pure]

/-- The receipt of a submission is the one that the node has answered the signed bytes with. -/
theorem submit_eq_ok {params : TransactionParams} {receipt : Receipt} :
    outcome (submit node params) before = (.ok receipt, after) ↔
      node.submit before params.data = .ok (some receipt) ∧ receipt.isEmpty = false ∧
        before ++ [.submit params.data] = after := by
  rw [submit, outcome_bind_eq_ok]
  simp only [request_eq_ok (Inquiry.ofRequest_submit params), Node.answer_submit, outcome_liftM,
    Prod.mk.injEq, readData_json]
  constructor
  · rintro ⟨_, _, ⟨receipt', hsubmit, hcontent, rfl, rfl⟩, hread, hend⟩
    rw [Receipt.decodeBytes_json, Except.ok.injEq] at hread
    subst hread
    exact ⟨hsubmit, hcontent, hend⟩
  · rintro ⟨hsubmit, hcontent, rfl⟩
    exact ⟨_, _, ⟨receipt, hsubmit, hcontent, rfl, rfl⟩, receipt.decodeBytes_json, rfl⟩

/-- The data of the response to a call is the output that the node has answered with. -/
theorem requestCall_eq_ok {params : TransactionParams} {sender destination : String}
    {fallback : StatusCode} {output : CallOutput} (hsender : params.sender = some sender)
    (hdestination : params.destination = some destination) :
    (∃ data, outcome (request node .call params.toBytes fallback) before = (.ok data, after) ∧
        readData CallOutput.decoder data = .ok output) ↔
      node.call before sender destination params.data = .ok output ∧
        before ++ [.call sender destination params.data] = after := by
  simp only [request_eq_ok (Inquiry.ofRequest_call hdestination), Node.answer_call, readData_json,
    hsender, Option.getD_some]
  constructor
  · rintro ⟨_, ⟨answer, hanswer, rfl, hend⟩, hread⟩
    rw [CallOutput.decodeBytes_json, Except.ok.injEq] at hread
    subst hread
    exact ⟨hanswer, hend⟩
  · rintro ⟨hanswer, hend⟩
    exact ⟨_, ⟨output, hanswer, rfl, hend⟩, output.decodeBytes_json⟩

/-- The node has answered for a hash with a transaction and then with a receipt that has content. -/
structure ProofAnswered (node : Node) (hash : String) (before : History)
    (proof : TransactionProof) : Prop where
  /-- The transaction is the first answer. -/
  transaction : node.transaction before hash = .ok (some proof.transaction)
  receipt : node.receipt (before ++ [.transaction hash]) hash = .ok (some proof.receipt)
  content : proof.receipt.receipt.isEmpty = false

/-- Asking for a proof gives what the node has answered for the hash without blanks around it. -/
theorem requestProof_eq_ok {hash : String} {fallback : StatusCode} {proof : TransactionProof} :
    (∃ data, outcome (request node .getTransactionProof (Utf8.encode hash) fallback) before =
        (.ok data, after) ∧ readData TransactionProof.decoder data = .ok proof) ↔
      (trim hash).isEmpty = false ∧ ProofAnswered node (trim hash) before proof ∧
        before ++ [.transaction (trim hash)] ++ [.receipt (trim hash)] = after := by
  have hr := Inquiry.ofRequest_proof hash
  cases hempty : (trim hash).isEmpty with
  | true =>
    rw [if_pos hempty] at hr
    constructor
    · rintro ⟨data, hdata, -⟩
      exact absurd hdata (request_ne_ok hr)
    · rintro ⟨hne, -⟩
      cases hne
  | false =>
    rw [hempty, if_neg (by decide)] at hr
    simp only [request_eq_ok hr, Node.answer_proof, readData_json]
    constructor
    · rintro ⟨_, ⟨t, r, ht, hreceipt, hcontent, rfl, hend⟩, hread⟩
      rw [TransactionProof.decodeBytes_json, Except.ok.injEq] at hread
      subst hread
      exact ⟨trivial, ⟨ht, hreceipt, hcontent⟩, hend⟩
    · rintro ⟨-, hanswered, hend⟩
      exact ⟨_, ⟨_, _, hanswered.transaction, hanswered.receipt, hanswered.content, rfl, hend⟩,
        proof.decodeBytes_json⟩

/-! ## Kinds of questions -/

theorem history_request {kind : RequestKind} {data : Bytes} {fallback : StatusCode}
    {inquiry : Inquiry} (hr : Inquiry.ofRequest (.ofKind kind data) = .ok inquiry)
    (before : History) :
    (outcome (request node kind data fallback) before).2 =
      (outcome (node.answer inquiry) before).2 := by
  have hrequest : (outcome (request node kind data fallback) before).2 =
      ((node.handle (.ofKind kind data)).run before).2 := congrArg Prod.snd (outcome_request rfl)
  rw [hrequest, Node.history_handle hr]

theorem asksOnly_request {P : Question → Prop} {kind : RequestKind} {data : Bytes}
    {fallback : StatusCode} {inquiry : Inquiry}
    (hr : Inquiry.ofRequest (.ofKind kind data) = .ok inquiry)
    (h : AsksOnly P (node.answer inquiry)) : AsksOnly P (request node kind data fallback) := by
  intro before
  obtain ⟨asked, hasked, hP⟩ := h before
  exact ⟨asked, by rw [history_request hr, hasked], hP⟩

/-- The height is asked for, or a transaction is submitted. -/
def IsOfTransaction : Question → Prop
  | .height | .submit _ => True
  | _ => False

theorem asksOnly_present {P : Question → Prop} {α : Type} (failure : InquiryFailure)
    (a? : Option α) : AsksOnly P (Node.present failure a?) := by
  cases a? with
  | none => exact asksOnly_throw failure
  | some a => exact asksOnly_pure a

theorem asksOnly_getHeight : AsksOnly IsOfTransaction (getHeight node) := by
  refine asksOnly_bind (asksOnly_request Inquiry.ofRequest_height ?_) fun data => ?_
  · exact asksOnly_bind (asksOnly_adapt _ (asksOnly_ask trivial)) fun height => asksOnly_pure _
  · split
    · exact asksOnly_pure _
    · exact asksOnly_throw _

theorem asksOnly_submit (params : TransactionParams) :
    AsksOnly IsOfTransaction (submit node params) := by
  refine asksOnly_bind (asksOnly_request (Inquiry.ofRequest_submit params) ?_) fun data =>
    asksOnly_liftM _
  refine asksOnly_bind (asksOnly_adapt _ (asksOnly_ask trivial)) fun receipt? => ?_
  exact asksOnly_bind (asksOnly_present _ _) fun receipt => asksOnly_pure _

/-! ## Questions that are always asked -/

theorem history_getHeight (node : Node) (before : History) :
    (outcome (getHeight node) before).2 = before ++ [.height] := by
  have hanswer : (outcome (node.answer .height) before).2 = before ++ [.height] :=
    history_bind (fun _ => asksOnly_pure _) before
  rw [getHeight, history_bind, history_request Inquiry.ofRequest_height, hanswer]
  intro data
  split
  · exact asksOnly_pure _
  · exact asksOnly_throw _

theorem history_submit (node : Node) (params : TransactionParams) (before : History) :
    (outcome (submit node params) before).2 = before ++ [.submit params.data] := by
  have hanswer : (outcome (node.answer (.submit params)) before).2 =
      before ++ [.submit params.data] := by
    refine history_bind (fun receipt? => ?_) before
    exact asksOnly_bind (asksOnly_present _ _) fun _ => asksOnly_pure _
  rw [submit, history_bind fun _ => asksOnly_liftM _, history_request (Inquiry.ofRequest_submit params),
    hanswer]

theorem getHeight_eq_error {e : GatewayError} {after : History}
    (h : outcome (getHeight node) before = (.error e, after)) :
    before ++ [.height] = after ∧ ∀ height, node.height before ≠ .ok height := by
  have hhistory := history_getHeight node before
  rw [h] at hhistory
  refine ⟨hhistory.symm, ?_⟩
  intro height hheight
  have hok := getHeight_eq_ok.mpr ⟨hheight, rfl⟩
  rw [h] at hok
  cases hok

theorem submit_eq_error {params : TransactionParams} {e : GatewayError} {after : History}
    (h : outcome (submit node params) before = (.error e, after)) :
    before ++ [.submit params.data] = after ∧
      ∀ receipt, node.submit before params.data = .ok (some receipt) → receipt.isEmpty = true := by
  have hhistory := history_submit node params before
  rw [h] at hhistory
  refine ⟨hhistory.symm, ?_⟩
  intro receipt hanswer
  by_contra hcontent
  rw [Bool.not_eq_true] at hcontent
  have hok := submit_eq_ok.mpr ⟨hanswer, hcontent, rfl⟩
  rw [h] at hok
  cases hok

end LedgerGateway.Gateway

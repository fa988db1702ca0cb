import LedgerGateway.Gateway.Dispatcher
import LedgerGateway.Proofs.Envelope.Written
import LedgerGateway.Proofs.Gateway.Exchange
import LedgerGateway.Proofs.Text.Utf8

/-!
# What the dispatcher asks and answers

Each kind of request that the gateway makes is understood as the inquiry that it stands for, and a
success means that the node has answered it. The answers are stated as equivalences: they say what
the node was asked, in which order, and what it said.
-/

namespace LedgerGateway

open Exchange Text

/-! ## Requests that are understood -/

namespace Inquiry

@[simp] theorem kind?_ofKind (kind : RequestKind) (data : Bytes) :
    (Request.ofKind kind data).kind? = some kind :=
  RequestKind.ofCode?_code kind

@[simp] theorem data_ofKind (kind : RequestKind) (data : Bytes) :
    (Request.ofKind kind data).data = data := rfl

theorem ofRequest_height : ofRequest (.ofKind .getBlockNumber []) = .ok height := by
  simp [ofRequest]

theorem ofRequest_block (number : UInt64) :
    ofRequest (.ofKind .getBlockByNumber (BlockNumber.encode number)) = .ok (block number) := by
  simp [ofRequest]

theorem ofRequest_submit (params : TransactionParams) :
    ofRequest (.ofKind .sendTransaction params.toBytes) = .ok (submit params) := by
  simp [ofRequest, readParams, Except.map]

/-- A call that says where it goes is understood. -/
theorem ofRequest_call {params : TransactionParams} {destination : String}
    (h : params.destination = some destination) :
    ofRequest (.ofKind .call params.toBytes) = .ok (call params destination) := by
  simp [ofRequest, readParams, bind, Except.bind, h]

theorem readHash_encode (text : String) :
    readHash (Utf8.encode text) =
      if (trim text).isEmpty then .error .emptyHash else .ok (trim text) := by
  simp [readHash, bind, Except.bind]

/-- The dispatcher looks for the hash without the blanks around it. -/
theorem ofRequest_proof (hash : String) :
    ofRequest (.ofKind .getTransactionProof (Utf8.encode hash)) =
      if (trim hash).isEmpty then .error .emptyHash else .ok (proof (trim hash)) := by
  simp only [ofRequest, kind?_ofKind, data_ofKind, readHash_encode]
  split <;> rfl

end Inquiry

/-! ## Responses -/

def Response.ofOutcome : Except InquiryFailure Bytes → Response
  | .ok data => .success data
  | .error f => .failure f.status f.message

theorem InquiryFailure.isSuccess_failure (f : InquiryFailure) :
    (Response.failure f.status f.message).isSuccess = false := by
  cases f with
  | node kind cause => cases kind <;> rfl
  | _ => rfl

namespace Node

variable {node : Node} {before after : History}

/-- A request that is understood asks what its inquiry asks, and is told how that ends. -/
theorem run_handle {r : Request} {inquiry : Inquiry} (hr : Inquiry.ofRequest r = .ok inquiry)
    (before : History) :
    (node.handle r).run before = (Response.ofOutcome (outcome (node.answer inquiry) before).1,
      (outcome (node.answer inquiry) before).2) := by
  have hanswer : (node.answer inquiry).run.run before = outcome (node.answer inquiry) before := rfl
  simp only [handle, hr, StateT.run_bind, hanswer]
  match outcome (node.answer inquiry) before with
  | (.ok data, after) => rfl
  | (.error f, after) => rfl

theorem run_handle_of_error {r : Request} {e : RequestError}
    (hr : Inquiry.ofRequest r = .error e) (before : History) :
    (node.handle r).run before = (.failure .unrecognizedRequestType e.message, before) := by
  simp only [handle, hr]
  rfl

theorem handle_of_ok {r : Request} {inquiry : Inquiry} {data : Bytes}
    (hr : Inquiry.ofRequest r = .ok inquiry)
    (h : outcome (node.answer inquiry) before = (.ok data, after)) :
    (node.handle r).run before = (.success data, after) := by
  rw [run_handle hr, h]
  rfl

theorem handle_of_error {r : Request} {inquiry : Inquiry} {f : InquiryFailure}
    (hr : Inquiry.ofRequest r = .ok inquiry)
    (h : outcome (node.answer inquiry) before = (.error f, after)) :
    (node.handle r).run before = (.failure f.status f.message, after) := by
  rw [run_handle hr, h]
  rfl

/-- A request that is understood asks what answering the inquiry asks. -/
theorem history_handle {r : Request} {inquiry : Inquiry} (hr : Inquiry.ofRequest r = .ok inquiry)
    (before : History) :
    ((node.handle r).run before).2 = (outcome (node.answer inquiry) before).2 := by
  rw [run_handle hr]

/-! ## Answers -/

theorem present_eq_ok {α : Type} {failure : InquiryFailure} {a? : Option α} {a : α} :
    outcome (present failure a?) before = (.ok a, after) ↔ a? = some a ∧ before = after := by
  cases a? <;> simp [present]

/-- An answer of the node whose errors are named after the inquiry. -/
theorem ask_adapt_eq_ok {ε ε' α : Type} {question : Question} {answer : History → Except ε α}
    {f : ε → ε'} {a : α} :
    outcome (ExceptT.adapt f (ask question answer)) before = (.ok a, after) ↔
      answer before = .ok a ∧ before ++ [question] = after := by
  rw [outcome_adapt, outcome_ask, Prod.mk.injEq, mapError_eq_ok]

/-- A step that asks the node one question goes on with its answer or ends with its error. -/
theorem outcome_ask_adapt_bind {ε ε' α β : Type} {question : Question}
    {answer : History → Except ε α} {f : ε → ε'} {k : α → Exchange ε' β} :
    outcome (ExceptT.adapt f (ask question answer) >>= k) before =
      match answer before with
      | .ok a => outcome (k a) (before ++ [question])
      | .error e => (.error (f e), before ++ [question]) := by
  have hask : outcome (ExceptT.adapt f (ask question answer)) before =
      ((answer before).mapError f, before ++ [question]) := by
    rw [outcome_adapt, outcome_ask]
  cases hanswer : answer before with
  | ok a =>
    rw [hanswer] at hask
    exact outcome_bind_of_ok hask
  | error e =>
    rw [hanswer] at hask
    exact outcome_bind_of_error hask

theorem answer_height {data : Bytes} :
    outcome (node.answer .height) before = (.ok data, after) ↔
      ∃ height, node.height before = .ok height ∧ BlockNumber.encode height = data ∧
        before ++ [.height] = after := by
  simp only [answer, outcome_bind_eq_ok, askHeight, ask_adapt_eq_ok, outcome_pure, Prod.mk.injEq,
    Except.ok.injEq]
  constructor
  · rintro ⟨height, middle, ⟨hheight, rfl⟩, hdata, hafter⟩
    exact ⟨height, hheight, hdata, hafter⟩
  · rintro ⟨height, hheight, hdata, hafter⟩
    exact ⟨height, _, ⟨hheight, rfl⟩, hdata, hafter⟩

theorem answer_block {number : UInt64} {data : Bytes} :
    outcome (node.answer (.block number)) before = (.ok data, after) ↔
      node.block before number false = .ok (some data) ∧
        before ++ [.block number false] = after := by
  simp only [answer, outcome_bind_eq_ok, askBlock, ask_adapt_eq_ok, present_eq_ok]
  constructor
  · rintro ⟨_, middle, ⟨hblock, rfl⟩, rfl, hafter⟩
    exact ⟨hblock, hafter⟩
  · rintro ⟨hblock, hafter⟩
    exact ⟨_, _, ⟨hblock, rfl⟩, rfl, hafter⟩

theorem answer_call {params : TransactionParams} {destination : String} {data : Bytes} :
    outcome (node.answer (.call params destination)) before = (.ok data, after) ↔
      ∃ output : CallOutput,
        node.call before (params.sender.getD defaultSender) destination params.data = .ok output ∧
        output.json.bytes = data ∧
        before ++ [.call (params.sender.getD defaultSender) destination params.data] = after := by
  simp only [answer, outcome_bind_eq_ok, askCall, ask_adapt_eq_ok, outcome_pure, Prod.mk.injEq,
    Except.ok.injEq]
  constructor
  · rintro ⟨output, _, ⟨hcall, rfl⟩, hdata, hafter⟩
    exact ⟨output, hcall, hdata, hafter⟩
  · rintro ⟨output, hcall, hdata, hafter⟩
    exact ⟨output, _, ⟨hcall, rfl⟩, hdata, hafter⟩

/-- A submitted transaction is answered with a receipt that has content. -/
theorem answer_submit {params : TransactionParams} {data : Bytes} :
    outcome (node.answer (.submit params)) before = (.ok data, after) ↔
      ∃ receipt, node.submit before params.data = .ok (some receipt) ∧ receipt.isEmpty = false ∧
        receipt.json.bytes = data ∧ before ++ [.submit params.data] = after := by
  simp only [answer, outcome_bind_eq_ok, askSubmit, ask_adapt_eq_ok, present_eq_ok, outcome_pure,
    Prod.mk.injEq, Except.ok.injEq, Option.filter_eq_some_iff, Bool.not_eq_true']
  constructor
  · rintro ⟨_, _, ⟨hsubmit, rfl⟩, receipt, _, ⟨⟨rfl, hcontent⟩, rfl⟩, hdata, hafter⟩
    exact ⟨receipt, hsubmit, hcontent, hdata, hafter⟩
  · rintro ⟨receipt, hsubmit, hcontent, hdata, hafter⟩
    exact ⟨_, _, ⟨hsubmit, rfl⟩, receipt, _, ⟨⟨rfl, hcontent⟩, rfl⟩, hdata, hafter⟩

/-- A proof is a transaction and, asked for after it, a receipt that has content. -/
theorem answer_proof {hash : String} {data : Bytes} :
    outcome (node.answer (.proof hash)) before = (.ok data, after) ↔
      ∃ transaction receipt, node.transaction before hash = .ok (some transaction) ∧
        node.receipt (before ++ [.transaction hash]) hash = .ok (some receipt) ∧
        receipt.receipt.isEmpty = false ∧
        (TransactionProof.mk transaction receipt).json.bytes = data ∧
        before ++ [.transaction hash] ++ [.receipt hash] = after := by
  simp only [answer, outcome_bind_eq_ok, askTransaction, askReceipt, ask_adapt_eq_ok, present_eq_ok,
    outcome_pure, Prod.mk.injEq, Except.ok.injEq, Option.filter_eq_some_iff, Bool.not_eq_true']
  constructor
  · rintro ⟨_, _, ⟨ht, rfl⟩, t, _, ⟨rfl, rfl⟩, _, _, ⟨hr, rfl⟩, r, _, ⟨⟨rfl, hcontent⟩, rfl⟩, hdata,
      hafter⟩
    exact ⟨t, r, ht, hr, hcontent, hdata, hafter⟩
  · rintro ⟨t, r, ht, hr, hcontent, hdata, hafter⟩
    exact ⟨_, _, ⟨ht, rfl⟩, t, _, ⟨rfl, rfl⟩, _, _, ⟨hr, rfl⟩, r, _, ⟨⟨rfl, hcontent⟩, rfl⟩, hdata,
      hafter⟩

end Node

/-! ## Trusted blocks -/

namespace BlockSource

def question (source : BlockSource) (number : UInt64) : Question :=
  match source with
  | .independent _ => .trustedBlock number
  | .node => .block number false

theorem history_handle_block (node : Node) (number : UInt64) (before : History) :
    ((node.handle (.ofKind .getBlockByNumber (BlockNumber.encode number))).run before).2 =
      before ++ [.block number false] := by
  rw [node.history_handle (Inquiry.ofRequest_block number), Node.answer, Node.askBlock,
    Node.outcome_ask_adapt_bind]
  rcases node.block before number false with e | (_ | data) <;> rfl

/-- A node that is trusted for blocks gives the one in its response. -/
theorem outcome_askBlock_node {node : Node} {number : UInt64} {before after : History}
    {response : Response}
    (h : (node.handle (.ofKind .getBlockByNumber (BlockNumber.encode number))).run before =
      (response, after)) :
    outcome (BlockSource.node.askBlock node number) before =
      (if response.isSuccess then
          (Block.ofLedger response.data).mapError fun e => .invalidResponse e.message
        else .error (.rejected ("error code " ++ signedDecimal response.errorCode.toInt ++ ": " ++
          response.message)), after) := by
  have hstep : outcome (liftM (node.handle
      (.ofKind .getBlockByNumber (BlockNumber.encode number))) : Exchange ClientError Response)
      before = (.ok response, after) := by
    rw [outcome_liftM_state, h]
  rw [askBlock, outcome_bind_of_ok hstep]
  split
  · split
    · next hread => rw [hread]; rfl
    · next hread => rw [hread]; rfl
  · rfl

/-- A source is asked one question, whatever it answers. -/
theorem history_askBlock (source : BlockSource) (node : Node) (number : UInt64)
    (before : History) :
    (outcome (source.askBlock node number) before).2 = before ++ [source.question number] := by
  cases source with
  | independent block => rfl
  | node =>
    rw [outcome_askBlock_node rfl]
    exact history_handle_block node number before

end BlockSource

end LedgerGateway

import LedgerGateway.Envelope.Params
import LedgerGateway.Envelope.Request
import LedgerGateway.Gateway.Node

/-!
# The dispatcher

A request is read before the node is asked anything, so that one that cannot be understood never
reaches the node. What was understood is an `Inquiry`; each is answered by at most two questions.
-/

namespace LedgerGateway

/-- A request that was understood. -/
inductive Inquiry where
  | height
  | block (number : UInt64)
  | call (params : TransactionParams) (destination : String)
  | submit (params : TransactionParams)
  /-- A transaction and its receipt, with proofs. -/
  | proof (hash : String)
  deriving DecidableEq, Repr

/-- Why a request is not understood. -/
inductive RequestError where
  | unknownKind (type : Int32)
  | malformedHeight (length : Nat)
  /-- The data is that of no call or transaction. -/
  | malformedParams (cause : Json.ReadError)
  /-- A call does not say where it goes. -/
  | noDestination
  | malformedHash (fault : Text.Utf8.Fault)
  | emptyHash
  deriving DecidableEq, Repr

/-- The wording of a request that is not understood. -/
def RequestError.message : RequestError → String
  | unknownKind type => "Unrecognized request type " ++ Text.signedDecimal type.toInt
  | malformedHeight length => "Malformed block number of " ++ Text.decimal length ++ " bytes"
  | malformedParams cause => "Malformed transaction params: " ++ cause.message
  | noDestination => "Call has no destination"
  | malformedHash fault => "Malformed transaction hash: " ++ fault.message
  | emptyHash => "Empty transaction hash"

namespace Inquiry

/-- The kind of request that an inquiry comes from. -/
def kind : Inquiry → RequestKind
  | height => .getBlockNumber
  | block _ => .getBlockByNumber
  | call .. => .call
  | submit _ => .sendTransaction
  | proof _ => .getTransactionProof

def readParams (data : Bytes) : Except RequestError TransactionParams :=
  (TransactionParams.ofBytes data).mapError .malformedParams

def readHash (data : Bytes) : Except RequestError String := do
  let text ← (Text.Utf8.decode data).mapError .malformedHash
  let hash := Text.trim text
  if hash.isEmpty then .error .emptyHash else .ok hash

def ofRequest (r : Request) : Except RequestError Inquiry :=
  match r.kind? with
  | none => .error (.unknownKind r.type)
  | some .getBlockNumber => .ok height
  | some .getBlockByNumber => match BlockNumber.decode? r.data with
    | some number => .ok (block number)
    | none => .error (.malformedHeight r.data.length)
  | some .call => do
    let params ← readParams r.data
    match params.destination with
    | some destination => .ok (call params destination)
    | none => .error .noDestination
  | some .sendTransaction => (readParams r.data).map submit
  | some .getTransactionProof => (readHash r.data).map proof

end Inquiry

/-- Why an inquiry has no answer. -/
inductive InquiryFailure where
  | node (kind : RequestKind) (cause : ClientError)
  | blockNotFound (number : UInt64)
  /-- A submitted transaction has no receipt. -/
  | noReceipt
  | transactionNotFound (hash : String)
  | receiptNotFound (hash : String)
  deriving DecidableEq, Repr

/-- The status of a kind of request that the node fails. -/
def RequestKind.failureStatus : RequestKind → StatusCode
  | getBlockNumber => .handleGetBlockNumberFailed
  | getBlockByNumber => .handleGetBlockFailed
  | call => .handleCallRequestFailed
  | sendTransaction => .handleSendTransactionFailed
  | getTransactionProof => .unclassifiedError

namespace InquiryFailure

def status : InquiryFailure → StatusCode
  | node kind _ => kind.failureStatus
  | blockNotFound _ => .blockNotExist
  | noReceipt | receiptNotFound _ => .receiptNotExist
  | transactionNotFound _ => .transactionNotExist

def message : InquiryFailure → String
  | node _ cause => cause.message
  | blockNotFound number => "Block " ++ Text.decimal number.toNat ++ " not found"
  | noReceipt => "Transaction receipt not found"
  | transactionNotFound hash => "Transaction " ++ hash ++ " not found"
  | receiptNotFound hash => "Receipt of " ++ hash ++ " not found"

end InquiryFailure

namespace Node

/-- The sender of a call that names none. -/
def defaultSender : String := "0x1111111111111111111111111111111111111111"

def present {α : Type} (failure : InquiryFailure) : Option α → Exchange InquiryFailure α
  | some a => pure a
  | none => throw failure

/-- Answers an inquiry with the data of a response. -/
def answer (node : Node) (inquiry : Inquiry) : Exchange InquiryFailure Bytes := do
  let failed := InquiryFailure.node inquiry.kind
  match inquiry with
  | .height =>
    let height ← node.askHeight.adapt failed
    pure (BlockNumber.encode height)
  | .block number =>
    let block? ← (node.askBlock number false).adapt failed
    present (.blockNotFound number) block?
  | .call params destination =>
    let sender := params.sender.getD defaultSender
    let output ← (node.askCall sender destination params.data).adapt failed
    pure output.json.bytes
  | .submit params =>
    let receipt? ← (node.askSubmit params.data).adapt failed
    let receipt ← present .noReceipt (receipt?.filter (!·.isEmpty))
    pure receipt.json.bytes
  | .proof hash =>
    let transaction? ← (node.askTransaction hash).adapt failed
    let transaction ← present (.transactionNotFound hash) transaction?
    let receipt? ← (node.askReceipt hash).adapt failed
    let receipt ← present (.receiptNotFound hash) (receipt?.filter (!·.receipt.isEmpty))
    pure (TransactionProof.mk transaction receipt).json.bytes

/-- Handles a request to its end. -/
def handle (node : Node) (r : Request) : StateM History Response := do
  match Inquiry.ofRequest r with
  | .error e => pure (.failure .unrecognizedRequestType e.message)
  | .ok inquiry => match ← (node.answer inquiry).run with
    | .ok data => pure (.success data)
    | .error failure => pure (.failure failure.status failure.message)

end Node

/-! ## Trusted blocks -/

/-- Where blocks are trusted. -/
inductive BlockSource where
  | independent (block : History → UInt64 → Except ClientError Block)
  /-- The node itself, asked through the dispatcher. -/
  | node

def BlockSource.askBlock (source : BlockSource) (node : Node) (number : UInt64) :
    Exchange ClientError Block :=
  match source with
  | .independent block => .ask (.trustedBlock number) (block · number)
  | .node => do
    let response ← node.handle (.ofKind .getBlockByNumber (BlockNumber.encode number))
    if response.isSuccess then
      match Block.ofLedger response.data with
      | .ok block => pure block
      | .error e => throw (.invalidResponse e.message)
    else
      throw (.rejected ("error code " ++ Text.signedDecimal response.errorCode.toInt ++ ": " ++
        response.message))

end LedgerGateway

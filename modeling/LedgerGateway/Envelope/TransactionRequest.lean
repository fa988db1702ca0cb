import LedgerGateway.Json.Decoder
import LedgerGateway.StatusCode

/-!
# Requests and responses about transactions

A request names a method and its arguments. No arguments and an empty list of them are two different
requests. Options put a request into a distributed transaction by its id and its place in it.
-/

namespace LedgerGateway

open Json

/-- The distributed transaction that a request belongs to. -/
structure TransactionOptions where
  xaTransactionId : Option String := none
  xaTransactionSeq : Option UInt64 := none
  deriving DecidableEq, Repr, Inhabited

namespace TransactionOptions

/-- The id and the place, unless the id is empty or `0`, which both mean that there is no distributed
transaction. -/
def xa (o : TransactionOptions) : Option (String × UInt64) :=
  match o.xaTransactionId with
  | some id => if id.isEmpty || id == "0" then none else some (id, o.xaTransactionSeq.getD 0)
  | none => none

def decoder : Decoder TransactionOptions := fun node => do
  let slot ← openRecord [["XA_TRANSACTION_ID"], ["XA_TRANSACTION_SEQ"]] node
  pure {
    xaTransactionId := ← (slot 0).orElse none (asOption asText)
    xaTransactionSeq := ← (slot 1).orElse none (asOption asUInt64) }

/-- Writes options; what is missing is left out. -/
def json (o : TransactionOptions) : Json :=
  .object (member? "XA_TRANSACTION_ID" .text o.xaTransactionId ++
    member? "XA_TRANSACTION_SEQ" ofUInt64 o.xaTransactionSeq)

end TransactionOptions

/-- A method with its arguments. -/
structure TransactionRequest where
  method : String := ""
  /-- The arguments, if any are given. -/
  args : Option (List String) := none
  options : TransactionOptions := {}
  deriving DecidableEq, Repr, Inhabited

namespace TransactionRequest

def decoder : Decoder TransactionRequest := fun node => do
  let slot ← openRecord [["method"], ["args"], ["options"]] node
  pure {
    method := ← (slot 0).required "method" asText
    args := ← (slot 1).orElse none (asOption (asList asText))
    options := ← (slot 2).orElse {} TransactionOptions.decoder }

def json (r : TransactionRequest) : Json :=
  .object [("method", .text r.method), ("args", ofOption ofTexts r.args), ("options", r.options.json)]

end TransactionRequest

/-- The outcome of a call or a transaction. The code is zero only if the execution succeeded. -/
structure TransactionResponse where
  /-- Zero, or the status of the execution. -/
  errorCode : Int32 := 0
  /-- A text about the outcome. -/
  message : String := ""
  result : List String := []
  hash : String := ""
  blockNumber : UInt64 := 0
  deriving DecidableEq, Repr, Inhabited

namespace TransactionResponse

/-- The text of every success. -/
def successMessage : String := "Success"

/-- A success with the values returned. -/
def success (result : List String) : TransactionResponse :=
  { errorCode := StatusCode.success.code, message := successMessage, result }

/-- A failed execution. -/
def reverted (status : Int32) (message : String) : TransactionResponse :=
  { errorCode := status, message }

/-- The execution succeeded. -/
def isSuccess (r : TransactionResponse) : Bool := r.errorCode == StatusCode.success.code

def decoder : Decoder TransactionResponse := fun node => do
  let slot ← openRecord [["errorCode"], ["message"], ["result"], ["hash"], ["blockNumber"]] node
  pure {
    errorCode := ← (slot 0).required "errorCode" asInt32
    message := ← (slot 1).required "message" asText
    result := ← (slot 2).orElse [] (asList asText)
    hash := ← (slot 3).orElse "" asText
    blockNumber := ← (slot 4).orElse 0 asUInt64 }

def json (r : TransactionResponse) : Json :=
  .object [("errorCode", ofInt32 r.errorCode), ("message", .text r.message),
    ("result", ofTexts r.result), ("hash", .text r.hash), ("blockNumber", ofUInt64 r.blockNumber)]

end TransactionResponse

/-- A transaction whose place in a block has been proven. -/
structure VerifiedTransaction where
  blockNumber : UInt64
  transactionHash : String
  accountIdentity : String
  resource : String
  isByProxy : Bool
  request : TransactionRequest
  response : TransactionResponse
  receiptBytes : Bytes
  /-- The transaction as it was received. -/
  txBytes : Bytes
  deriving DecidableEq, Repr, Inhabited

namespace VerifiedTransaction

def decoder : Decoder VerifiedTransaction := fun node => do
  let slot ← openRecord [["blockNumber"], ["transactionHash"], ["accountIdentity"], ["resource"],
    ["isByProxy"], ["transactionRequest"], ["transactionResponse"], ["receiptBytes"], ["txBytes"]] node
  pure {
    blockNumber := ← (slot 0).required "blockNumber" asUInt64
    transactionHash := ← (slot 1).required "transactionHash" asText
    accountIdentity := ← (slot 2).required "accountIdentity" asText
    resource := ← (slot 3).required "resource" asText
    isByProxy := ← (slot 4).required "isByProxy" asBool
    request := ← (slot 5).required "transactionRequest" TransactionRequest.decoder
    response := ← (slot 6).required "transactionResponse" TransactionResponse.decoder
    receiptBytes := ← (slot 7).required "receiptBytes" asByteList
    txBytes := ← (slot 8).required "txBytes" asByteList }

def json (t : VerifiedTransaction) : Json :=
  .object [("blockNumber", ofUInt64 t.blockNumber), ("transactionHash", .text t.transactionHash),
    ("accountIdentity", .text t.accountIdentity), ("resource", .text t.resource),
    ("isByProxy", .bool t.isByProxy), ("transactionRequest", t.request.json),
    ("transactionResponse", t.response.json), ("receiptBytes", ofBytes t.receiptBytes),
    ("txBytes", ofBytes t.txBytes)]

end VerifiedTransaction

end LedgerGateway

import LedgerGateway.Envelope.TransactionRequest
import LedgerGateway.Bytes.Hex
import LedgerGateway.Json.Printer

/-!
# The data of calls and transactions

`CallPayload` says how a call was built: whether it is call data or a signed transaction, and whether
it goes to the contract itself or to the proxy, in which case it carries a route. `TransactionParams`
is the flat form in which it travels together with the request it was built from.
-/

namespace LedgerGateway

open Json

/-- How a payload was built. -/
inductive SubType where
  /-- Call data for the contract. -/
  | call
  /-- A signed transaction for the contract. -/
  | sendTx
  | callByProxy
  /-- A signed transaction for the proxy. -/
  | sendTxByProxy
  deriving DecidableEq, Repr

namespace SubType

def isByProxy : SubType → Bool
  | .callByProxy | .sendTxByProxy => true
  | .call | .sendTx => false

/-- It is a signed transaction. -/
def isSend : SubType → Bool
  | .sendTx | .sendTxByProxy => true
  | .call | .callByProxy => false

def name : SubType → String
  | .call => "CALL"
  | .sendTx => "SEND_TX"
  | .callByProxy => "CALL_BY_PROXY"
  | .sendTxByProxy => "SEND_TX_BY_PROXY"

def ofName? (name : String) : Option SubType :=
  [call, sendTx, callByProxy, sendTxByProxy].find? (·.name == name)

def decoder : Decoder SubType := asName ofName?

def json (s : SubType) : Json := .text s.name

end SubType

/-- Where a call through the proxy leads. -/
structure ProxyRoute where
  resource : String := ""
  xaTransactionId : Option String := none
  xaTransactionSeq : UInt64 := 0
  deriving DecidableEq, Repr, Inhabited

/-- A payload, tagged by how it was built. -/
inductive CallPayload where
  | call (data : Bytes)
  /-- A signed transaction for the contract. -/
  | sendTx (signed : Bytes)
  | callByProxy (data : Bytes) (abi : Option String) (route : ProxyRoute)
  | sendTxByProxy (signed : Bytes) (abi : Option String) (route : ProxyRoute)
  deriving DecidableEq, Repr

namespace CallPayload

/-- How it was built. -/
def subType : CallPayload → SubType
  | .call .. => .call
  | .sendTx .. => .sendTx
  | .callByProxy .. => .callByProxy
  | .sendTxByProxy .. => .sendTxByProxy

/-- The call data or the signed transaction. -/
def bytes : CallPayload → Bytes
  | .call data | .callByProxy data .. => data
  | .sendTx signed | .sendTxByProxy signed .. => signed

/-- The interface of the resource behind the proxy. -/
def abi? : CallPayload → Option String
  | .callByProxy _ abi _ | .sendTxByProxy _ abi _ => abi
  | .call _ | .sendTx _ => none

def route? : CallPayload → Option ProxyRoute
  | .callByProxy _ _ route | .sendTxByProxy _ _ route => some route
  | .call _ | .sendTx _ => none

end CallPayload

/-- The data of a call or a transaction as it travels. -/
structure TransactionParams where
  request : TransactionRequest
  /-- The call data or the signed transaction. -/
  data : Bytes
  subType : SubType
  /-- The interface of the resource. -/
  abi : Option String := none
  sender : Option String := none
  destination : Option String := none
  resource : Option String := none
  /-- The distributed transaction of the route. -/
  xaTransactionId : Option String := none
  xaTransactionSeq : Option UInt64 := none
  deriving DecidableEq, Repr

namespace TransactionParams

/-- The flat form of a payload. -/
def ofPayload (request : TransactionRequest) (payload : CallPayload) : TransactionParams where
  request := request
  data := payload.bytes
  subType := payload.subType
  abi := payload.abi?
  resource := payload.route?.map (·.resource)
  xaTransactionId := payload.route?.bind (·.xaTransactionId)
  xaTransactionSeq := payload.route?.map (·.xaTransactionSeq)

/-- The route that the flat form holds. -/
def route (p : TransactionParams) : ProxyRoute :=
  ⟨p.resource.getD "", p.xaTransactionId, p.xaTransactionSeq.getD 0⟩

/-- The payload that the flat form holds. -/
def payload (p : TransactionParams) : CallPayload :=
  match p.subType with
  | .call => .call p.data
  | .sendTx => .sendTx p.data
  | .callByProxy => .callByProxy p.data p.abi p.route
  | .sendTxByProxy => .sendTxByProxy p.data p.abi p.route

/-- Reads bytes: digits behind an optional mark, or a list of numbers. -/
def dataDecoder : Decoder Bytes
  | .text (some s) => match Hex.decode (Hex.stripMark s) with
    | .ok bytes => .ok bytes
    | .error e => .error (.refused e.message)
  | node => asByteList node

def decoder : Decoder TransactionParams := fun node => do
  let slot ← openRecord [["transactionRequest"], ["data"], ["subType"], ["abi"], ["from"], ["to"],
    ["resource"], ["xaTransactionID"], ["xaTransactionSeq"]] node
  pure {
    request := ← (slot 0).required "transactionRequest" TransactionRequest.decoder
    data := ← (slot 1).required "data" dataDecoder
    subType := ← (slot 2).required "subType" SubType.decoder
    abi := ← (slot 3).orElse none (asOption asText)
    sender := ← (slot 4).orElse none (asOption asText)
    destination := ← (slot 5).orElse none (asOption asText)
    resource := ← (slot 6).orElse none (asOption asText)
    xaTransactionId := ← (slot 7).orElse none (asOption asText)
    xaTransactionSeq := ← (slot 8).orElse none (asOption asUInt64) }

/-- Writes the flat form; what is missing is left out. -/
def json (p : TransactionParams) : Json :=
  .object <|
    [("transactionRequest", p.request.json), ("data", .text (Hex.encode p.data)),
     ("subType", p.subType.json)] ++
    member? "abi" .text p.abi ++ member? "from" .text p.sender ++ member? "to" .text p.destination ++
    member? "resource" .text p.resource ++ member? "xaTransactionID" .text p.xaTransactionId ++
    member? "xaTransactionSeq" ofUInt64 p.xaTransactionSeq

def toBytes (p : TransactionParams) : Bytes := p.json.bytes

/-- The flat form in bytes that travelled. -/
def ofBytes (data : Bytes) : Except ReadError TransactionParams := decodeBytes decoder data

end TransactionParams

end LedgerGateway

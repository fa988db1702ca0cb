import LedgerGateway.Call.Error
import LedgerGateway.Envelope.Request
import LedgerGateway.Gateway.Node
import LedgerGateway.Proof.Merkle
import LedgerGateway.Transaction

/-!
# What can go wrong in the gateway

Each error has a status for the router and a wording.
-/

namespace LedgerGateway

/-- Why the gateway does not answer. -/
inductive GatewayError where
  /-- Call data cannot be built or understood. -/
  | call (cause : CallError)
  /-- A transaction cannot be built, signed or read. -/
  | transaction (cause : TransactionError)
  | proof (cause : ProofError)
  /-- The node does not answer. -/
  | client (cause : ClientError)
  /-- The data of a response is not what it should be. -/
  | malformedData (cause : Json.ReadError)
  /-- A response reports a failure. -/
  | reported (status : StatusCode) (message : String)
  | accountMissing
  /-- No source of trusted blocks is given. -/
  | blockSourceMissing
  | emptyMethod
  /-- The data of a request is that of no call or transaction. -/
  | malformedParams (cause : Json.ReadError)
  /-- A request through the proxy brings no interface. -/
  | interfaceMissing
  | addressUnknown (resource : String)
  | proxyMissing
  | notRegistered (name : String)
  | noContractAt (address : Option Address)
  /-- The height has no bytes or too many. -/
  | malformedHeight (length : Nat)
  /-- The height leaves no room for a block limit. -/
  | noRoomForLimit (height : UInt64)
  | invalidAddress (text : String) (cause : Address.Error)
  | emptyContractName
  /-- A contract to deploy has no code. -/
  | emptyBinary
  | deploymentFailed (message : String)
  /-- A deployment reports no address. -/
  | noContractAddress (transactionHash : String)
  /-- A trusted block cannot be had. -/
  | headerUnavailable (cause : ClientError)
  /-- A receipt brings no proof of itself. -/
  | receiptProofMissing
  /-- A receipt brings no proof of its transaction. -/
  | transactionProofMissing
  | brokenReceiptProof (cause : ProofError)
  | brokenTransactionProof (cause : ProofError)
  /-- The proof of a receipt leads to another root. -/
  | receiptNotProven (transactionHash : String) (height : UInt64)
  /-- The proof of a transaction leads to another root. -/
  | transactionNotProven (transactionHash : String) (height : UInt64)

/-- The status of a kind of errors about call data. -/
def CallError.Kind.status : CallError.Kind → StatusCode
  | methodNotExist => .methodNotExist
  | invalidParameter => .invalidParameter
  | interfaceNotExist => .abiNotExist
  | encode => .encodeAbiFailed
  | decode => .unclassifiedError

def TransactionError.status : TransactionError → StatusCode
  | invalidBlockLimit _ | decode _ => .invalidParameter
  | signing _ => .unclassifiedError

namespace GatewayError

def status : GatewayError → StatusCode
  | call cause => cause.kind.status
  | transaction cause => cause.status
  | reported status _ => status
  | accountMissing | blockSourceMissing | emptyMethod | malformedParams _ | interfaceMissing
  | addressUnknown _ | proxyMissing | invalidAddress .. | emptyContractName | emptyBinary =>
    .invalidParameter
  | notRegistered _ | noContractAt _ => .abiNotExist
  | noRoomForLimit _ => .handleSendTransactionFailed
  | deploymentFailed _ => .sendTransactionNotSuccessStatus
  | headerUnavailable _ => .fetchBlockHeaderFailed
  | receiptProofMissing | brokenReceiptProof _ | receiptNotProven .. => .receiptProofVerifyFailed
  | transactionProofMissing | brokenTransactionProof _ | transactionNotProven .. =>
    .transactionProofVerifyFailed
  | proof _ | client _ | malformedData _ | malformedHeight _ | noContractAddress _ =>
    .unclassifiedError

def message : GatewayError → String
  | call cause => cause.message
  | transaction cause => cause.message
  | proof cause | brokenReceiptProof cause | brokenTransactionProof cause => cause.message
  | client cause | headerUnavailable cause => cause.message
  | malformedData cause => cause.message
  | reported _ message | deploymentFailed message => message
  | accountMissing => "Account is missing"
  | blockSourceMissing => "Block manager is missing"
  | emptyMethod => "Method is empty"
  | malformedParams cause => "Malformed transaction params: " ++ cause.message
  | interfaceMissing => "Proxy request carries no ABI"
  | addressUnknown resource => "Address of " ++ resource ++ " is unknown"
  | proxyMissing => "Proxy contract is not configured"
  | notRegistered name => "No ABI registered for " ++ name
  | noContractAt address =>
    "No ABI registered for address " ++ address.elim "None" fun a => "Some(" ++ a.hex ++ ")"
  | malformedHeight length => "Malformed block number of " ++ Text.decimal length ++ " bytes"
  | noRoomForLimit height =>
    "Block number " ++ Text.decimal height.toNat ++ " leaves no room for a block limit"
  | invalidAddress text cause => "Invalid address '" ++ text ++ "': " ++ cause.message
  | emptyContractName => "Contract name is empty"
  | emptyBinary => "Contract binary is empty"
  | noContractAddress hash => "Deployment " ++ hash ++ " reported no contract address"
  | receiptProofMissing => "Receipt carries no receipt proof"
  | transactionProofMissing => "Receipt carries no transaction proof"
  | receiptNotProven hash height =>
    "Receipt of " ++ hash ++ " does not match receipts root of block " ++ Text.decimal height.toNat
  | transactionNotProven hash height =>
    "Transaction " ++ hash ++ " does not match transactions root of block " ++
      Text.decimal height.toNat

/-- An error with its status in front. -/
def display (e : GatewayError) : String := e.status.display ++ ": " ++ e.message

/-- The failure that a response reports. A status that is unknown, or that means success, is replaced
by another. -/
def ofResponse (r : Response) (fallback : StatusCode) : GatewayError :=
  reported ((r.status?.filter (!·.isSuccess)).getD fallback) r.message

end GatewayError

end LedgerGateway

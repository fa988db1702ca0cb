import LedgerGateway.Text.Numeral

/-!
# Status codes

The closed set of outcomes that are reported to the router. Their numbers are stable: they travel in
every response.
-/

namespace LedgerGateway

/-- An outcome that is reported to the router. -/
inductive StatusCode where
  | success
  /-- A parameter is missing or malformed. -/
  | invalidParameter
  /-- The request cannot be understood. -/
  | unrecognizedRequestType
  /-- The proof of a transaction does not hold. -/
  | transactionProofVerifyFailed
  /-- The proof of a receipt does not hold. -/
  | receiptProofVerifyFailed
  /-- The node did not take a transaction. -/
  | handleSendTransactionFailed
  /-- The node did not answer a call. -/
  | handleCallRequestFailed
  /-- The node did not tell its height. -/
  | handleGetBlockNumberFailed
  /-- The node did not give a block. -/
  | handleGetBlockFailed
  /-- The node did not give a proof. -/
  | handleGetTransactionProofFailed
  /-- The node has no such receipt. -/
  | receiptNotExist
  /-- The node has no such transaction. -/
  | transactionNotExist
  /-- The node has no such block. -/
  | blockNotExist
  /-- The header of a block could not be had. -/
  | fetchBlockHeaderFailed
  /-- A call ended with a status other than zero. -/
  | callNotSuccessStatus
  /-- A transaction ended with a status other than zero. -/
  | sendTransactionNotSuccessStatus
  /-- No interface is registered for a contract. -/
  | abiNotExist
  /-- Arguments could not be encoded. -/
  | encodeAbiFailed
  /-- A contract has no such method. -/
  | methodNotExist
  | unclassifiedError
  deriving DecidableEq, Repr

namespace StatusCode

/-- All codes, in the order of their numbers. -/
def all : List StatusCode :=
  [.success, .invalidParameter, .unrecognizedRequestType, .transactionProofVerifyFailed,
   .receiptProofVerifyFailed, .handleSendTransactionFailed, .handleCallRequestFailed,
   .handleGetBlockNumberFailed, .handleGetBlockFailed, .handleGetTransactionProofFailed,
   .receiptNotExist, .transactionNotExist, .blockNotExist, .fetchBlockHeaderFailed,
   .callNotSuccessStatus, .sendTransactionNotSuccessStatus, .abiNotExist, .encodeAbiFailed,
   .methodNotExist, .unclassifiedError]

def code : StatusCode → Int32
  | .success => 0
  | .invalidParameter => 2000
  | .unrecognizedRequestType => 2001
  | .transactionProofVerifyFailed => 2010
  | .receiptProofVerifyFailed => 2011
  | .handleSendTransactionFailed => 2021
  | .handleCallRequestFailed => 2022
  | .handleGetBlockNumberFailed => 2023
  | .handleGetBlockFailed => 2024
  | .handleGetTransactionProofFailed => 2025
  | .receiptNotExist => 2030
  | .transactionNotExist => 2031
  | .blockNotExist => 2032
  | .fetchBlockHeaderFailed => 2040
  | .callNotSuccessStatus => 2041
  | .sendTransactionNotSuccessStatus => 2042
  | .abiNotExist => 2050
  | .encodeAbiFailed => 2051
  | .methodNotExist => 2052
  | .unclassifiedError => 2100

def name : StatusCode → String
  | .success => "Success"
  | .invalidParameter => "InvalidParameter"
  | .unrecognizedRequestType => "UnrecognizedRequestType"
  | .transactionProofVerifyFailed => "TransactionProofVerifyFailed"
  | .receiptProofVerifyFailed => "TransactionReceiptProofVerifyFailed"
  | .handleSendTransactionFailed => "HandleSendTransactionFailed"
  | .handleCallRequestFailed => "HandleCallRequestFailed"
  | .handleGetBlockNumberFailed => "HandleGetBlockNumberFailed"
  | .handleGetBlockFailed => "HandleGetBlockFailed"
  | .handleGetTransactionProofFailed => "HandleGetTransactionProofFailed"
  | .receiptNotExist => "TransactionReceiptNotExist"
  | .transactionNotExist => "TransactionNotExist"
  | .blockNotExist => "BlockNotExist"
  | .fetchBlockHeaderFailed => "FetchBlockHeaderFailed"
  | .callNotSuccessStatus => "CallNotSuccessStatus"
  | .sendTransactionNotSuccessStatus => "SendTransactionNotSuccessStatus"
  | .abiNotExist => "ABINotExist"
  | .encodeAbiFailed => "EncodeAbiFailed"
  | .methodNotExist => "MethodNotExist"
  | .unclassifiedError => "UnclassifiedError"

def ofCode? (code : Int32) : Option StatusCode := all.find? (·.code == code)

/-- The code means that all went well. -/
def isSuccess (s : StatusCode) : Bool := s == .success

/-- The name with the number. -/
def display (s : StatusCode) : String := s.name ++ "(" ++ Text.signedDecimal s.code.toInt ++ ")"

theorem ofCode?_code (s : StatusCode) : ofCode? s.code = some s := by cases s <;> decide

end StatusCode

end LedgerGateway

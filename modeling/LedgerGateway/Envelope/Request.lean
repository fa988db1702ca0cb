import LedgerGateway.Json.Decoder
import LedgerGateway.StatusCode

/-!
# Envelopes between router and gateway

A request has the number of its kind and data whose form depends on the kind; a response has the
number of a status, a text, and data. Heights travel as eight bytes.
-/

namespace LedgerGateway

open Json

/-- The kinds of request that are understood. -/
inductive RequestKind where
  /-- Run a method without a transaction. -/
  | call
  | sendTransaction
  | getBlockNumber
  | getBlockByNumber
  /-- Ask for a transaction and its receipt with their proofs. -/
  | getTransactionProof
  deriving DecidableEq, Repr

namespace RequestKind

def code : RequestKind → Int32
  | .call => 1000
  | .sendTransaction => 1001
  | .getBlockNumber => 1002
  | .getBlockByNumber => 1003
  | .getTransactionProof => 1004

def ofCode? (code : Int32) : Option RequestKind :=
  [call, sendTransaction, getBlockNumber, getBlockByNumber, getTransactionProof].find?
    (·.code == code)

def name : RequestKind → String
  | .call => "Call"
  | .sendTransaction => "SendTransaction"
  | .getBlockNumber => "GetBlockNumber"
  | .getBlockByNumber => "GetBlockByNumber"
  | .getTransactionProof => "GetTransactionProof"

theorem ofCode?_code (kind : RequestKind) : ofCode? kind.code = some kind := by
  cases kind <;> decide

end RequestKind

/-- What the router asks. The kind stays a number, so that an unknown one can be answered. -/
structure Request where
  type : Int32
  data : Bytes := []
  deriving DecidableEq, Repr

namespace Request

def ofKind (kind : RequestKind) (data : Bytes) : Request := ⟨kind.code, data⟩

def kind? (r : Request) : Option RequestKind := RequestKind.ofCode? r.type

def decoder : Decoder Request := fun node => do
  let slot ← openRecord [["type"], ["data"]] node
  pure {
    type := ← (slot 0).required "type" asInt32
    data := ← (slot 1).orElse [] asByteList }

def json (r : Request) : Json := .object [("type", ofInt32 r.type), ("data", ofBytes r.data)]

end Request

/-- What the router is told. -/
structure Response where
  errorCode : Int32
  /-- A text about the outcome. -/
  message : String
  data : Bytes := []
  deriving DecidableEq, Repr

namespace Response

def success (data : Bytes) : Response := ⟨StatusCode.success.code, "Success", data⟩

def failure (status : StatusCode) (message : String) : Response := ⟨status.code, message, []⟩

/-- All went well. -/
def isSuccess (r : Response) : Bool := r.errorCode == StatusCode.success.code

/-- The status, if its number is known. -/
def status? (r : Response) : Option StatusCode := StatusCode.ofCode? r.errorCode

def decoder : Decoder Response := fun node => do
  let slot ← openRecord [["errorCode"], ["message"], ["data"]] node
  pure {
    errorCode := ← (slot 0).required "errorCode" asInt32
    message := ← (slot 1).required "message" asText
    data := ← (slot 2).orElse [] asByteList }

def json (r : Response) : Json :=
  .object [("errorCode", ofInt32 r.errorCode), ("message", .text r.message), ("data", ofBytes r.data)]

end Response

namespace BlockNumber

/-- A height as eight bytes. -/
def encode (number : UInt64) : Bytes := Bytes.fixed 8 number.toNat

/-- The height that one to eight bytes write. -/
def decode? (data : Bytes) : Option UInt64 :=
  if data.isEmpty || 8 < data.length then none else some (Bytes.toNat data).toUInt64

end BlockNumber

end LedgerGateway

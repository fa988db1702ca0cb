import LedgerGateway.Call.Method

/-!
# Calls through the proxy

The proxy is a contract that forwards calls to others. Calls that belong to a distributed transaction
name the path of the resource and the signature of the method, and carry the arguments without a
selector; all others name the contract and carry its call data whole.
-/

namespace LedgerGateway

open Abi

inductive ProxyMethod where
  /-- A transaction that belongs to a distributed one. -/
  | sendTransaction
  /-- A call that belongs to a distributed transaction. -/
  | constantCall
  | sendTransactionWithoutXa
  | constantCallWithoutXa
  deriving DecidableEq, Repr

namespace ProxyMethod

/-- All methods, in the order in which selectors are compared. -/
def all : List ProxyMethod :=
  [sendTransaction, constantCall, sendTransactionWithoutXa, constantCallWithoutXa]

def name : ProxyMethod → String
  | sendTransaction => "sendTransaction"
  | constantCall => "constantCall"
  | sendTransactionWithoutXa => "sendTransactionWithoutXa"
  | constantCallWithoutXa => "constantCallWithoutXa"

/-- The types of a method's parameters. -/
def types : ProxyMethod → List Ty
  | sendTransaction => [.string, .string, .uint 256, .string, .string, .bytes]
  | constantCall => [.string, .string, .string, .bytes]
  | sendTransactionWithoutXa => [.string, .string, .bytes]
  | constantCallWithoutXa => [.string, .bytes]

def signature (m : ProxyMethod) : String :=
  m.name ++ "(" ++ ",".intercalate (Ty.displayAll m.types) ++ ")"

end ProxyMethod

inductive ProxyCall where
  /-- A transaction that belongs to a distributed one. -/
  | sendTransaction (uid xaTransactionId : String) (xaTransactionSeq : UInt64)
      (path methodSignature : String) (arguments : Bytes)
  /-- A call that belongs to a distributed transaction. -/
  | constantCall (xaTransactionId path methodSignature : String) (arguments : Bytes)
  | sendTransactionWithoutXa (uid name : String) (payload : Bytes)
  | constantCallWithoutXa (name : String) (payload : Bytes)
  deriving DecidableEq, Repr

namespace ProxyCall

def method : ProxyCall → ProxyMethod
  | sendTransaction .. => .sendTransaction
  | constantCall .. => .constantCall
  | sendTransactionWithoutXa .. => .sendTransactionWithoutXa
  | constantCallWithoutXa .. => .constantCallWithoutXa

/-- The path or the name of the contract that the call is for. -/
def target : ProxyCall → String
  | sendTransaction _ _ _ path _ _ | constantCall _ path _ _ => path
  | sendTransactionWithoutXa _ name _ | constantCallWithoutXa name _ => name

/-- The distributed transaction that the call belongs to. -/
def xaTransactionId? : ProxyCall → Option String
  | sendTransaction _ id _ _ _ _ | constantCall id _ _ _ => some id
  | sendTransactionWithoutXa .. | constantCallWithoutXa .. => none

/-- The distributed transaction and the place in it; a call that changes nothing has none but zero. -/
def xa? : ProxyCall → Option (String × UInt64)
  | sendTransaction _ id seq _ _ _ => some (id, seq)
  | constantCall id _ _ _ => some (id, 0)
  | sendTransactionWithoutXa .. | constantCallWithoutXa .. => none

/-! ## Call data -/

def values : ProxyCall → List Value
  | sendTransaction uid id seq path signature arguments =>
    [.string uid, .string id, .uint (BitVec.ofNat 256 seq.toNat), .string path, .string signature,
     .bytes arguments]
  | constantCall id path signature arguments =>
    [.string id, .string path, .string signature, .bytes arguments]
  | sendTransactionWithoutXa uid name payload => [.string uid, .string name, .bytes payload]
  | constantCallWithoutXa name payload => [.string name, .bytes payload]

def encode (p : CryptoProfile) (c : ProxyCall) : Bytes :=
  p.callData c.method.signature (Value.encodeAll c.values)

def ofValues : ProxyMethod → List Value → Except CallError ProxyCall
  | .sendTransaction,
    [.string uid, .string id, .uint seq, .string path, .string signature, .bytes arguments] =>
    if seq.toNat < UInt64.size then
      .ok (sendTransaction uid id seq.toNat.toUInt64 path signature arguments)
    else .error (.sequenceTooLarge seq)
  | .constantCall, [.string id, .string path, .string signature, .bytes arguments] =>
    .ok (constantCall id path signature arguments)
  | .sendTransactionWithoutXa, [.string uid, .string name, .bytes payload] =>
    .ok (sendTransactionWithoutXa uid name payload)
  | .constantCallWithoutXa, [.string name, .bytes payload] => .ok (constantCallWithoutXa name payload)
  | _, _ => .error .unexpectedValues

def decode (p : CryptoProfile) (data : Bytes) : Except CallError ProxyCall := do
  if data.length < selectorLength then .error .noProxySelector
  else match ProxyMethod.all.find? (p.isCallOf ·.signature data) with
    | none => .error (.noProxyMethod (data.take selectorLength))
    | some m => match Ty.decodeAll m.types (data.drop selectorLength) with
      | .error cause => .error (.invalidProxyPayload cause)
      | .ok values => ofValues m values

end ProxyCall

/-! ## What is called behind the proxy -/

/-- A method that is called behind the proxy. -/
structure UnwrappedCall where
  /-- The path or the name of the contract. -/
  target : String
  method : String
  /-- The arguments; a method that takes nothing has none. -/
  arguments : Option (List String)
  deriving DecidableEq, Repr

namespace UnwrappedCall

/-- The function and its arguments that a call of the proxy forwards. -/
def inner (p : CryptoProfile) (i : Interface) :
    ProxyCall → Except CallError (Function × Option (List String))
  | .sendTransaction _ _ _ _ signature arguments | .constantCall _ _ signature arguments => do
    let f ← i.functionSigned signature
    if f.inputs.isEmpty then pure (f, none)
    else do pure (f, some (← Arguments.decode f.inputs arguments))
  | .sendTransactionWithoutXa _ _ payload | .constantCallWithoutXa _ payload => do
    let f ← i.functionOfCall p payload
    pure (f, ← f.decodeCall p payload)

/-- What is called behind the proxy, told by the interface of the contract there. -/
def ofCall (p : CryptoProfile) (interface? : Option Interface) (data : Bytes) :
    Except CallError UnwrappedCall := do
  match interface? with
  | none => .error .interfaceRequired
  | some i => do
    let call ← ProxyCall.decode p data
    let (f, arguments) ← inner p i call
    pure ⟨call.target, f.name, arguments⟩

end UnwrappedCall

namespace ProxyOutput

/-- The output of the proxy around that of the contract. -/
def encode (output : Bytes) : Bytes := Value.encodeAll [.bytes output]

/-- The output of the contract in that of the proxy; no data at all is nothing. -/
def decode (output : Bytes) : Except CallError Bytes :=
  if output.isEmpty then .ok []
  else match Ty.decodeAll [.bytes] output with
    | .error cause => .error (.invalidProxyPayload cause)
    | .ok [.bytes b] => .ok b
    | .ok _ => .error .unexpectedValues

end ProxyOutput

end LedgerGateway

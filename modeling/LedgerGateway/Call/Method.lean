import LedgerGateway.Account.Basic
import LedgerGateway.Call.Arguments

/-!
# Calls of methods

Call data is the selector of a signature and the encoded arguments. Without an interface there are two
shapes: a call without arguments names `method()` and one with any list of them `method(string[])`,
so that no list and an empty list stay apart. With an interface the function says how its arguments
are encoded.
-/

namespace LedgerGateway

open Abi

/-- How many bytes a selector has. -/
def selectorLength : Nat := 4

/-- The selector of a signature in front of a body. -/
def CryptoProfile.callData (p : CryptoProfile) (signature : String) (body : Bytes) : Bytes :=
  (p.selector signature).1 ++ body

/-- The data starts with the selector of a signature. -/
def CryptoProfile.isCallOf (p : CryptoProfile) (signature : String) (data : Bytes) : Bool :=
  data.take selectorLength == (p.selector signature).1

/-! ## Lists of texts -/

namespace TextList

/-- The texts of values that are all texts. -/
def ofValues? : List Value → Option (List String)
  | [] => some []
  | .string s :: rest => (ofValues? rest).map (s :: ·)
  | _ :: _ => none

def encode (texts : List String) : Bytes := Value.encodeAll [.array (texts.map .string)]

/-- The list of texts in an encoding. -/
def decode (data : Bytes) : Except CallError (List String) :=
  match Ty.decodeAll [.array .string] data with
  | .error cause => .error (.invalidTexts cause)
  | .ok [.array items] => match ofValues? items with
    | some texts => .ok texts
    | none => .error .unexpectedValues
  | .ok _ => .error .unexpectedValues

end TextList

/-! ## Calls without an interface -/

namespace PlainCall

/-- The signature of a call without arguments. -/
def bareSignature (method : String) : String := method ++ "()"

/-- The signature of a call with arguments. -/
def listSignature (method : String) : String := method ++ "(string[])"

def signature (method : String) (arguments : Option (List String)) : String :=
  match arguments with
  | none => bareSignature method
  | some _ => listSignature method

/-- The data of a call. -/
def encode (p : CryptoProfile) (method : String) (arguments : Option (List String)) : Bytes :=
  p.callData (signature method arguments) ((arguments.map TextList.encode).getD [])

/-- The arguments in the data of a call. No data at all is a call without arguments. -/
def decode (p : CryptoProfile) (method : String) (data : Bytes) :
    Except CallError (Option (List String)) :=
  if data.isEmpty then .ok none
  else if data.length < selectorLength then .error (.shortPayload data.length)
  else if p.isCallOf (bareSignature method) data then .ok none
  else if p.isCallOf (listSignature method) data then
    (TextList.decode (data.drop selectorLength)).map some
  else .error (.foreignSelector (data.take selectorLength) method)

/-- What a call returned; no data at all is nothing. -/
def decodeOutput (output : Bytes) : Except CallError (Option (List String)) :=
  if output.isEmpty then .ok none else (TextList.decode output).map some

end PlainCall

/-! ## Calls by an interface -/

namespace Abi.Function

def encodeCall (p : CryptoProfile) (f : Function) (arguments : List String) :
    Except CallError Bytes :=
  (Arguments.encode f.inputs arguments).map (p.callData f.signature)

/-- The arguments in the data of a call; a function that takes nothing has none. -/
def decodeCall (p : CryptoProfile) (f : Function) (data : Bytes) :
    Except CallError (Option (List String)) :=
  if data.length < selectorLength || !p.isCallOf f.signature data then
    .error (.notACallOf f.signature)
  else if f.inputs.isEmpty then .ok none
  else (Arguments.decode f.inputs (data.drop selectorLength)).map some

/-- What a call returned. Where nothing is expected or nothing came there is nothing. -/
def decodeOutput (f : Function) (output : Bytes) : Except CallError (List String) :=
  if f.outputs.isEmpty || output.isEmpty then .ok [] else Arguments.decode f.outputs output

end Abi.Function

namespace Abi.Interface

def read (s : String) : Except CallError Interface := (parse s).mapError .invalidInterface

/-- The first function whose selector the data starts with. -/
def functionOfCall (p : CryptoProfile) (i : Interface) (data : Bytes) : Except CallError Function :=
  if data.length < selectorLength then .error .noSelector
  else match i.functions.find? (p.isCallOf ·.signature data) with
    | some f => .ok f
    | none => .error (.noFunctionSelected (data.take selectorLength))

/-- The function of a name. Of several the first that takes as many arguments, or else the first. -/
def functionNamed (i : Interface) (name : String) (argumentCount : Nat) :
    Except CallError Function :=
  match i.overloads name with
  | [] => .error (.noFunctionNamed name)
  | f :: rest => .ok (((f :: rest).find? (·.inputs.length == argumentCount)).getD f)

def functionSigned (i : Interface) (signature : String) : Except CallError Function :=
  match i.functions.find? (·.signature == signature) with
  | some f => .ok f
  | none => .error (.noFunctionSigned signature)

end Abi.Interface

/-! ## Reasons -/

namespace RevertReason

/-- The signature under which contracts report why they stopped. -/
def signature : String := "Error(string)"

/-- The output that reports a reason. -/
def encode (p : CryptoProfile) (reason : String) : Bytes :=
  p.callData signature (Value.encodeAll [.string reason])

/-- The reason that an output reports, if it does. -/
def decode? (p : CryptoProfile) (output : Bytes) : Option String :=
  if output.length < selectorLength || !p.isCallOf signature output then none
  else match Ty.decodeAll [.string] (output.drop selectorLength) with
    | .ok [.string reason] => some reason
    | _ => none

end RevertReason

end LedgerGateway

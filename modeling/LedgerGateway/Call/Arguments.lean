import LedgerGateway.Abi.Encoding
import LedgerGateway.Abi.Interface
import LedgerGateway.Abi.Literal
import LedgerGateway.Call.Error

/-!
# Arguments

Arguments come and go as texts, one for each parameter; in call data they are encoded values.
-/

namespace LedgerGateway

/-- Bytes in a text as the ledger writes them: digits behind an optional mark, with blanks around. -/
def Hex.read (s : String) : Except CallError Bytes :=
  let text := Text.trim s
  (Hex.decode (Hex.stripMark text)).mapError (.invalidHex text)

namespace Arguments

open Abi

def types : List Parameter → Except CallError (List Ty)
  | [] => .ok []
  | p :: rest => do
    match p.type? with
    | some t => do
      let ts ← types rest
      pure (t :: ts)
    | none => .error (.unsupportedType p.typeText)

/-- The value that a text stands for. -/
def read (t : Ty) (argument : String) : Except CallError Value :=
  match t.read? argument with
  | some v => .ok v
  | none => .error (.unreadableArgument argument t)

/-- The values that texts stand for, one for each type. -/
def readEach : List Ty → List String → Except CallError (List Value)
  | t :: ts, argument :: arguments => do
    let v ← read t argument
    let vs ← readEach ts arguments
    pure (v :: vs)
  | _, _ => .ok []

/-- The values that arguments stand for. Their number is tested first, then the types, then each
text. -/
def values (parameters : List Parameter) (arguments : List String) :
    Except CallError (List Value) := do
  if parameters.length ≠ arguments.length then
    .error (.argumentCount parameters.length arguments.length)
  else readEach (← types parameters) arguments

def encode (parameters : List Parameter) (arguments : List String) : Except CallError Bytes :=
  (values parameters arguments).map Value.encodeAll

/-- The texts of encoded values. -/
def decode (parameters : List Parameter) (data : Bytes) : Except CallError (List String) := do
  let ts ← types parameters
  match Ty.decodeAll ts data with
  | .ok vs => pure (Value.renderAll vs)
  | .error cause => .error (.invalidParameters cause)

end Arguments

end LedgerGateway

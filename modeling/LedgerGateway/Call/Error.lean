import LedgerGateway.Abi.Decoding
import LedgerGateway.Json.Decoder

/-!
# What can go wrong with call data

Every error is a cause of its own. Causes fall into five kinds, of which the router learns.
-/

namespace LedgerGateway

/-- Why call data cannot be built or understood. -/
inductive CallError where
  | noFunctionNamed (name : String)
  | noFunctionSigned (signature : String)
  | noFunctionSelected (selector : Bytes)
  /-- Neither signature of the method gives the selector. -/
  | foreignSelector (selector : Bytes) (method : String)
  /-- The data does not start with the selector of the signature. -/
  | notACallOf (signature : String)
  | noProxyMethod (selector : Bytes)
  /-- There are more or fewer arguments than parameters. -/
  | argumentCount (expected actual : Nat)
  /-- The text of an interface is broken. -/
  | invalidInterface (cause : Json.ReadError)
  /-- The interface of the contract behind the proxy is not given. -/
  | interfaceRequired
  /-- Nobody knows the type of a parameter. -/
  | unsupportedType (typeText : String)
  /-- A text stands for no value of the type. -/
  | unreadableArgument (argument : String) (type : Abi.Ty)
  | invalidHex (text : String) (cause : Hex.Error)
  /-- Call data of a method is too short for a selector. -/
  | shortPayload (length : Nat)
  /-- Call data of a contract is too short for a selector. -/
  | noSelector
  /-- Call data of the proxy is too short for a selector. -/
  | noProxySelector
  /-- The data does not hold a list of texts. -/
  | invalidTexts (cause : Abi.DecodingError)
  /-- The data does not hold the parameters of the proxy's method. -/
  | invalidProxyPayload (cause : Abi.DecodingError)
  /-- The data does not hold the parameters of the function. -/
  | invalidParameters (cause : Abi.DecodingError)
  /-- The place in a distributed transaction has more than 64 bits. -/
  | sequenceTooLarge (sequence : Word)
  /-- The data holds other values than its types promise. -/
  | unexpectedValues

/-- The kinds of errors about call data. -/
inductive CallError.Kind where
  | methodNotExist
  /-- What was given cannot be used. -/
  | invalidParameter
  | interfaceNotExist
  /-- Arguments could not be encoded. -/
  | encode
  /-- Data could not be decoded. -/
  | decode
  deriving DecidableEq, Repr

namespace CallError

/-- The words in front of every error of a kind. -/
def Kind.lead : Kind → String
  | .methodNotExist => "Method not exist: "
  | .invalidParameter => "Invalid parameter: "
  | .interfaceNotExist => "ABI not exist: "
  | .encode => "Encode failed: "
  | .decode => "Decode failed: "

def kind : CallError → Kind
  | noFunctionNamed _ | noFunctionSigned _ | noFunctionSelected _ | foreignSelector .. | notACallOf _
  | noProxyMethod _ => .methodNotExist
  | argumentCount .. | invalidInterface _ | interfaceRequired => .invalidParameter
  | unsupportedType _ | unreadableArgument .. => .encode
  | invalidHex .. | shortPayload _ | noSelector | noProxySelector | invalidTexts _
  | invalidProxyPayload _ | invalidParameters _ | sequenceTooLarge _ | unexpectedValues => .decode

/-- The wording of an error behind that of its kind. -/
def detail : CallError → String
  | noFunctionNamed name => name
  | noFunctionSigned signature => signature
  | noFunctionSelected selector => "No function with selector " ++ Hex.encode selector
  | foreignSelector selector method =>
    "Selector " ++ Hex.encode selector ++ " matches no signature of '" ++ method ++ "'"
  | notACallOf signature => "Payload is not a call of " ++ signature
  | noProxyMethod selector => "Selector " ++ Hex.encode selector ++ " is not a proxy method"
  | argumentCount expected actual =>
    "Expected " ++ Text.decimal expected ++ " arguments, got " ++ Text.decimal actual
  | invalidInterface cause => "Invalid ABI: " ++ cause.message
  | interfaceRequired => "ABI is required to decode a proxy call"
  | unsupportedType typeText => "Unsupported type '" ++ typeText ++ "': unknown type"
  | unreadableArgument argument type =>
    "Cannot parse '" ++ argument ++ "' as " ++ type.display ++ ": parser error: no such value"
  | invalidHex text cause => "Invalid hex '" ++ text ++ "': " ++ cause.message
  | shortPayload length => "Payload of " ++ Text.decimal length ++ " bytes has no selector"
  | noSelector => "Payload has no selector"
  | noProxySelector => "Proxy payload has no selector"
  | invalidTexts cause => "Invalid string[] payload: " ++ cause.message
  | invalidProxyPayload cause => "Invalid proxy payload: " ++ cause.message
  | invalidParameters cause => cause.message
  | sequenceTooLarge sequence =>
    "Sequence " ++ Text.decimal sequence.toNat ++ " does not fit in u64"
  | unexpectedValues => "Unexpected payload"

def message (e : CallError) : String := e.kind.lead ++ e.detail

end CallError

end LedgerGateway

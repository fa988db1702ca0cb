import LedgerGateway.Bytes.Sized
import LedgerGateway.Configuration.Basic
import LedgerGateway.Configuration.Placeholder
import LedgerGateway.Text.Blank
import LedgerGateway.Toml.Reader

/-!
# Loading settings

A configuration text is read in four steps: placeholders are replaced, the tables are read, three
settings are taken from the environment where it has them, and the result is validated.
-/

namespace LedgerGateway

open Json

/-- Why settings are refused. -/
inductive Violation where
  | emptyGroupId
  | emptyChainId
  | invalidAddress (owner : String) (cause : Address.Error)
  /-- The text of an interface is no JSON. -/
  | invalidInterface (owner : String) (cause : ReadError)
  /-- The text of an interface is not a list. -/
  | interfaceNotAList (owner : String)
  | emptyResourceName
  /-- Two resources have one name. -/
  | duplicateResource (name : String)
  deriving DecidableEq, Repr

/-- The wording of refused settings. -/
def Violation.message : Violation → String
  | emptyGroupId => "group_id must not be empty"
  | emptyChainId => "chain_id must not be empty"
  | invalidAddress owner cause => "Invalid address for " ++ owner ++ ": " ++ cause.message
  | invalidInterface owner cause => "Invalid ABI for " ++ owner ++ ": " ++ cause.message
  | interfaceNotAList owner => "ABI for " ++ owner ++ " must be a JSON array"
  | emptyResourceName => "Resource name must not be empty"
  | duplicateResource name => "Duplicate resource '" ++ name ++ "'"

/-- Why settings could not be loaded. -/
inductive LoadError where
  | noFile
  | fileNotFound (path : String)
  | notText
  /-- A placeholder names a variable without a value. -/
  | variableNotFound (name : String)
  /-- The text breaks the grammar. -/
  | brokenText
  /-- A setting is missing or of another kind. -/
  | misshapen (cause : ShapeError)
  | refused (violation : Violation)
  deriving DecidableEq, Repr

/-- The wording of settings that could not be loaded. -/
def LoadError.message : LoadError → String
  | noFile => "File not found: No configuration file specified"
  | fileNotFound path => "File not found: " ++ path
  | notText => "IO error: stream did not contain valid UTF-8"
  | variableNotFound name => "Environment variable not found: " ++ name
  | brokenText => "Parse error: broken text"
  | misshapen cause => "Parse error: " ++ cause.message
  | refused violation => "Validation error: " ++ violation.message

/-! ## The format -/

/-- A family of cryptography in a configuration text: its name, or its name as the key of a table or
list that holds nothing. -/
def tomlCrypto : Decoder CryptoKind
  | .object [(some s, .object [])] | .object [(some s, .array [])] =>
    CryptoKind.decoder (.text (some s))
  | .text s => CryptoKind.decoder (.text s)
  | _ => .error (.unexpected "a name")

/-- Settings in a configuration text. A member that a record does not know is read all the same. A
record may come as a list, of which only as many items are looked at as there are fields. -/
def SettingsFormat.toml : SettingsFormat where
  openRecord fields
    | .array items => Json.openRecord fields (.array (items.take fields.length))
    | .object members =>
      let isKnown (key : Option String) : Bool := key.any fun key => fields.any (·.contains key)
      if members.all fun (key, node) => isKnown key || node.spellsTexts then
        Json.openRecord fields (.object members)
      else .error (.unexpected "a readable number")
    | node => Json.openRecord fields node
  crypto := tomlCrypto

namespace Settings

/-! ## Overrides -/

/-- The settings with those that the environment has, under names behind `lead`. -/
def override (env : Placeholder.Environment) (lead : String) (s : Settings) : Settings :=
  { s with chain :=
    { s.chain with
      groupId := (env (lead ++ "GROUP_ID")).getD s.chain.groupId
      chainId := (env (lead ++ "CHAIN_ID")).getD s.chain.chainId
      nodeVersion := (env (lead ++ "NODE_VERSION")).orElse fun _ => s.chain.nodeVersion } }

/-! ## Validation -/

def checkAddress (owner address : String) : Except Violation Unit :=
  match Address.read address with
  | .ok _ => .ok ()
  | .error cause => .error (.invalidAddress owner cause)

/-- The text of an interface has to be a JSON list, whatever is in it. -/
def checkInterface (owner abi : String) : Except Violation Unit :=
  match decodeText asJson abi with
  | .ok (.array _) => .ok ()
  | .ok _ => .error (.interfaceNotAList owner)
  | .error cause => .error (.invalidInterface owner cause)

/-- The resources, when those of the names in `seen` came before them. -/
def checkResources (seen : List String) : List ResourceSettings → Except Violation Unit
  | [] => .ok ()
  | r :: rest => do
    if Text.isAllBlank r.name then .error .emptyResourceName
    else if seen.contains r.name then .error (.duplicateResource r.name)
    else
      match r.address with
      | some address => checkAddress r.name address
      | none => .ok ()
      checkInterface r.name r.abi
      checkResources (r.name :: seen) rest

/-- Settings have to name a group and a chain, and what they say about contracts has to be readable.
The first violation counts. -/
def validate (s : Settings) : Except Violation Unit := do
  if Text.isAllBlank s.chain.groupId then .error .emptyGroupId
  else if Text.isAllBlank s.chain.chainId then .error .emptyChainId
  else
    match s.proxy with
    | some proxy =>
      checkAddress "proxy" proxy.address
      checkInterface "proxy" proxy.abi
    | none => .ok ()
    checkResources [] s.resources

end Settings

/-! ## Loading -/

/-- How settings are loaded. -/
structure Loader where
  path : Option String := none
  /-- What stands in front of the names of overriding variables. -/
  lead : String := "BCOS_STUB_"

namespace Loader

def loadText (l : Loader) (env : Placeholder.Environment) (s : String) :
    Except LoadError Settings := do
  let filled ← (Placeholder.substitute env s).mapError .variableNotFound
  match Toml.parse? filled with
  | none => .error .brokenText
  | some v => do
    let settings ← (Settings.decoder .toml v.node).mapError .misshapen
    let settings := settings.override env l.lead
    settings.validate.mapError .refused
    pure settings

/-- Loads settings from the file; `files` has the bytes of those that exist. -/
def load (l : Loader) (env : Placeholder.Environment) (files : String → Option Bytes) :
    Except LoadError Settings :=
  match l.path with
  | none => .error .noFile
  | some path => match files path with
    | none => .error (.fileNotFound path)
    | some bytes => match Text.Utf8.decode bytes with
      | .error _ => .error .notText
      | .ok s => l.loadText env s

end Loader

end LedgerGateway

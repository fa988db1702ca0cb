import LedgerGateway.CryptoKind

/-!
# Settings

What the gateway is told about the chain, the proxy and the contracts that are known from the start.
Settings come from a configuration text or as JSON; the two formats differ in a few points, which
`SettingsFormat` holds.
-/

namespace LedgerGateway

open Json

structure ChainSettings where
  name : String
  groupId : String := "group0"
  chainId : String := "chain0"
  /-- The family of its hashes and signatures. -/
  crypto : CryptoKind := .ecdsa
  nodeVersion : Option String := none
  deriving DecidableEq, Repr

structure ProxySettings where
  address : String
  abi : String
  deriving DecidableEq, Repr

/-- A contract. -/
structure ResourceSettings where
  name : String
  /-- The address of the contract, if it is known. -/
  address : Option String := none
  abi : String
  deriving DecidableEq, Repr

/-- All settings. -/
structure Settings where
  chain : ChainSettings
  /-- The proxy, if calls go through one. -/
  proxy : Option ProxySettings := none
  /-- The contracts that are known from the start. -/
  resources : List ResourceSettings := []
  deriving DecidableEq, Repr

/-! ## Reading -/

/-- What the format of the settings decides. -/
structure SettingsFormat where
  openRecord : Fields → Node → Except ShapeError (Nat → Slot)
  /-- Reads a family of cryptography. -/
  crypto : Decoder CryptoKind

def SettingsFormat.json : SettingsFormat := ⟨Json.openRecord, CryptoKind.decoder⟩

namespace ChainSettings

def decoder (format : SettingsFormat) : Decoder ChainSettings := fun node => do
  let slot ← format.openRecord
    [["name"], ["group_id"], ["chain_id"], ["crypto"], ["node_version"]] node
  pure {
    name := ← (slot 0).required "name" asText
    groupId := ← (slot 1).orElse "group0" asText
    chainId := ← (slot 2).orElse "chain0" asText
    crypto := ← (slot 3).orElse .ecdsa format.crypto
    nodeVersion := ← (slot 4).orElse none (asOption asText) }

def json (c : ChainSettings) : Json :=
  .object [("name", .text c.name), ("group_id", .text c.groupId), ("chain_id", .text c.chainId),
    ("crypto", c.crypto.json), ("node_version", ofOption .text c.nodeVersion)]

end ChainSettings

namespace ProxySettings

def decoder (format : SettingsFormat) : Decoder ProxySettings := fun node => do
  let slot ← format.openRecord [["address"], ["abi"]] node
  pure {
    address := ← (slot 0).required "address" asText
    abi := ← (slot 1).required "abi" asText }

def json (p : ProxySettings) : Json := .object [("address", .text p.address), ("abi", .text p.abi)]

end ProxySettings

namespace ResourceSettings

def decoder (format : SettingsFormat) : Decoder ResourceSettings := fun node => do
  let slot ← format.openRecord [["name"], ["address"], ["abi"]] node
  pure {
    name := ← (slot 0).required "name" asText
    address := ← (slot 1).orElse none (asOption asText)
    abi := ← (slot 2).required "abi" asText }

def json (r : ResourceSettings) : Json :=
  .object [("name", .text r.name), ("address", ofOption .text r.address), ("abi", .text r.abi)]

end ResourceSettings

namespace Settings

def decoder (format : SettingsFormat) : Decoder Settings := fun node => do
  let slot ← format.openRecord [["chain"], ["proxy"], ["resources"]] node
  pure {
    chain := ← (slot 0).required "chain" (ChainSettings.decoder format)
    proxy := ← (slot 1).orElse none (asOption (ProxySettings.decoder format))
    resources := ← (slot 2).orElse [] (asList (ResourceSettings.decoder format)) }

def json (s : Settings) : Json :=
  .object [("chain", s.chain.json), ("proxy", ofOption ProxySettings.json s.proxy),
    ("resources", .array (s.resources.map ResourceSettings.json))]

end Settings

end LedgerGateway

import LedgerGateway.Account.Profile
import LedgerGateway.Configuration.Basic
import LedgerGateway.Gateway.Dispatcher
import LedgerGateway.Gateway.Error
import LedgerGateway.NodeVersion
import LedgerGateway.Registry
import LedgerGateway.ResourcePath

/-!
# The gateway

A gateway serves one chain. It knows the family of cryptography, the names under which the chain is
addressed, the proxy if there is one, the version of the node, and the contracts that are registered.
-/

namespace LedgerGateway

structure Gateway where
  /-- The cryptography of the chain. -/
  profile : CryptoProfile
  groupId : String
  chainId : String
  proxyAddress : Option Address := none
  nodeVersion : Option String := none
  /-- The contracts that are known. -/
  registry : Registry := .empty

/-- For whom and on what a request acts. -/
structure RequestContext where
  account : Option Account
  path : ResourcePath
  blocks : Option BlockSource

/-- What is drawn at random for a transaction. -/
structure Draws where
  /-- The number that tells equal transactions apart. -/
  nonce : Word
  /-- The text that tells equal calls of the proxy apart. -/
  uid : String

/-- Reads an address between blanks. -/
def GatewayError.readAddress (text : String) : Except GatewayError Address :=
  (Address.read (Text.trim text)).mapError (.invalidAddress text)

namespace Gateway

/-- The name under which the proxy is registered. -/
def proxyName : String := "WeCrossProxy"

def register (g : Gateway) (name : String) (address? : Option Address) (abi : String) :
    Except GatewayError (Contract × Gateway) :=
  match g.registry.register name address? abi with
  | .ok (contract, registry) => .ok (contract, { g with registry })
  | .error cause => .error (.call cause)

def registerAll (g : Gateway) : List ResourceSettings → Except GatewayError Gateway
  | [] => .ok g
  | r :: rest => do
    let address? ← r.address.mapM GatewayError.readAddress
    let (_, g) ← g.register r.name address? r.abi
    g.registerAll rest

/-- The gateway of settings, with the proxy and all contracts registered. -/
def ofSettings (s : Settings) : Except GatewayError Gateway := do
  let proxyAddress ← s.proxy.mapM fun proxy => GatewayError.readAddress proxy.address
  let g : Gateway :=
    { profile := s.chain.crypto.profile, groupId := s.chain.groupId, chainId := s.chain.chainId,
      proxyAddress, nodeVersion := s.chain.nodeVersion }
  let g ← match s.proxy with
    | some proxy => (g.register proxyName proxyAddress proxy.abi).map (·.2)
    | none => .ok g
  g.registerAll s.resources

def contract (g : Gateway) (name : String) : Except GatewayError Contract :=
  match g.registry.get? name with
  | some contract => .ok contract
  | none => .error (.notRegistered name)

/-- The account and the source of blocks that a request needs. The request has to name a method. -/
def checkRequest (context : RequestContext) (request : TransactionRequest) :
    Except GatewayError (Account × BlockSource) :=
  match context.account, context.blocks with
  | none, _ => .error .accountMissing
  | some _, none => .error .blockSourceMissing
  | some account, some blocks =>
    if Text.isAllBlank request.method then .error .emptyMethod else .ok (account, blocks)

end Gateway

end LedgerGateway

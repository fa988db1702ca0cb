import LedgerGateway.Call.Proxy
import LedgerGateway.Gateway.Basic

/-!
# From requests to call data and back

A request goes to the contract itself, in the shape that needs no interface, or through the proxy, in
the shape that the interface of the contract asks for. The second half reads requests back: from the
envelope in which they travel, and from the data of a transaction on the ledger.
-/

namespace LedgerGateway

open Abi

/-- Call data with what is needed to send it and to understand the answer. -/
structure Invocation where
  data : Bytes
  destination : Address
  /-- The function, if the interface was used. -/
  function : Option Function := none
  /-- The text of the interface and the route behind the proxy, if it goes there. -/
  proxy : Option (String × ProxyRoute) := none

/-- The payload with a body, which is the call data or the transaction that carries it. -/
def Invocation.payload (i : Invocation) (body : Bytes) (send : Bool) : CallPayload :=
  match i.proxy, send with
  | none, false => .call body
  | none, true => .sendTx body
  | some (abi, route), false => .callByProxy body (some abi) route
  | some (abi, route), true => .sendTxByProxy body (some abi) route

/-- A request that was read from the data of a transaction. -/
structure RecoveredRequest where
  resource : String
  request : TransactionRequest
  function : Function

namespace Gateway

/-! ## Building -/

/-- The call data for the contract itself. -/
def encodeDirect (g : Gateway) (path : ResourcePath) (request : TransactionRequest) :
    Except GatewayError Invocation :=
  match (g.registry.get? path.resource).bind (·.address?) with
  | none => .error (.addressUnknown path.resource)
  | some destination =>
    .ok { data := PlainCall.encode g.profile request.method request.args, destination }

/-- The call of the proxy that forwards a call of a function. -/
def proxyCall (g : Gateway) (path : ResourcePath) (f : Function) (arguments : List String)
    (xa : Option (String × UInt64)) (send : Bool) (uid : String) : Except CallError ProxyCall :=
  match xa with
  | some (id, seq) => do
    let encoded ← Arguments.encode f.inputs arguments
    pure (if send then .sendTransaction uid id seq path.display f.signature encoded
      else .constantCall id path.display f.signature encoded)
  | none => do
    let inner ← f.encodeCall g.profile arguments
    pure (if send then .sendTransactionWithoutXa uid path.resource inner
      else .constantCallWithoutXa path.resource inner)

/-- The call data for the proxy. -/
def encodeProxied (g : Gateway) (path : ResourcePath) (request : TransactionRequest) (send : Bool)
    (uid : String) : Except GatewayError Invocation := do
  match g.proxyAddress with
  | none => .error .proxyMissing
  | some destination => do
    let contract ← g.contract path.resource
    let arguments := request.args.getD []
    let f ← (contract.interface.functionNamed request.method arguments.length).mapError .call
    let xa := request.options.xa
    let call ← (g.proxyCall path f arguments xa send uid).mapError .call
    let route : ProxyRoute := ⟨path.display, xa.map (·.1), (xa.map (·.2)).getD 0⟩
    pure {
      data := call.encode g.profile
      destination
      function := some f
      proxy := some (contract.interfaceText, route) }

/-- The call data of a request. -/
def encodeInvocation (g : Gateway) (path : ResourcePath) (request : TransactionRequest)
    (byProxy send : Bool) (uid : String) : Except GatewayError Invocation :=
  if byProxy then g.encodeProxied path request send uid else g.encodeDirect path request

/-! ## Reading envelopes -/

/-- The request in the envelope of a call or a transaction; other kinds carry none. -/
def decodeRequest (g : Gateway) (r : Request) : Except GatewayError (Option TransactionRequest) := do
  match r.kind? with
  | some .call | some .sendTransaction => do
    let params ← (TransactionParams.ofBytes r.data).mapError .malformedParams
    let payload := params.payload
    let data ←
      if payload.subType.isSend then do
        let decoded ← (Transaction.decode payload.bytes).mapError .transaction
        pure decoded.transaction.data
      else pure payload.bytes
    let embedded := params.request
    if payload.subType.isByProxy then
      match payload.abi? with
      | none => .error .interfaceMissing
      | some abi => do
        let interface ← (Interface.read abi).mapError .call
        let call ← (UnwrappedCall.ofCall g.profile (some interface) data).mapError .call
        pure (some ⟨call.method, call.arguments, embedded.options⟩)
    else do
      let arguments ← (PlainCall.decode g.profile embedded.method data).mapError .call
      pure (some ⟨embedded.method, arguments, embedded.options⟩)
  | _ => .ok none

/-! ## Reading transactions -/

/-- The text behind the last dot. -/
def lastSegment (s : String) : String :=
  String.ofList ((Text.segments (· == '.') s.toList).getLast?.getD [])

/-- The request in the data of a transaction through the proxy. -/
def decodeProxied (g : Gateway) (input : Bytes) : Except GatewayError RecoveredRequest := do
  let call ← (ProxyCall.decode g.profile input).mapError .call
  let name := lastSegment call.target
  let contract ← g.contract name
  let unwrapped ← (UnwrappedCall.ofCall g.profile (some contract.interface) input).mapError .call
  let count := (unwrapped.arguments.map List.length).getD 0
  let f ← (contract.interface.functionNamed unwrapped.method count).mapError .call
  let options : TransactionOptions := match call.xa? with
    | some (id, seq) => ⟨some id, some seq⟩
    | none => {}
  pure ⟨name, ⟨unwrapped.method, unwrapped.arguments, options⟩, f⟩

/-- The request in the data of a transaction to a contract. -/
def decodeDirect (g : Gateway) (input : Bytes) (destination : Option Address) :
    Except GatewayError RecoveredRequest :=
  match destination.bind g.registry.findByAddress? with
  | none => .error (.noContractAt destination)
  | some contract => do
    let f ← (contract.interface.functionOfCall g.profile input).mapError .call
    let arguments ← (f.decodeCall g.profile input).mapError .call
    pure ⟨contract.name, ⟨f.name, arguments, {}⟩, f⟩

/-- The request in the data of a transaction. -/
def decodeInvocation (g : Gateway) (input : Bytes) (destination : Option Address)
    (byProxy : Bool) : Except GatewayError RecoveredRequest :=
  if byProxy then g.decodeProxied input else g.decodeDirect input destination

/-! ## Reading outputs -/

/-- The values in an output. Without a function they are a list of texts; `wrapped` says that the
proxy has put its own output around that of the function. -/
def decodeOutput (function : Option Function) (wrapped : Bool) (output : Bytes) :
    Except CallError (List String) :=
  match function with
  | none => (PlainCall.decodeOutput output).map (·.getD [])
  | some f => do
    let inner ← if wrapped then ProxyOutput.decode output else .ok output
    f.decodeOutput inner

/-- The outcome of a failed execution. Its text is the reason in the output, or else the message of
the receipt, or else it names the status. -/
def reverted (g : Gateway) (status : UInt64) (output : Bytes) (message : Option String) :
    TransactionResponse :=
  let text := match RevertReason.decode? g.profile output with
    | some reason => reason
    | none => match message.filter (!·.isEmpty) with
      | some m => m
      | none => "Execution failed with status " ++ Text.decimal status.toNat
  .reverted (if status < 0x80000000 then Int32.ofNat status.toNat else Int32.maxValue) text

end Gateway

end LedgerGateway

import LedgerGateway.Proofs.Envelope.Written
import LedgerGateway.Proofs.Gateway.Operations
import LedgerGateway.Proofs.Transaction.Signing

/-!
# Requests that carry call data

A call and a transaction each hand one request with call data to the dispatcher; a transaction asks
for the height first. Reading the request gives back what the router asked, with the method and the
arguments taken from the call data. In a transaction they stand in the bytes that were signed, so a
key whose signatures can be read is all that reading needs.
-/

namespace LedgerGateway.Gateway

open Abi Exchange

variable {g : Gateway} {node : Node} {context : RequestContext} {request : TransactionRequest}
  {byProxy : Bool} {draws : Draws}

/-! ## What is handed to the dispatcher -/

def callRequest (account : Account) (request : TransactionRequest) (invocation : Invocation) :
    Request :=
  .ofKind .call (envelope request (invocation.payload invocation.data false) account.identity
    (some invocation.destination)).toBytes

def sendRequest (account : Account) (request : TransactionRequest) (invocation : Invocation)
    (signed : Transaction.Signed) : Request :=
  .ofKind .sendTransaction (envelope request (invocation.payload signed.raw true) account.identity
    (some invocation.destination)).toBytes

def concludeCall (g : Gateway) (invocation : Invocation) (response : Response) :
    Exchange GatewayError TransactionResponse := do
  if !response.isSuccess then throw (.ofResponse response .callNotSuccessStatus)
  let output ← readData CallOutput.decoder response.data
  let bytes ← readHex output.output
  if output.status != 0 then
    pure { g.reverted output.status bytes none with blockNumber := output.currentBlockNumber }
  else
    let result ← (decodeOutput invocation.function true bytes).mapError GatewayError.call
    pure { TransactionResponse.success result with blockNumber := output.currentBlockNumber }

/-- What is made of the response to a transaction. -/
def concludeSend (g : Gateway) (node : Node) (blocks : BlockSource) (invocation : Invocation)
    (response : Response) : Exchange GatewayError TransactionResponse := do
  if !response.isSuccess then throw (.ofResponse response .sendTransactionNotSuccessStatus)
  let receipt ← readData Receipt.decoder response.data
  g.settle node blocks invocation receipt

/-- A call hands its request to the dispatcher and nothing else. -/
theorem call_eq : g.call node context request byProxy draws = (do
    let (account, _) ← checkRequest context request
    let invocation ← g.encodeInvocation context.path request byProxy false draws.uid
    let response ← node.handle (callRequest account request invocation)
    g.concludeCall invocation response) := by
  unfold call Gateway.request concludeCall
  simp only [bind_assoc]
  refine bind_congr fun checked => bind_congr fun invocation => bind_congr fun response => ?_
  cases response.isSuccess <;> rfl

/-- A transaction hands its request to the dispatcher when the height is known. -/
theorem sendTransaction_eq : g.sendTransaction node context request byProxy draws = (do
    let (account, blocks) ← checkRequest context request
    let invocation ← g.encodeInvocation context.path request byProxy true draws.uid
    let height ← getHeight node
    let limit ← blockLimit height
    let signed ← g.signBuilt account (Transaction.build draws.nonce (some invocation.destination)
      g.groupId g.chainId limit invocation.data)
    let response ← node.handle (sendRequest account request invocation signed)
    g.concludeSend node blocks invocation response) := by
  unfold sendTransaction submit Gateway.request concludeSend
  simp only [bind_assoc]
  refine bind_congr fun checked => bind_congr fun invocation => bind_congr fun height =>
    bind_congr fun limit => bind_congr fun signed => bind_congr fun response => ?_
  cases response.isSuccess <;> rfl

/-- The request that a call hands to the dispatcher, or a transaction at some height, with the bytes
in its payload. By `call_eq` and `sendTransaction_eq` they hand over no others. -/
inductive HandsOver (g : Gateway) (context : RequestContext) (request : TransactionRequest)
    (byProxy : Bool) (draws : Draws) : Bytes → Request → Prop
  | call {account : Account} {blocks : BlockSource} {invocation : Invocation} :
      checkRequest context request = .ok (account, blocks) →
      g.encodeInvocation context.path request byProxy false draws.uid = .ok invocation →
      HandsOver g context request byProxy draws invocation.data
        (callRequest account request invocation)
  | send {account : Account} {blocks : BlockSource} {invocation : Invocation}
      {height limit : UInt64} {signed : Transaction.Signed} :
      checkRequest context request = .ok (account, blocks) →
      g.encodeInvocation context.path request byProxy true draws.uid = .ok invocation →
      blockLimit height = .ok limit →
      g.signBuilt account (Transaction.build draws.nonce (some invocation.destination) g.groupId
        g.chainId limit invocation.data) = .ok signed →
      HandsOver g context request byProxy draws signed.raw
        (sendRequest account request invocation signed)

/-! ## What is read back -/

def carriedData (payload : CallPayload) : Except GatewayError Bytes :=
  if payload.subType.isSend then do
    let decoded ← (Transaction.decode payload.bytes).mapError .transaction
    pure decoded.transaction.data
  else pure payload.bytes

/-- The request that call data says, with the options of the request that came along. -/
def reread (g : Gateway) (request : TransactionRequest) (payload : CallPayload) (data : Bytes) :
    Except GatewayError (Option TransactionRequest) :=
  if payload.subType.isByProxy then
    match payload.abi? with
    | none => .error .interfaceMissing
    | some abi => do
      let interface ← (Interface.read abi).mapError .call
      let call ← (UnwrappedCall.ofCall g.profile (some interface) data).mapError .call
      pure (some ⟨call.method, call.arguments, request.options⟩)
  else do
    let arguments ← (PlainCall.decode g.profile request.method data).mapError .call
    pure (some ⟨request.method, arguments, request.options⟩)

/-- Reading a request: first its call data, then what that says. -/
theorem decodeRequest_ofKind {kind : RequestKind} (hkind : kind = .call ∨ kind = .sendTransaction)
    (params : TransactionParams) :
    g.decodeRequest (.ofKind kind params.toBytes) =
      carriedData params.payload >>= g.reread params.request params.payload := by
  have hknown := Inquiry.kind?_ofKind kind params.toBytes
  have hparams := TransactionParams.ofBytes_toBytes params
  rw [decodeRequest, hknown]
  -- Both kinds are read alike: whether there is a transaction to open is said by the payload.
  rcases hkind with rfl | rfl
  all_goals
    simp only [Request.ofKind, hparams, mapError_ok, bind, Except.bind]
    unfold carriedData
    cases params.payload.subType.isSend with
    | false => rfl
    | true => cases Transaction.decode params.payload.bytes <;> rfl

theorem payload_envelope (request : TransactionRequest) (payload : CallPayload) (sender : String)
    (destination : Option Address) :
    (envelope request payload sender destination).payload = payload :=
  TransactionParams.payload_ofPayload request payload

theorem isSend_payload (invocation : Invocation) (body : Bytes) (send : Bool) :
    (invocation.payload body send).subType.isSend = send := by
  unfold Invocation.payload
  split <;> rfl

/-- What is signed was built, and its bytes carry a signature that the key has made. -/
theorem of_signBuilt {account : Account} {built : Except TransactionError Transaction}
    {signed : Transaction.Signed} (h : g.signBuilt account built = .ok signed) :
    ∃ tx signature, built = .ok tx ∧ tx.sign g.profile account.keyPair = .ok signed ∧
      account.keyPair.signHash (Transaction.signingHash g.profile tx) = .ok signature ∧
      signed.raw = tx.encodeSigned signature := by
  obtain ⟨tx, hbuilt, hsign⟩ := except_bind_eq_ok.mp (mapError_eq_ok.mp h)
  obtain ⟨-, signature, hsignature, hsigned⟩ := Transaction.sign_eq_ok.mp hsign
  exact ⟨tx, signature, hbuilt, hsign, hsignature, by rw [hsigned]⟩

/-- The call data is read back from a transaction that was signed with a key whose signatures can be
read. -/
theorem decode_of_signBuilt {account : Account} {destination : Address} {limit : UInt64}
    {data : Bytes} {signed : Transaction.Signed} (hkey : account.keyPair.Regular)
    (h : g.signBuilt account (Transaction.build draws.nonce (some destination) g.groupId g.chainId
      limit data) = .ok signed) (hsize : signed.raw.length < UInt64.size) :
    data.length < UInt64.size ∧
      ∃ decoded, Transaction.decode signed.raw = .ok decoded ∧ decoded.transaction.data = data := by
  obtain ⟨tx, signature, hbuilt, -, hsignature, hraw⟩ := of_signBuilt h
  obtain ⟨-, rfl⟩ := Transaction.build_eq_ok.mp hbuilt
  have hspellable := hkey.spellable _ _ hsignature
  rw [hraw] at hsize ⊢
  exact ⟨(Transaction.sized_of_encodeSigned hspellable hsize).data, _,
    Transaction.decode_encodeSigned hspellable hsize, rfl⟩

/-- A request that was handed over is read as what its call data says. -/
theorem HandsOver.decodeRequest {body : Bytes} {r : Request}
    (h : g.HandsOver context request byProxy draws body r)
    (hkey : ∀ account, context.account = some account → account.keyPair.Regular)
    (hsize : body.length < UInt64.size) :
    ∃ send invocation,
      g.encodeInvocation context.path request byProxy send draws.uid = .ok invocation ∧
      invocation.data.length < UInt64.size ∧
      g.decodeRequest r = g.reread request (invocation.payload body send) invocation.data := by
  cases h with
  | @call account blocks invocation hcheck hinvocation =>
    refine ⟨false, invocation, hinvocation, hsize, ?_⟩
    rw [callRequest, decodeRequest_ofKind (.inl rfl), payload_envelope, carriedData, isSend_payload,
      bytes_payload]
    rfl
  | @send account blocks invocation height limit signed hcheck hinvocation hlimit hsigned =>
    obtain ⟨hdata, decoded, hdecode, hcarried⟩ :=
      decode_of_signBuilt (hkey account (of_checkRequest hcheck).1) hsigned hsize
    refine ⟨true, invocation, hinvocation, hdata, ?_⟩
    rw [sendRequest, decodeRequest_ofKind (.inr rfl), payload_envelope, carriedData, isSend_payload,
      bytes_payload, if_pos rfl, hdecode, ← hcarried]
    rfl

theorem reread_of_direct {invocation : Invocation} (hproxy : invocation.proxy = none) (body : Bytes)
    (send : Bool) {arguments : Option (List String)}
    (hdecode : PlainCall.decode g.profile request.method invocation.data = .ok arguments) :
    g.reread request (invocation.payload body send) invocation.data =
      .ok (some { request with args := arguments }) := by
  have hkind : (invocation.payload body send).subType.isByProxy = false := by
    cases send <;> simp [Invocation.payload, hproxy, CallPayload.subType, SubType.isByProxy]
  unfold reread
  rw [hkind, hdecode]
  rfl

theorem reread_of_proxied {invocation : Invocation} {abi : String} {route : ProxyRoute}
    (hproxy : invocation.proxy = some (abi, route)) (body : Bytes) (send : Bool)
    {interface : Interface} (hread : Interface.read abi = .ok interface) {call : UnwrappedCall}
    (hcall : UnwrappedCall.ofCall g.profile (some interface) invocation.data = .ok call) :
    g.reread request (invocation.payload body send) invocation.data =
      .ok (some ⟨call.method, call.arguments, request.options⟩) := by
  have hpayload : (invocation.payload body send).subType.isByProxy = true ∧
      (invocation.payload body send).abi? = some abi := by
    cases send <;> simp [Invocation.payload, hproxy, CallPayload.subType, SubType.isByProxy,
      CallPayload.abi?]
  unfold reread
  rw [hpayload.1, hpayload.2]
  simp only [if_true, bind, Except.bind, hread, mapError_ok, hcall]
  rfl

end LedgerGateway.Gateway

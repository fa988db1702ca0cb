import LedgerGateway.Gateway.Invocation
import LedgerGateway.Gateway.Verification

/-!
# What the gateway does

Each operation turns what the router asks into requests for the dispatcher, and what comes back into
an answer. Every operation is a dialogue: beside the answer it leaves the questions that were asked.
-/

namespace LedgerGateway.Gateway

/-- How far beyond the height a transaction may be included. -/
def blockLimitStep : Nat := 500

/-- The last height at which a transaction that is sent now may be included. -/
def blockLimit (height : UInt64) : Except GatewayError UInt64 :=
  if height.toNat + blockLimitStep < UInt64.size then .ok (height + blockLimitStep.toUInt64)
  else .error (.noRoomForLimit height)

/-! ## Questions to the dispatcher -/

/-- The data that the dispatcher answers a request with. A failure keeps its status where that says
what failed. -/
def request (node : Node) (kind : RequestKind) (data : Bytes) (fallback : StatusCode) :
    Exchange GatewayError Bytes := do
  let response ← node.handle (.ofKind kind data)
  if response.isSuccess then pure response.data else throw (.ofResponse response fallback)

/-- The value in the data of a response. -/
def readData {α : Type} (decode : Json.Decoder α) (data : Bytes) : Except GatewayError α :=
  (Json.decodeBytes decode data).mapError GatewayError.malformedData

/-- The bytes of a text from the ledger. -/
def readHex (s : String) : Except GatewayError Bytes := (Hex.read s).mapError GatewayError.call

def getHeight (node : Node) : Exchange GatewayError UInt64 := do
  let data ← request node .getBlockNumber [] .handleGetBlockNumberFailed
  match BlockNumber.decode? data with
  | some height => pure height
  | none => throw (.malformedHeight data.length)

/-- Asks for a block, of which only the header may be wanted. -/
def getBlock (node : Node) (number : UInt64) (onlyHeader : Bool) : Exchange GatewayError Block := do
  let data ← request node .getBlockByNumber (BlockNumber.encode number) .handleGetBlockFailed
  let block ← (Block.ofLedger data).mapError GatewayError.malformedData
  pure (if onlyHeader then { block with transactionHashes := [] } else block)

/-! ## Calls -/

def envelope (request : TransactionRequest) (payload : CallPayload) (sender : String)
    (destination : Option Address) : TransactionParams :=
  { TransactionParams.ofPayload request payload with
    sender := some sender, destination := destination.map (·.hex) }

/-- Runs a method without a transaction. A failed execution is an answer, not an error. -/
def call (g : Gateway) (node : Node) (context : RequestContext) (request : TransactionRequest)
    (byProxy : Bool) (draws : Draws) : Exchange GatewayError TransactionResponse := do
  let (account, _) ← checkRequest context request
  let invocation ← g.encodeInvocation context.path request byProxy false draws.uid
  let params := envelope request (invocation.payload invocation.data false) account.identity
    (some invocation.destination)
  let data ← Gateway.request node .call params.toBytes .callNotSuccessStatus
  let output ← readData CallOutput.decoder data
  let bytes ← readHex output.output
  if output.status != 0 then
    pure { g.reverted output.status bytes none with blockNumber := output.currentBlockNumber }
  else
    let result ← (decodeOutput invocation.function true bytes).mapError GatewayError.call
    pure { TransactionResponse.success result with blockNumber := output.currentBlockNumber }

/-! ## Transactions -/

/-- Submits a signed transaction in its envelope. -/
def submit (node : Node) (params : TransactionParams) : Exchange GatewayError Receipt := do
  let data ← request node .sendTransaction params.toBytes .sendTransactionNotSuccessStatus
  readData Receipt.decoder data

def signBuilt (g : Gateway) (account : Account) (built : Except TransactionError Transaction) :
    Except GatewayError Transaction.Signed :=
  (built.bind fun tx => tx.sign g.profile account.keyPair).mapError .transaction

/-- Runs a method in a transaction and verifies the receipt of one that succeeded. -/
def sendTransaction (g : Gateway) (node : Node) (context : RequestContext)
    (request : TransactionRequest) (byProxy : Bool) (draws : Draws) :
    Exchange GatewayError TransactionResponse := do
  let (account, blocks) ← checkRequest context request
  let invocation ← g.encodeInvocation context.path request byProxy true draws.uid
  let height ← getHeight node
  let limit ← blockLimit height
  let signed ← g.signBuilt account (Transaction.build draws.nonce (some invocation.destination)
    g.groupId g.chainId limit invocation.data)
  let receipt ← submit node (envelope request (invocation.payload signed.raw true) account.identity
    (some invocation.destination))
  let outcome : TransactionResponse → TransactionResponse := fun r =>
    { r with hash := receipt.transactionHash, blockNumber := receipt.blockNumber }
  if receipt.isStatusOk then
    g.verifySubmitted node blocks receipt
    let bytes ← readHex receipt.output
    let result ← (decodeOutput invocation.function true bytes).mapError GatewayError.call
    pure (outcome (.success result))
  else
    let bytes ← readHex receipt.output
    pure (outcome (g.reverted receipt.status bytes receipt.message))

/-- What a proven transaction says. Data that cannot be understood is no reason to hide it. -/
def report (g : Gateway) (hash : String) (number : UInt64) (proof : TransactionProof) :
    Except GatewayError VerifiedTransaction := do
  let transaction := proof.transaction.transaction
  let receipt := proof.receipt.receipt
  let destination := (Address.read transaction.destination).toOption
  let byProxy := g.proxyAddress.isSome && g.proxyAddress == destination
  let input ← readHex transaction.input
  let recovered? := (g.decodeInvocation input destination byProxy).toOption
  let output ← readHex receipt.output
  let response :=
    if receipt.isStatusOk then
      TransactionResponse.success <| match recovered? with
        | some r => ((decodeOutput (some r.function) byProxy output).toOption).getD []
        | none => []
    else g.reverted receipt.status output receipt.message
  pure {
    blockNumber := number
    transactionHash := hash
    accountIdentity := transaction.sender
    resource := (recovered?.map (·.resource)).getD ""
    isByProxy := byProxy
    request := (recovered?.map (·.request)).getD {}
    response := { response with hash, blockNumber := number }
    receiptBytes := receipt.json.bytes
    txBytes := transaction.json.bytes }

/-- Asks for a transaction and verifies it and its receipt against the block of a number. -/
def getTransaction (g : Gateway) (node : Node) (hash : String) (number : UInt64)
    (blocks : BlockSource) : Exchange GatewayError VerifiedTransaction := do
  let data ← request node .getTransactionProof (Text.Utf8.encode hash)
    .handleGetTransactionProofFailed
  let proof ← readData TransactionProof.decoder data
  g.verifyProven node blocks number proof
  g.report hash number proof

/-! ## Deployment -/

/-- The method that a deployment is reported under. -/
def deployMethod : String := "deploy"

/-- The address that the receipt of a deployment reports. -/
def deployedAddress (g : Gateway) (receipt : Receipt) : Except GatewayError Address := do
  if receipt.isStatusOk then
    let address ← GatewayError.readAddress receipt.contractAddress
    if address = Address.zero then .error (.noContractAddress receipt.transactionHash)
    else .ok address
  else
    let bytes ← readHex receipt.output
    .error (.deploymentFailed (g.reverted receipt.status bytes receipt.message).message)

/-- Deploys a contract and returns its address with the gateway that knows it. -/
def deployAndRegister (g : Gateway) (node : Node) (context : RequestContext)
    (name abi binary : String) (arguments : List String) (draws : Draws) :
    Exchange GatewayError (Address × Gateway) := do
  let account ← match context.account with
    | some account => pure account
    | none => throw .accountMissing
  if Text.isAllBlank name then throw .emptyContractName
  let interface ← (Abi.Interface.read abi).mapError GatewayError.call
  let code ← readHex binary
  if code.isEmpty then throw .emptyBinary
  let parameters := interface.constructor?.getD []
  let encoded ← (Arguments.encode parameters arguments).mapError GatewayError.call
  let height ← getHeight node
  let limit ← blockLimit height
  let signed ← g.signBuilt account
    (Transaction.buildDeploy draws.nonce code encoded g.groupId g.chainId limit)
  let receipt ← submit node (envelope ⟨deployMethod, some arguments, {}⟩ (.sendTx signed.raw)
    account.identity none)
  let address ← g.deployedAddress receipt
  let (_, g) ← g.register name (some address) abi
  pure (address, g)

/-- Deploys a contract. The gateway knows it afterwards if that went well, and is the same if not. -/
def deploy (g : Gateway) (node : Node) (context : RequestContext) (name abi binary : String)
    (arguments : List String) (draws : Draws) :
    StateM History (Except GatewayError Address × Gateway) := do
  match ← (g.deployAndRegister node context name abi binary arguments draws).run with
  | .ok (address, g) => pure (.ok address, g)
  | .error e => pure (.error e, g)

end LedgerGateway.Gateway

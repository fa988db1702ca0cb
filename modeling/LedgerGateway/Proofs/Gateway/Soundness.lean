import LedgerGateway.Proofs.Gateway.Reports

/-!
# Verified outcomes are in the block

A gateway whose node serves proofs reports a success, or a transaction that it was asked for, only
when both proofs lead to the roots in the header that the source of blocks has given for the
height in question. The result is decoded from the output that the receipt's leaf hashes, not from
another text.

`OneBlock` is a chain of one transaction. Its node and its block take the hash of the transaction
as they are told, so that it also shows what a node can get away with.
-/

namespace LedgerGateway.Gateway

open Exchange Text

/-! ## A chain of one transaction -/

namespace OneBlock

/-- A key that signs every hash alike. -/
def keyPair : KeyPair where
  kind := .ecdsa
  address := Address.zero
  secret := SizedBytes.ofNat 32 1
  signHash := fun _ => .ok (.ecdsa 27 1 1)

/-- A contract without interface. -/
def contract : Contract := ⟨"c", some Address.zero, {}, ""⟩

/-- A gateway that knows the contract. -/
def gateway : Gateway where
  profile := CryptoKind.ecdsa.profile
  groupId := "group0"
  chainId := "chain0"
  registry := Registry.empty.insert contract

/-- What is asked of the contract. -/
def request : TransactionRequest := { method := "set" }

def draws : Draws := ⟨1, ""⟩

/-- The receipt of a transaction with these bytes as its hash. -/
def receipt (hash : Bytes) (status : UInt64) : Receipt :=
  { transactionHash := Hex.encode hash, transactionIndex := some 0, blockNumber := 7, status,
    txProof := some [{}], receiptProof := some [{}] }

/-- The transaction with these bytes as its hash and the receipt, with their proofs. -/
def proof (hash : Bytes) (status : UInt64) : TransactionProof :=
  ⟨⟨{ hash := Hex.encode hash, transactionIndex := some 0, blockNumber := 7 }, [{}]⟩,
    ⟨receipt hash status, [{}]⟩⟩

/-- A node that answers every question with that transaction. -/
def node (hash : Bytes) (status : UInt64) : Node where
  height := fun _ => .ok 6
  block := fun _ _ _ => .ok none
  call := fun _ _ _ _ => .ok {}
  submit := fun _ _ => .ok (some (receipt hash status))
  transaction := fun _ _ => .ok (some (proof hash status).transaction)
  receipt := fun _ _ => .ok (some (proof hash status).receipt)

/-- What the leaf of a receipt without content hashes. -/
def encoded : Bytes := [0xc7, 0x80, 0x80, 0x80, 0x80, 0x80, 0x80, 0xc0]

/-- The block that holds the transaction and its receipt. -/
def block (hash : Bytes) : Block where
  header :=
    { number := 7, hash := "", prevHash := "", stateRoot := ""
      transactionRoot := (gateway.profile.hash (Rlp.encodeNat 0 ++ hash)).hex
      receiptRoot :=
        (gateway.profile.hash (Rlp.encodeNat 0 ++ (gateway.profile.hash encoded).1)).hex }
  transactionHashes := []

def source (hash : Bytes) : BlockSource := .independent fun _ _ => .ok (block hash)

/-- The account and the source of a request. -/
def context (hash : Bytes) : RequestContext where
  account := some ⟨"a", keyPair⟩
  path := ⟨"z", "b", "c"⟩
  blocks := some (source hash)

/-- The call data of the request. -/
def invocation : Invocation where
  data := PlainCall.encode gateway.profile request.method request.args
  destination := Address.zero

def transaction : Transaction where
  nonce := draws.nonce
  gasPrice := Transaction.defaultGasPrice
  gasLimit := Transaction.defaultGasLimit
  blockLimit := 506
  destination := some Address.zero
  value := 0
  data := invocation.data
  chainId := gateway.chainId
  groupId := gateway.groupId
  extraData := []

def signed : Transaction.Signed :=
  ⟨transaction.encodeSigned (.ecdsa 27 1 1),
    gateway.profile.hash (transaction.encodeSigned (.ecdsa 27 1 1))⟩

theorem proofsSupported_gateway : gateway.proofsSupported = true := rfl

/-- What the leaf of a receipt hashes that has nothing but a status. -/
def encodedStatus (status : UInt64) : Bytes :=
  (Rlp.Item.list [.bytes [], .ofNat 0, .bytes [], .bytes [], .ofNat status.toNat, .bytes [],
    .list []]).encode

/-- The names and the proofs of a receipt are not hashed. -/
theorem encode_status (transactionHash : String) (transactionIndex : Option UInt64)
    (blockNumber status : UInt64) (txProof receiptProof : Option MerkleProof) :
    gateway.receiptEncoding.encode
        { transactionHash, transactionIndex, blockNumber, status, txProof, receiptProof } =
      .ok (encodedStatus status) := by
  have hversion : gateway.receiptEncoding = {} := rfl
  have hempty : ∀ field, HexField.decode field "" = .ok [] := fun _ => rfl
  have hgas : ReceiptEncoding.normalizeGasUsed "" = .ok "0x0" := rfl
  have hzero : ReceiptEncoding.quantity "gasUsed" "0x0" = .ok 0 := rfl
  rw [hversion]
  simp only [ReceiptEncoding.encode, ReceiptEncoding.item, ReceiptEncoding.normalize,
    ReceiptEncoding.remainGasItems, ReceiptEncoding.logItems, hempty, hgas, hzero, bind,
    Except.bind, pure, Except.pure]
  rfl

theorem encode_receipt (hash : Bytes) :
    gateway.receiptEncoding.encode (receipt hash 0) = .ok encoded :=
  encode_status (Hex.encode hash) (some 0) 7 0 (some [{}]) (some [{}])

theorem verifyReceipt_block (hash : Bytes) :
    Merkle.verifyReceipt gateway.profile.hash (block hash).header.receiptRoot (receipt hash 0) [{}]
      gateway.receiptEncoding = .ok true := by
  rw [Merkle.verifyReceipt_eq_true]
  refine ⟨_, _, Merkle.parseRoot_hex _ _, ?_, Merkle.root_single _⟩
  rw [Merkle.receiptLeaf, encode_receipt]
  rfl

theorem verifyTransaction_block (hash : Bytes) :
    Merkle.verifyTransaction gateway.profile.hash (block hash).header.transactionRoot
      (Hex.encode hash) (some 0) [{}] = .ok true := by
  rw [Merkle.verifyTransaction_eq_true]
  refine ⟨_, _, Merkle.parseRoot_hex _ _, ?_, Merkle.root_single _⟩
  rw [Merkle.transactionLeaf, HexField.decode_encode]
  rfl

theorem encodeInvocation_request (hash : Bytes) :
    gateway.encodeInvocation (context hash).path request false true draws.uid = .ok invocation := by
  rfl

theorem signBuilt_transaction :
    gateway.signBuilt ⟨"a", keyPair⟩ (Transaction.build draws.nonce (some invocation.destination)
      gateway.groupId gateway.chainId 506 invocation.data) = .ok signed := by
  rfl

theorem blockLimit_six : blockLimit 6 = .ok 506 := by
  rw [blockLimit, if_pos (by decide)]
  rfl

theorem readHex_empty : readHex "" = .ok [] := rfl

theorem provenIn_block (hash : Bytes) : gateway.ProvenIn (block hash) (receipt hash 0) [{}] [{}] :=
  ⟨verifyReceipt_block hash, verifyTransaction_block hash⟩

/-- Whatever hash the receipt names, the transaction is sent. -/
theorem sent_transaction (hash : Bytes) (status : UInt64) :
    Sent gateway (node hash status) (context hash) request false draws [] (source hash) invocation
      signed (receipt hash status) where
  built := ⟨⟨"a", keyPair⟩, 6, 506, rfl, encodeInvocation_request hash, rfl, blockLimit_six,
    signBuilt_transaction⟩
  answered := rfl
  content := rfl

/-- A receipt that reports a success is accepted. -/
theorem outcome_sendTransaction (hash : Bytes) :
    outcome (gateway.sendTransaction (node hash 0) (context hash) request false draws) [] =
      (.ok (succeeded (receipt hash 0) []), [.height, .submit signed.raw, .trustedBlock 7]) := by
  rw [sendTransaction_eq_ok]
  refine ⟨source hash, invocation, signed, receipt hash 0, sent_transaction hash 0, ?_⟩
  rw [settle_of_success proofsSupported_gateway rfl]
  exact ⟨block hash, [{}], [{}], [], [], rfl, rfl, rfl, provenIn_block hash, readHex_empty,
    rfl, rfl⟩

theorem isEmpty_trim_encode (hash : Bytes) : (trim (Hex.encode hash)).isEmpty = false := by
  rw [Hex.trim_encode]
  simp [Hex.encode]

theorem report_proof (hash : Bytes) (asked : String) :
    ∃ v, gateway.report asked 7 (proof hash 0) = .ok v :=
  exists_report_iff.mpr ⟨⟨[], readHex_empty⟩, [], readHex_empty⟩

/-- The transaction is reported under every hash that is not blank. -/
theorem outcome_getTransaction (hash : Bytes) {asked : String} (h : (trim asked).isEmpty = false) :
    ∃ v, outcome (gateway.getTransaction (node hash 0) asked 7 (source hash)) [] =
      (.ok v, [.transaction (trim asked), .receipt (trim asked), .trustedBlock 7]) := by
  obtain ⟨v, hreport⟩ := report_proof hash asked
  refine ⟨v, (getTransaction_eq_ok proofsSupported_gateway).mpr ?_⟩
  exact ⟨proof hash 0, block hash, h, ⟨rfl, rfl, rfl⟩, rfl,
    ⟨verifyReceipt_block hash, verifyTransaction_block hash⟩, hreport⟩

end OneBlock

/-! ## Soundness -/

/-- What has been established when a transaction is reported as a success. -/
structure SendProven (g : Gateway) (node : Node) (context : RequestContext)
    (request : TransactionRequest) (byProxy : Bool) (draws : Draws) (before after : History)
    (response : TransactionResponse) (blocks : BlockSource) (invocation : Invocation)
    (signed : Transaction.Signed) (receipt : Receipt) (block : Block)
    (receiptProof txProof : MerkleProof) (output : Bytes) : Prop where
  /-- The receipt is the answer to the transaction that was signed and submitted. -/
  sent : Sent g node context request byProxy draws before blocks invocation signed receipt
  source : context.blocks = some blocks
  /-- It was asked for the block that the receipt names, and for nothing else. -/
  asked : outcome (blocks.askBlock node receipt.blockNumber)
      (before ++ [.height] ++ [.submit signed.raw]) = (.ok block, after) ∧
    after = before ++ [.height] ++ [.submit signed.raw] ++ [blocks.question receipt.blockNumber]
  /-- The receipt brings both proofs. -/
  proofs : receipt.receiptProof = some receiptProof ∧ receipt.txProof = some txProof
  /-- Both lead to the roots of the block. -/
  proven : g.ProvenIn block receipt receiptProof txProof
  /-- The output that is read is the one that is hashed. -/
  outputHashed : readHex receipt.output = .ok output ∧
    g.receiptEncoding.HashesOutput receipt output
  resultDecoded : decodeOutput invocation.function true output = .ok response.result ∧
    response = succeeded receipt response.result

/-- What has been established when a transaction is reported that was asked for. -/
structure AskProven (g : Gateway) (node : Node) (hash : String) (number : UInt64)
    (blocks : BlockSource) (before after : History) (v : VerifiedTransaction)
    (proof : TransactionProof) (block : Block) : Prop where
  /-- Transaction and receipt are the answers of the node. -/
  answered : ProofAnswered node (trim hash) before proof
  /-- The source was asked for the block of the height, and for nothing else. -/
  asked : outcome (blocks.askBlock node number)
      (before ++ [.transaction (trim hash)] ++ [.receipt (trim hash)]) = (.ok block, after) ∧
    after = before ++ [.transaction (trim hash)] ++ [.receipt (trim hash)] ++
      [blocks.question number]
  /-- Both proofs lead to the roots of the block. -/
  proven : g.BothProvenIn block proof
  /-- The transaction and the receipt that were proven are those that are returned. -/
  returned : v.receiptBytes = proof.receipt.receipt.json.bytes ∧
    v.txBytes = proof.transaction.transaction.json.bytes
  /-- The result of a success is decoded from the output that is hashed. -/
  result : proof.receipt.receipt.isStatusOk = true → ∃ output,
    readHex proof.receipt.receipt.output = .ok output ∧
    g.receiptEncoding.HashesOutput proof.receipt.receipt output ∧
    DecodedFrom output v.response.result

theorem history_of_askBlock {blocks : BlockSource} {node : Node} {number : UInt64}
    {before after : History} {block : Block}
    (h : outcome (blocks.askBlock node number) before = (.ok block, after)) :
    after = before ++ [blocks.question number] := by
  have hhistory := blocks.history_askBlock node number before
  rw [h] at hhistory
  exact hhistory

theorem source_of_checkRequest {context : RequestContext} {request : TransactionRequest}
    {account : Account} {blocks : BlockSource}
    (h : checkRequest context request = .ok (account, blocks)) : context.blocks = some blocks :=
  (of_checkRequest h).2

theorem sendProven_of_settle {g : Gateway} (hg : g.proofsSupported = true) {node : Node}
    {context : RequestContext} {request : TransactionRequest} {byProxy : Bool} {draws : Draws}
    {before after : History} {response : TransactionResponse} {blocks : BlockSource}
    {invocation : Invocation} {signed : Transaction.Signed} {receipt : Receipt}
    (hsent : Sent g node context request byProxy draws before blocks invocation signed receipt)
    (hsettle : outcome (g.settle node blocks invocation receipt)
      (before ++ [.height] ++ [.submit signed.raw]) = (.ok response, after))
    (hcode : response.errorCode = 0) :
    ∃ block receiptProof txProof output,
      SendProven g node context request byProxy draws before after response blocks invocation signed
        receipt block receiptProof txProof output := by
  have hstatus := (settle_reports hsettle).2.mp hcode
  obtain ⟨block, receiptProof, txProof, output, result, hblock, hreceipt, htx, hproven, houtput,
    hresult, rfl⟩ := (settle_of_success hg hstatus).mp hsettle
  obtain ⟨_, _, _, hcheck, -⟩ := hsent.built
  exact ⟨block, receiptProof, txProof, output, hsent, source_of_checkRequest hcheck,
    ⟨hblock, history_of_askBlock hblock⟩, ⟨hreceipt, htx⟩, hproven,
    ⟨houtput, hashesOutput_of_readHex hproven.receiptProven houtput⟩, ⟨hresult, rfl⟩⟩

theorem askProven_of_report {g : Gateway} {node : Node} {hash : String} {number : UInt64}
    {blocks : BlockSource} {before after : History} {v : VerifiedTransaction}
    {proof : TransactionProof} {block : Block}
    (hanswered : ProofAnswered node (trim hash) before proof)
    (hblock : outcome (blocks.askBlock node number)
      (before ++ [.transaction (trim hash)] ++ [.receipt (trim hash)]) = (.ok block, after))
    (hproven : g.BothProvenIn block proof) (hreport : g.report hash number proof = .ok v) :
    AskProven g node hash number blocks before after v proof block := by
  have hreports := reports_of_report hreport
  refine ⟨hanswered, ⟨hblock, history_of_askBlock hblock⟩, hproven, hreports.bytes,
    fun hstatus => ?_⟩
  obtain ⟨output, houtput, hdecoded⟩ := hreports.result hstatus
  exact ⟨output, houtput, hashesOutput_of_readHex hproven.receiptProven houtput, hdecoded⟩

/-- Of a node that serves proofs, no success and no transaction is reported without both proofs. -/
theorem outcomes_proven (g : Gateway) (hg : g.proofsSupported = true) (node : Node) :
    (∀ context request byProxy draws before after response,
      outcome (g.sendTransaction node context request byProxy draws) before =
        (.ok response, after) → response.errorCode = 0 →
      ∃ blocks invocation signed receipt block receiptProof txProof output,
        SendProven g node context request byProxy draws before after response blocks invocation
          signed receipt block receiptProof txProof output) ∧
    (∀ hash number blocks before after v,
      outcome (g.getTransaction node hash number blocks) before = (.ok v, after) →
      ∃ proof block, AskProven g node hash number blocks before after v proof block) := by
  constructor
  · intro context request byProxy draws before after response h hcode
    obtain ⟨blocks, invocation, signed, receipt, hsent, hsettle⟩ := sendTransaction_eq_ok.mp h
    obtain ⟨block, receiptProof, txProof, output, hproven⟩ :=
      sendProven_of_settle hg hsent hsettle hcode
    exact ⟨blocks, invocation, signed, receipt, block, receiptProof, txProof, output, hproven⟩
  · intro hash number blocks before after v h
    obtain ⟨proof, block, -, hanswered, hblock, hproven, hreport⟩ := (getTransaction_eq_ok hg).mp h
    exact ⟨proof, block, askProven_of_report hanswered hblock hproven hreport⟩

/-- The transaction of the chain is sent, and asked for by its hash. -/
theorem outcomes_proven_oneBlock :
    OneBlock.gateway.proofsSupported = true ∧
    (∃ response after,
      outcome (OneBlock.gateway.sendTransaction (OneBlock.node OneBlock.signed.hash.1 0)
        (OneBlock.context OneBlock.signed.hash.1) OneBlock.request false OneBlock.draws) [] =
          (.ok response, after) ∧ response.errorCode = 0 ∧
      ∃ blocks invocation signed receipt block receiptProof txProof output,
        SendProven OneBlock.gateway (OneBlock.node OneBlock.signed.hash.1 0)
          (OneBlock.context OneBlock.signed.hash.1) OneBlock.request false OneBlock.draws [] after
          response blocks invocation signed receipt block receiptProof txProof output) ∧
    ∃ v after,
      outcome (OneBlock.gateway.getTransaction (OneBlock.node OneBlock.signed.hash.1 0)
        OneBlock.signed.hash.hex 7 (OneBlock.source OneBlock.signed.hash.1)) [] = (.ok v, after) ∧
      ∃ proof block, AskProven OneBlock.gateway (OneBlock.node OneBlock.signed.hash.1 0)
        OneBlock.signed.hash.hex 7 (OneBlock.source OneBlock.signed.hash.1) [] after v proof
          block := by
  have h := outcomes_proven OneBlock.gateway OneBlock.proofsSupported_gateway
    (OneBlock.node OneBlock.signed.hash.1 0)
  have hsend := OneBlock.outcome_sendTransaction OneBlock.signed.hash.1
  have hblank : (trim OneBlock.signed.hash.hex).isEmpty = false :=
    OneBlock.isEmpty_trim_encode OneBlock.signed.hash.1
  obtain ⟨v, hget⟩ := OneBlock.outcome_getTransaction OneBlock.signed.hash.1 hblank
  exact ⟨OneBlock.proofsSupported_gateway,
    ⟨_, _, hsend, rfl, h.1 _ _ _ _ _ _ _ hsend rfl⟩, v, _, hget, h.2 _ _ _ _ _ _ hget⟩

end LedgerGateway.Gateway

import LedgerGateway.Proofs.Gateway.Soundness

/-!
# Which receipts are verified

A receipt is verified when its proof leads to the receipt root of a header that the source of blocks
has given during the operation. A transaction has its receipt verified exactly if a success is
reported. A reported failure, and whatever a deployment reports, rests on the word of the node: no
header is asked for.
-/

namespace LedgerGateway.Gateway

open Exchange

/-- Between the two histories the source has given a header, and the receipt is proven against its
root. -/
def HeaderVerified (g : Gateway) (node : Node) (blocks : BlockSource) (before after : History)
    (receipt : Receipt) : Prop :=
  ∃ earlier number later block proof,
    after = before ++ earlier ++ [blocks.question number] ++ later ∧
    (outcome (blocks.askBlock node number) (before ++ earlier)).1 = .ok block ∧
    Merkle.verifyReceipt g.profile.hash block.header.receiptRoot receipt proof g.receiptEncoding =
      .ok true

theorem not_isOfTransaction_question (blocks : BlockSource) (number : UInt64) :
    ¬ IsOfTransaction (blocks.question number) := by
  cases blocks <;> exact id

/-- Who asks for the height and submits only has no header. -/
theorem not_headerVerified {g : Gateway} {node : Node} {blocks : BlockSource}
    {before after asked : History} {receipt : Receipt} (hafter : after = before ++ asked)
    (hasked : ∀ q ∈ asked, IsOfTransaction q) :
    ¬ HeaderVerified g node blocks before after receipt := by
  rintro ⟨earlier, number, later, block, proof, hheader, -, -⟩
  rw [hafter, List.append_assoc, List.append_assoc, List.append_cancel_left_eq] at hheader
  have hmem : blocks.question number ∈ asked := by simp [hheader]
  exact not_isOfTransaction_question blocks number (hasked _ hmem)

theorem headerVerified_of_sendProven {g : Gateway} {node : Node} {context : RequestContext}
    {request : TransactionRequest} {byProxy : Bool} {draws : Draws} {before after : History}
    {response : TransactionResponse} {blocks : BlockSource} {invocation : Invocation}
    {signed : Transaction.Signed} {receipt : Receipt} {block : Block}
    {receiptProof txProof : MerkleProof} {output : Bytes}
    (h : SendProven g node context request byProxy draws before after response blocks invocation
      signed receipt block receiptProof txProof output) :
    HeaderVerified g node blocks before after receipt := by
  refine ⟨[.height, .submit signed.raw], receipt.blockNumber, [], block, receiptProof, ?_, ?_,
    h.proven.receiptProven⟩
  · rw [h.asked.2]
    simp
  · have hblock := congrArg Prod.fst h.asked.1
    simpa using hblock

/-- The receipt of a transaction is verified exactly if a success is reported; that of a deployment
never is, however it ends. -/
theorem headerVerified_iff_success {g : Gateway} (hg : g.proofsSupported = true) (node : Node) :
    (∀ context request byProxy draws before after response,
      outcome (g.sendTransaction node context request byProxy draws) before =
        (.ok response, after) →
      ∃ blocks invocation signed receipt,
        Sent g node context request byProxy draws before blocks invocation signed receipt ∧
        context.blocks = some blocks ∧ response.hash = receipt.transactionHash ∧
        (HeaderVerified g node blocks before after receipt ↔ response.errorCode = 0)) ∧
    ∀ context name abi binary arguments draws before,
      (∀ blocks receipt, ¬ HeaderVerified g node blocks before
        ((g.deploy node context name abi binary arguments draws).run before).2 receipt) ∧
      ∀ address,
        ((g.deploy node context name abi binary arguments draws).run before).1.1 = .ok address →
        ∃ signed receipt,
          DeploySent g node context name abi binary arguments draws before signed receipt ∧
          g.deployedAddress receipt = .ok address := by
  constructor
  · intro context request byProxy draws before after response h
    obtain ⟨blocks, invocation, signed, receipt, hsent, hsettle⟩ := sendTransaction_eq_ok.mp h
    obtain ⟨_, _, _, hcheck, -⟩ := hsent.built
    obtain ⟨hname, hstatus⟩ := settle_reports hsettle
    refine ⟨blocks, invocation, signed, receipt, hsent, source_of_checkRequest hcheck, hname, ?_⟩
    constructor
    · intro hverified
      by_cases hcode : response.errorCode = 0
      · exact hcode
      · -- A failure is settled without a question.
        have hfailed : receipt.isStatusOk = false := by
          rw [← Bool.not_eq_true, ← hstatus]
          exact hcode
        obtain ⟨_, -, -, hafter⟩ := (settle_of_failure hfailed).mp hsettle
        refine absurd hverified (not_headerVerified
          (hafter ▸ List.append_assoc before [.height] [.submit signed.raw]) ?_)
        simp [IsOfTransaction]
    · intro hcode
      obtain ⟨_, _, _, _, hproven⟩ := sendProven_of_settle hg hsent hsettle hcode
      exact headerVerified_of_sendProven hproven
  · intro context name abi binary arguments draws before
    constructor
    · intro blocks receipt
      obtain ⟨asked, hafter, hasked⟩ :
          ∃ asked, ((g.deploy node context name abi binary arguments draws).run before).2 =
            before ++ asked ∧ ∀ q ∈ asked, IsOfTransaction q := history_deploy
      exact not_headerVerified hafter hasked
    · intro address h
      exact deployedAddress_of_deploy h

namespace OneBlock

theorem outcome_settle_failure (hash : Bytes) (blocks : BlockSource) (before : History) :
    outcome (gateway.settle (node hash 1) blocks invocation (receipt hash 1)) before =
      (.ok (gateway.failed (receipt hash 1) []), before) :=
  (settle_of_failure rfl).mpr ⟨[], readHex_empty, rfl, rfl⟩

/-- A receipt that reports a failure is believed. -/
theorem outcome_sendTransaction_failure (hash : Bytes) :
    outcome (gateway.sendTransaction (node hash 1) (context hash) request false draws) [] =
      (.ok (gateway.failed (receipt hash 1) []), [.height, .submit signed.raw]) :=
  sendTransaction_eq_ok.mpr ⟨source hash, invocation, signed, receipt hash 1,
    sent_transaction hash 1, outcome_settle_failure hash _ _⟩

theorem errorCode_failed (hash : Bytes) :
    (gateway.failed (receipt hash 1) []).errorCode ≠ 0 := by
  have hstatus : (receipt hash 1).status ≠ 0 := by
    show (1 : UInt64) ≠ 0
    decide
  exact errorCode_reverted (g := gateway) hstatus [] (receipt hash 1).message

/-- Where a contract is deployed. -/
def deployed : Address := SizedBytes.ofNat 20 1

/-- The receipt of a deployment, without any proof. -/
def deployReceipt : Receipt :=
  { transactionHash := "0x01", contractAddress := "0x0000000000000000000000000000000000000001" }

def deployNode : Node :=
  { node [1] 0 with submit := fun _ _ => .ok (some deployReceipt) }

/-- The transaction that deploys one byte of code. -/
def deployTransaction : Transaction where
  nonce := draws.nonce
  gasPrice := Transaction.defaultGasPrice
  gasLimit := Transaction.defaultGasLimit
  blockLimit := 506
  destination := none
  value := 0
  data := [0]
  chainId := gateway.chainId
  groupId := gateway.groupId
  extraData := []

def deploySigned : Transaction.Signed :=
  ⟨deployTransaction.encodeSigned (.ecdsa 27 1 1),
    gateway.profile.hash (deployTransaction.encodeSigned (.ecdsa 27 1 1))⟩

theorem signBuilt_deployTransaction :
    gateway.signBuilt ⟨"a", keyPair⟩ (Transaction.buildDeploy draws.nonce [0] [] gateway.groupId
      gateway.chainId 506) = .ok deploySigned := by
  rfl

theorem read_interface : Abi.Interface.read "[]" = .ok {} := rfl

theorem deploySent :
    DeploySent gateway deployNode (context [1]) "d" "[]" "0x00" [] draws [] deploySigned
      deployReceipt where
  built := ⟨⟨"a", keyPair⟩, {}, [0], [], 6, 506, rfl, rfl, read_interface, rfl, rfl, rfl, rfl,
    blockLimit_six, signBuilt_deployTransaction⟩
  answered := rfl
  content := rfl

theorem deployedAddress_deployReceipt : gateway.deployedAddress deployReceipt = .ok deployed :=
  deployedAddress_eq_ok.mpr ⟨rfl, rfl, by decide⟩

/-- The contract is deployed at the address that the node names. -/
theorem outcome_deploy :
    ((gateway.deploy deployNode (context [1]) "d" "[]" "0x00" [] draws).run []).1.1 =
      .ok deployed := by
  rw [deploy_of_ok (deployAndRegister_eq_ok.mpr ⟨deploySigned, deployReceipt, _, deploySent,
    deployedAddress_deployReceipt, register_of_read read_interface, rfl⟩)]

end OneBlock

/-- A success, a failure and a deployment, of which only the success rests on a header. -/
theorem headerVerified_iff_success_oneBlock :
    OneBlock.gateway.proofsSupported = true ∧
    (∃ response after blocks receipt,
      outcome (OneBlock.gateway.sendTransaction (OneBlock.node [1] 0) (OneBlock.context [1])
        OneBlock.request false OneBlock.draws) [] = (.ok response, after) ∧
      response.errorCode = 0 ∧
      HeaderVerified OneBlock.gateway (OneBlock.node [1] 0) blocks [] after receipt) ∧
    (∃ response after blocks receipt,
      outcome (OneBlock.gateway.sendTransaction (OneBlock.node [1] 1) (OneBlock.context [1])
        OneBlock.request false OneBlock.draws) [] = (.ok response, after) ∧
      response.errorCode ≠ 0 ∧ response.hash = receipt.transactionHash ∧
      ¬ HeaderVerified OneBlock.gateway (OneBlock.node [1] 1) blocks [] after receipt) ∧
    ((OneBlock.gateway.deploy OneBlock.deployNode (OneBlock.context [1]) "d" "[]" "0x00" []
        OneBlock.draws).run []).1.1 = .ok OneBlock.deployed ∧
    ∃ signed receipt, DeploySent OneBlock.gateway OneBlock.deployNode (OneBlock.context [1]) "d"
        "[]" "0x00" [] OneBlock.draws [] signed receipt ∧
      ∀ blocks, ¬ HeaderVerified OneBlock.gateway OneBlock.deployNode blocks []
        ((OneBlock.gateway.deploy OneBlock.deployNode (OneBlock.context [1]) "d" "[]" "0x00" []
          OneBlock.draws).run []).2 receipt := by
  have hsend := OneBlock.outcome_sendTransaction [1]
  have hfailure := OneBlock.outcome_sendTransaction_failure [1]
  have hcode := OneBlock.errorCode_failed [1]
  obtain ⟨blocks, _, _, receipt, -, -, -, hverified⟩ :=
    (headerVerified_iff_success OneBlock.proofsSupported_gateway (OneBlock.node [1] 0)).1
      _ _ _ _ _ _ _ hsend
  obtain ⟨blocks', _, _, receipt', -, -, hname, hverified'⟩ :=
    (headerVerified_iff_success OneBlock.proofsSupported_gateway (OneBlock.node [1] 1)).1
      _ _ _ _ _ _ _ hfailure
  obtain ⟨hnone, haddress⟩ :=
    (headerVerified_iff_success OneBlock.proofsSupported_gateway OneBlock.deployNode).2
      (OneBlock.context [1]) "d" "[]" "0x00" [] OneBlock.draws []
  obtain ⟨signed, deployed, hdeploy, -⟩ := haddress _ OneBlock.outcome_deploy
  exact ⟨OneBlock.proofsSupported_gateway,
    ⟨_, _, blocks, receipt, hsend, rfl, hverified.mpr rfl⟩,
    ⟨_, _, blocks', receipt', hfailure, hcode, hname, fun h => hcode (hverified'.mp h)⟩,
    OneBlock.outcome_deploy, signed, deployed, hdeploy, fun blocks => hnone blocks deployed⟩

/-- An outcome can be reported of a receipt that was not verified. -/
theorem sendTransaction_believes_failure :
    ¬ ∀ (g : Gateway) (node : Node) (context : RequestContext) (request : TransactionRequest)
        (byProxy : Bool) (draws : Draws) (before after : History) (response : TransactionResponse),
      g.proofsSupported = true →
      outcome (g.sendTransaction node context request byProxy draws) before =
        (.ok response, after) →
      ∃ blocks receipt, context.blocks = some blocks ∧
        HeaderVerified g node blocks before after receipt := by
  intro hall
  obtain ⟨blocks, receipt, -, hverified⟩ := hall _ _ _ _ _ _ _ _ _
    OneBlock.proofsSupported_gateway (OneBlock.outcome_sendTransaction_failure [1])
  refine not_headerVerified (List.nil_append _).symm ?_ hverified
  simp [IsOfTransaction]

end LedgerGateway.Gateway

import LedgerGateway.Proofs.Gateway.Soundness

/-!
# Blocks that were asked for

The height goes to the node as bytes, and the node is asked for that height. What it answers with is
accepted as the block, whatever number stands in it: no step compares the two. So the block is the one
that was asked for when the node's answer says so, and only then, and the proofs for a height are checked
against the header in the node's answer.
-/

namespace LedgerGateway

open Exchange Json Text

/-! ## Blocks in the answers of a node -/

namespace LedgerBlock

/-- What the router sees of a block that was reported with these bytes. -/
def shown (ledger : LedgerBlock) (raw : Bytes) (onlyHeader : Bool) : Block :=
  ⟨ledger.header, if onlyHeader then [] else ledger.transactionHashes, raw⟩

theorem number_shown (ledger : LedgerBlock) (raw : Bytes) (onlyHeader : Bool) :
    (ledger.shown raw onlyHeader).number = ledger.number := rfl

end LedgerBlock

theorem Block.ofLedger_eq_ok {raw : Bytes} {block : Block} :
    ofLedger raw = .ok block ↔
      ∃ ledger, decodeBytes LedgerBlock.decoder raw = .ok ledger ∧ ledger.shown raw false = block := by
  rw [ofLedger, except_bind_eq_ok]
  simp only [pure, Except.pure, Except.ok.injEq]
  rfl

namespace Gateway

/-- The node has answered for the height with a block. -/
structure BlockAnswered (node : Node) (before : History) (number : UInt64) (raw : Bytes)
    (ledger : LedgerBlock) : Prop where
  answered : node.block before number false = .ok (some raw)
  read : decodeBytes LedgerBlock.decoder raw = .ok ledger

section

variable {node : Node} {number : UInt64} {before after : History} {block : Block}

/-- A block is accepted exactly if it can be read from the node's answer. -/
theorem getBlock_eq_ok {onlyHeader : Bool} :
    outcome (getBlock node number onlyHeader) before = (.ok block, after) ↔
      ∃ raw ledger, BlockAnswered node before number raw ledger ∧
        ledger.shown raw onlyHeader = block ∧ before ++ [.block number false] = after := by
  rw [getBlock, outcome_bind_eq_ok]
  simp only [request_eq_ok (Inquiry.ofRequest_block number), Node.answer_block,
    outcome_liftM_bind_eq_ok, mapError_eq_ok, Block.ofLedger_eq_ok, outcome_pure, Prod.mk.injEq,
    Except.ok.injEq]
  constructor
  · rintro ⟨raw, _, ⟨hraw, rfl⟩, _, ⟨ledger, hread, rfl⟩, rfl, rfl⟩
    refine ⟨raw, ledger, ⟨hraw, hread⟩, ?_, rfl⟩
    cases onlyHeader <;> rfl
  · rintro ⟨raw, ledger, ⟨hraw, hread⟩, rfl, rfl⟩
    refine ⟨raw, _, ⟨hraw, rfl⟩, _, ⟨ledger, hread, rfl⟩, ?_, rfl⟩
    cases onlyHeader <;> rfl

/-- A node that is trusted for blocks gives the one that can be read from its answer. -/
theorem askBlock_node_eq_ok :
    outcome (BlockSource.node.askBlock node number) before = (.ok block, after) ↔
      ∃ raw ledger, BlockAnswered node before number raw ledger ∧
        ledger.shown raw false = block ∧ before ++ [.block number false] = after := by
  have hr := Inquiry.ofRequest_block number
  rcases hanswer : outcome (node.answer (.block number)) before with ⟨f | raw, middle⟩
  case error =>
    rw [BlockSource.outcome_askBlock_node (Node.handle_of_error hr hanswer), f.isSuccess_failure]
    constructor
    · intro h
      cases h
    · rintro ⟨raw, ledger, ⟨hraw, -⟩, -⟩
      rw [Node.answer_block.mpr ⟨hraw, rfl⟩] at hanswer
      cases hanswer
  case ok =>
    have hok : (Response.success raw).isSuccess = true := rfl
    obtain ⟨hraw, rfl⟩ := Node.answer_block.mp hanswer
    rw [BlockSource.outcome_askBlock_node (Node.handle_of_ok hr hanswer), if_pos hok, Prod.mk.injEq,
      mapError_eq_ok]
    change Block.ofLedger raw = .ok block ∧ _ ↔ _
    rw [Block.ofLedger_eq_ok]
    constructor
    · rintro ⟨⟨ledger, hread, rfl⟩, rfl⟩
      exact ⟨raw, ledger, ⟨hraw, hread⟩, rfl, rfl⟩
    · rintro ⟨raw', ledger, ⟨hraw', hread⟩, rfl, rfl⟩
      rw [hraw, Except.ok.injEq, Option.some.injEq] at hraw'
      subst hraw'
      exact ⟨⟨ledger, hread, rfl⟩, rfl⟩

/-! ## Heights that were asked for -/

/-- How a block that was accepted for a height is bound to it. -/
structure BoundToHeight (node : Node) (number : UInt64) (onlyHeader : Bool)
    (before after : History) (block : Block) (ledger : LedgerBlock) : Prop where
  /-- The node was asked for the height, and for nothing else. -/
  asked : before ++ [.block number false] = after
  answered : BlockAnswered node before number block.rawBytes ledger
  shown : ledger.shown block.rawBytes onlyHeader = block
  /-- The block is the one that was asked for if the answer says so, and only then. -/
  agrees : block.number = number ↔ ledger.number = number
  /-- The same answer is accepted for every other height. -/
  unchecked : ∀ node' number' before',
    node'.block before' number' false = .ok (some block.rawBytes) →
    outcome (getBlock node' number' onlyHeader) before' =
        (.ok block, before' ++ [.block number' false]) ∧
      (onlyHeader = false → outcome (BlockSource.node.askBlock node' number') before' =
        (.ok block, before' ++ [.block number' false]))

theorem BlockAnswered.boundToHeight {raw : Bytes} {ledger : LedgerBlock}
    (h : BlockAnswered node before number raw ledger) (onlyHeader : Bool) :
    BoundToHeight node number onlyHeader before (before ++ [.block number false])
      (ledger.shown raw onlyHeader) ledger where
  asked := rfl
  answered := h
  shown := rfl
  agrees := by rw [ledger.number_shown]
  unchecked := by
    intro node' number' before' hraw
    refine ⟨getBlock_eq_ok.mpr ⟨raw, ledger, ⟨hraw, h.read⟩, rfl, rfl⟩, ?_⟩
    rintro rfl
    exact askBlock_node_eq_ok.mpr ⟨raw, ledger, ⟨hraw, h.read⟩, rfl, rfl⟩

theorem boundToHeight_of_getBlock {onlyHeader : Bool}
    (h : outcome (getBlock node number onlyHeader) before = (.ok block, after)) :
    ∃ ledger, BoundToHeight node number onlyHeader before after block ledger := by
  obtain ⟨raw, ledger, hanswered, rfl, rfl⟩ := getBlock_eq_ok.mp h
  exact ⟨ledger, hanswered.boundToHeight onlyHeader⟩

theorem boundToHeight_of_askBlock
    (h : outcome (BlockSource.node.askBlock node number) before = (.ok block, after)) :
    ∃ ledger, BoundToHeight node number false before after block ledger := by
  obtain ⟨raw, ledger, hanswered, rfl, rfl⟩ := askBlock_node_eq_ok.mp h
  exact ⟨ledger, hanswered.boundToHeight false⟩

end

/-- A block has the number in the node's answer, and no step compares it with the height that was asked
for; nor does a check of proofs, which takes the header in that answer. -/
theorem blocks_boundToHeight {g : Gateway} (hg : g.proofsSupported = true) (node : Node)
    (number : UInt64) (before after : History) :
    (∀ onlyHeader block,
      outcome (getBlock node number onlyHeader) before = (.ok block, after) →
      ∃ ledger, BoundToHeight node number onlyHeader before after block ledger) ∧
    (∀ block, outcome (BlockSource.node.askBlock node number) before = (.ok block, after) →
      ∃ ledger, BoundToHeight node number false before after block ledger) ∧
    (∀ proof, outcome (g.verifyProven node .node number proof) before = (.ok (), after) →
      ∃ block ledger, BoundToHeight node number false before after block ledger ∧
        g.BothProvenIn block proof) ∧
    ∀ receipt, outcome (g.verifySubmitted node .node receipt) before = (.ok (), after) →
      ∃ block ledger receiptProof txProof,
        BoundToHeight node receipt.blockNumber false before after block ledger ∧
        g.ProvenIn block receipt receiptProof txProof := by
  refine ⟨?getBlock, ?askBlock, ?proven, ?submitted⟩
  case getBlock => exact fun _ _ h => boundToHeight_of_getBlock h
  case askBlock => exact fun _ h => boundToHeight_of_askBlock h
  case proven =>
    intro proof h
    obtain ⟨block, hblock, hproven⟩ := (verifyProven_eq_ok hg).mp h
    obtain ⟨ledger, hbound⟩ := boundToHeight_of_askBlock hblock
    exact ⟨block, ledger, hbound, hproven⟩
  case submitted =>
    intro receipt h
    obtain ⟨block, receiptProof, txProof, hblock, -, -, hproven⟩ := (verifySubmitted_eq_ok hg).mp h
    obtain ⟨ledger, hbound⟩ := boundToHeight_of_askBlock hblock
    exact ⟨block, ledger, receiptProof, txProof, hbound, hproven⟩

namespace OneBlock

/-- The block of the transaction under a number, as a node reports it. -/
def ledgerBlock (hash : Bytes) (number : UInt64) : LedgerBlock where
  number := number
  transactionsRoot := (block hash).header.transactionRoot
  receiptsRoot := (block hash).header.receiptRoot

/-- A node that answers every height with this block. -/
def blockNode (hash : Bytes) (number : UInt64) : Node :=
  { node hash 0 with block := fun _ _ _ => .ok (some (ledgerBlock hash number).json.bytes) }

def shownBlock (hash : Bytes) (number : UInt64) : Block :=
  (ledgerBlock hash number).shown (ledgerBlock hash number).json.bytes false

theorem number_shownBlock (hash : Bytes) (number : UInt64) :
    (shownBlock hash number).number = number := rfl

theorem blockAnswered_blockNode (hash : Bytes) (number height : UInt64) (before : History) :
    BlockAnswered (blockNode hash number) before height (ledgerBlock hash number).json.bytes
      (ledgerBlock hash number) :=
  ⟨rfl, LedgerBlock.decodeBytes_json [] rfl⟩

theorem getBlock_blockNode (hash : Bytes) (number height : UInt64) (before : History) :
    outcome (getBlock (blockNode hash number) height false) before =
      (.ok (shownBlock hash number), before ++ [.block height false]) :=
  getBlock_eq_ok.mpr ⟨_, _, blockAnswered_blockNode hash number height before, rfl, rfl⟩

theorem askBlock_blockNode (hash : Bytes) (number height : UInt64) (before : History) :
    outcome (BlockSource.node.askBlock (blockNode hash number) height) before =
      (.ok (shownBlock hash number), before ++ [.block height false]) :=
  askBlock_node_eq_ok.mpr ⟨_, _, blockAnswered_blockNode hash number height before, rfl, rfl⟩

/-- The proofs lead to the roots of the block under whatever height it was asked for. -/
theorem verifyProven_blockNode (hash : Bytes) (number height : UInt64) (before : History) :
    outcome (gateway.verifyProven (blockNode hash number) .node height (proof hash 0)) before =
      (.ok (), before ++ [.block height false]) :=
  (verifyProven_eq_ok proofsSupported_gateway).mpr
    ⟨_, askBlock_blockNode hash number height before, verifyReceipt_block hash,
      verifyTransaction_block hash⟩

end OneBlock

/-- Block 8 is accepted as block 7, and the proofs for block 7 are checked against it. -/
theorem blocks_boundToHeight_oneBlock :
    OneBlock.gateway.proofsSupported = true ∧
    (∃ ledger, BoundToHeight (OneBlock.blockNode [1] 8) 7 false [] [.block 7 false]
      (OneBlock.shownBlock [1] 8) ledger) ∧
    ∃ block ledger, BoundToHeight (OneBlock.blockNode [1] 8) 7 false [] [.block 7 false] block
      ledger ∧ OneBlock.gateway.BothProvenIn block (OneBlock.proof [1] 0) := by
  obtain ⟨hget, -, hproven, -⟩ := blocks_boundToHeight OneBlock.proofsSupported_gateway
    (OneBlock.blockNode [1] 8) 7 [] [.block 7 false]
  exact ⟨OneBlock.proofsSupported_gateway, hget _ _ (OneBlock.getBlock_blockNode [1] 8 7 []),
    hproven _ (OneBlock.verifyProven_blockNode [1] 8 7 [])⟩

/-- A block can be accepted that is not the one that was asked for, and proofs for one height checked
against the header of another. -/
theorem blocks_accept_other :
    (¬ ∀ (node : Node) (number : UInt64) (onlyHeader : Bool) (before after : History)
        (block : Block),
      outcome (getBlock node number onlyHeader) before = (.ok block, after) →
      block.number = number) ∧
    (¬ ∀ (node : Node) (number : UInt64) (before after : History) (block : Block),
      outcome (BlockSource.node.askBlock node number) before = (.ok block, after) →
      block.number = number) ∧
    ¬ ∀ (g : Gateway) (node : Node) (number : UInt64) (before after : History)
        (proof : TransactionProof),
      g.proofsSupported = true →
      outcome (g.verifyProven node .node number proof) before = (.ok (), after) →
      ∃ block, outcome (BlockSource.node.askBlock node number) before = (.ok block, after) ∧
        block.number = number := by
  have hnumber : (OneBlock.shownBlock [1] 8).number ≠ 7 := by
    rw [OneBlock.number_shownBlock]
    decide
  refine ⟨fun hall => ?getBlock, fun hall => ?askBlock, fun hall => ?proven⟩
  case getBlock => exact hnumber (hall _ _ _ _ _ _ (OneBlock.getBlock_blockNode [1] 8 7 []))
  case askBlock => exact hnumber (hall _ _ _ _ _ (OneBlock.askBlock_blockNode [1] 8 7 []))
  case proven =>
    obtain ⟨block, hblock, hseven⟩ := hall _ _ _ _ _ _ OneBlock.proofsSupported_gateway
      (OneBlock.verifyProven_blockNode [1] 8 7 [])
    rw [OneBlock.askBlock_blockNode] at hblock
    cases hblock
    exact hnumber hseven

end Gateway

end LedgerGateway

import LedgerGateway.Proofs.Gateway.Soundness
import LedgerGateway.Proofs.Proof.Recutting

/-!
# Which receipt goes with a transaction

The receipt and the transaction in an answer are proven apart, each at the index that it names
itself. No check compares the two indexes, so every receipt of a block is accepted beside every
transaction of it. They belong together if the node's answer gives them one index, and only then.
-/

namespace LedgerGateway.Gateway

open Exchange Text

/-! ## Answers -/

/-- The receipt and the transaction name one index; without one it is zero. -/
def SameIndex (proof : TransactionProof) : Prop :=
  proof.receipt.receipt.transactionIndex.getD 0 =
    proof.transaction.transaction.transactionIndex.getD 0

/-- The leaves of the receipt and of the transaction both start with the index. -/
def LeavesAt (g : Gateway) (proof : TransactionProof) (index : UInt64) : Prop :=
  (∃ digest, Merkle.receiptLeaf g.profile.hash proof.receipt.receipt g.receiptEncoding =
    .ok (Rlp.encodeNat index.toNat ++ digest)) ∧
  ∃ bytes, Merkle.transactionLeaf proof.transaction.transaction.transactionIndex
    proof.transaction.transaction.hash = .ok (Rlp.encodeNat index.toNat ++ bytes)

/-- Two proven leaves start with one index exactly if the receipt and the transaction name it. -/
theorem sameIndex_iff {g : Gateway} {block : Block} {proof : TransactionProof}
    (h : g.BothProvenIn block proof) : SameIndex proof ↔ ∃ index, LeavesAt g proof index := by
  obtain ⟨_, _, -, hreceipt, -⟩ := Merkle.verifyReceipt_eq_true.mp h.receiptProven
  obtain ⟨encoded, hencode, hreceiptLeaf⟩ := except_bind_eq_ok.mp hreceipt
  obtain ⟨_, _, -, htx, -⟩ := Merkle.verifyTransaction_eq_true.mp h.transactionProven
  obtain ⟨bytes, hbytes, htxLeaf⟩ := except_bind_eq_ok.mp htx
  rw [← hreceiptLeaf] at hreceipt
  rw [← htxLeaf] at htx
  constructor
  · intro hsame
    refine ⟨proof.receipt.receipt.transactionIndex.getD 0, ⟨_, hreceipt⟩, bytes, ?_⟩
    rw [hsame]
    exact htx
  · rintro ⟨index, ⟨digest, hdigest⟩, bytes', hbytes'⟩
    have hfirst := Rlp.encodeNat_append_inj (Except.ok.inj (hreceipt.symm.trans hdigest))
    have hsecond := Rlp.encodeNat_append_inj (Except.ok.inj (htx.symm.trans hbytes'))
    rw [SameIndex, hfirst.1, hsecond.1]

/-- The output of a proven receipt can be read. -/
theorem output_of_verifyReceipt {g : Gateway} {root : String} {receipt : Receipt}
    {proof : MerkleProof}
    (h : Merkle.verifyReceipt g.profile.hash root receipt proof g.receiptEncoding = .ok true) :
    ∃ output, readHex receipt.output = .ok output := by
  obtain ⟨output, hdecode, -⟩ := ReceiptEncoding.hashesOutput_of_verifyReceipt h
  exact ⟨output, readHex_of_decode hdecode⟩

/-- How the receipt of a verified transaction is bound to the transaction. -/
structure BoundToTransaction (g : Gateway) (node : Node) (hash : String) (number : UInt64)
    (blocks : BlockSource) (before after : History) (v : VerifiedTransaction)
    (proof : TransactionProof) (block : Block) : Prop where
  /-- The node's answer was proven. -/
  proven : AskProven g node hash number blocks before after v proof block
  /-- The outcome is that of the receipt in the answer. -/
  responds : ∃ output, RespondsTo g proof.receipt.receipt output v.response
  /-- The receipt and the transaction were proven at one index if the answer gives them one, and only
  then. -/
  agrees : SameIndex proof ↔ ∃ index, LeavesAt g proof index
  /-- Every other receipt of the block is accepted beside the same transaction, and its outcome is
  the one that is reported. -/
  unchecked : ∀ other node' blocks' before' after',
    Merkle.verifyReceipt g.profile.hash block.header.receiptRoot other.receipt other.receiptProof
      g.receiptEncoding = .ok true →
    ProofAnswered node' (trim hash) before' ⟨proof.transaction, other⟩ →
    outcome (blocks'.askBlock node' number)
      (before' ++ [.transaction (trim hash)] ++ [.receipt (trim hash)]) = (.ok block, after') →
    ∃ v' output', outcome (g.getTransaction node' hash number blocks') before' =
        (.ok v', after') ∧
      v'.txBytes = v.txBytes ∧ RespondsTo g other.receipt output' v'.response

/-- A receipt is reported for a transaction because the node has answered with both, and no check
compares the index of the one with that of the other. -/
theorem getTransaction_boundToTransaction {g : Gateway} (hg : g.proofsSupported = true)
    {node : Node} {hash : String} {number : UInt64} {blocks : BlockSource} {before after : History}
    {v : VerifiedTransaction}
    (h : outcome (g.getTransaction node hash number blocks) before = (.ok v, after)) :
    ∃ proof block, BoundToTransaction g node hash number blocks before after v proof block := by
  obtain ⟨proof, block, hblank, hanswered, hblock, hproven, hreport⟩ :=
    (getTransaction_eq_ok hg).mp h
  refine ⟨proof, block, askProven_of_report hanswered hblock hproven hreport,
    respondsTo_of_report hreport, sameIndex_iff hproven, ?_⟩
  intro other node' blocks' before' after' hother hanswered' hblock'
  obtain ⟨hinput, -⟩ := exists_report_iff.mp ⟨v, hreport⟩
  obtain ⟨v', hreport'⟩ : ∃ v', g.report hash number ⟨proof.transaction, other⟩ = .ok v' :=
    exists_report_iff.mpr ⟨hinput, output_of_verifyReceipt hother⟩
  obtain ⟨output', hresponds⟩ := respondsTo_of_report hreport'
  refine ⟨v', output', ?_, ?_, hresponds⟩
  · exact (getTransaction_eq_ok hg).mpr ⟨⟨proof.transaction, other⟩, block, hblank, hanswered',
      hblock', ⟨hother, hproven.transactionProven⟩, hreport'⟩
  · rw [(reports_of_report hreport').bytes.2, (reports_of_report hreport).bytes.2]

/-! ## A block of two transactions -/

/-- A node that answers every question with one transaction and one receipt. -/
def answering (proof : TransactionProof) : Node where
  height := fun _ => .ok 6
  block := fun _ _ _ => .ok none
  call := fun _ _ _ _ => .ok {}
  submit := fun _ _ => .ok none
  transaction := fun _ _ => .ok (some proof.transaction)
  receipt := fun _ _ => .ok (some proof.receipt)

/-- A proven answer is reported whatever it is asked for. -/
theorem outcome_answering {g : Gateway} (hg : g.proofsSupported = true) {proof : TransactionProof}
    {block : Block} {hash : String} {number : UInt64} {v : VerifiedTransaction}
    (hhash : (trim hash).isEmpty = false) (hcontent : proof.receipt.receipt.isEmpty = false)
    (hproven : g.BothProvenIn block proof) (hreport : g.report hash number proof = .ok v) :
    outcome (g.getTransaction (answering proof) hash number (.independent fun _ _ => .ok block)) [] =
      (.ok v, [.transaction (trim hash), .receipt (trim hash), .trustedBlock number]) :=
  (getTransaction_eq_ok hg).mpr ⟨proof, block, hhash, ⟨rfl, rfl, hcontent⟩, rfl, hproven, hreport⟩

namespace TwoInBlock

open OneBlock (gateway encodedStatus encode_status)

/-- The bytes of the hash of the transaction at an index. -/
def hashAt (index : UInt64) : Bytes := List.replicate 32 index.toUInt8

def transaction (index : UInt64) : LedgerTransaction :=
  { hash := Hex.encode (hashAt index), transactionIndex := some index, blockNumber := 7 }

def receipt (index status : UInt64) : Receipt :=
  { transactionHash := Hex.encode (hashAt index), transactionIndex := some index, blockNumber := 7,
    status }

def transactionLeaf (index : UInt64) : Bytes := Rlp.encodeNat index.toNat ++ hashAt index

def receiptLeaf (index status : UInt64) : Bytes :=
  Rlp.encodeNat index.toNat ++ (gateway.profile.hash (encodedStatus status)).1

/-- The first transaction has failed and the second one has succeeded. -/
def block : Block where
  header :=
    { number := 7, hash := "", prevHash := "", stateRoot := ""
      transactionRoot := (gateway.profile.hash (transactionLeaf 0 ++ transactionLeaf 1)).hex
      receiptRoot := (gateway.profile.hash (receiptLeaf 0 1 ++ receiptLeaf 1 0)).hex }
  transactionHashes := []

def first : TransactionWithProof := ⟨transaction 0, Merkle.oneLevel [] [transactionLeaf 1]⟩

def secondReceipt : ReceiptWithProof := ⟨receipt 1 0, Merkle.oneLevel [receiptLeaf 0 1] []⟩

/-- The first transaction and the receipt of the second are both in the block. -/
theorem bothProvenIn_block : gateway.BothProvenIn block ⟨first, secondReceipt⟩ := by
  have hleaf : Merkle.receiptLeaf gateway.profile.hash (receipt 1 0) gateway.receiptEncoding =
      .ok (receiptLeaf 1 0) := by
    rw [Merkle.receiptLeaf, receipt, encode_status]
    rfl
  constructor
  · exact Merkle.verifyReceipt_oneLevel hleaf (by simp)
  · exact Merkle.verifyTransaction_oneLevel (by simp [transactionLeaf])

/-- The failed transaction is reported with the outcome of the other one. -/
theorem outcome_getTransaction :
    ∃ v, outcome (gateway.getTransaction (answering ⟨first, secondReceipt⟩)
      (Hex.encode (hashAt 0)) 7 (.independent fun _ _ => .ok block)) [] =
        (.ok v, [.transaction (trim (Hex.encode (hashAt 0))),
          .receipt (trim (Hex.encode (hashAt 0))), .trustedBlock 7]) := by
  obtain ⟨v, hreport⟩ : ∃ v, gateway.report (Hex.encode (hashAt 0)) 7 ⟨first, secondReceipt⟩ =
      .ok v := exists_report_iff.mpr ⟨⟨[], OneBlock.readHex_empty⟩, [], OneBlock.readHex_empty⟩
  exact ⟨v, outcome_answering OneBlock.proofsSupported_gateway
    (OneBlock.isEmpty_trim_encode _) rfl bothProvenIn_block hreport⟩

end TwoInBlock

/-- The failed transaction is bound to no receipt but by the node's answer. -/
theorem getTransaction_boundToTransaction_twoInBlock :
    OneBlock.gateway.proofsSupported = true ∧
    ∃ v after,
      outcome (OneBlock.gateway.getTransaction
        (answering ⟨TwoInBlock.first, TwoInBlock.secondReceipt⟩) (Hex.encode (TwoInBlock.hashAt 0)) 7
        (.independent fun _ _ => .ok TwoInBlock.block)) [] = (.ok v, after) ∧
      ∃ proof block, BoundToTransaction OneBlock.gateway
        (answering ⟨TwoInBlock.first, TwoInBlock.secondReceipt⟩) (Hex.encode (TwoInBlock.hashAt 0)) 7
        (.independent fun _ _ => .ok TwoInBlock.block) [] after v proof block := by
  obtain ⟨v, hget⟩ := TwoInBlock.outcome_getTransaction
  exact ⟨OneBlock.proofsSupported_gateway, v, _, hget,
    getTransaction_boundToTransaction OneBlock.proofsSupported_gateway hget⟩

/-- A transaction can be reported with the receipt of another one. -/
theorem getTransaction_reports_otherReceipt :
    ¬ ∀ (g : Gateway) (node : Node) (hash : String) (number : UInt64) (blocks : BlockSource)
        (before after : History) (v : VerifiedTransaction) (proof : TransactionProof),
      g.proofsSupported = true →
      outcome (g.getTransaction node hash number blocks) before = (.ok v, after) →
      ProofAnswered node (trim hash) before proof → SameIndex proof := by
  intro hall
  obtain ⟨v, hget⟩ := TwoInBlock.outcome_getTransaction
  have hsame : SameIndex ⟨TwoInBlock.first, TwoInBlock.secondReceipt⟩ :=
    hall _ _ _ _ _ _ _ v _ OneBlock.proofsSupported_gateway hget ⟨rfl, rfl, rfl⟩
  have hindex : (1 : UInt64) = 0 := hsame
  cases hindex

end LedgerGateway.Gateway

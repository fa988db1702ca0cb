import LedgerGateway.Proofs.Proof.Content

/-!
# What an accepted proof says

A proof is accepted if root, leaf and path can be read and the path leads from the leaf to the root.
The leaf of a receipt has the hash of its encoding, in which the output stands as the sixth item.
-/

namespace LedgerGateway

open Text

/-! ## Fields -/

namespace HexField

theorem decode_eq_ok {field value : String} {bytes : Bytes} :
    decode field value = .ok bytes ↔ Hex.decode (Hex.stripLowerMark (trim value)) = .ok bytes := by
  unfold decode
  simp only
  split
  · rename_i heq
    simp [heq]
  · rename_i heq
    simp [heq]

/-- Bytes behind a mark are read back. -/
@[simp] theorem decode_encode (field : String) (bytes : Bytes) :
    decode field (Hex.encode bytes) = .ok bytes := by
  rw [decode_eq_ok, Hex.trim_encode, Hex.stripLowerMark_encode, Hex.decode_digits]

end HexField

namespace Merkle

variable {hash : Bytes → Digest} {proof : MerkleProof} {trusted : Digest}

@[simp] theorem parseRoot_hex (field : String) (d : Digest) : parseRoot field d.hex = .ok d := by
  have hdecode : HexField.decode field d.hex = .ok d.1 := HexField.decode_encode field d.1
  have hsize : SizedBytes.ofBytes? 32 d.1 = some d := by simp [SizedBytes.ofBytes?, d.2]
  simp [parseRoot, hdecode, hsize, bind, Except.bind]

/-- Root, leaf and path are read in turn, and the path is compared with the root. -/
theorem leads_eq_true {readRoot : Except ProofError Digest} {readLeaf : Except ProofError Bytes} :
    (do
      let trusted ← readRoot
      let leaf ← readLeaf
      let computed ← root hash leaf proof
      pure (computed == trusted)) = Except.ok true ↔
      ∃ trusted leaf, readRoot = .ok trusted ∧ readLeaf = .ok leaf ∧
        root hash leaf proof = .ok trusted := by
  simp only [except_bind_eq_ok, pure, Except.pure, Except.ok.injEq, beq_iff_eq]
  constructor
  · rintro ⟨trusted, hroot, leaf, hleaf, _, hpath, rfl⟩
    exact ⟨_, leaf, hroot, hleaf, hpath⟩
  · rintro ⟨trusted, leaf, hroot, hleaf, hpath⟩
    exact ⟨trusted, hroot, leaf, hleaf, _, hpath, rfl⟩

theorem verifyReceipt_eq_true {text : String} {receipt : Receipt} {e : ReceiptEncoding} :
    verifyReceipt hash text receipt proof e = .ok true ↔
      ∃ trusted leaf, parseRoot "receipts root" text = .ok trusted ∧
        receiptLeaf hash receipt e = .ok leaf ∧ root hash leaf proof = .ok trusted :=
  leads_eq_true

theorem verifyTransaction_eq_true {text txHash : String} {index : Option UInt64} :
    verifyTransaction hash text txHash index proof = .ok true ↔
      ∃ trusted leaf, parseRoot "transactions root" text = .ok trusted ∧
        transactionLeaf index txHash = .ok leaf ∧ root hash leaf proof = .ok trusted :=
  leads_eq_true

/-- One level without siblings leads from a leaf to its hash. -/
theorem root_single (leaf : Bytes) : root hash leaf [{}] = .ok (hash leaf) := by
  simp [root, levelInput, siblingRow, climb, bind, Except.bind, pure, Except.pure]

/-- The hash of an accepted transaction can be read. -/
theorem decode_of_verifyTransaction {text txHash : String} {index : Option UInt64}
    (h : verifyTransaction hash text txHash index proof = .ok true) :
    ∃ bytes, HexField.decode "transaction hash" txHash = .ok bytes := by
  obtain ⟨_, _, -, hleaf, -⟩ := verifyTransaction_eq_true.mp h
  obtain ⟨bytes, hbytes, -⟩ := except_bind_eq_ok.mp hleaf
  exact ⟨bytes, hbytes⟩

end Merkle

/-! ## Outputs -/

namespace ReceiptEncoding

/-- The bytes stand as the output in what the leaf of a receipt hashes. -/
def HashesOutput (e : ReceiptEncoding) (receipt : Receipt) (output : Bytes) : Prop :=
  ∃ items, e.encode receipt = .ok (Rlp.Item.list items).encode ∧ items[5]? = some (.bytes output)

theorem output_of_item {e : ReceiptEncoding} {receipt : Receipt} {item : Rlp.Item}
    (h : e.item receipt = .ok item) :
    ∃ output items, HexField.decode "output" receipt.output = .ok output ∧ item = .list items ∧
      items[5]? = some (.bytes output) := by
  obtain ⟨c, hc, rfl⟩ := shows_of_item h
  exact ⟨c.output, _, hc.output, rfl, rfl⟩

/-- The output that an accepted receipt hashes is the one that it names. -/
theorem hashesOutput_of_verifyReceipt {hash : Bytes → Digest} {text : String} {receipt : Receipt}
    {proof : MerkleProof} {e : ReceiptEncoding}
    (h : Merkle.verifyReceipt hash text receipt proof e = .ok true) :
    ∃ output, HexField.decode "output" receipt.output = .ok output ∧
      e.HashesOutput receipt output := by
  obtain ⟨_, _, -, hleaf, -⟩ := Merkle.verifyReceipt_eq_true.mp h
  obtain ⟨_, hencode, -⟩ := except_bind_eq_ok.mp hleaf
  obtain ⟨item, hitem, -⟩ := except_bind_eq_ok.mp hencode
  obtain ⟨output, items, houtput, rfl, hsixth⟩ := output_of_item hitem
  refine ⟨output, houtput, items, ?_, hsixth⟩
  rw [encode, hitem]
  rfl

end ReceiptEncoding

end LedgerGateway

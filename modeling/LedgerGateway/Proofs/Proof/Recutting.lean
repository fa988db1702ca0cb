import LedgerGateway.Hash.Keccak
import LedgerGateway.Proofs.Proof.Levels

/-!
# Proofs of any shape

A sibling may have any width, so the bytes of a level can be cut in more than one way: what is the
end of a sibling in one proof and the start of the next one may be a leaf in the other. Two
transactions that are accepted at one index are the same, or two levels collide, or the levels are
the same down to one input that is cut anew. The last cannot be left out: `verifyTransaction_recut`
reads a second hash out of a tree of two leaves.
-/

namespace LedgerGateway.Merkle

variable {hash : Bytes → Digest}

/-! ## Trees of one level -/

theorem siblingBytes_encode (bytes : Bytes) : siblingBytes (Hex.encode bytes) = .ok bytes := by
  have hdecode : Hex.decode (Hex.stripMarks (Text.trim (Hex.encode bytes))) = .ok bytes := by
    rw [Hex.trim_encode, Hex.stripMarks_encode, Hex.decode_digits]
  unfold siblingBytes
  simp only [hdecode]

theorem siblingRow_map_encode (parts : List Bytes) :
    siblingRow (parts.map Hex.encode) = .ok parts.flatten := by
  induction parts with
  | nil => rfl
  | cons part parts ih =>
    rw [List.map_cons, siblingRow, siblingBytes_encode, ih, List.flatten_cons]
    rfl

/-- A proof of one level with the given siblings. -/
def oneLevel (left right : List Bytes) : MerkleProof := [⟨left.map Hex.encode, right.map Hex.encode⟩]

theorem levels_oneLevel (leaf : Bytes) (left right : List Bytes) :
    levels hash leaf (oneLevel left right) = .ok [⟨left.flatten, leaf, right.flatten⟩] :=
  levels_cons_eq_ok.mpr
    ⟨_, _, [], siblingRow_map_encode left, siblingRow_map_encode right, rfl, rfl⟩

theorem transactionLeaf_encode (index : UInt64) (tx : Bytes) :
    transactionLeaf (some index) (Hex.encode tx) = .ok (Rlp.encodeNat index.toNat ++ tx) := by
  rw [transactionLeaf, HexField.decode_encode]
  rfl

theorem transactionLevels_oneLevel (index : UInt64) (tx : Bytes) (left right : List Bytes) :
    transactionLevels hash (some index) (Hex.encode tx) (oneLevel left right) =
      .ok [⟨left.flatten, Rlp.encodeNat index.toNat ++ tx, right.flatten⟩] := by
  rw [transactionLevels, transactionLeaf_encode]
  exact levels_oneLevel _ left right

theorem root_oneLevel (leaf : Bytes) (left right : List Bytes) :
    root hash leaf (oneLevel left right) = .ok (hash (left.flatten ++ leaf ++ right.flatten)) := by
  have hinput : levelInput ⟨left.map Hex.encode, right.map Hex.encode⟩ leaf =
      .ok (left.flatten ++ leaf ++ right.flatten) :=
    levelInput_eq_ok.mpr ⟨_, _, siblingRow_map_encode left, siblingRow_map_encode right, rfl⟩
  exact except_bind_eq_ok.mpr ⟨_, hinput, rfl⟩

/-- What is hashed on the level of a transaction leads to its root. -/
theorem verifyTransaction_oneLevel {index : UInt64} {tx input : Bytes} {left right : List Bytes}
    (h : left.flatten ++ (Rlp.encodeNat index.toNat ++ tx) ++ right.flatten = input) :
    verifyTransaction hash (hash input).hex (Hex.encode tx) (some index) (oneLevel left right) =
      .ok true :=
  verifyTransaction_eq_true.mpr
    ⟨_, _, parseRoot_hex _ _, transactionLeaf_encode index tx, h ▸ root_oneLevel _ left right⟩

/-- What is hashed on the level of a receipt leads to its root. -/
theorem verifyReceipt_oneLevel {receipt : Receipt} {e : ReceiptEncoding} {leaf input : Bytes}
    {left right : List Bytes} (hleaf : receiptLeaf hash receipt e = .ok leaf)
    (h : left.flatten ++ leaf ++ right.flatten = input) :
    verifyReceipt hash (hash input).hex receipt (oneLevel left right) e = .ok true :=
  verifyReceipt_eq_true.mpr ⟨_, _, parseRoot_hex _ _, hleaf, h ▸ root_oneLevel _ left right⟩

/-! ## A tree cut anew -/

/-- Whatever the hash function, a tree of two transactions has, at the index of the second, also the
hash that starts behind the index byte that the first one happens to begin with. -/
theorem verifyTransaction_recut (hash : Bytes → Digest) (tail second : Bytes) :
    let input := 0x80 :: 1 :: tail ++ 1 :: second
    verifyTransaction hash (hash input).hex (Hex.encode second) (some 1)
        (oneLevel [0x80 :: 1 :: tail] []) = .ok true ∧
      verifyTransaction hash (hash input).hex (Hex.encode (tail ++ [1])) (some 1)
        (oneLevel [[0x80]] [second]) = .ok true := by
  intro input
  have hone : Rlp.encodeNat 1 = [1] := rfl
  constructor
  · exact verifyTransaction_oneLevel (by simp [input, hone])
  · exact verifyTransaction_oneLevel (by simp [input, hone])

namespace TwoLeaves

/-- The hash of the first transaction, and what the index of the second can be taken for. -/
def first : Digest := ⟨1 :: List.replicate 31 1, rfl⟩

/-- The hash of the second transaction. -/
def second : Digest := ⟨List.replicate 32 2, rfl⟩

/-- The root over both. -/
def top : Digest := Keccak.hash (0x80 :: first.1 ++ 1 :: second.1)

/-- The second transaction beside the leaf of the first. -/
def honest : MerkleProof := oneLevel [0x80 :: first.1] []

/-- The hash of the first transaction, cut out of the same bytes a byte later. -/
def recut : MerkleProof := oneLevel [[0x80]] [second.1]

theorem verifyTransaction_honest :
    verifyTransaction Keccak.hash top.hex second.hex (some 1) honest = .ok true :=
  (verifyTransaction_recut Keccak.hash (List.replicate 31 1) second.1).1

theorem verifyTransaction_forged :
    verifyTransaction Keccak.hash top.hex first.hex (some 1) recut = .ok true :=
  (verifyTransaction_recut Keccak.hash (List.replicate 31 1) second.1).2

end TwoLeaves

/-! ## One transaction at an index -/

/-- A transaction leaf is wider than a digest. -/
theorem length_transactionLeaf {index : Option UInt64} {txHash : String} {leaf : Bytes} {d : Digest}
    (hleaf : transactionLeaf index txHash = .ok leaf)
    (hd : HexField.decode "transaction hash" txHash = .ok d.1) : 32 < leaf.length := by
  obtain ⟨bytes, hbytes, hpure⟩ := except_bind_eq_ok.mp hleaf
  obtain rfl : d.1 = bytes := Except.ok.inj (hd.symm.trans hbytes)
  obtain rfl : Rlp.encodeNat (index.getD 0).toNat ++ d.1 = leaf := Except.ok.inj hpure
  have hindex : 0 < (Rlp.encodeNat (index.getD 0).toNat).length := Rlp.length_encodeBytes_pos _
  rw [List.length_append, d.2]
  omega

/-- Two hashes that are accepted at one index are the same, or two levels collide, or the proofs cut
one input in two ways. -/
theorem verifyTransaction_oneHash (hash : Bytes → Digest) {text : String} {index : Option UInt64}
    {txHash₁ txHash₂ : String} {d₁ d₂ : Digest} {proof₁ proof₂ : MerkleProof}
    (h₁ : verifyTransaction hash text txHash₁ index proof₁ = .ok true)
    (h₂ : verifyTransaction hash text txHash₂ index proof₂ = .ok true)
    (hd₁ : HexField.decode "transaction hash" txHash₁ = .ok d₁.1)
    (hd₂ : HexField.decode "transaction hash" txHash₂ = .ok d₂.1) :
    ∃ levels₁ levels₂, transactionLevels hash index txHash₁ proof₁ = .ok levels₁ ∧
      transactionLevels hash index txHash₂ proof₂ = .ok levels₂ ∧
      (d₁ = d₂ ∨ Collide hash levels₁ levels₂ ∨ CutApart hash levels₁ levels₂) := by
  obtain ⟨trusted, leaf₁, ls₁, htrusted, hleaf₁, -, htx₁, hleads₁⟩ := leads_of_verifyTransaction h₁
  obtain ⟨trusted', leaf₂, ls₂, htrusted', hleaf₂, -, htx₂, hleads₂⟩ := leads_of_verifyTransaction h₂
  obtain rfl : trusted = trusted' := Except.ok.inj (htrusted.symm.trans htrusted')
  refine ⟨ls₁, ls₂, htx₁, htx₂, ?_⟩
  rcases hleads₁.eq_or_part hleads₂ with ⟨rfl, -⟩ | ⟨-, hwidth⟩ | ⟨l, m, hpart⟩
  · obtain ⟨-, bytes, hbytes₁, hbytes₂⟩ := transactionLeaf_inj hleaf₁ hleaf₂
    have h₁ : d₁.1 = bytes := Except.ok.inj (hd₁.symm.trans hbytes₁)
    have h₂ : d₂.1 = bytes := Except.ok.inj (hd₂.symm.trans hbytes₂)
    exact .inl (Subtype.ext (h₁.trans h₂.symm))
  · have hwide₁ := length_transactionLeaf hleaf₁ hd₁
    have hwide₂ := length_transactionLeaf hleaf₂ hd₂
    omega
  · rw [List.reverse_reverse, List.reverse_reverse] at hpart
    exact .inr hpart.collide_or_cutApart

open TwoLeaves

/-- The statement at the two leaves, where the same input is cut apart. -/
theorem verifyTransaction_oneHash_twoLeaves :
    verifyTransaction Keccak.hash top.hex second.hex (some 1) honest = .ok true ∧
    verifyTransaction Keccak.hash top.hex first.hex (some 1) recut = .ok true ∧
    HexField.decode "transaction hash" second.hex = .ok second.1 ∧
    HexField.decode "transaction hash" first.hex = .ok first.1 ∧
    ∃ levels₁ levels₂,
      transactionLevels Keccak.hash (some 1) second.hex honest = .ok levels₁ ∧
      transactionLevels Keccak.hash (some 1) first.hex recut = .ok levels₂ ∧
      (second = first ∨ Collide Keccak.hash levels₁ levels₂ ∨
        CutApart Keccak.hash levels₁ levels₂) := by
  have hsecond : HexField.decode "transaction hash" second.hex = .ok second.1 :=
    HexField.decode_encode _ _
  have hfirst : HexField.decode "transaction hash" first.hex = .ok first.1 :=
    HexField.decode_encode _ _
  exact ⟨verifyTransaction_honest, verifyTransaction_forged, hsecond, hfirst,
    verifyTransaction_oneHash Keccak.hash verifyTransaction_honest verifyTransaction_forged hsecond
      hfirst⟩

/-- Two hashes of 32 bytes are accepted at one index, and all levels hash the same input. -/
theorem verifyTransaction_twoHashes :
    verifyTransaction Keccak.hash top.hex second.hex (some 1) honest = .ok true ∧
    verifyTransaction Keccak.hash top.hex first.hex (some 1) recut = .ok true ∧
    HexField.decode "transaction hash" second.hex = .ok second.1 ∧
    HexField.decode "transaction hash" first.hex = .ok first.1 ∧
    second ≠ first ∧
    ∃ levels₁ levels₂,
      transactionLevels Keccak.hash (some 1) second.hex honest = .ok levels₁ ∧
      transactionLevels Keccak.hash (some 1) first.hex recut = .ok levels₂ ∧
      ∀ l ∈ levels₁ ++ levels₂, ∀ m ∈ levels₁ ++ levels₂, l.input = m.input := by
  refine ⟨verifyTransaction_honest, verifyTransaction_forged, HexField.decode_encode _ _,
    HexField.decode_encode _ _, by decide, _, _, transactionLevels_oneLevel 1 second.1 _ _,
    transactionLevels_oneLevel 1 first.1 _ _, ?_⟩
  decide

end LedgerGateway.Merkle

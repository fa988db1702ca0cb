import LedgerGateway.Hash.Keccak
import LedgerGateway.Proofs.Proof.Levels
import Mathlib.Data.List.Forall2

/-!
# Proofs that differ in their bytes

Siblings of the same widths cut every level at the same places, so what is hashed on a level is the
level. A transaction that was altered, or a sibling that was, therefore shows at the root, or two
levels have one hash.
-/

namespace LedgerGateway.Merkle

/-- Proofs of one shape, in which siblings at the same place are related. -/
def Alike (R : String → String → Prop) (proof₁ proof₂ : MerkleProof) : Prop :=
  List.Forall₂ (fun u v => List.Forall₂ R u.left v.left ∧ List.Forall₂ R u.right v.right)
    proof₁ proof₂

/-- Siblings of equally many bytes. -/
def SameWidth (s t : String) : Prop :=
  ∃ a b, siblingBytes s = .ok a ∧ siblingBytes t = .ok b ∧ a.length = b.length

def SameBytes (s t : String) : Prop := ∃ bytes, siblingBytes s = .ok bytes ∧ siblingBytes t = .ok bytes

variable {hash : Bytes → Digest}

/-! ## Rows of siblings -/

theorem siblingRow_cons_eq_ok {sibling : String} {rest : List String} {row : Bytes} :
    siblingRow (sibling :: rest) = .ok row ↔
      ∃ bytes tail, siblingBytes sibling = .ok bytes ∧ siblingRow rest = .ok tail ∧
        row = bytes ++ tail := by
  simp only [siblingRow, except_bind_eq_ok, pure, Except.pure, Except.ok.injEq]
  constructor
  · rintro ⟨bytes, hbytes, tail, htail, rfl⟩
    exact ⟨bytes, tail, hbytes, htail, rfl⟩
  · rintro ⟨bytes, tail, hbytes, htail, rfl⟩
    exact ⟨bytes, hbytes, tail, htail, rfl⟩

theorem length_siblingRow {ss ts : List String} {a b : Bytes} (hwidth : List.Forall₂ SameWidth ss ts)
    (ha : siblingRow ss = .ok a) (hb : siblingRow ts = .ok b) : a.length = b.length := by
  induction hwidth generalizing a b with
  | nil =>
    cases ha
    cases hb
    rfl
  | cons hst _ ih =>
    obtain ⟨x, a', hx, ha', rfl⟩ := siblingRow_cons_eq_ok.mp ha
    obtain ⟨y, b', hy, hb', rfl⟩ := siblingRow_cons_eq_ok.mp hb
    obtain ⟨x', y', hx', hy', hlen⟩ := hst
    obtain rfl : x' = x := Except.ok.inj (hx'.symm.trans hx)
    obtain rfl : y' = y := Except.ok.inj (hy'.symm.trans hy)
    rw [List.length_append, List.length_append, hlen, ih ha' hb']

/-- A row is cut into its siblings in one way, if their widths are given. -/
theorem sameBytes_of_siblingRow {ss ts : List String} {row : Bytes}
    (hwidth : List.Forall₂ SameWidth ss ts) (hs : siblingRow ss = .ok row)
    (ht : siblingRow ts = .ok row) : List.Forall₂ SameBytes ss ts := by
  induction hwidth generalizing row with
  | nil => exact .nil
  | cons hst _ ih =>
    obtain ⟨x, a, hx, ha, rfl⟩ := siblingRow_cons_eq_ok.mp hs
    obtain ⟨y, b, hy, hb, hrow⟩ := siblingRow_cons_eq_ok.mp ht
    obtain ⟨x', y', hx', hy', hlen⟩ := hst
    obtain rfl : x' = x := Except.ok.inj (hx'.symm.trans hx)
    obtain rfl : y' = y := Except.ok.inj (hy'.symm.trans hy)
    obtain ⟨rfl, rfl⟩ := List.append_inj hrow hlen
    exact .cons ⟨_, hx, hy⟩ (ih ha hb)

/-! ## Levels of one shape -/

def Level.SameCut (l m : Level) : Prop :=
  l.left.length = m.left.length ∧ l.right.length = m.right.length

theorem Level.SameCut.eq_of_input {l m : Level} (h : l.SameCut m) (hinput : l.input = m.input) :
    l = m := by
  obtain ⟨left, running, right⟩ := l
  obtain ⟨left', running', right'⟩ := m
  obtain ⟨hleft, hright⟩ := h
  obtain ⟨hfront, rfl⟩ := List.append_inj' hinput hright
  obtain ⟨rfl, rfl⟩ := List.append_inj hfront hleft
  rfl

theorem sameCut_of_levels {proof₁ proof₂ : MerkleProof} (hshape : Alike SameWidth proof₁ proof₂)
    {running₁ running₂ : Bytes} {ls₁ ls₂ : List Level}
    (h₁ : levels hash running₁ proof₁ = .ok ls₁) (h₂ : levels hash running₂ proof₂ = .ok ls₂) :
    List.Forall₂ Level.SameCut ls₁ ls₂ := by
  induction hshape generalizing running₁ running₂ ls₁ ls₂ with
  | nil =>
    cases h₁
    cases h₂
    exact .nil
  | cons hunit _ ih =>
    obtain ⟨left₁, right₁, above₁, hleft₁, hright₁, habove₁, rfl⟩ := levels_cons_eq_ok.mp h₁
    obtain ⟨left₂, right₂, above₂, hleft₂, hright₂, habove₂, rfl⟩ := levels_cons_eq_ok.mp h₂
    have hcut : Level.SameCut ⟨left₁, running₁, right₁⟩ ⟨left₂, running₂, right₂⟩ :=
      ⟨length_siblingRow hunit.1 hleft₁ hleft₂, length_siblingRow hunit.2 hright₁ hright₂⟩
    exact .cons hcut (ih habove₁ habove₂)

/-- The levels and the widths of the siblings give the bytes of the siblings. -/
theorem sameBytes_of_levels {proof₁ proof₂ : MerkleProof} (hshape : Alike SameWidth proof₁ proof₂)
    {running₁ running₂ : Bytes} {ls : List Level}
    (h₁ : levels hash running₁ proof₁ = .ok ls) (h₂ : levels hash running₂ proof₂ = .ok ls) :
    Alike SameBytes proof₁ proof₂ := by
  induction hshape generalizing running₁ running₂ ls with
  | nil => exact .nil
  | cons hunit _ ih =>
    obtain ⟨left, right, above, hleft₁, hright₁, habove₁, rfl⟩ := levels_cons_eq_ok.mp h₁
    obtain ⟨left', right', above', hleft₂, hright₂, habove₂, heq⟩ := levels_cons_eq_ok.mp h₂
    obtain ⟨hlevel, rfl⟩ := List.cons.inj heq
    obtain ⟨rfl, rfl, rfl⟩ := Level.mk.inj hlevel
    have hbytes := And.intro (sameBytes_of_siblingRow hunit.1 hleft₁ hleft₂)
      (sameBytes_of_siblingRow hunit.2 hright₁ hright₂)
    exact .cons hbytes (ih habove₁ habove₂)

/-- Where levels that are cut alike part, they collide. -/
theorem collide_of_sameCut {ls₁ ls₂ : List Level} {l m : Level}
    (hcut : List.Forall₂ Level.SameCut ls₁ ls₂) (hpart : PartAt hash l m ls₁ ls₂) :
    Collide hash ls₁ ls₂ := by
  rcases hpart.collide_or_cutApart with hcollide | ⟨l', m', hpart', hinput⟩
  · exact hcollide
  · obtain ⟨hne, -, above, below, below', rfl, rfl⟩ := hpart'
    have hlen : below.length = below'.length := by simpa using hcut.length_eq
    have hmem : (l', m') ∈ (below ++ l' :: above).zip (below' ++ m' :: above) := by
      rw [List.zip_append hlen]
      simp
    have hsame : l'.SameCut m' := (List.forall₂_iff_zip.mp hcut).2 hmem
    exact absurd (hsame.eq_of_input hinput) hne

/-! ## Sensitivity -/

/-- Two accepted transactions with proofs of one shape are the same, with the same siblings, or two
different levels have one hash. -/
theorem verifyTransaction_sensitive (hash : Bytes → Digest) {text : String}
    {index₁ index₂ : Option UInt64} {txHash₁ txHash₂ : String} {proof₁ proof₂ : MerkleProof}
    (h₁ : verifyTransaction hash text txHash₁ index₁ proof₁ = .ok true)
    (h₂ : verifyTransaction hash text txHash₂ index₂ proof₂ = .ok true)
    (hshape : Alike SameWidth proof₁ proof₂) :
    ∃ levels₁ levels₂, transactionLevels hash index₁ txHash₁ proof₁ = .ok levels₁ ∧
      transactionLevels hash index₂ txHash₂ proof₂ = .ok levels₂ ∧
      ((index₁.getD 0 = index₂.getD 0 ∧
          (∃ bytes, HexField.decode "transaction hash" txHash₁ = .ok bytes ∧
            HexField.decode "transaction hash" txHash₂ = .ok bytes) ∧
          Alike SameBytes proof₁ proof₂) ∨
        Collide hash levels₁ levels₂) := by
  obtain ⟨trusted, leaf₁, ls₁, htrusted, hleaf₁, hls₁, htx₁, hleads₁⟩ := leads_of_verifyTransaction h₁
  obtain ⟨trusted', leaf₂, ls₂, htrusted', hleaf₂, hls₂, htx₂, hleads₂⟩ :=
    leads_of_verifyTransaction h₂
  obtain rfl : trusted = trusted' := Except.ok.inj (htrusted.symm.trans htrusted')
  refine ⟨ls₁, ls₂, htx₁, htx₂, ?_⟩
  have hcut := sameCut_of_levels hshape hls₁ hls₂
  rcases hleads₁.eq_or_part hleads₂ with ⟨rfl, hrev⟩ | ⟨hlen, -⟩ | ⟨l, m, hpart⟩
  · obtain rfl : ls₁ = ls₂ := List.reverse_injective hrev
    obtain ⟨hindex, hbytes⟩ := transactionLeaf_inj hleaf₁ hleaf₂
    exact .inl ⟨hindex, hbytes, sameBytes_of_levels hshape hls₁ hls₂⟩
  · exact absurd (by simpa using hcut.length_eq) hlen
  · rw [List.reverse_reverse, List.reverse_reverse] at hpart
    exact .inr (collide_of_sameCut hcut hpart)

/-! ## One proof in two spellings -/

namespace TwoSpellings

def transaction : Bytes := List.replicate 32 1

/-- Its proof, two levels high. -/
def marked : MerkleProof := [{ left := ["0xAB"] }, { right := ["0x0x01", "02"] }]

/-- The same with other letters, marks and blanks. -/
def plain : MerkleProof := [{ left := ["ab"] }, { right := ["01", " 0x02 "] }]

/-- The root that both lead to. -/
def top (hash : Bytes → Digest) : Digest :=
  hash ((hash ([0xab] ++ (0x80 :: transaction))).1 ++ [1, 2])

theorem root_marked (hash : Bytes → Digest) :
    root hash (0x80 :: transaction) marked = .ok (top hash) := rfl

theorem root_plain (hash : Bytes → Digest) :
    root hash (0x80 :: transaction) plain = .ok (top hash) := rfl

theorem leaf_transaction {index : Option UInt64} (h : index.getD 0 = 0) :
    transactionLeaf index (Hex.encode transaction) = .ok (0x80 :: transaction) := by
  rw [transactionLeaf, HexField.decode_encode, h]
  rfl

theorem sameWidth : Alike SameWidth marked plain :=
  .cons ⟨.cons ⟨[0xab], [0xab], rfl, rfl, rfl⟩ .nil, .nil⟩
    (.cons ⟨.nil, .cons ⟨[1], [1], rfl, rfl, rfl⟩ (.cons ⟨[2], [2], rfl, rfl, rfl⟩ .nil)⟩ .nil)

theorem verifyTransaction_spelled (hash : Bytes → Digest) {index : Option UInt64}
    {proof : MerkleProof} (hindex : index.getD 0 = 0)
    (hroot : root hash (0x80 :: transaction) proof = .ok (top hash)) :
    verifyTransaction hash (top hash).hex (Hex.encode transaction) index proof = .ok true :=
  verifyTransaction_eq_true.mpr ⟨_, _, parseRoot_hex _ _, leaf_transaction hindex, hroot⟩

end TwoSpellings

open TwoSpellings

/-- A transaction without an index and at the index zero, by the two spellings of its proof. -/
theorem verifyTransaction_sensitive_twoSpellings :
    verifyTransaction Keccak.hash (top Keccak.hash).hex (Hex.encode transaction) none marked =
      .ok true ∧
    verifyTransaction Keccak.hash (top Keccak.hash).hex (Hex.encode transaction) (some 0) plain =
      .ok true ∧
    Alike SameWidth marked plain ∧
    ∃ levels₁ levels₂,
      transactionLevels Keccak.hash none (Hex.encode transaction) marked = .ok levels₁ ∧
      transactionLevels Keccak.hash (some 0) (Hex.encode transaction) plain = .ok levels₂ ∧
      (((none : Option UInt64).getD 0 = (some 0).getD 0 ∧
          (∃ bytes, HexField.decode "transaction hash" (Hex.encode transaction) = .ok bytes ∧
            HexField.decode "transaction hash" (Hex.encode transaction) = .ok bytes) ∧
          Alike SameBytes marked plain) ∨
        Collide Keccak.hash levels₁ levels₂) := by
  have hmarked : verifyTransaction Keccak.hash (top Keccak.hash).hex (Hex.encode transaction) none
      marked = .ok true := verifyTransaction_spelled _ rfl (root_marked _)
  have hplain : verifyTransaction Keccak.hash (top Keccak.hash).hex (Hex.encode transaction)
      (some 0) plain = .ok true := verifyTransaction_spelled _ rfl (root_plain _)
  exact ⟨hmarked, hplain, sameWidth,
    verifyTransaction_sensitive Keccak.hash hmarked hplain sameWidth⟩

end LedgerGateway.Merkle

import LedgerGateway.Gateway.Verification
import LedgerGateway.Proofs.Gateway.Dispatcher

/-!
# What verification has established

Verification ends well only if every check it makes has ended with `true`, against the header of the
block that the source was asked for. Each lemma says so as an equivalence, so that it also says when
verification does not stand in the way.
-/

namespace LedgerGateway.Gateway

open Exchange

variable {g : Gateway} {node : Node} {before after : History}

/-! ## Checks -/

theorem checkReceipt_eq_ok {block : Block} {receipt : Receipt} {proof : MerkleProof} :
    g.checkReceipt block receipt proof = .ok () ↔
      Merkle.verifyReceipt g.profile.hash block.header.receiptRoot receipt proof g.receiptEncoding =
        .ok true := by
  unfold checkReceipt
  split <;> simp_all

theorem checkTransaction_eq_ok {block : Block} {hash : String} {index : Option UInt64}
    {proof : MerkleProof} :
    g.checkTransaction block hash index proof = .ok () ↔
      Merkle.verifyTransaction g.profile.hash block.header.transactionRoot hash index proof =
        .ok true := by
  unfold checkTransaction
  split <;> simp_all

/-- A receipt whose proofs, its own and that of the transaction it names, lead to the roots of the
block. -/
structure ProvenIn (g : Gateway) (block : Block) (receipt : Receipt)
    (receiptProof txProof : MerkleProof) : Prop where
  receiptProven : Merkle.verifyReceipt g.profile.hash block.header.receiptRoot receipt receiptProof
    g.receiptEncoding = .ok true
  transactionProven : Merkle.verifyTransaction g.profile.hash block.header.transactionRoot
    receipt.transactionHash receipt.transactionIndex txProof = .ok true

theorem checkSubmitted_eq_ok {block : Block} {receipt : Receipt} :
    g.checkSubmitted block receipt = .ok () ↔
      ∃ receiptProof txProof, receipt.receiptProof = some receiptProof ∧
        receipt.txProof = some txProof ∧ g.ProvenIn block receipt receiptProof txProof := by
  unfold checkSubmitted
  constructor
  · intro h
    cases hreceipt : receipt.receiptProof with
    | none =>
      simp only [hreceipt] at h
      obtain ⟨_, hmissing, -⟩ := except_bind_eq_ok.mp h
      cases hmissing
    | some receiptProof =>
      simp only [hreceipt] at h
      obtain ⟨_, hcheck, h⟩ := except_bind_eq_ok.mp h
      cases htx : receipt.txProof with
      | none =>
        simp only [htx] at h
        cases h
      | some txProof =>
        simp only [htx] at h
        exact ⟨receiptProof, txProof, rfl, rfl, checkReceipt_eq_ok.mp hcheck,
          checkTransaction_eq_ok.mp h⟩
  · rintro ⟨receiptProof, txProof, hreceipt, htx, hproven⟩
    rw [hreceipt, htx]
    exact check_bind_eq_ok.mpr ⟨checkReceipt_eq_ok.mpr hproven.receiptProven,
      checkTransaction_eq_ok.mpr hproven.transactionProven⟩

/-! ## Verification -/

theorem fetchHeader_eq_ok {blocks : BlockSource} {number : UInt64} {block : Block} :
    outcome (fetchHeader node blocks number) before = (.ok block, after) ↔
      outcome (blocks.askBlock node number) before = (.ok block, after) := by
  rw [fetchHeader, outcome_adapt, Prod.mk.injEq, mapError_eq_ok, Prod.ext_iff]

/-- With proofs, verification of a submitted transaction ends well if the source has the block that
the receipt names and both proofs lead to its roots. -/
theorem verifySubmitted_eq_ok (hg : g.proofsSupported = true) {blocks : BlockSource}
    {receipt : Receipt} :
    outcome (g.verifySubmitted node blocks receipt) before = (.ok (), after) ↔
      ∃ block receiptProof txProof,
        outcome (blocks.askBlock node receipt.blockNumber) before = (.ok block, after) ∧
        receipt.receiptProof = some receiptProof ∧ receipt.txProof = some txProof ∧
        g.ProvenIn block receipt receiptProof txProof := by
  rw [verifySubmitted, if_pos hg, outcome_bind_eq_ok]
  simp only [fetchHeader_eq_ok, outcome_liftM, Prod.mk.injEq, checkSubmitted_eq_ok]
  constructor
  · rintro ⟨block, _, hblock, ⟨receiptProof, txProof, hreceipt, htx, hproven⟩, rfl⟩
    exact ⟨block, receiptProof, txProof, hblock, hreceipt, htx, hproven⟩
  · rintro ⟨block, receiptProof, txProof, hblock, hreceipt, htx, hproven⟩
    exact ⟨block, after, hblock, ⟨receiptProof, txProof, hreceipt, htx, hproven⟩, rfl⟩

theorem history_verifySubmitted {blocks : BlockSource} {receipt : Receipt} (before : History) :
    (outcome (g.verifySubmitted node blocks receipt) before).2 =
      if g.proofsSupported then before ++ [blocks.question receipt.blockNumber] else before := by
  unfold verifySubmitted
  split
  · rw [history_bind fun _ => asksOnly_liftM _, fetchHeader, outcome_adapt]
    exact blocks.history_askBlock node receipt.blockNumber before
  · rfl

/-- A transaction and its receipt whose proofs lead to the roots of the block. -/
structure BothProvenIn (g : Gateway) (block : Block) (proof : TransactionProof) : Prop where
  receiptProven : Merkle.verifyReceipt g.profile.hash block.header.receiptRoot proof.receipt.receipt
    proof.receipt.receiptProof g.receiptEncoding = .ok true
  /-- The transaction is in the block, under its own hash and at its own place. -/
  transactionProven : Merkle.verifyTransaction g.profile.hash block.header.transactionRoot
    proof.transaction.transaction.hash proof.transaction.transaction.transactionIndex
    proof.transaction.txProof = .ok true

theorem verifyProven_eq_ok (hg : g.proofsSupported = true) {blocks : BlockSource} {number : UInt64}
    {proof : TransactionProof} :
    outcome (g.verifyProven node blocks number proof) before = (.ok (), after) ↔
      ∃ block, outcome (blocks.askBlock node number) before = (.ok block, after) ∧
        g.BothProvenIn block proof := by
  rw [verifyProven, if_pos hg, outcome_bind_eq_ok]
  simp only [fetchHeader_eq_ok, outcome_liftM_bind_eq_ok, outcome_liftM, Prod.mk.injEq]
  constructor
  · rintro ⟨block, _, hblock, _, hreceipt, htx, rfl⟩
    exact ⟨block, hblock, checkReceipt_eq_ok.mp hreceipt, checkTransaction_eq_ok.mp htx⟩
  · rintro ⟨block, hblock, hproven⟩
    exact ⟨block, after, hblock, (), checkReceipt_eq_ok.mpr hproven.receiptProven,
      checkTransaction_eq_ok.mpr hproven.transactionProven, rfl⟩

/-- The checks pass that the version of the node allows. -/
def Verified (g : Gateway) (node : Node) (blocks : BlockSource) (number : UInt64)
    (before after : History) (proof : TransactionProof) : Prop :=
  if g.proofsSupported then
    ∃ block, outcome (blocks.askBlock node number) before = (.ok block, after) ∧
      g.BothProvenIn block proof
  else before = after

theorem verifyProven_eq_ok_iff {blocks : BlockSource} {number : UInt64}
    {proof : TransactionProof} :
    outcome (g.verifyProven node blocks number proof) before = (.ok (), after) ↔
      Verified g node blocks number before after proof := by
  cases hg : g.proofsSupported with
  | true => rw [verifyProven_eq_ok hg, Verified, if_pos hg]
  | false =>
    rw [verifyProven, Verified, hg]
    simp

end LedgerGateway.Gateway

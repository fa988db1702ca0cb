import LedgerGateway.Proofs.Gateway.Soundness

/-!
# Which transaction was proven

The proofs are about the transaction that the node answers with. Neither the hash that was asked
for nor the hash of the transaction that was signed takes part in a check: the same answer is
accepted for every other hash and for every other transaction. So the names agree when the node's
answer names what was meant, and only then.
-/

namespace LedgerGateway.Gateway

open Exchange Text

/-! ## Transactions that were asked for -/

/-- Two texts name a transaction by the same bytes. -/
def SameHash (hash hash' : String) : Prop :=
  ∃ bytes, HexField.decode "transaction hash" hash = .ok bytes ∧
    HexField.decode "transaction hash" hash' = .ok bytes

theorem sameHash_iff {hash hash' : String} {bytes : Bytes}
    (h : HexField.decode "transaction hash" hash' = .ok bytes) :
    SameHash hash hash' ↔ HexField.decode "transaction hash" hash = .ok bytes := by
  constructor
  · rintro ⟨same, hhash, hhash'⟩
    rw [h, Except.ok.injEq] at hhash'
    rw [hhash, hhash']
  · intro hhash
    exact ⟨bytes, hhash, h⟩

/-- How a verified transaction is bound to the hash that was asked for. -/
structure BoundToRequest (g : Gateway) (node : Node) (hash : String) (number : UInt64)
    (blocks : BlockSource) (before after : History) (v : VerifiedTransaction)
    (proof : TransactionProof) (block : Block) (bytes : Bytes) : Prop where
  /-- The node's answer was proven. -/
  proven : AskProven g node hash number blocks before after v proof block
  /-- These bytes stand in the leaf that was proven. -/
  leaf : HexField.decode "transaction hash" proof.transaction.transaction.hash = .ok bytes
  reported : v.transactionHash = hash
  /-- The reported hash is the proven one if the hash that was asked for is, and only then. -/
  agrees : SameHash v.transactionHash proof.transaction.transaction.hash ↔
    HexField.decode "transaction hash" hash = .ok bytes
  /-- The same answer is accepted for every other hash, and reported under it. -/
  unchecked : ∀ hash' node' blocks' before' after', (trim hash').isEmpty = false →
    ProofAnswered node' (trim hash') before' proof →
    outcome (blocks'.askBlock node' number)
      (before' ++ [.transaction (trim hash')] ++ [.receipt (trim hash')]) = (.ok block, after') →
    outcome (g.getTransaction node' hash' number blocks') before' = (.ok (renamed v hash'), after')

/-- A transaction is reported under the hash that was asked for and proven under the hash in the
node's answer, and no check compares the two. -/
theorem getTransaction_boundToRequest {g : Gateway} (hg : g.proofsSupported = true) {node : Node}
    {hash : String} {number : UInt64} {blocks : BlockSource} {before after : History}
    {v : VerifiedTransaction}
    (h : outcome (g.getTransaction node hash number blocks) before = (.ok v, after)) :
    ∃ proof block bytes,
      BoundToRequest g node hash number blocks before after v proof block bytes := by
  obtain ⟨proof, block, -, hanswered, hblock, hproven, hreport⟩ := (getTransaction_eq_ok hg).mp h
  obtain ⟨bytes, hbytes⟩ := Merkle.decode_of_verifyTransaction hproven.transactionProven
  have hask := askProven_of_report hanswered hblock hproven hreport
  have hname : v.transactionHash = hash := (reports_of_report hreport).names.1
  refine ⟨proof, block, bytes, hask, hbytes, hname, ?_, ?_⟩
  · rw [sameHash_iff hbytes, hname]
  · intro hash' node' blocks' before' after' hblank hanswered' hblock'
    exact (getTransaction_eq_ok hg).mpr
      ⟨proof, block, hblank, hanswered', hblock', hproven, report_renamed hreport hash'⟩

namespace OneBlock

def hashOf (b : UInt8) : Bytes := List.replicate 32 b

theorem not_sameHash : ¬ SameHash (Hex.encode (hashOf 2)) (Hex.encode (hashOf 1)) := by
  rw [sameHash_iff (HexField.decode_encode _ _), HexField.decode_encode, Except.ok.injEq]
  decide

end OneBlock

/-- One transaction is proven and reported under the hash of another. -/
theorem getTransaction_boundToRequest_oneBlock :
    OneBlock.gateway.proofsSupported = true ∧
    ∃ v after,
      outcome (OneBlock.gateway.getTransaction (OneBlock.node (OneBlock.hashOf 1) 0)
        (Hex.encode (OneBlock.hashOf 2)) 7 (OneBlock.source (OneBlock.hashOf 1))) [] =
          (.ok v, after) ∧
      ∃ proof block bytes, BoundToRequest OneBlock.gateway (OneBlock.node (OneBlock.hashOf 1) 0)
        (Hex.encode (OneBlock.hashOf 2)) 7 (OneBlock.source (OneBlock.hashOf 1)) [] after v proof
          block bytes := by
  obtain ⟨v, hget⟩ := OneBlock.outcome_getTransaction (OneBlock.hashOf 1)
    (OneBlock.isEmpty_trim_encode (OneBlock.hashOf 2))
  exact ⟨OneBlock.proofsSupported_gateway, v, _, hget,
    getTransaction_boundToRequest OneBlock.proofsSupported_gateway hget⟩

/-- A transaction can be reported under a hash that is not the one that was proven. -/
theorem getTransaction_reports_other :
    ¬ ∀ (g : Gateway) (node : Node) (hash : String) (number : UInt64) (blocks : BlockSource)
        (before after : History) (v : VerifiedTransaction) (t : TransactionWithProof),
      g.proofsSupported = true →
      outcome (g.getTransaction node hash number blocks) before = (.ok v, after) →
      node.transaction before (trim hash) = .ok (some t) →
      SameHash v.transactionHash t.transaction.hash := by
  intro hall
  obtain ⟨v, hget⟩ := OneBlock.outcome_getTransaction (OneBlock.hashOf 1)
    (OneBlock.isEmpty_trim_encode (OneBlock.hashOf 2))
  obtain ⟨_, _, -, -, -, -, hreport⟩ :=
    (getTransaction_eq_ok OneBlock.proofsSupported_gateway).mp hget
  have hsame := hall _ _ _ _ _ _ _ v _ OneBlock.proofsSupported_gateway hget rfl
  rw [(reports_of_report hreport).names.1] at hsame
  exact OneBlock.not_sameHash hsame

/-! ## Transactions that were signed -/

end LedgerGateway.Gateway

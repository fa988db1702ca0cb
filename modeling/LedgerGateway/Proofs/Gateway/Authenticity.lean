import LedgerGateway.Proofs.Gateway.Identity
import LedgerGateway.Proofs.Gateway.Pairing

/-!
# Who asked for what

The leaf of a transaction holds its index and its hash, and nothing derives that hash from the
sender, the destination and the data in the node's answer. The account, the proxy, the resource and
the request that are reported are computed from these three alone: one transaction is reported with
every origin that a node chooses to write beside its hash.
-/

namespace LedgerGateway

/-- Who asked for what, as a verified transaction reports it. -/
structure Origin where
  accountIdentity : String
  isByProxy : Bool
  resource : String
  request : TransactionRequest
  deriving DecidableEq

def VerifiedTransaction.origin (v : VerifiedTransaction) : Origin :=
  ⟨v.accountIdentity, v.isByProxy, v.resource, v.request⟩

namespace Gateway

open Exchange Text

/-- The origin that a sender, a destination and data are taken for. -/
def origin (g : Gateway) (sender destination : String) (input : Bytes) : Origin :=
  let address? := (Address.read destination).toOption
  let byProxy := g.proxyAddress.isSome && g.proxyAddress == address?
  let recovered? := (g.decodeInvocation input address? byProxy).toOption
  ⟨sender, byProxy, (recovered?.map (·.resource)).getD "", (recovered?.map (·.request)).getD {}⟩

theorem ProofAnswered.unique {node : Node} {hash : String} {before : History}
    {proof proof' : TransactionProof} (h : ProofAnswered node hash before proof)
    (h' : ProofAnswered node hash before proof') : proof = proof' := by
  have htx := Option.some.inj (Except.ok.inj (h.transaction.symm.trans h'.transaction))
  have hreceipt := Option.some.inj (Except.ok.inj (h.receipt.symm.trans h'.receipt))
  cases proof
  cases proof'
  simp only [TransactionProof.mk.injEq]
  exact ⟨htx, hreceipt⟩

namespace OneBlock

end OneBlock

end Gateway

end LedgerGateway

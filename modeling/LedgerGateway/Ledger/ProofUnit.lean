import LedgerGateway.Json.Decoder

/-!
# Proofs as the ledger reports them

A proof has one unit for each level of a hash tree: the siblings to the left and to the right of the
value on that level, as hexadecimal texts.
-/

namespace LedgerGateway

/-- One level of a proof. -/
structure ProofUnit where
  /-- The siblings to the left, from left to right. -/
  left : List String := []
  /-- The siblings to the right, from left to right. -/
  right : List String := []
  deriving DecidableEq, Repr, Inhabited

/-- A proof, from the leaf to the root. -/
abbrev MerkleProof := List ProofUnit

namespace ProofUnit

open Json

def decoder : Decoder ProofUnit := fun node => do
  let slot ← openRecord [["left"], ["right"]] node
  pure {
    left := ← (slot 0).orElse [] (asList asText)
    right := ← (slot 1).orElse [] (asList asText) }

def json (u : ProofUnit) : Json := .object [("left", ofTexts u.left), ("right", ofTexts u.right)]

end ProofUnit

namespace MerkleProof

def decoder : Json.Decoder MerkleProof := Json.asList ProofUnit.decoder

def json (p : MerkleProof) : Json := .array (p.map ProofUnit.json)

end MerkleProof

end LedgerGateway

import LedgerGateway.Account.Basic
import LedgerGateway.Ledger.ProofUnit
import LedgerGateway.Rlp.Basic

/-!
# Proofs of membership

A value is in a hash tree when its proof leads from it to the root. On each level the siblings to the
left, the value so far and the siblings to the right are hashed in one piece. The root comes from a
block header that is trusted; the proof and the value come from a node that is not.
-/

namespace LedgerGateway

/-- What can be wrong with a proof or with what it is about. -/
inductive ProofError where
  | emptyProof
  /-- There is no proof of the named thing. -/
  | missingProof (subject : String)
  | invalidSibling (sibling reason : String)
  | invalidField (field reason : String)
  deriving DecidableEq, Repr

/-- The wording of a refused proof. -/
def ProofError.message : ProofError → String
  | .emptyProof => "Proof has no levels"
  | .missingProof subject => "Missing " ++ subject ++ " proof"
  | .invalidSibling sibling reason => "Invalid sibling '" ++ sibling ++ "': " ++ reason
  | .invalidField field reason => "Invalid " ++ field ++ ": " ++ reason

/-- The bytes of a field: digits behind an optional mark, between blanks. -/
def HexField.decode (field value : String) : Except ProofError Bytes :=
  let text := Text.trim value
  match Hex.decode (Hex.stripLowerMark text) with
  | .ok bytes => .ok bytes
  | .error e => .error (.invalidField field ("'" ++ text ++ "': " ++ e.message))

namespace Merkle

/-- The bytes of a sibling: digits behind any number of marks, between blanks. -/
def siblingBytes (sibling : String) : Except ProofError Bytes :=
  match Hex.decode (Hex.stripMarks (Text.trim sibling)) with
  | .ok bytes => .ok bytes
  | .error e => .error (.invalidSibling sibling e.message)

def siblingRow : List String → Except ProofError Bytes
  | [] => .ok []
  | sibling :: rest => do
    let bytes ← siblingBytes sibling
    let row ← siblingRow rest
    pure (bytes ++ row)

def levelInput (unit : ProofUnit) (running : Bytes) : Except ProofError Bytes := do
  let left ← siblingRow unit.left
  let right ← siblingRow unit.right
  pure (left ++ running ++ right)

/-- The value above the given levels. -/
def climb (hash : Bytes → Digest) (running : Digest) : MerkleProof → Except ProofError Digest
  | [] => .ok running
  | unit :: rest => do
    let level ← levelInput unit running.1
    climb hash (hash level) rest

def root (hash : Bytes → Digest) (leaf : Bytes) : MerkleProof → Except ProofError Digest
  | [] => .error .emptyProof
  | unit :: rest => do
    let level ← levelInput unit leaf
    climb hash (hash level) rest

/-- The root that a header names. -/
def parseRoot (field root : String) : Except ProofError Digest := do
  let bytes ← HexField.decode field root
  match SizedBytes.ofBytes? 32 bytes with
  | some digest => .ok digest
  | none => .error (.invalidField field ("expected 32 bytes, got " ++ Text.decimal bytes.length))

/-- The leaf of a transaction: its index, which is zero if it is missing, and its hash. -/
def transactionLeaf (index : Option UInt64) (hash : String) : Except ProofError Bytes := do
  let bytes ← HexField.decode "transaction hash" hash
  pure (Rlp.encodeNat (index.getD 0).toNat ++ bytes)

/-- The transaction is in the tree of transactions with the given root. The root is read first, then
the leaf, then the proof. -/
def verifyTransaction (hash : Bytes → Digest) (transactionsRoot txHash : String)
    (index : Option UInt64) (proof : MerkleProof) : Except ProofError Bool := do
  let trusted ← parseRoot "transactions root" transactionsRoot
  let leaf ← transactionLeaf index txHash
  let computed ← root hash leaf proof
  pure (computed == trusted)

end Merkle

end LedgerGateway

import LedgerGateway.Gateway.Basic
import LedgerGateway.Proof.Receipt

/-!
# Verification

What a node reports about a transaction is checked against the roots in the header of a trusted block.
A node whose version cannot serve proofs is believed.
-/

namespace LedgerGateway.Gateway

/-- The node can serve proofs. -/
def proofsSupported (g : Gateway) : Bool := NodeVersion.textSupportsProof g.nodeVersion

/-- The encoding of receipts of the node's version. -/
def receiptEncoding (g : Gateway) : ReceiptEncoding :=
  .ofVersion (g.nodeVersion.bind fun v => (NodeVersion.parse v).toOption)

def checkReceipt (g : Gateway) (block : Block) (receipt : Receipt) (proof : MerkleProof) :
    Except GatewayError Unit :=
  match Merkle.verifyReceipt g.profile.hash block.header.receiptRoot receipt proof g.receiptEncoding with
  | .ok true => .ok ()
  | .ok false => .error (.receiptNotProven receipt.transactionHash block.number)
  | .error cause => .error (.brokenReceiptProof cause)

def checkTransaction (g : Gateway) (block : Block) (hash : String) (index : Option UInt64)
    (proof : MerkleProof) : Except GatewayError Unit :=
  match Merkle.verifyTransaction g.profile.hash block.header.transactionRoot hash index proof with
  | .ok true => .ok ()
  | .ok false => .error (.transactionNotProven hash block.number)
  | .error cause => .error (.brokenTransactionProof cause)

/-- Asks for a trusted block. -/
def fetchHeader (node : Node) (blocks : BlockSource) (number : UInt64) :
    Exchange GatewayError Block :=
  (blocks.askBlock node number).adapt .headerUnavailable

/-- Checks the proofs that the receipt of a submitted transaction brings: first that of the receipt,
then that of the transaction. -/
def checkSubmitted (g : Gateway) (block : Block) (receipt : Receipt) : Except GatewayError Unit := do
  match receipt.receiptProof with
  | none => .error .receiptProofMissing
  | some proof => g.checkReceipt block receipt proof
  match receipt.txProof with
  | none => .error .transactionProofMissing
  | some proof => g.checkTransaction block receipt.transactionHash receipt.transactionIndex proof

/-- Verifies the receipt of a submitted transaction. -/
def verifySubmitted (g : Gateway) (node : Node) (blocks : BlockSource) (receipt : Receipt) :
    Exchange GatewayError Unit := do
  if g.proofsSupported then
    let block ← fetchHeader node blocks receipt.blockNumber
    g.checkSubmitted block receipt

/-- Verifies a transaction and its receipt against the block of a number. -/
def verifyProven (g : Gateway) (node : Node) (blocks : BlockSource) (number : UInt64)
    (proof : TransactionProof) : Exchange GatewayError Unit := do
  if g.proofsSupported then
    let block ← fetchHeader node blocks number
    g.checkReceipt block proof.receipt.receipt proof.receipt.receiptProof
    let transaction := proof.transaction.transaction
    g.checkTransaction block transaction.hash transaction.transactionIndex proof.transaction.txProof

end LedgerGateway.Gateway

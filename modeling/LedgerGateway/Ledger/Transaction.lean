import LedgerGateway.Ledger.Receipt

/-!
# Transactions and proofs from the ledger

What the ledger reports about a transaction, and the bundles of a transaction or receipt with its
proof.
-/

namespace LedgerGateway

open Json

/-- A transaction as the ledger reports it. -/
structure LedgerTransaction where
  hash : String := ""
  transactionIndex : Option UInt64 := none
  blockNumber : UInt64 := 0
  blockHash : String := ""
  sender : String := ""
  destination : String := ""
  input : String := ""
  nonce : String := ""
  groupId : Option String := none
  chainId : Option String := none
  deriving DecidableEq, Repr, Inhabited

namespace LedgerTransaction

/-- Reads a transaction; what is missing is empty. -/
def decoder : Decoder LedgerTransaction := fun node => do
  let slot ← openRecord [["hash"], ["transactionIndex"], ["blockNumber"], ["blockHash"], ["from"],
    ["to"], ["input"], ["nonce"], ["groupId"], ["chainId"]] node
  let textAt (i : Nat) := (slot i).orElse "" asText
  pure {
    hash := ← textAt 0
    transactionIndex := ← (slot 1).orElse none Quantity.optionDecoder
    blockNumber := ← (slot 2).orElse 0 Quantity.decoder
    blockHash := ← textAt 3
    sender := ← textAt 4
    destination := ← textAt 5
    input := ← textAt 6
    nonce := ← textAt 7
    groupId := ← (slot 8).orElse none (asOption asText)
    chainId := ← (slot 9).orElse none (asOption asText) }

/-- Writes a transaction; what may be missing is left out. -/
def json (t : LedgerTransaction) : Json :=
  .object <|
    [("hash", .text t.hash)] ++
    member? "transactionIndex" Quantity.json t.transactionIndex ++
    [("blockNumber", Quantity.json t.blockNumber), ("blockHash", .text t.blockHash),
     ("from", .text t.sender), ("to", .text t.destination), ("input", .text t.input),
     ("nonce", .text t.nonce)] ++
    member? "groupId" .text t.groupId ++
    member? "chainId" .text t.chainId

end LedgerTransaction

structure TransactionWithProof where
  transaction : LedgerTransaction
  txProof : MerkleProof := []
  deriving DecidableEq, Repr, Inhabited

namespace TransactionWithProof

def decoder : Decoder TransactionWithProof := fun node => do
  let slot ← openRecord [["transaction"], ["txProof"]] node
  pure {
    transaction := ← (slot 0).required "transaction" LedgerTransaction.decoder
    txProof := ← (slot 1).orElse [] MerkleProof.decoder }

def json (t : TransactionWithProof) : Json :=
  .object [("transaction", t.transaction.json), ("txProof", MerkleProof.json t.txProof)]

end TransactionWithProof

structure ReceiptWithProof where
  receipt : Receipt
  receiptProof : MerkleProof := []
  deriving DecidableEq, Repr, Inhabited

namespace ReceiptWithProof

def decoder : Decoder ReceiptWithProof := fun node => do
  let slot ← openRecord [["transactionReceipt"], ["receiptProof"]] node
  pure {
    receipt := ← (slot 0).required "transactionReceipt" Receipt.decoder
    receiptProof := ← (slot 1).orElse [] MerkleProof.decoder }

def json (r : ReceiptWithProof) : Json :=
  .object [("transactionReceipt", r.receipt.json), ("receiptProof", MerkleProof.json r.receiptProof)]

end ReceiptWithProof

/-- A transaction and a receipt, both with their proofs. -/
structure TransactionProof where
  transaction : TransactionWithProof
  receipt : ReceiptWithProof
  deriving DecidableEq, Repr, Inhabited

namespace TransactionProof

def decoder : Decoder TransactionProof := fun node => do
  let slot ← openRecord [["transWithProof"], ["receiptWithProof"]] node
  pure {
    transaction := ← (slot 0).required "transWithProof" TransactionWithProof.decoder
    receipt := ← (slot 1).required "receiptWithProof" ReceiptWithProof.decoder }

def json (p : TransactionProof) : Json :=
  .object [("transWithProof", p.transaction.json), ("receiptWithProof", p.receipt.json)]

end TransactionProof

/-- What the ledger returns from a call. -/
structure CallOutput where
  /-- The height at which the call ran. -/
  currentBlockNumber : UInt64 := 0
  /-- The status of the execution; zero is success. -/
  status : UInt64 := 0
  /-- The data that was returned. -/
  output : String := ""
  deriving DecidableEq, Repr, Inhabited

namespace CallOutput

/-- Reads an output; what is missing is empty. -/
def decoder : Decoder CallOutput := fun node => do
  let slot ← openRecord [["currentBlockNumber"], ["status"], ["output"]] node
  pure {
    currentBlockNumber := ← (slot 0).orElse 0 Quantity.decoder
    status := ← (slot 1).orElse 0 Quantity.decoder
    output := ← (slot 2).orElse "" asText }

def json (o : CallOutput) : Json :=
  .object [("currentBlockNumber", Quantity.json o.currentBlockNumber),
    ("status", Quantity.json o.status), ("output", .text o.output)]

end CallOutput

end LedgerGateway

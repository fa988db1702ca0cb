import LedgerGateway.Ledger.ProofUnit
import LedgerGateway.Quantity

/-!
# Receipts

What the ledger reports about an executed transaction. Hexadecimal fields stay texts: a proof hashes
the bytes behind them, and what is reported is what was received.
-/

namespace LedgerGateway

/-- An event that a transaction left behind. -/
structure Log where
  address : String
  topics : List String := []
  data : String := ""
  deriving DecidableEq, Repr, Inhabited

namespace Log

open Json

def decoder : Decoder Log := fun node => do
  let slot ← openRecord [["address"], ["topics"], ["data"]] node
  pure {
    address := ← (slot 0).required "address" asText
    topics := ← (slot 1).orElse [] (asList asText)
    data := ← (slot 2).orElse "" asText }

def json (l : Log) : Json :=
  .object [("address", .text l.address), ("topics", ofTexts l.topics), ("data", .text l.data)]

end Log

/-- The receipt of a transaction. -/
structure Receipt where
  transactionHash : String := ""
  /-- The place of the transaction in its block. -/
  transactionIndex : Option UInt64 := none
  blockNumber : UInt64 := 0
  blockHash : String := ""
  sender : String := ""
  destination : String := ""
  gasUsed : String := ""
  remainGas : Option String := none
  contractAddress : String := ""
  logsBloom : String := ""
  /-- The status of the execution; zero is success. -/
  status : UInt64 := 0
  root : String := ""
  input : String := ""
  /-- The data that was returned. -/
  output : String := ""
  logs : List Log := []
  /-- A text about a failure. -/
  message : Option String := none
  txProof : Option MerkleProof := none
  receiptProof : Option MerkleProof := none
  deriving DecidableEq, Repr, Inhabited

namespace Receipt

open Json

/-- The transaction succeeded. -/
def isStatusOk (r : Receipt) : Bool := r.status == 0

/-- The ledger reported a receipt without content. -/
def isEmpty (r : Receipt) : Bool := r.transactionHash.isEmpty

def fields : Fields :=
  [["transactionHash"], ["transactionIndex"], ["blockNumber"], ["blockHash"], ["from"], ["to"],
   ["gasUsed"], ["remainGas"], ["contractAddress"], ["logsBloom"], ["status"], ["root"], ["input"],
   ["output"], ["logs"], ["message"], ["txProof"], ["receiptProof"]]

/-- Reads a receipt; what is missing is empty. -/
def decoder : Decoder Receipt := fun node => do
  let slot ← openRecord fields node
  let textAt (i : Nat) := (slot i).orElse "" asText
  pure {
    transactionHash := ← textAt 0
    transactionIndex := ← (slot 1).orElse none Quantity.optionDecoder
    blockNumber := ← (slot 2).orElse 0 Quantity.decoder
    blockHash := ← textAt 3
    sender := ← textAt 4
    destination := ← textAt 5
    gasUsed := ← textAt 6
    remainGas := ← (slot 7).orElse none (asOption asText)
    contractAddress := ← textAt 8
    logsBloom := ← textAt 9
    status := ← (slot 10).orElse 0 Quantity.decoder
    root := ← textAt 11
    input := ← textAt 12
    output := ← textAt 13
    logs := ← (slot 14).orElse [] (asList Log.decoder)
    message := ← (slot 15).orElse none (asOption asText)
    txProof := ← (slot 16).orElse none (asOption MerkleProof.decoder)
    receiptProof := ← (slot 17).orElse none (asOption MerkleProof.decoder) }

/-- Writes a receipt; what may be missing is left out. -/
def json (r : Receipt) : Json :=
  .object <|
    [("transactionHash", .text r.transactionHash)] ++
    member? "transactionIndex" Quantity.json r.transactionIndex ++
    [("blockNumber", Quantity.json r.blockNumber), ("blockHash", .text r.blockHash),
     ("from", .text r.sender), ("to", .text r.destination), ("gasUsed", .text r.gasUsed)] ++
    member? "remainGas" .text r.remainGas ++
    [("contractAddress", .text r.contractAddress), ("logsBloom", .text r.logsBloom),
     ("status", Quantity.json r.status), ("root", .text r.root), ("input", .text r.input),
     ("output", .text r.output), ("logs", .array (r.logs.map Log.json))] ++
    member? "message" .text r.message ++
    member? "txProof" MerkleProof.json r.txProof ++
    member? "receiptProof" MerkleProof.json r.receiptProof

end Receipt

end LedgerGateway

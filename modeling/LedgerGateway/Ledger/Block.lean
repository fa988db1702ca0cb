import LedgerGateway.Quantity
import LedgerGateway.Json.Printer

/-!
# Blocks

`LedgerBlock` is a block as the ledger reports it. `Block` is what the router sees of it: the header,
the hashes of the transactions, and the bytes that were received.
-/

namespace LedgerGateway

open Json

structure BlockHeader where
  number : UInt64
  hash : String
  /-- The hash of the block before. -/
  prevHash : String
  stateRoot : String
  transactionRoot : String
  receiptRoot : String
  deriving DecidableEq, Repr, Inhabited

namespace BlockHeader

def decoder : Decoder BlockHeader := fun node => do
  let slot ← openRecord [["number"], ["hash"], ["prevHash"], ["stateRoot"], ["transactionRoot"],
    ["receiptRoot"]] node
  pure {
    number := ← (slot 0).required "number" asUInt64
    hash := ← (slot 1).required "hash" asText
    prevHash := ← (slot 2).required "prevHash" asText
    stateRoot := ← (slot 3).required "stateRoot" asText
    transactionRoot := ← (slot 4).required "transactionRoot" asText
    receiptRoot := ← (slot 5).required "receiptRoot" asText }

def json (h : BlockHeader) : Json :=
  .object [("number", ofUInt64 h.number), ("hash", .text h.hash), ("prevHash", .text h.prevHash),
    ("stateRoot", .text h.stateRoot), ("transactionRoot", .text h.transactionRoot),
    ("receiptRoot", .text h.receiptRoot)]

end BlockHeader

/-- A block as the ledger reports it. -/
structure LedgerBlock where
  number : UInt64 := 0
  hash : String := ""
  /-- The hash of the block before. -/
  parentHash : String := ""
  stateRoot : String := ""
  transactionsRoot : String := ""
  receiptsRoot : String := ""
  /-- The transactions, as hashes or in full. -/
  transactions : List Json := []

namespace LedgerBlock

/-- Reads a block; what is missing is empty. The two roots are also read under older names. -/
def decoder : Decoder LedgerBlock := fun node => do
  let slot ← openRecord [["number"], ["hash"], ["parentHash"], ["stateRoot"],
    ["transactionsRoot", "txsRoot"], ["receiptsRoot", "receiptRoot"], ["transactions"]] node
  let textAt (i : Nat) := (slot i).orElse "" asText
  pure {
    number := ← (slot 0).orElse 0 Quantity.decoder
    hash := ← textAt 1
    parentHash := ← textAt 2
    stateRoot := ← textAt 3
    transactionsRoot := ← textAt 4
    receiptsRoot := ← textAt 5
    transactions := ← (slot 6).orElse [] (asList (keep (depthLimit - 2))) }

def json (b : LedgerBlock) : Json :=
  .object [("number", Quantity.json b.number), ("hash", .text b.hash),
    ("parentHash", .text b.parentHash), ("stateRoot", .text b.stateRoot),
    ("transactionsRoot", .text b.transactionsRoot), ("receiptsRoot", .text b.receiptsRoot),
    ("transactions", .array b.transactions)]

def header (b : LedgerBlock) : BlockHeader :=
  ⟨b.number, b.hash, b.parentHash, b.stateRoot, b.transactionsRoot, b.receiptsRoot⟩

/-- The hash of a transaction that stands in a block as its hash or in full. -/
def hashOf? (tx : Json) : Option String :=
  match tx with
  | .text hash => some hash
  | .object _ => match tx.get? "hash" with
    | some (.text hash) => some hash
    | _ => none
  | _ => none

def transactionHashes (b : LedgerBlock) : List String := b.transactions.filterMap hashOf?

end LedgerBlock

/-- A block as the router sees it. -/
structure Block where
  header : BlockHeader
  transactionHashes : List String
  rawBytes : Bytes := []
  deriving DecidableEq, Repr, Inhabited

namespace Block

/-- The block in the bytes that the ledger reported. -/
def ofLedger (raw : Bytes) : Except ReadError Block := do
  let ledger ← decodeBytes LedgerBlock.decoder raw
  pure ⟨ledger.header, ledger.transactionHashes, raw⟩

def number (b : Block) : UInt64 := b.header.number

def decoder : Decoder Block := fun node => do
  let slot ← openRecord [["blockHeader"], ["transactionsHashes"], ["rawBytes"]] node
  pure {
    header := ← (slot 0).required "blockHeader" BlockHeader.decoder
    transactionHashes := ← (slot 1).required "transactionsHashes" (asList asText)
    rawBytes := ← (slot 2).orElse [] asByteList }

def json (b : Block) : Json :=
  .object [("blockHeader", b.header.json), ("transactionsHashes", ofTexts b.transactionHashes),
    ("rawBytes", ofBytes b.rawBytes)]

end Block

end LedgerGateway

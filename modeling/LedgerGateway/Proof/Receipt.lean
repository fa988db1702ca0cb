import LedgerGateway.Ledger.Receipt
import LedgerGateway.NodeVersion
import LedgerGateway.Proof.Merkle

/-!
# Proofs of receipts

The leaf of a receipt has the hash of its encoding, a list of its root, gas, contract, filter, status,
output, the gas that remains where the node reports it, and the logs, each as its address, topics and
data. Gas is normalised first: a decimal `gasUsed` becomes hexadecimal, and a `remainGas` without a
mark gets one.
-/

namespace LedgerGateway

/-- Which fields the encoding of a receipt has. -/
structure ReceiptEncoding where
  remainGas : Bool := false
  deriving DecidableEq, Repr, Inhabited

namespace ReceiptEncoding

/-- The encoding of a node's version; without one there is no gas that remains. -/
def ofVersion (version : Option NodeVersion) : ReceiptEncoding :=
  ⟨version.any NodeVersion.hasRemainGas⟩

/-- The text starts with the mark `0x`. -/
def isMarked (s : String) : Bool := ['0', 'x'].isPrefixOf s.toList

/-- The gas used in hexadecimal: a text without mark is decimal, and a blank one is zero. -/
def normalizeGasUsed (gasUsed : String) : Except ProofError String :=
  let text := Text.trim gasUsed
  if isMarked text then .ok gasUsed
  else if text = "" then .ok "0x0"
  else match Text.Wide.readDecimal text with
    | .ok value => .ok ("0x" ++ Text.hexadecimal value.toNat)
    | .error e => .error (.invalidField "gasUsed" ("'" ++ text ++ "': " ++ e.message))

def normalizeRemainGas (remain : String) : String := if isMarked remain then remain else "0x" ++ remain

/-- The receipt with both its gas fields marked. -/
def normalize (r : Receipt) : Except ProofError Receipt := do
  let gasUsed ← normalizeGasUsed r.gasUsed
  pure { r with gasUsed, remainGas := r.remainGas.map normalizeRemainGas }

/-- A hexadecimal number of 256 bits behind any number of marks; no digits are zero. -/
def quantity (field value : String) : Except ProofError Word :=
  match Text.Wide.readHexadecimal (Hex.stripMarks (Text.trim value)) with
  | .ok v => .ok v
  | .error e => .error (.invalidField field ("'" ++ value ++ "': " ++ e.message))

def topicItems : List String → Except ProofError (List Rlp.Item)
  | [] => .ok []
  | topic :: rest => do
    let bytes ← HexField.decode "log topic" topic
    let items ← topicItems rest
    pure (.bytes bytes :: items)

/-- A log as an item; the topics are read first. -/
def logItem (log : Log) : Except ProofError Rlp.Item := do
  let topics ← topicItems log.topics
  let address ← HexField.decode "log address" log.address
  let data ← HexField.decode "log data" log.data
  pure (.list [.bytes address, .list topics, .bytes data])

def logItems : List Log → Except ProofError (List Rlp.Item)
  | [] => .ok []
  | log :: rest => do
    let item ← logItem log
    let items ← logItems rest
    pure (item :: items)

/-- The gas that remains as items: one, or none if the encoding has no such field. -/
def remainGasItems (e : ReceiptEncoding) (r : Receipt) : Except ProofError (List Rlp.Item) :=
  if e.remainGas then do
    let value ← quantity "remainGas" (r.remainGas.getD "0x0")
    pure [.ofNat value.toNat]
  else .ok []

def item (e : ReceiptEncoding) (receipt : Receipt) : Except ProofError Rlp.Item := do
  let r ← normalize receipt
  let root ← HexField.decode "root" r.root
  let gasUsed ← quantity "gasUsed" r.gasUsed
  let contract ← HexField.decode "contractAddress" r.contractAddress
  let bloom ← HexField.decode "logsBloom" r.logsBloom
  let output ← HexField.decode "output" r.output
  let remain ← remainGasItems e r
  let logs ← logItems r.logs
  pure <| .list <|
    [.bytes root, .ofNat gasUsed.toNat, .bytes contract, .bytes bloom, .ofNat r.status.toNat,
     .bytes output] ++ remain ++ [.list logs]

/-- The bytes of a receipt that its leaf hashes. -/
def encode (e : ReceiptEncoding) (receipt : Receipt) : Except ProofError Bytes := do
  let item ← e.item receipt
  pure item.encode

end ReceiptEncoding

namespace Merkle

/-- The leaf of a receipt: its index, which is zero if it is missing, and the hash of its encoding. -/
def receiptLeaf (hash : Bytes → Digest) (receipt : Receipt) (e : ReceiptEncoding) :
    Except ProofError Bytes := do
  let bytes ← e.encode receipt
  pure (Rlp.encodeNat (receipt.transactionIndex.getD 0).toNat ++ (hash bytes).1)

/-- The receipt is in the tree of receipts with the given root. -/
def verifyReceipt (hash : Bytes → Digest) (receiptsRoot : String) (receipt : Receipt)
    (proof : MerkleProof) (e : ReceiptEncoding) : Except ProofError Bool := do
  let trusted ← parseRoot "receipts root" receiptsRoot
  let leaf ← receiptLeaf hash receipt e
  let computed ← root hash leaf proof
  pure (computed == trusted)

end Merkle

end LedgerGateway

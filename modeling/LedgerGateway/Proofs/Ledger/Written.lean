import LedgerGateway.Ledger.Block
import LedgerGateway.Ledger.Transaction
import LedgerGateway.Proofs.Json.Records
import LedgerGateway.Proofs.Quantity

/-!
# What the ledger reports is read back

The dispatcher writes receipts, transactions, proofs and the outcomes of calls, and the gateway
reads them. Nothing is lost on the way: `decodeBytes_json` holds of a receipt, of a transaction with
its receipt, and of the outcome of a call. It also holds of a block whose transactions are hashes, which
the dispatcher passes on as the node has written it.
-/

namespace LedgerGateway

open Json

@[simp] theorem Quantity.decoder_json (v : UInt64) :
    Quantity.decoder (Quantity.json v).node = .ok v :=
  Quantity.decoder_text_format v

@[simp] theorem Quantity.orElse_written (v : Option UInt64) :
    (Slot.written (v.map Quantity.json)).orElse none Quantity.optionDecoder = .ok v := by
  cases v with
  | none => rfl
  | some v => exact Quantity.optionDecoder_text_format v

/-! ## Proofs -/

namespace ProofUnit

def members (u : ProofUnit) : List (String × Option Json) :=
  [("left", some (ofTexts u.left)), ("right", some (ofTexts u.right))]

theorem json_eq_present (u : ProofUnit) : u.json = .object (present u.members) := rfl

@[simp] theorem decoder_json (u : ProofUnit) : decoder u.json.node = .ok u := by
  have hopen := openRecord_present [["left"], ["right"]] u.members rfl
  rw [json_eq_present, decoder, hopen]
  simp [members, bind, Except.bind, pure, Except.pure]

@[simp] theorem isWhole_json (u : ProofUnit) : u.json.isWhole = true := by
  simp [json]

end ProofUnit

namespace MerkleProof

@[simp] theorem decoder_json (p : MerkleProof) : decoder (json p).node = .ok p :=
  asList_array ProofUnit.decoder_json p

@[simp] theorem isWhole_json (p : MerkleProof) : (json p).isWhole = true :=
  areWhole_map ProofUnit.isWhole_json p

@[simp] theorem orElse_written (p : Option MerkleProof) :
    (Slot.written (p.map json)).orElse none (asOption decoder) = .ok p :=
  Slot.orElse_written_map (by simp [json]) decoder_json p

end MerkleProof

/-! ## Receipts -/

namespace Log

def members (l : Log) : List (String × Option Json) :=
  [("address", some (.text l.address)), ("topics", some (ofTexts l.topics)),
   ("data", some (.text l.data))]

theorem json_eq_present (l : Log) : l.json = .object (present l.members) := rfl

@[simp] theorem decoder_json (l : Log) : decoder l.json.node = .ok l := by
  have hopen := openRecord_present [["address"], ["topics"], ["data"]] l.members rfl
  rw [json_eq_present, decoder, hopen]
  simp [members, bind, Except.bind, pure, Except.pure]

@[simp] theorem isWhole_json (l : Log) : l.json.isWhole = true := by
  simp [json]

end Log

namespace Receipt

def members (r : Receipt) : List (String × Option Json) :=
  [("transactionHash", some (.text r.transactionHash)),
   ("transactionIndex", r.transactionIndex.map Quantity.json),
   ("blockNumber", some (Quantity.json r.blockNumber)), ("blockHash", some (.text r.blockHash)),
   ("from", some (.text r.sender)), ("to", some (.text r.destination)),
   ("gasUsed", some (.text r.gasUsed)), ("remainGas", r.remainGas.map .text),
   ("contractAddress", some (.text r.contractAddress)), ("logsBloom", some (.text r.logsBloom)),
   ("status", some (Quantity.json r.status)), ("root", some (.text r.root)),
   ("input", some (.text r.input)), ("output", some (.text r.output)),
   ("logs", some (.array (r.logs.map Log.json))), ("message", r.message.map .text),
   ("txProof", r.txProof.map MerkleProof.json),
   ("receiptProof", r.receiptProof.map MerkleProof.json)]

theorem json_eq_present (r : Receipt) : r.json = .object (present r.members) := by
  simp [json, members]

/-- A receipt that was written is read back. -/
@[simp] theorem decoder_json (r : Receipt) : decoder r.json.node = .ok r := by
  have hopen := openRecord_present fields r.members rfl
  have hlogs : asList Log.decoder (.array (nodes (r.logs.map Log.json))) = .ok r.logs :=
    asList_array Log.decoder_json r.logs
  rw [json_eq_present, decoder, hopen]
  simp [members, bind, Except.bind, pure, Except.pure, hlogs]

@[simp] theorem isWhole_json (r : Receipt) : r.json.isWhole = true := by
  have hlogs : areWhole (r.logs.map Log.json) = true := areWhole_map Log.isWhole_json r.logs
  simp [json, Quantity.json, hlogs]

theorem decodeBytes_json (r : Receipt) : decodeBytes decoder r.json.bytes = .ok r :=
  decodeBytes_bytes r.isWhole_json r.decoder_json

end Receipt

/-! ## Transactions -/

namespace LedgerTransaction

def members (t : LedgerTransaction) : List (String × Option Json) :=
  [("hash", some (.text t.hash)), ("transactionIndex", t.transactionIndex.map Quantity.json),
   ("blockNumber", some (Quantity.json t.blockNumber)), ("blockHash", some (.text t.blockHash)),
   ("from", some (.text t.sender)), ("to", some (.text t.destination)),
   ("input", some (.text t.input)), ("nonce", some (.text t.nonce)),
   ("groupId", t.groupId.map .text), ("chainId", t.chainId.map .text)]

theorem json_eq_present (t : LedgerTransaction) : t.json = .object (present t.members) := by
  simp [json, members]

@[simp] theorem decoder_json (t : LedgerTransaction) : decoder t.json.node = .ok t := by
  have hopen := openRecord_present [["hash"], ["transactionIndex"], ["blockNumber"],
    ["blockHash"], ["from"], ["to"], ["input"], ["nonce"], ["groupId"], ["chainId"]] t.members rfl
  rw [json_eq_present, decoder, hopen]
  simp [members, bind, Except.bind, pure, Except.pure]

@[simp] theorem isWhole_json (t : LedgerTransaction) : t.json.isWhole = true := by
  simp [json, Quantity.json]

end LedgerTransaction

namespace TransactionWithProof

def members (t : TransactionWithProof) : List (String × Option Json) :=
  [("transaction", some t.transaction.json), ("txProof", some (MerkleProof.json t.txProof))]

theorem json_eq_present (t : TransactionWithProof) : t.json = .object (present t.members) := rfl

@[simp] theorem decoder_json (t : TransactionWithProof) : decoder t.json.node = .ok t := by
  have hopen := openRecord_present [["transaction"], ["txProof"]] t.members rfl
  rw [json_eq_present, decoder, hopen]
  simp [members, bind, Except.bind, pure, Except.pure]

@[simp] theorem isWhole_json (t : TransactionWithProof) : t.json.isWhole = true := by
  simp [json]

end TransactionWithProof

namespace ReceiptWithProof

def members (r : ReceiptWithProof) : List (String × Option Json) :=
  [("transactionReceipt", some r.receipt.json),
   ("receiptProof", some (MerkleProof.json r.receiptProof))]

theorem json_eq_present (r : ReceiptWithProof) : r.json = .object (present r.members) := rfl

@[simp] theorem decoder_json (r : ReceiptWithProof) : decoder r.json.node = .ok r := by
  have hopen := openRecord_present [["transactionReceipt"], ["receiptProof"]] r.members rfl
  rw [json_eq_present, decoder, hopen]
  simp [members, bind, Except.bind, pure, Except.pure]

@[simp] theorem isWhole_json (r : ReceiptWithProof) : r.json.isWhole = true := by
  simp [json]

end ReceiptWithProof

namespace TransactionProof

def members (p : TransactionProof) : List (String × Option Json) :=
  [("transWithProof", some p.transaction.json), ("receiptWithProof", some p.receipt.json)]

theorem json_eq_present (p : TransactionProof) : p.json = .object (present p.members) := rfl

@[simp] theorem decoder_json (p : TransactionProof) : decoder p.json.node = .ok p := by
  have hopen := openRecord_present [["transWithProof"], ["receiptWithProof"]] p.members rfl
  rw [json_eq_present, decoder, hopen]
  simp [members, bind, Except.bind, pure, Except.pure]

@[simp] theorem isWhole_json (p : TransactionProof) : p.json.isWhole = true := by
  simp [json]

/-- A transaction with its receipt and both proofs is read back. -/
theorem decodeBytes_json (p : TransactionProof) : decodeBytes decoder p.json.bytes = .ok p :=
  decodeBytes_bytes p.isWhole_json p.decoder_json

end TransactionProof

/-! ## Calls -/

namespace CallOutput

def members (o : CallOutput) : List (String × Option Json) :=
  [("currentBlockNumber", some (Quantity.json o.currentBlockNumber)),
   ("status", some (Quantity.json o.status)), ("output", some (.text o.output))]

theorem json_eq_present (o : CallOutput) : o.json = .object (present o.members) := rfl

@[simp] theorem decoder_json (o : CallOutput) : decoder o.json.node = .ok o := by
  have hopen := openRecord_present [["currentBlockNumber"], ["status"], ["output"]] o.members rfl
  rw [json_eq_present, decoder, hopen]
  simp [members, bind, Except.bind, pure, Except.pure]

@[simp] theorem isWhole_json (o : CallOutput) : o.json.isWhole = true := by
  simp [json, Quantity.json]

theorem decodeBytes_json (o : CallOutput) : decodeBytes decoder o.json.bytes = .ok o :=
  decodeBytes_bytes o.isWhole_json o.decoder_json

end CallOutput

/-! ## Blocks -/

namespace LedgerBlock

def members (b : LedgerBlock) : List (String × Option Json) :=
  [("number", some (Quantity.json b.number)), ("hash", some (.text b.hash)),
   ("parentHash", some (.text b.parentHash)), ("stateRoot", some (.text b.stateRoot)),
   ("transactionsRoot", some (.text b.transactionsRoot)),
   ("receiptsRoot", some (.text b.receiptsRoot)), ("transactions", some (.array b.transactions))]

theorem json_eq_present (b : LedgerBlock) : b.json = .object (present b.members) := rfl

/-- A block that lists its transactions by their hashes is read back. -/
theorem decodeBytes_json {b : LedgerBlock} (hashes : List String)
    (h : .array b.transactions = ofTexts hashes) : decodeBytes decoder b.json.bytes = .ok b := by
  have hwhole : (Json.array b.transactions).isWhole = true := h ▸ isWhole_ofTexts hashes
  have hkeep : asList (keep (depthLimit - 2)) (Json.array b.transactions).node =
      .ok b.transactions := by
    rw [h, asList_keep_ofTexts]
    exact congrArg _ (Json.array.inj h).symm
  have hopen := openRecord_present [["number"], ["hash"], ["parentHash"], ["stateRoot"],
    ["transactionsRoot", "txsRoot"], ["receiptsRoot", "receiptRoot"], ["transactions"]] b.members rfl
  refine decodeBytes_bytes (by simpa [json, Quantity.json] using hwhole) ?_
  rw [json_eq_present, decoder, hopen]
  simp only [node] at hkeep
  simp [members, bind, Except.bind, pure, Except.pure, hkeep]

end LedgerBlock

/-- Whatever the node answers, the gateway reads what the dispatcher writes as that answer. -/
theorem decodeBytes_ledger :
    (∀ r : Receipt, decodeBytes Receipt.decoder r.json.bytes = .ok r) ∧
    (∀ p : TransactionProof, decodeBytes TransactionProof.decoder p.json.bytes = .ok p) ∧
    ∀ o : CallOutput, decodeBytes CallOutput.decoder o.json.bytes = .ok o := by
  refine ⟨?receipt, ?proof, ?output⟩
  case receipt => exact Receipt.decodeBytes_json
  case proof => exact TransactionProof.decodeBytes_json
  case output => exact CallOutput.decodeBytes_json

end LedgerGateway

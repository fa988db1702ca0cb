import LedgerGateway.Proofs.Gateway.Operations
import LedgerGateway.Proofs.Proof.Membership

/-!
# What is reported

A response names what the node has answered, and a verified transaction what was asked for. The
output is read by a more forgiving reader than the one whose bytes are hashed, but of the texts
that both can read they read the same bytes.
-/

namespace LedgerGateway.Gateway

open Text

variable {g : Gateway}

/-! ## Outputs -/

/-- What the reader of hashed fields can read, the other reads alike. -/
theorem readHex_of_decode {field value : String} {bytes : Bytes}
    (h : HexField.decode field value = .ok bytes) : readHex value = .ok bytes := by
  have hlower := HexField.decode_eq_ok.mp h
  have hread := Hex.decode_stripMark_of_stripLowerMark hlower
  rw [readHex, mapError_eq_ok, Hex.read, mapError_eq_ok]
  exact hread

/-- The output that is read of an accepted receipt is the one that its leaf hashes. -/
theorem hashesOutput_of_readHex {block : Block} {receipt : Receipt} {proof : MerkleProof}
    {output : Bytes}
    (h : Merkle.verifyReceipt g.profile.hash block.header.receiptRoot receipt proof
      g.receiptEncoding = .ok true) (houtput : readHex receipt.output = .ok output) :
    g.receiptEncoding.HashesOutput receipt output := by
  obtain ⟨hashed, hdecode, hhashes⟩ := ReceiptEncoding.hashesOutput_of_verifyReceipt h
  rw [readHex_of_decode hdecode, Except.ok.injEq] at houtput
  exact houtput ▸ hhashes

/-- The texts are decoded from the output, or there are none. -/
def DecodedFrom (output : Bytes) (result : List String) : Prop :=
  result = [] ∨ ∃ function wrapped, decodeOutput function wrapped output = .ok result

/-! ## Verified transactions -/

section

variable {hash : String} {number : UInt64} {proof : TransactionProof} {v : VerifiedTransaction}

/-- The result that is reported of a transaction that succeeded. -/
theorem decodedFrom_recovered (recovered? : Option RecoveredRequest) (byProxy : Bool)
    (output : Bytes) :
    DecodedFrom output (match recovered? with
      | some r => ((decodeOutput (some r.function) byProxy output).toOption).getD []
      | none => []) := by
  cases recovered? with
  | none => exact .inl rfl
  | some r =>
    cases hresult : decodeOutput (some r.function) byProxy output with
    | error e => exact .inl (by simp only [hresult]; rfl)
    | ok result => exact .inr ⟨some r.function, byProxy, by simp only [hresult]; rfl⟩

/-- The outcome in a response is that of a receipt with the given output. -/
structure RespondsTo (g : Gateway) (receipt : Receipt) (output : Bytes) (r : TransactionResponse) :
    Prop where
  readable : readHex receipt.output = .ok output
  succeeded : receipt.isStatusOk = true → DecodedFrom output r.result ∧
    r = { TransactionResponse.success r.result with hash := r.hash, blockNumber := r.blockNumber }
  failed : receipt.isStatusOk = false →
    r = { g.reverted receipt.status output receipt.message with
      hash := r.hash, blockNumber := r.blockNumber }

theorem respondsTo_of_report (h : g.report hash number proof = .ok v) :
    ∃ output, RespondsTo g proof.receipt.receipt output v.response := by
  simp only [report, except_bind_eq_ok, pure, Except.pure, Except.ok.injEq] at h
  obtain ⟨input, -, output, houtput, rfl⟩ := h
  refine ⟨output, houtput, ?_, ?_⟩
  · intro hstatus
    simp only [hstatus, if_true]
    exact ⟨decodedFrom_recovered _ _ output, rfl⟩
  · intro hstatus
    simp only [hstatus, Bool.false_eq_true, if_false]

/-- What a report says. -/
structure Reports (g : Gateway) (hash : String) (number : UInt64) (proof : TransactionProof)
    (v : VerifiedTransaction) : Prop where
  /-- The hash that was asked for, twice, and the height. -/
  names : v.transactionHash = hash ∧ v.response.hash = hash ∧ v.blockNumber = number
  /-- The receipt and the transaction that the node has answered with. -/
  bytes : v.receiptBytes = proof.receipt.receipt.json.bytes ∧
    v.txBytes = proof.transaction.transaction.json.bytes
  /-- The result of a success is decoded from the output of the receipt. -/
  result : proof.receipt.receipt.isStatusOk = true → ∃ output,
    readHex proof.receipt.receipt.output = .ok output ∧ DecodedFrom output v.response.result

theorem reports_of_report (h : g.report hash number proof = .ok v) :
    Reports g hash number proof v := by
  obtain ⟨output, hresponds⟩ := respondsTo_of_report h
  simp only [report, except_bind_eq_ok, pure, Except.pure, Except.ok.injEq] at h
  obtain ⟨input, -, _, -, rfl⟩ := h
  exact ⟨by simp only [and_self], by simp only [and_self],
    fun hstatus => ⟨output, hresponds.readable, (hresponds.succeeded hstatus).1⟩⟩

/-- A report needs no more than data and an output that can be read. -/
theorem exists_report_iff : (∃ v, g.report hash number proof = .ok v) ↔
    (∃ input, readHex proof.transaction.transaction.input = .ok input) ∧
      ∃ output, readHex proof.receipt.receipt.output = .ok output := by
  simp only [report, except_bind_eq_ok, pure, Except.pure, Except.ok.injEq]
  constructor
  · rintro ⟨v, input, hinput, output, houtput, -⟩
    exact ⟨⟨input, hinput⟩, output, houtput⟩
  · rintro ⟨⟨input, hinput⟩, output, houtput⟩
    exact ⟨_, input, hinput, output, houtput, rfl⟩

/-- The verified transaction under another hash. -/
def renamed (v : VerifiedTransaction) (hash : String) : VerifiedTransaction :=
  { v with transactionHash := hash, response := { v.response with hash } }

/-- A report under another hash says the same otherwise. -/
theorem report_renamed (h : g.report hash number proof = .ok v) (hash' : String) :
    g.report hash' number proof = .ok (renamed v hash') := by
  simp only [report, except_bind_eq_ok, pure, Except.pure, Except.ok.injEq] at h ⊢
  obtain ⟨input, hinput, output, houtput, rfl⟩ := h
  exact ⟨input, hinput, output, houtput, by simp only [renamed]⟩

end

end LedgerGateway.Gateway

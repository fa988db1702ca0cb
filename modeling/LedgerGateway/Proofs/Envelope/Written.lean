import LedgerGateway.Envelope.Params
import LedgerGateway.Envelope.Request
import LedgerGateway.Proofs.Bytes.BigEndian
import LedgerGateway.Proofs.Bytes.Hex
import LedgerGateway.Proofs.Json.Records

/-!
# Envelopes are read back

What the gateway puts into an envelope is what the dispatcher takes out of it: heights, and the
data of calls and transactions with the request that they were built from.
-/

namespace LedgerGateway

open Json

/-! ## Heights -/

namespace BlockNumber

@[simp] theorem decode?_encode (number : UInt64) : decode? (encode number) = some number := by
  have hlen : (encode number).length = 8 := Bytes.length_fixed 8 _
  have hne : (encode number).isEmpty = false := by
    cases h : encode number with
    | nil => simp [h] at hlen
    | cons b bs => rfl
  have hval : Bytes.toNat (encode number) = number.toNat := by
    rw [encode, Bytes.toNat_fixed]
    exact Nat.mod_eq_of_lt number.toNat_lt
  simp [decode?, hne, hlen, hval]

end BlockNumber

/-! ## Requests -/

namespace TransactionOptions

def members (o : TransactionOptions) : List (String × Option Json) :=
  [("XA_TRANSACTION_ID", o.xaTransactionId.map .text),
   ("XA_TRANSACTION_SEQ", o.xaTransactionSeq.map ofUInt64)]

theorem json_eq_present (o : TransactionOptions) : o.json = .object (present o.members) := by
  simp [json, members]

@[simp] theorem decoder_json (o : TransactionOptions) : decoder o.json.node = .ok o := by
  have hopen := openRecord_present [["XA_TRANSACTION_ID"], ["XA_TRANSACTION_SEQ"]] o.members rfl
  rw [json_eq_present, decoder, hopen]
  simp [members, bind, Except.bind, pure, Except.pure]

@[simp] theorem isWhole_json (o : TransactionOptions) : o.json.isWhole = true := by
  simp [json]

end TransactionOptions

namespace TransactionRequest

def members (r : TransactionRequest) : List (String × Option Json) :=
  [("method", some (.text r.method)), ("args", some (ofOption ofTexts r.args)),
   ("options", some r.options.json)]

theorem json_eq_present (r : TransactionRequest) : r.json = .object (present r.members) := rfl

theorem asOption_args (args : Option (List String)) :
    asOption (asList asText) (ofOption ofTexts args).node = .ok args := by
  cases args with
  | none => rfl
  | some args => exact asOption_of_ne_null (by simp [ofOption, ofTexts]) (asList_ofTexts args)

@[simp] theorem decoder_json (r : TransactionRequest) : decoder r.json.node = .ok r := by
  have hopen := openRecord_present [["method"], ["args"], ["options"]] r.members rfl
  rw [json_eq_present, decoder, hopen]
  simp [members, bind, Except.bind, pure, Except.pure, asOption_args]

@[simp] theorem isWhole_json (r : TransactionRequest) : r.json.isWhole = true := by
  have hargs : (ofOption ofTexts r.args).isWhole = true := by cases r.args <;> simp [ofOption]
  simp [json, hargs]

end TransactionRequest

/-! ## Calls and transactions -/

@[simp] theorem SubType.decoder_json (s : SubType) : SubType.decoder s.json.node = .ok s := by
  cases s <;> rfl

namespace TransactionParams

def members (p : TransactionParams) : List (String × Option Json) :=
  [("transactionRequest", some p.request.json), ("data", some (.text (Hex.encode p.data))),
   ("subType", some p.subType.json), ("abi", p.abi.map .text), ("from", p.sender.map .text),
   ("to", p.destination.map .text), ("resource", p.resource.map .text),
   ("xaTransactionID", p.xaTransactionId.map .text),
   ("xaTransactionSeq", p.xaTransactionSeq.map ofUInt64)]

theorem json_eq_present (p : TransactionParams) : p.json = .object (present p.members) := by
  simp [json, members]

theorem dataDecoder_encode (data : Bytes) :
    dataDecoder (.text (some (Hex.encode data))) = .ok data := by
  simp [dataDecoder]

theorem decoder_json (p : TransactionParams) : decoder p.json.node = .ok p := by
  have hopen := openRecord_present [["transactionRequest"], ["data"], ["subType"], ["abi"],
    ["from"], ["to"], ["resource"], ["xaTransactionID"], ["xaTransactionSeq"]] p.members rfl
  rw [json_eq_present, decoder, hopen]
  simp [members, bind, Except.bind, pure, Except.pure, dataDecoder_encode]

theorem isWhole_json (p : TransactionParams) : p.json.isWhole = true := by
  simp [json, SubType.json]

/-- The dispatcher finds the call or transaction that the gateway sent. -/
@[simp] theorem ofBytes_toBytes (p : TransactionParams) : ofBytes p.toBytes = .ok p :=
  decodeBytes_bytes p.isWhole_json p.decoder_json

/-- The flat form has a place for all that a payload holds. -/
theorem payload_ofPayload (request : TransactionRequest) (payload : CallPayload) :
    (ofPayload request payload).payload = payload := by
  cases payload with
  | call data => rfl
  | sendTx signed => rfl
  | callByProxy data abi route => rfl
  | sendTxByProxy signed abi route => rfl

/-- Whatever a payload travels with arrives as it was, and the payload with it. -/
theorem ofBytes_ofPayload (request : TransactionRequest) (payload : CallPayload)
    (sender destination : Option String) :
    let sent := { ofPayload request payload with sender := sender, destination := destination }
    ∃ received, ofBytes sent.toBytes = .ok received ∧ received = sent ∧
      received.payload = payload := by
  intro sent
  have hread : ofBytes sent.toBytes = .ok sent := ofBytes_toBytes sent
  -- Neither the sender nor the destination is part of the payload.
  have hpayload : sent.payload = (ofPayload request payload).payload := rfl
  exact ⟨sent, hread, rfl, hpayload.trans (payload_ofPayload request payload)⟩

end TransactionParams

end LedgerGateway

import LedgerGateway.Proofs.Gateway.Soundness

/-!
# Proven transactions are reported

Once the node has answered and the checks that its version allows have passed, a transaction is reported
whatever its data and its output mean. A request or a result that cannot be decoded is left empty;
the hash, the height and the status do not depend on it.
-/

namespace LedgerGateway.Gateway

open Exchange Text

section

variable {g : Gateway} {node : Node} {blocks : BlockSource} {hash : String} {number : UInt64}
  {before after : History} {proof : TransactionProof} {v : VerifiedTransaction}
  {input output : Bytes}

/-! ## What makes a lookup succeed -/

/-- An answer of the node that can be reported, with the bytes that the data and the output are read as. -/
structure Lookup (g : Gateway) (node : Node) (blocks : BlockSource) (hash : String)
    (number : UInt64) (before after : History) (proof : TransactionProof) (input output : Bytes) :
    Prop where
  named : (trim hash).isEmpty = false
  /-- The node has answered with a transaction and a receipt that has content. -/
  answered : ProofAnswered node (trim hash) before proof
  verified : Verified g node blocks number
    (before ++ [.transaction (trim hash)] ++ [.receipt (trim hash)]) after proof
  input : readHex proof.transaction.transaction.input = .ok input
  output : readHex proof.receipt.receipt.output = .ok output

/-- A lookup succeeds exactly if the node's answer is verified and can be read. -/
theorem exists_getTransaction_iff :
    (∃ v, outcome (g.getTransaction node hash number blocks) before = (.ok v, after)) ↔
      ∃ proof input output, Lookup g node blocks hash number before after proof input output := by
  simp only [getTransaction_eq_ok_iff]
  constructor
  · rintro ⟨v, proof, hnamed, hanswered, hverified, hreport⟩
    obtain ⟨⟨input, hinput⟩, output, houtput⟩ := exists_report_iff.mp ⟨v, hreport⟩
    exact ⟨proof, input, output, hnamed, hanswered, hverified, hinput, houtput⟩
  · rintro ⟨proof, input, output, h⟩
    obtain ⟨v, hreport⟩ := exists_report_iff.mpr ⟨⟨input, h.input⟩, output, h.output⟩
    exact ⟨v, proof, h.named, h.answered, h.verified, hreport⟩

/-! ## What is reported -/

def destinationOf (t : LedgerTransaction) : Option Address := (Address.read t.destination).toOption

def isThroughProxy (g : Gateway) (t : LedgerTransaction) : Bool :=
  g.proxyAddress.isSome && g.proxyAddress == destinationOf t

/-- The request that the data of a transaction is taken for. -/
def readRequest (g : Gateway) (t : LedgerTransaction) (input : Bytes) :
    Except GatewayError RecoveredRequest :=
  g.decodeInvocation input (destinationOf t) (g.isThroughProxy t)

/-- The texts in an output, if the request was read and its function can decode them. -/
def readResult (request? : Option RecoveredRequest) (byProxy : Bool) (output : Bytes) :
    List String :=
  match request? with
  | some r => ((decodeOutput (some r.function) byProxy output).toOption).getD []
  | none => []

/-- The response for a receipt whose success has this result. -/
def responseTo (g : Gateway) (receipt : Receipt) (output : Bytes) (result : List String) :
    TransactionResponse :=
  if receipt.isStatusOk then .success result
  else g.reverted receipt.status output receipt.message

/-- The code that a status is reported as. -/
def reportedCode (status : UInt64) : Int32 :=
  if status < 0x80000000 then Int32.ofNat status.toNat else Int32.maxValue

variable {receipt : Receipt} {result : List String}

theorem errorCode_responseTo :
    (g.responseTo receipt output result).errorCode = reportedCode receipt.status := by
  unfold responseTo
  split
  · rename_i hstatus
    have hzero : receipt.status = 0 := by simpa [Receipt.isStatusOk] using hstatus
    rw [hzero]
    rfl
  · rfl

theorem errorCode_responseTo_eq_zero_iff :
    (g.responseTo receipt output result).errorCode = 0 ↔ receipt.isStatusOk = true := by
  unfold responseTo
  split
  · rename_i hstatus
    exact iff_of_true rfl hstatus
  · rename_i hstatus
    have hne : receipt.status ≠ 0 := by simpa [Receipt.isStatusOk] using hstatus
    exact iff_of_false (errorCode_reverted hne output receipt.message) hstatus

theorem result_responseTo :
    (g.responseTo receipt output result).result = if receipt.isStatusOk then result else [] := by
  unfold responseTo
  split <;> rfl

/-- A report of data and an output that can be read, with what could be decoded of them. -/
theorem report_eq (hinput : readHex proof.transaction.transaction.input = .ok input)
    (houtput : readHex proof.receipt.receipt.output = .ok output) :
    let transaction := proof.transaction.transaction
    let receipt := proof.receipt.receipt
    let request? := (g.readRequest transaction input).toOption
    let byProxy := g.isThroughProxy transaction
    g.report hash number proof = .ok {
      blockNumber := number
      transactionHash := hash
      accountIdentity := transaction.sender
      resource := (request?.map (·.resource)).getD ""
      isByProxy := byProxy
      request := (request?.map (·.request)).getD {}
      response := { g.responseTo receipt output (readResult request? byProxy output) with
        hash, blockNumber := number }
      receiptBytes := receipt.json.bytes
      txBytes := transaction.json.bytes } := by
  simp only [report, hinput, houtput]
  rfl

/-- What is reported of a transaction with this data and this output. -/
structure ReportedAs (g : Gateway) (hash : String) (number : UInt64) (proof : TransactionProof)
    (input output : Bytes) (v : VerifiedTransaction) : Prop where
  /-- The hash and the height are those that were asked for. -/
  names : v.transactionHash = hash ∧ v.response.hash = hash
  heights : v.blockNumber = number ∧ v.response.blockNumber = number
  /-- The status is that of the receipt, and zero for a success only. -/
  status : v.response.errorCode = reportedCode proof.receipt.receipt.status ∧
    (v.response.errorCode = 0 ↔ proof.receipt.receipt.isStatusOk = true)
  bytes : v.receiptBytes = proof.receipt.receipt.json.bytes ∧
    v.txBytes = proof.transaction.transaction.json.bytes
  requestRead : ∀ r, g.readRequest proof.transaction.transaction input = .ok r →
    v.resource = r.resource ∧ v.request = r.request
  /-- Data that cannot be decoded leaves everything empty that depends on it. -/
  requestUnread : ∀ e, g.readRequest proof.transaction.transaction input = .error e →
    v.resource = "" ∧ v.request = {} ∧ v.response.result = []
  /-- The result of a success is what its function decodes. -/
  resultRead : ∀ r texts, g.readRequest proof.transaction.transaction input = .ok r →
    decodeOutput (some r.function) (g.isThroughProxy proof.transaction.transaction) output =
      .ok texts →
    v.response.result = if proof.receipt.receipt.isStatusOk then texts else []
  /-- An output that cannot be decoded leaves the result empty. -/
  resultUnread : ∀ r e, g.readRequest proof.transaction.transaction input = .ok r →
    decodeOutput (some r.function) (g.isThroughProxy proof.transaction.transaction) output =
      .error e → v.response.result = []

theorem reportedAs_of_report (h : g.report hash number proof = .ok v)
    (hinput : readHex proof.transaction.transaction.input = .ok input)
    (houtput : readHex proof.receipt.receipt.output = .ok output) :
    ReportedAs g hash number proof input output v := by
  obtain rfl := Except.ok.inj ((report_eq hinput houtput).symm.trans h)
  refine ⟨by simp only [and_self], by simp only [and_self], ?status, by simp only [and_self],
    ?requestRead, ?requestUnread, ?resultRead, ?resultUnread⟩
  case status => exact ⟨errorCode_responseTo, errorCode_responseTo_eq_zero_iff⟩
  case requestRead =>
    intro r hr
    simp only [hr, Except.toOption, Option.map_some, Option.getD_some, and_self]
  case requestUnread =>
    intro e he
    simp only [he, Except.toOption, Option.map_none, Option.getD_none, readResult,
      result_responseTo, ite_self, and_self]
  case resultRead =>
    intro r texts hr htexts
    simp only [hr, htexts, Except.toOption, readResult, Option.getD_some, result_responseTo]
  case resultUnread =>
    intro r e hr he
    simp only [hr, he, Except.toOption, readResult, Option.getD_none, result_responseTo, ite_self]

/-- A proven transaction is reported, whatever can be decoded of it. -/
theorem getTransaction_reported
    (h : Lookup g node blocks hash number before after proof input output) :
    ∃ v, outcome (g.getTransaction node hash number blocks) before = (.ok v, after) ∧
      ReportedAs g hash number proof input output v := by
  obtain ⟨v, hreport⟩ : ∃ v, g.report hash number proof = .ok v :=
    exists_report_iff.mpr ⟨⟨input, h.input⟩, output, h.output⟩
  refine ⟨v, getTransaction_eq_ok_iff.mpr ⟨proof, h.named, h.answered, h.verified, hreport⟩, ?_⟩
  exact reportedAs_of_report hreport h.input h.output

end

namespace OneBlock

/-- A gateway whose node is too old for proofs. -/
def oldGateway : Gateway := { gateway with nodeVersion := some "2.2.0" }

/-- A source that has no block. -/
def noBlocks : BlockSource := .independent fun _ _ => .error (.transport "")

theorem lookup_proven (hash : Bytes) :
    Lookup gateway (node hash 0) (source hash) (Hex.encode hash) 7 []
      [.transaction (trim (Hex.encode hash)), .receipt (trim (Hex.encode hash)), .trustedBlock 7]
      (proof hash 0) [] [] where
  named := isEmpty_trim_encode hash
  answered := ⟨rfl, rfl, rfl⟩
  verified := by
    rw [Verified, if_pos proofsSupported_gateway]
    exact ⟨block hash, rfl, verifyReceipt_block hash, verifyTransaction_block hash⟩
  input := readHex_empty
  output := readHex_empty

theorem proofsSupported_oldGateway : oldGateway.proofsSupported = false := rfl

theorem lookup_unproven (hash : Bytes) :
    Lookup oldGateway (node hash 1) noBlocks (Hex.encode hash) 7 []
      [.transaction (trim (Hex.encode hash)), .receipt (trim (Hex.encode hash))]
      (proof hash 1) [] [] where
  named := isEmpty_trim_encode hash
  answered := ⟨rfl, rfl, rfl⟩
  verified := by
    rw [Verified, proofsSupported_oldGateway, if_neg (by decide)]
    rfl
  input := readHex_empty
  output := readHex_empty

end OneBlock

/-- A transaction to no address, proven and successful, or unproven and failed. -/
theorem getTransaction_reported_oneBlock :
    (∃ v after, Lookup OneBlock.gateway (OneBlock.node [1] 0) (OneBlock.source [1]) (Hex.encode [1])
        7 [] after (OneBlock.proof [1] 0) [] [] ∧
      outcome (OneBlock.gateway.getTransaction (OneBlock.node [1] 0) (Hex.encode [1]) 7
        (OneBlock.source [1])) [] = (.ok v, after) ∧
      v.resource = "" ∧ v.request = {} ∧ v.response.result = [] ∧ v.response.errorCode = 0) ∧
    ∃ v after, Lookup OneBlock.oldGateway (OneBlock.node [1] 1) OneBlock.noBlocks (Hex.encode [1])
        7 [] after (OneBlock.proof [1] 1) [] [] ∧
      outcome (OneBlock.oldGateway.getTransaction (OneBlock.node [1] 1) (Hex.encode [1]) 7
        OneBlock.noBlocks) [] = (.ok v, after) ∧
      v.resource = "" ∧ v.request = {} ∧ v.response.result = [] ∧ v.response.errorCode = 1 := by
  have hproven := OneBlock.lookup_proven [1]
  have hunproven := OneBlock.lookup_unproven [1]
  obtain ⟨v, hv, hreported⟩ := getTransaction_reported hproven
  obtain ⟨w, hw, hreported'⟩ := getTransaction_reported hunproven
  obtain ⟨hresource, hrequest, hresult⟩ := hreported.requestUnread _ rfl
  obtain ⟨hresource', hrequest', hresult'⟩ := hreported'.requestUnread _ rfl
  exact ⟨⟨v, _, hproven, hv, hresource, hrequest, hresult, hreported.status.1⟩,
    w, _, hunproven, hw, hresource', hrequest', hresult', hreported'.status.1⟩

end LedgerGateway.Gateway

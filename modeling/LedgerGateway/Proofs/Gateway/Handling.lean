import LedgerGateway.Proofs.Gateway.Dispatcher
import LedgerGateway.Proofs.Ledger.Written
import LedgerGateway.Proofs.Text.Blank

/-!
# Handling a request to its end

`Request.Unrecognized` lists what keeps a request from being understood, and `Request.Opens` is the
question with which every other one starts. `Node.Refuses` is the table of answers that end a
request without data, and `Node.Tells` says which answers a success carries. A request is handled as
these say, whatever its type and data are and whatever the node answers.
-/

namespace LedgerGateway

open Exchange Text

/-! ## Requests -/

namespace Request

variable {r : Request}

/-- A request that cannot be understood. -/
inductive Unrecognized (r : Request) : Prop
  | kind : (∀ kind : RequestKind, r.type ≠ kind.code) → r.Unrecognized
  | height : r.type = RequestKind.getBlockByNumber.code →
      ¬ (1 ≤ r.data.length ∧ r.data.length ≤ 8) → r.Unrecognized
  | params {kind : RequestKind} : kind = .call ∨ kind = .sendTransaction → r.type = kind.code →
      (∀ params, TransactionParams.ofBytes r.data ≠ .ok params) → r.Unrecognized
  | destination {params : TransactionParams} : r.type = RequestKind.call.code →
      TransactionParams.ofBytes r.data = .ok params → params.destination = none → r.Unrecognized
  | hash : r.type = RequestKind.getTransactionProof.code → (∀ text, Utf8.encode text ≠ r.data) →
      r.Unrecognized
  | blank {text : String} : r.type = RequestKind.getTransactionProof.code →
      Utf8.encode text = r.data → isAllBlank text = true → r.Unrecognized

/-- The first question of a request of a kind. -/
inductive Opens (r : Request) : RequestKind → Question → Prop
  | height : r.Opens .getBlockNumber .height
  | block {number : UInt64} : 1 ≤ r.data.length → r.data.length ≤ 8 →
      number.toNat = Bytes.toNat r.data → r.Opens .getBlockByNumber (.block number false)
  | call {params : TransactionParams} {destination : String} :
      TransactionParams.ofBytes r.data = .ok params → params.destination = some destination →
      r.Opens .call (.call (params.sender.getD Node.defaultSender) destination params.data)
  | submit {params : TransactionParams} : TransactionParams.ofBytes r.data = .ok params →
      r.Opens .sendTransaction (.submit params.data)
  | transaction {text : String} : Utf8.encode text = r.data → isAllBlank text = false →
      r.Opens .getTransactionProof (.transaction (trim text))

theorem kind?_eq_some {kind : RequestKind} : r.kind? = some kind ↔ r.type = kind.code := by
  constructor
  · intro h
    have hcode := List.find?_some h
    exact (beq_iff_eq.mp hcode).symm
  · intro h
    rw [kind?, h]
    exact RequestKind.ofCode?_code kind

/-- A request that has a first question can be understood. -/
theorem Opens.not_unrecognized {kind : RequestKind} {question : Question}
    (h : r.Opens kind question) (htype : r.type = kind.code) : ¬ r.Unrecognized := by
  have hsame : ∀ {other : RequestKind}, r.type = other.code → other = kind := fun hother =>
    Option.some.inj ((kind?_eq_some.mpr hother).symm.trans (kind?_eq_some.mpr htype))
  intro hunrecognized
  cases hunrecognized with
  | kind hnone => exact hnone kind htype
  | height hother hlength =>
    obtain rfl := hsame hother
    cases h with
    | block hlower hupper hvalue => exact hlength ⟨hlower, hupper⟩
  | params hkinds hother hnone =>
    obtain rfl := hsame hother
    rcases hkinds with rfl | rfl
    · cases h with
      | call hparams hdestination => exact hnone _ hparams
    · cases h with
      | submit hparams => exact hnone _ hparams
  | destination hother hread hmissing =>
    obtain rfl := hsame hother
    cases h with
    | call hparams hdestination =>
      rw [hread, Except.ok.injEq] at hparams
      subst hparams
      rw [hmissing] at hdestination
      cases hdestination
  | hash hother hnone =>
    obtain rfl := hsame hother
    cases h with
    | transaction htext hblank => exact hnone _ htext
  | blank hother hencoded hall =>
    obtain rfl := hsame hother
    cases h with
    | transaction htext hblank =>
      rw [Utf8.encode_injective (hencoded.trans htext.symm), hblank] at hall
      cases hall

end Request

/-! ## What is understood -/

namespace BlockNumber

theorem decode?_eq_none {data : Bytes} :
    decode? data = none ↔ ¬ (1 ≤ data.length ∧ data.length ≤ 8) := by
  cases data with
  | nil => simp [decode?]
  | cons b bs => simp [decode?]

theorem of_decode? {data : Bytes} {number : UInt64} (h : decode? data = some number) :
    1 ≤ data.length ∧ data.length ≤ 8 ∧ number.toNat = Bytes.toNat data := by
  have hlength : 1 ≤ data.length ∧ data.length ≤ 8 := by
    by_contra hlength
    rw [decode?_eq_none.mpr hlength] at h
    cases h
  have hnumber : (Bytes.toNat data).toUInt64 = number := by
    unfold decode? at h
    split at h
    · cases h
    · exact Option.some.inj h
  have hlt : Bytes.toNat data < 2 ^ 64 := Bytes.toNat_lt_of_length_le hlength.2
  exact ⟨hlength.1, hlength.2, by rw [← hnumber]; exact Nat.mod_eq_of_lt hlt⟩

end BlockNumber

namespace Inquiry

variable {r : Request}

def question : Inquiry → Question
  | .height => .height
  | .block number => .block number false
  | .call params destination =>
    .call (params.sender.getD Node.defaultSender) destination params.data
  | .submit params => .submit params.data
  | .proof hash => .transaction hash

theorem readParams_eq_ok {data : Bytes} {params : TransactionParams} :
    readParams data = .ok params ↔ TransactionParams.ofBytes data = .ok params :=
  mapError_eq_ok

/-- Bytes that hold a hash are those of a text that is not all blank. -/
theorem readHash_eq_ok {data : Bytes} {hash : String} :
    readHash data = .ok hash ↔
      ∃ text, Utf8.encode text = data ∧ isAllBlank text = false ∧ trim text = hash := by
  constructor
  · intro h
    obtain ⟨text, htext, -⟩ := except_bind_eq_ok.mp h
    obtain rfl := Utf8.eq_encode_of_decode (mapError_eq_ok.mp htext)
    rw [readHash_encode, isEmpty_trim] at h
    by_cases hblank : isAllBlank text = true
    · simp [hblank] at h
    · rw [if_neg hblank] at h
      exact ⟨text, rfl, Bool.eq_false_iff.mpr hblank, Except.ok.inj h⟩
  · rintro ⟨text, rfl, hblank, rfl⟩
    rw [readHash_encode, isEmpty_trim, hblank]
    rfl

/-- A request that is read opens with the question of its inquiry. -/
theorem opens_of_ofRequest {inquiry : Inquiry} (h : ofRequest r = .ok inquiry) :
    r.type = inquiry.kind.code ∧ r.Opens inquiry.kind inquiry.question := by
  unfold ofRequest at h
  match hkind : r.kind? with
  | none => simp [hkind] at h
  | some .getBlockNumber =>
    simp only [hkind, Except.ok.injEq] at h
    subst h
    exact ⟨Request.kind?_eq_some.mp hkind, .height⟩
  | some .getBlockByNumber =>
    simp only [hkind] at h
    match hnumber : BlockNumber.decode? r.data with
    | none => simp [hnumber] at h
    | some number =>
      simp only [hnumber, Except.ok.injEq] at h
      subst h
      obtain ⟨hlower, hupper, hvalue⟩ := BlockNumber.of_decode? hnumber
      exact ⟨Request.kind?_eq_some.mp hkind, .block hlower hupper hvalue⟩
  | some .call =>
    simp only [hkind] at h
    obtain ⟨params, hparams, hrest⟩ := except_bind_eq_ok.mp h
    match hdestination : params.destination with
    | none => simp [hdestination] at hrest
    | some destination =>
      simp only [hdestination, Except.ok.injEq] at hrest
      subst hrest
      exact ⟨Request.kind?_eq_some.mp hkind, .call (readParams_eq_ok.mp hparams) hdestination⟩
  | some .sendTransaction =>
    simp only [hkind] at h
    obtain ⟨params, hparams, rfl⟩ := map_eq_ok.mp h
    exact ⟨Request.kind?_eq_some.mp hkind, .submit (readParams_eq_ok.mp hparams)⟩
  | some .getTransactionProof =>
    simp only [hkind] at h
    obtain ⟨hash, hhash, rfl⟩ := map_eq_ok.mp h
    obtain ⟨text, htext, hblank, rfl⟩ := readHash_eq_ok.mp hhash
    exact ⟨Request.kind?_eq_some.mp hkind, .transaction htext hblank⟩

/-- A request that is not read is one of those that cannot be understood. -/
theorem unrecognized_of_ofRequest {e : RequestError} (h : ofRequest r = .error e) :
    r.Unrecognized := by
  unfold ofRequest at h
  match hkind : r.kind? with
  | none =>
    refine .kind fun kind htype => ?_
    rw [Request.kind?_eq_some.mpr htype] at hkind
    cases hkind
  | some .getBlockNumber => simp [hkind] at h
  | some .getBlockByNumber =>
    simp only [hkind] at h
    match hnumber : BlockNumber.decode? r.data with
    | none =>
      exact .height (Request.kind?_eq_some.mp hkind) (BlockNumber.decode?_eq_none.mp hnumber)
    | some number => simp [hnumber] at h
  | some .call =>
    have htype := Request.kind?_eq_some.mp hkind
    simp only [hkind] at h
    rcases except_bind_eq_error.mp h with hparams | ⟨params, hparams, hrest⟩
    · refine .params (.inl rfl) htype fun params hread => ?_
      rw [readParams_eq_ok.mpr hread] at hparams
      cases hparams
    · match hdestination : params.destination with
      | none => exact .destination htype (readParams_eq_ok.mp hparams) hdestination
      | some destination => simp [hdestination] at hrest
  | some .sendTransaction =>
    simp only [hkind] at h
    have hparams := map_eq_error.mp h
    refine .params (.inr rfl) (Request.kind?_eq_some.mp hkind) fun params hread => ?_
    rw [readParams_eq_ok.mpr hread] at hparams
    cases hparams
  | some .getTransactionProof =>
    have htype := Request.kind?_eq_some.mp hkind
    simp only [hkind] at h
    have hhash := map_eq_error.mp h
    by_cases htext : ∃ text, Utf8.encode text = r.data
    · obtain ⟨text, htext⟩ := htext
      refine .blank htype htext ?_
      by_contra hblank
      rw [readHash_eq_ok.mpr ⟨text, htext, Bool.eq_false_iff.mpr hblank, rfl⟩] at hhash
      cases hhash
    · exact .hash htype (not_exists.mp htext)

end Inquiry

/-! ## What the node answers -/

namespace Node

variable {node : Node} {before : History}

/-- The status of an answer that ends a request without data. -/
inductive Refuses (node : Node) (before : History) : Question → StatusCode → Prop
  | height {e : ClientError} : node.height before = .error e →
      node.Refuses before .height .handleGetBlockNumberFailed
  | block {number : UInt64} {e : ClientError} : node.block before number false = .error e →
      node.Refuses before (.block number false) .handleGetBlockFailed
  | call {sender destination : String} {data : Bytes} {e : ClientError} :
      node.call before sender destination data = .error e →
      node.Refuses before (.call sender destination data) .handleCallRequestFailed
  | submit {signed : Bytes} {e : ClientError} : node.submit before signed = .error e →
      node.Refuses before (.submit signed) .handleSendTransactionFailed
  | transaction {hash : String} {e : ClientError} : node.transaction before hash = .error e →
      node.Refuses before (.transaction hash) .unclassifiedError
  | receipt {hash : String} {e : ClientError} : node.receipt before hash = .error e →
      node.Refuses before (.receipt hash) .unclassifiedError
  | noBlock {number : UInt64} : node.block before number false = .ok none →
      node.Refuses before (.block number false) .blockNotExist
  | noTransaction {hash : String} : node.transaction before hash = .ok none →
      node.Refuses before (.transaction hash) .transactionNotExist
  /-- The receipt of what was submitted is missing or empty. -/
  | nothingSubmitted {signed : Bytes} {receipt? : Option Receipt} :
      node.submit before signed = .ok receipt? → (∀ receipt ∈ receipt?, receipt.isEmpty = true) →
      node.Refuses before (.submit signed) .receiptNotExist
  /-- The receipt of a transaction is missing or empty. -/
  | noReceipt {hash : String} {receipt? : Option ReceiptWithProof} :
      node.receipt before hash = .ok receipt? →
      (∀ receipt ∈ receipt?, receipt.receipt.isEmpty = true) →
      node.Refuses before (.receipt hash) .receiptNotExist

/-- The data is read back as what the node answered to the questions. -/
inductive Tells (node : Node) (before : History) : List Question → Bytes → Prop
  | height {height : UInt64} {data : Bytes} : node.height before = .ok height →
      BlockNumber.decode? data = some height → node.Tells before [.height] data
  | block {number : UInt64} {block : Bytes} : node.block before number false = .ok (some block) →
      node.Tells before [.block number false] block
  | call {sender destination : String} {argument data : Bytes} {output : CallOutput} :
      node.call before sender destination argument = .ok output →
      Json.decodeBytes CallOutput.decoder data = .ok output →
      node.Tells before [.call sender destination argument] data
  | submit {signed data : Bytes} {receipt : Receipt} :
      node.submit before signed = .ok (some receipt) → receipt.isEmpty = false →
      Json.decodeBytes Receipt.decoder data = .ok receipt → node.Tells before [.submit signed] data
  | proof {hash : String} {data : Bytes} {transaction : TransactionWithProof}
      {receipt : ReceiptWithProof} : node.transaction before hash = .ok (some transaction) →
      node.receipt (before ++ [.transaction hash]) hash = .ok (some receipt) →
      receipt.receipt.isEmpty = false →
      Json.decodeBytes TransactionProof.decoder data = .ok ⟨transaction, receipt⟩ →
      node.Tells before [.transaction hash, .receipt hash] data

/-- What is asked from a first question on. Only a transaction that was found leads further. -/
inductive Follows (node : Node) (before : History) : Question → List Question → Prop
  | alone {question : Question} : node.Follows before question [question]
  | receipt {hash : String} {transaction : TransactionWithProof} :
      node.transaction before hash = .ok (some transaction) →
      node.Follows before (.transaction hash) [.transaction hash, .receipt hash]

/-- The response says how the last question was refused, or tells all answers. -/
inductive Concludes (node : Node) (before : History) : List Question → Response → Prop
  | refused {earlier : List Question} {question : Question} {status : StatusCode}
      {response : Response} : node.Refuses (before ++ earlier) question status →
      response.errorCode = status.code → response.data = [] →
      node.Concludes before (earlier ++ [question]) response
  | told {asked : List Question} {response : Response} : node.Tells before asked response.data →
      response.errorCode = StatusCode.success.code → node.Concludes before asked response

/-- An inquiry asks what follows from its first question, and ends with what that leads to. -/
def Settles (node : Node) (before : History) (inquiry : Inquiry) : Prop :=
  ∃ asked, (outcome (node.answer inquiry) before).2 = before ++ asked ∧
    node.Follows before inquiry.question asked ∧
    node.Concludes before asked (Response.ofOutcome (outcome (node.answer inquiry) before).1)

theorem settles_of_refused {inquiry : Inquiry} (earlier : List Question) {question : Question}
    {f : InquiryFailure} (hfollows : node.Follows before inquiry.question (earlier ++ [question]))
    (h : outcome (node.answer inquiry) before = (.error f, before ++ (earlier ++ [question])))
    (hrefused : node.Refuses (before ++ earlier) question f.status) :
    node.Settles before inquiry := by
  refine ⟨earlier ++ [question], by rw [h], hfollows, ?_⟩
  rw [h]
  exact .refused hrefused rfl rfl

theorem settles_of_told {inquiry : Inquiry} {asked : List Question} {data : Bytes}
    (hfollows : node.Follows before inquiry.question asked)
    (h : outcome (node.answer inquiry) before = (.ok data, before ++ asked))
    (htold : node.Tells before asked data) : node.Settles before inquiry := by
  refine ⟨asked, by rw [h], hfollows, ?_⟩
  rw [h]
  exact .told htold rfl

/-- An inquiry whose first question was refused. -/
theorem settles_of_refused_first {inquiry : Inquiry} {f : InquiryFailure}
    (h : outcome (node.answer inquiry) before = (.error f, before ++ [inquiry.question]))
    (hrefused : node.Refuses before inquiry.question f.status) : node.Settles before inquiry := by
  have hbefore : node.Refuses (before ++ []) inquiry.question f.status := by
    rwa [List.append_nil]
  exact settles_of_refused [] .alone h hbefore

theorem settles_height : node.Settles before .height := by
  have hstep : outcome (node.answer .height) before = _ := outcome_ask_adapt_bind
  rcases hheight : node.height before with e | height
  · rw [hheight] at hstep
    exact settles_of_refused_first hstep (.height hheight)
  · rw [hheight] at hstep
    exact settles_of_told .alone hstep (.height hheight (BlockNumber.decode?_encode height))

theorem settles_block (number : UInt64) : node.Settles before (.block number) := by
  have hstep : outcome (node.answer (.block number)) before = _ := outcome_ask_adapt_bind
  rcases hblock : node.block before number false with e | (_ | block)
  · rw [hblock] at hstep
    exact settles_of_refused_first hstep (.block hblock)
  · rw [hblock] at hstep
    exact settles_of_refused_first hstep (.noBlock hblock)
  · rw [hblock] at hstep
    exact settles_of_told .alone hstep (.block hblock)

theorem settles_call (params : TransactionParams) (destination : String) :
    node.Settles before (.call params destination) := by
  have hstep : outcome (node.answer (.call params destination)) before = _ :=
    outcome_ask_adapt_bind
  rcases hcall : node.call before (params.sender.getD defaultSender) destination params.data with
    e | output
  · rw [hcall] at hstep
    exact settles_of_refused_first hstep (.call hcall)
  · rw [hcall] at hstep
    exact settles_of_told .alone hstep (.call hcall output.decodeBytes_json)

theorem settles_submit (params : TransactionParams) : node.Settles before (.submit params) := by
  have hstep : outcome (node.answer (.submit params)) before = _ := outcome_ask_adapt_bind
  rcases hsubmit : node.submit before params.data with e | receipt?
  · rw [hsubmit] at hstep
    exact settles_of_refused_first hstep (.submit hsubmit)
  · rw [hsubmit] at hstep
    cases hcontent : receipt?.filter (!·.isEmpty) with
    | none =>
      have hempty : ∀ receipt ∈ receipt?, receipt.isEmpty = true := by
        simpa using Option.filter_eq_none_iff.mp hcontent
      simp only [hcontent] at hstep
      exact settles_of_refused_first hstep (.nothingSubmitted hsubmit hempty)
    | some receipt =>
      obtain ⟨hsome, hfull⟩ := Option.filter_eq_some_iff.mp hcontent
      rw [hsome] at hsubmit
      simp only [hcontent] at hstep
      exact settles_of_told .alone hstep
        (.submit hsubmit (by simpa using hfull) receipt.decodeBytes_json)

/-- The receipt is asked for in the history that the transaction has left. -/
theorem settles_proof (hash : String) : node.Settles before (.proof hash) := by
  have hstep : outcome (node.answer (.proof hash)) before = _ := outcome_ask_adapt_bind
  rcases htransaction : node.transaction before hash with e | (_ | transaction)
  · rw [htransaction] at hstep
    exact settles_of_refused_first hstep (.transaction htransaction)
  · rw [htransaction] at hstep
    exact settles_of_refused_first hstep (.noTransaction htransaction)
  · rw [htransaction] at hstep
    have hnext := hstep.trans outcome_ask_adapt_bind
    have hfollows := Follows.receipt htransaction
    rcases hreceipt : node.receipt (before ++ [.transaction hash]) hash with e | receipt?
    · rw [hreceipt, List.append_assoc] at hnext
      exact settles_of_refused [.transaction hash] hfollows hnext (.receipt hreceipt)
    · rw [hreceipt] at hnext
      cases hcontent : receipt?.filter (!·.receipt.isEmpty) with
      | none =>
        have hempty : ∀ receipt ∈ receipt?, receipt.receipt.isEmpty = true := by
          simpa using Option.filter_eq_none_iff.mp hcontent
        simp only [hcontent, List.append_assoc] at hnext
        exact settles_of_refused [.transaction hash] hfollows hnext
          (.noReceipt hreceipt hempty)
      | some receipt =>
        obtain ⟨hsome, hfull⟩ := Option.filter_eq_some_iff.mp hcontent
        rw [hsome] at hreceipt
        simp only [hcontent, List.append_assoc] at hnext
        exact settles_of_told hfollows hnext
          (.proof htransaction hreceipt (by simpa using hfull)
            (TransactionProof.decodeBytes_json _))

/-- Every inquiry settles, whatever the node answers. -/
theorem settles (node : Node) (before : History) (inquiry : Inquiry) :
    node.Settles before inquiry := by
  cases inquiry with
  | height => exact settles_height
  | block number => exact settles_block number
  | call params destination => exact settles_call params destination
  | submit params => exact settles_submit params
  | proof hash => exact settles_proof hash

theorem Refuses.code_ne {question : Question} {status : StatusCode}
    (h : node.Refuses before question status) :
    status.code ≠ StatusCode.success.code ∧
      status.code ≠ StatusCode.unrecognizedRequestType.code := by
  cases h <;> decide

theorem Follows.ne_nil {first : Question} {asked : List Question}
    (h : node.Follows before first asked) : asked ≠ [] := by
  cases h <;> exact List.cons_ne_nil _ _

/-- How a request is handled: what the node is asked, and what the response says. -/
structure Handles (node : Node) (before : History) (r : Request) (asked : List Question)
    (response : Response) : Prop where
  silent : asked = [] ↔ r.Unrecognized
  unrecognized : response.errorCode = StatusCode.unrecognizedRequestType.code ↔ r.Unrecognized
  asks : ¬ r.Unrecognized → ∃ kind first, r.type = kind.code ∧ r.Opens kind first ∧
    node.Follows before first asked
  concludes : ¬ r.Unrecognized → node.Concludes before asked response
  failing : response.isSuccess = false → response.data = [] ∧
    ∃ status : StatusCode, status ≠ .success ∧ response.errorCode = status.code

theorem Concludes.failing {asked : List Question} {response : Response}
    (h : node.Concludes before asked response) (hfails : response.isSuccess = false) :
    response.data = [] ∧ ∃ status : StatusCode, status ≠ .success ∧
      response.errorCode = status.code := by
  cases h with
  | refused hrefused hcode hdata =>
    refine ⟨hdata, _, ?_, hcode⟩
    rintro rfl
    exact hrefused.code_ne.1 rfl
  | told htold hcode =>
    rw [Response.isSuccess, hcode] at hfails
    cases hfails

theorem Concludes.code_ne {asked : List Question} {response : Response}
    (h : node.Concludes before asked response) :
    response.errorCode ≠ StatusCode.unrecognizedRequestType.code := by
  cases h with
  | refused hrefused hcode hdata =>
    rw [hcode]
    exact hrefused.code_ne.2
  | told htold hcode =>
    rw [hcode]
    decide

/-- Every request is handled as its data and the answers of the node say. -/
theorem handles_request (node : Node) (r : Request) (before : History) :
    ∃ asked response, (node.handle r).run before = (response, before ++ asked) ∧
      node.Handles before r asked response := by
  cases hr : Inquiry.ofRequest r with
  | error e =>
    have hunrecognized := Inquiry.unrecognized_of_ofRequest hr
    refine ⟨[], _, by rw [run_handle_of_error hr, List.append_nil], ?_⟩
    exact {
      silent := iff_of_true rfl hunrecognized
      unrecognized := iff_of_true rfl hunrecognized
      asks := fun h => absurd hunrecognized h
      concludes := fun h => absurd hunrecognized h
      failing := fun _ => ⟨rfl, .unrecognizedRequestType, by decide, rfl⟩ }
  | ok inquiry =>
    obtain ⟨htype, hopens⟩ := Inquiry.opens_of_ofRequest hr
    have hrecognized := hopens.not_unrecognized htype
    obtain ⟨asked, hasked, hfollows, hconcludes⟩ := node.settles before inquiry
    refine ⟨asked, _, by rw [run_handle hr, hasked], ?_⟩
    exact {
      silent := iff_of_false hfollows.ne_nil hrecognized
      unrecognized := iff_of_false hconcludes.code_ne hrecognized
      asks := fun _ => ⟨inquiry.kind, inquiry.question, htype, hopens, hfollows⟩
      concludes := fun _ => hconcludes
      failing := hconcludes.failing }

end Node

end LedgerGateway

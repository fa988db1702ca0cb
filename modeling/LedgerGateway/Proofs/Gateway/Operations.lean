import LedgerGateway.Proofs.Gateway.Questions
import LedgerGateway.Proofs.Gateway.Verification
import LedgerGateway.Proofs.Registry

/-!
# Operations taken apart

What has happened when an operation has ended with a value: which questions were asked, what the
node and the source of blocks answered, and which checks were passed. Transactions and deployments
are submissions once they are prepared, and `Submitting` lists the ways in which a submission goes. A
transaction falls into two parts, `Sent` up to the receipt that the node answers with, and `settle`
from there.
-/

namespace LedgerGateway.Gateway

open Exchange Text

variable {g : Gateway} {node : Node} {context : RequestContext} {request : TransactionRequest}
  {byProxy : Bool} {draws : Draws} {before after : History}

theorem of_checkRequest {account : Account} {blocks : BlockSource}
    (h : checkRequest context request = .ok (account, blocks)) :
    context.account = some account ∧ context.blocks = some blocks := by
  unfold checkRequest at h
  split at h
  · cases h
  · cases h
  · rename_i haccount hblocks
    split at h
    · cases h
    · cases h
      exact ⟨haccount, hblocks⟩

theorem blockLimit_eq_ok {height limit : UInt64} :
    blockLimit height = .ok limit ↔
      height.toNat + blockLimitStep < UInt64.size ∧ limit.toNat = height.toNat + blockLimitStep := by
  unfold blockLimit
  split
  · rename_i hroom
    have hstep : (height + blockLimitStep.toUInt64).toNat = height.toNat + blockLimitStep := by
      rw [UInt64.toNat_add]
      exact Nat.mod_eq_of_lt hroom
    rw [Except.ok.injEq, ← UInt64.toNat_inj, hstep]
    exact ⟨fun h => ⟨hroom, h.symm⟩, fun h => h.2.symm⟩
  · rename_i hroom
    constructor
    · intro h
      cases h
    · intro h
      exact absurd h.1 hroom

/-! ## Submissions -/

section

variable {account : Account} {build : UInt64 → Except TransactionError Transaction} {β : Type}
  {params : Transaction.Signed → TransactionParams} {rest : Receipt → Exchange GatewayError β}
  {height limit : UInt64} {signed : Transaction.Signed}

/-- Asks for the height, signs a transaction that is limited by it and submits what is signed. -/
def submitSigned (g : Gateway) (node : Node) (account : Account)
    (build : UInt64 → Except TransactionError Transaction)
    (params : Transaction.Signed → TransactionParams) (rest : Receipt → Exchange GatewayError β) :
    Exchange GatewayError β := do
  let height ← getHeight node
  let limit ← blockLimit height
  let signed ← g.signBuilt account (build limit)
  let receipt ← submit node (params signed)
  rest receipt

/-- A transaction was built for the height that the node reports, and was signed. -/
structure SignsAt (g : Gateway) (node : Node) (account : Account)
    (build : UInt64 → Except TransactionError Transaction) (before : History)
    (height limit : UInt64) (signed : Transaction.Signed) : Prop where
  reported : node.height before = .ok height
  room : height.toNat + blockLimitStep < UInt64.size
  limited : limit.toNat = height.toNat + blockLimitStep
  signed : g.signBuilt account (build limit) = .ok signed

theorem SignsAt.blockLimit (h : SignsAt g node account build before height limit signed) :
    blockLimit height = .ok limit := blockLimit_eq_ok.mpr ⟨h.room, h.limited⟩

theorem SignsAt.of_blockLimit (hreported : node.height before = .ok height)
    (hlimit : Gateway.blockLimit height = .ok limit)
    (hsigned : g.signBuilt account (build limit) = .ok signed) :
    SignsAt g node account build before height limit signed := by
  obtain ⟨hroom, hlimited⟩ := blockLimit_eq_ok.mp hlimit
  exact ⟨hreported, hroom, hlimited, hsigned⟩

/-- A node reports one height and so one transaction is signed. -/
theorem SignsAt.unique {height' limit' : UInt64} {signed' : Transaction.Signed}
    (h : SignsAt g node account build before height limit signed)
    (h' : SignsAt g node account build before height' limit' signed') : signed = signed' := by
  obtain rfl := Except.ok.inj (h.reported.symm.trans h'.reported)
  obtain rfl := Except.ok.inj (h.blockLimit.symm.trans h'.blockLimit)
  exact Except.ok.inj (h.signed.symm.trans h'.signed)

/-- The ways in which a submission goes: it ends before anything is signed, or without a receipt, or
goes on with the receipt that the node has answered with. -/
inductive Submitting (g : Gateway) (node : Node) (account : Account)
    (build : UInt64 → Except TransactionError Transaction) (rest : Receipt → Exchange GatewayError β)
    (before : History) : Except GatewayError β × History → Prop
  | unsigned {e : GatewayError} :
      (∀ height limit signed, ¬ SignsAt g node account build before height limit signed) →
      Submitting g node account build rest before (.error e, before ++ [.height])
  | unanswered {height limit : UInt64} {signed : Transaction.Signed} {e : GatewayError} :
      SignsAt g node account build before height limit signed →
      (∀ receipt, node.submit (before ++ [.height]) signed.raw = .ok (some receipt) →
        receipt.isEmpty = true) →
      Submitting g node account build rest before
        (.error e, before ++ [.height] ++ [.submit signed.raw])
  | answered {height limit : UInt64} {signed : Transaction.Signed} {receipt : Receipt} :
      SignsAt g node account build before height limit signed →
      node.submit (before ++ [.height]) signed.raw = .ok (some receipt) →
      receipt.isEmpty = false →
      Submitting g node account build rest before
        (outcome (rest receipt) (before ++ [.height] ++ [.submit signed.raw]))

theorem submitting (hparams : ∀ signed, (params signed).data = signed.raw) :
    Submitting g node account build rest before
      (outcome (g.submitSigned node account build params rest) before) := by
  unfold submitSigned
  match hask : outcome (getHeight node) before with
  | (.error e, middle) =>
    obtain ⟨rfl, hnone⟩ := getHeight_eq_error hask
    rw [outcome_bind_of_error hask]
    exact .unsigned fun height limit signed hsigns => hnone height hsigns.reported
  | (.ok height, middle) =>
    obtain ⟨hreported, rfl⟩ := getHeight_eq_ok.mp hask
    rw [outcome_bind_of_ok hask]
    cases hlimit : blockLimit height with
    | error e =>
      rw [outcome_bind_of_error (outcome_liftM _ _)]
      refine .unsigned fun height' limit' signed hsigns => ?_
      obtain rfl := Except.ok.inj (hreported.symm.trans hsigns.reported)
      rw [hsigns.blockLimit] at hlimit
      cases hlimit
    | ok limit =>
      rw [outcome_bind_of_ok (outcome_liftM _ _)]
      cases hsigned : g.signBuilt account (build limit) with
      | error e =>
        rw [outcome_bind_of_error (outcome_liftM _ _)]
        refine .unsigned fun height' limit' signed hsigns => ?_
        obtain rfl := Except.ok.inj (hreported.symm.trans hsigns.reported)
        obtain rfl := Except.ok.inj (hlimit.symm.trans hsigns.blockLimit)
        rw [hsigns.signed] at hsigned
        cases hsigned
      | ok signed =>
        have hsigns := SignsAt.of_blockLimit hreported hlimit hsigned
        rw [outcome_bind_of_ok (outcome_liftM _ _)]
        rcases hsubmit : outcome (submit node (params signed)) (before ++ [.height]) with
          ⟨e | receipt, after⟩
        · obtain ⟨rfl, hnone⟩ := submit_eq_error hsubmit
          rw [outcome_bind_of_error hsubmit]
          rw [hparams] at hnone ⊢
          exact .unanswered hsigns hnone
        · obtain ⟨hanswer, hcontent, rfl⟩ := submit_eq_ok.mp hsubmit
          rw [outcome_bind_of_ok hsubmit]
          rw [hparams] at hanswer ⊢
          exact .answered hsigns hanswer hcontent

/-- With a receipt that has content a submission goes on. -/
theorem outcome_of_answered {receipt : Receipt}
    (hparams : ∀ signed, (params signed).data = signed.raw)
    (hsigns : SignsAt g node account build before height limit signed)
    (hanswer : node.submit (before ++ [.height]) signed.raw = .ok (some receipt))
    (hcontent : receipt.isEmpty = false) :
    outcome (g.submitSigned node account build params rest) before =
      outcome (rest receipt) (before ++ [.height] ++ [.submit signed.raw]) := by
  have hheight : outcome (getHeight node) before = (.ok height, before ++ [.height]) :=
    getHeight_eq_ok.mpr ⟨hsigns.reported, rfl⟩
  have hsubmit : outcome (submit node (params signed)) (before ++ [.height]) =
      (.ok receipt, before ++ [.height] ++ [.submit signed.raw]) := by
    rw [submit_eq_ok, hparams]
    exact ⟨hanswer, hcontent, rfl⟩
  rw [submitSigned, outcome_bind_of_ok hheight, hsigns.blockLimit,
    outcome_bind_of_ok (outcome_liftM _ _), hsigns.signed, outcome_bind_of_ok (outcome_liftM _ _),
    outcome_bind_of_ok hsubmit]

/-- A submission ends with a value if what follows the receipt does. -/
theorem submitSigned_eq_ok (hparams : ∀ signed, (params signed).data = signed.raw) {b : β} :
    outcome (g.submitSigned node account build params rest) before = (.ok b, after) ↔
      ∃ height limit signed receipt, SignsAt g node account build before height limit signed ∧
        node.submit (before ++ [.height]) signed.raw = .ok (some receipt) ∧
        receipt.isEmpty = false ∧
        outcome (rest receipt) (before ++ [.height] ++ [.submit signed.raw]) = (.ok b, after) := by
  constructor
  · intro h
    have hrun : Submitting g node account build rest before
        (outcome (g.submitSigned node account build params rest) before) := submitting hparams
    rw [h] at hrun
    generalize hend : (Except.ok b, after) = ended at hrun
    cases hrun with
    | unsigned => cases hend
    | unanswered => cases hend
    | answered hsigns hanswer hcontent =>
      exact ⟨_, _, _, _, hsigns, hanswer, hcontent, rfl⟩
  · rintro ⟨height, limit, signed, receipt, hsigns, hanswer, hcontent, h⟩
    rw [outcome_of_answered hparams hsigns hanswer hcontent, h]

theorem asksOnly_submitSigned (hrest : ∀ receipt, AsksOnly IsOfTransaction (rest receipt)) :
    AsksOnly IsOfTransaction (g.submitSigned node account build params rest) := by
  refine asksOnly_bind asksOnly_getHeight fun height => ?_
  refine asksOnly_bind (asksOnly_liftM _) fun limit => ?_
  refine asksOnly_bind (asksOnly_liftM _) fun signed => ?_
  exact asksOnly_bind (asksOnly_submit _) hrest

end

/-! ## Transactions -/

/-- A transaction was signed and submitted, and the node has answered with a receipt. -/
structure Sent (g : Gateway) (node : Node) (context : RequestContext) (request : TransactionRequest)
    (byProxy : Bool) (draws : Draws) (before : History) (blocks : BlockSource)
    (invocation : Invocation) (signed : Transaction.Signed) (receipt : Receipt) : Prop where
  /-- The request was complete, and the transaction carries its call data. -/
  built : ∃ account height limit, checkRequest context request = .ok (account, blocks) ∧
    g.encodeInvocation context.path request byProxy true draws.uid = .ok invocation ∧
    node.height before = .ok height ∧ blockLimit height = .ok limit ∧
    g.signBuilt account (Transaction.build draws.nonce (some invocation.destination) g.groupId
      g.chainId limit invocation.data) = .ok signed
  /-- The node was asked for the height and then given the signed bytes. -/
  answered : node.submit (before ++ [.height]) signed.raw = .ok (some receipt)
  content : receipt.isEmpty = false

/-- What becomes of the receipt of a submitted transaction. -/
def settle (g : Gateway) (node : Node) (blocks : BlockSource) (invocation : Invocation)
    (receipt : Receipt) : Exchange GatewayError TransactionResponse := do
  let outcome : TransactionResponse → TransactionResponse := fun r =>
    { r with hash := receipt.transactionHash, blockNumber := receipt.blockNumber }
  if receipt.isStatusOk then
    g.verifySubmitted node blocks receipt
    let bytes ← readHex receipt.output
    let result ← (decodeOutput invocation.function true bytes).mapError GatewayError.call
    pure (outcome (.success result))
  else
    let bytes ← readHex receipt.output
    pure (outcome (g.reverted receipt.status bytes receipt.message))

theorem bytes_payload (invocation : Invocation) (body : Bytes) (send : Bool) :
    (invocation.payload body send).bytes = body := by
  unfold Invocation.payload
  split <;> rfl

/-- The transaction of a request with call data for a destination, limited by a height. -/
def unsignedFor (g : Gateway) (draws : Draws) (invocation : Invocation) (limit : UInt64) :
    Except TransactionError Transaction :=
  Transaction.build draws.nonce (some invocation.destination) g.groupId g.chainId limit
    invocation.data

/-- A request with call data is submitted. -/
theorem sendTransaction_of_encoded {account : Account} {blocks : BlockSource}
    {invocation : Invocation} (hchecked : checkRequest context request = .ok (account, blocks))
    (hencoded : g.encodeInvocation context.path request byProxy true draws.uid = .ok invocation) :
    g.sendTransaction node context request byProxy draws =
      g.submitSigned node account (g.unsignedFor draws invocation)
        (fun signed => envelope request (invocation.payload signed.raw true) account.identity
          (some invocation.destination))
        (g.settle node blocks invocation) := by
  rw [sendTransaction, hchecked, hencoded]
  rfl

/-- A transaction asks nothing if the request is refused or has no call data. -/
theorem sendTransaction_cases (g : Gateway) (node : Node) (context : RequestContext)
    (request : TransactionRequest) (byProxy : Bool) (draws : Draws) (before : History) :
    (∃ e, outcome (g.sendTransaction node context request byProxy draws) before =
        (.error e, before) ∧
      ∀ account blocks invocation, checkRequest context request = .ok (account, blocks) →
        g.encodeInvocation context.path request byProxy true draws.uid ≠ .ok invocation) ∨
    ∃ account blocks invocation, checkRequest context request = .ok (account, blocks) ∧
      g.encodeInvocation context.path request byProxy true draws.uid = .ok invocation := by
  unfold sendTransaction
  cases hchecked : checkRequest context request with
  | error e =>
    left
    refine ⟨e, outcome_bind_of_error (outcome_liftM _ _), ?_⟩
    intro account blocks invocation h
    cases h
  | ok checked =>
    obtain ⟨account, blocks⟩ := checked
    rw [outcome_bind_of_ok (outcome_liftM _ _)]
    cases hencoded : g.encodeInvocation context.path request byProxy true draws.uid with
    | error e =>
      left
      refine ⟨e, outcome_bind_of_error (outcome_liftM _ _), ?_⟩
      intro account blocks invocation _ h
      cases h
    | ok invocation => exact .inr ⟨account, blocks, invocation, rfl, rfl⟩

/-- A transaction ends with a value if it was sent and its receipt is settled. -/
theorem sendTransaction_eq_ok {response : TransactionResponse} :
    outcome (g.sendTransaction node context request byProxy draws) before = (.ok response, after) ↔
      ∃ blocks invocation signed receipt,
        Sent g node context request byProxy draws before blocks invocation signed receipt ∧
        outcome (g.settle node blocks invocation receipt)
          (before ++ [.height] ++ [.submit signed.raw]) = (.ok response, after) := by
  constructor
  · intro h
    rcases sendTransaction_cases g node context request byProxy draws before with
      ⟨e, houtcome, -⟩ | ⟨account, blocks, invocation, hchecked, hencoded⟩
    · rw [houtcome] at h
      cases h
    · rw [sendTransaction_of_encoded hchecked hencoded,
        submitSigned_eq_ok fun signed => bytes_payload invocation signed.raw true] at h
      obtain ⟨height, limit, signed, receipt, hsigns, hanswer, hcontent, h⟩ := h
      exact ⟨blocks, invocation, signed, receipt,
        ⟨⟨account, height, limit, hchecked, hencoded, hsigns.reported, hsigns.blockLimit,
          hsigns.signed⟩, hanswer, hcontent⟩, h⟩
  · rintro ⟨blocks, invocation, signed, receipt, hsent, h⟩
    obtain ⟨account, height, limit, hchecked, hencoded, hreported, hlimit, hsigned⟩ := hsent.built
    have hsigns : SignsAt g node account (g.unsignedFor draws invocation) before height limit
        signed := .of_blockLimit hreported hlimit hsigned
    rw [sendTransaction_of_encoded hchecked hencoded,
      outcome_of_answered (fun signed => bytes_payload invocation signed.raw true) hsigns
        hsent.answered hsent.content, h]

/-! ## Receipts that are settled -/

section

variable {blocks : BlockSource} {invocation : Invocation} {receipt : Receipt}
  {response : TransactionResponse}

/-- The response to a receipt that reports a success. -/
def succeeded (receipt : Receipt) (result : List String) : TransactionResponse :=
  { TransactionResponse.success result with
    hash := receipt.transactionHash, blockNumber := receipt.blockNumber }

/-- The response to a receipt that reports a failure. -/
def failed (g : Gateway) (receipt : Receipt) (output : Bytes) : TransactionResponse :=
  { g.reverted receipt.status output receipt.message with
    hash := receipt.transactionHash, blockNumber := receipt.blockNumber }

theorem errorCode_succeeded (receipt : Receipt) (result : List String) :
    (succeeded receipt result).errorCode = 0 := rfl

/-- A status is its own code, up to the greatest code. -/
theorem toInt_errorCode_reverted (g : Gateway) (status : UInt64) (output : Bytes)
    (message : Option String) :
    (g.reverted status output message).errorCode.toInt = min (status.toNat : Int) 2147483647 := by
  have hcode : (g.reverted status output message).errorCode =
      if status < 0x80000000 then Int32.ofNat status.toNat else Int32.maxValue := rfl
  rw [hcode]
  split
  · rename_i hlt
    have hsmall : status.toNat < 2147483648 := by simpa [UInt64.lt_iff_toNat_lt] using hlt
    rw [Int32.toInt_ofNat_of_lt (by omega)]
    omega
  · rename_i hge
    have hlarge : 2147483648 ≤ status.toNat := by simpa [UInt64.lt_iff_toNat_lt] using hge
    rw [show Int32.maxValue.toInt = 2147483647 by decide]
    omega

/-- A status other than zero is reported as another code than zero. -/
theorem errorCode_reverted {status : UInt64} (hstatus : status ≠ 0) (output : Bytes)
    (message : Option String) : (g.reverted status output message).errorCode ≠ 0 := by
  have hpos : status.toNat ≠ 0 := fun h => hstatus (UInt64.toNat_inj.mp h)
  have hvalue := toInt_errorCode_reverted g status output message
  intro hzero
  rw [hzero, Int32.toInt_zero] at hvalue
  omega

/-- The source is asked for the block of a receipt that reports a success, and for nothing else. -/
theorem history_settle (before : History) :
    (outcome (g.settle node blocks invocation receipt) before).2 =
      if receipt.isStatusOk && g.proofsSupported then before ++ [blocks.question receipt.blockNumber]
      else before := by
  unfold settle
  dsimp only
  cases hstatus : receipt.isStatusOk with
  | true =>
    rw [if_pos rfl, Bool.true_and, ← history_verifySubmitted before, history_bind]
    intro _
    refine asksOnly_bind (asksOnly_liftM _) fun _ => ?_
    exact asksOnly_bind (asksOnly_liftM _) fun _ => asksOnly_pure _
  | false =>
    refine history_of_silent ?_ before
    exact asksOnly_bind (asksOnly_liftM _) fun _ => asksOnly_pure _

theorem settle_of_success (hg : g.proofsSupported = true) (hstatus : receipt.isStatusOk = true) :
    outcome (g.settle node blocks invocation receipt) before = (.ok response, after) ↔
      ∃ block receiptProof txProof bytes result,
        outcome (blocks.askBlock node receipt.blockNumber) before = (.ok block, after) ∧
        receipt.receiptProof = some receiptProof ∧ receipt.txProof = some txProof ∧
        g.ProvenIn block receipt receiptProof txProof ∧
        readHex receipt.output = .ok bytes ∧
        decodeOutput invocation.function true bytes = .ok result ∧
        response = succeeded receipt result := by
  rw [settle, if_pos hstatus]
  simp only [outcome_bind_eq_ok, verifySubmitted_eq_ok hg, outcome_liftM, outcome_pure,
    Prod.mk.injEq, mapError_eq_ok, Except.ok.injEq]
  constructor
  · rintro ⟨_, _, ⟨block, receiptProof, txProof, hblock, hreceipt, htx, hproven⟩, bytes, _,
      ⟨hbytes, rfl⟩, result, _, ⟨hresult, rfl⟩, rfl, rfl⟩
    exact ⟨block, receiptProof, txProof, bytes, result, hblock, hreceipt, htx, hproven, hbytes,
      hresult, rfl⟩
  · rintro ⟨block, receiptProof, txProof, bytes, result, hblock, hreceipt, htx, hproven, hbytes,
      hresult, rfl⟩
    exact ⟨(), _, ⟨block, receiptProof, txProof, hblock, hreceipt, htx, hproven⟩, bytes, _,
      ⟨hbytes, rfl⟩, result, _, ⟨hresult, rfl⟩, rfl, rfl⟩

/-- A receipt that reports a failure is settled without a question. -/
theorem settle_of_failure (hstatus : receipt.isStatusOk = false) :
    outcome (g.settle node blocks invocation receipt) before = (.ok response, after) ↔
      ∃ bytes, readHex receipt.output = .ok bytes ∧ response = g.failed receipt bytes ∧
        before = after := by
  rw [settle, hstatus]
  simp only [Bool.false_eq_true, if_false, outcome_liftM_bind_eq_ok, outcome_pure, Prod.mk.injEq,
    Except.ok.injEq]
  constructor
  · rintro ⟨bytes, hbytes, rfl, hend⟩
    exact ⟨bytes, hbytes, rfl, hend⟩
  · rintro ⟨bytes, hbytes, rfl, hend⟩
    exact ⟨bytes, hbytes, rfl, hend⟩

/-- What a receipt is settled with names its transaction. A code of zero is reported of receipts
that report a success, and of no others. -/
theorem settle_reports
    (h : outcome (g.settle node blocks invocation receipt) before = (.ok response, after)) :
    response.hash = receipt.transactionHash ∧
      (response.errorCode = 0 ↔ receipt.isStatusOk = true) := by
  cases hstatus : receipt.isStatusOk with
  | true =>
    rw [settle, if_pos hstatus] at h
    obtain ⟨_, _, -, h⟩ := outcome_bind_eq_ok.mp h
    obtain ⟨_, -, h⟩ := outcome_liftM_bind_eq_ok.mp h
    obtain ⟨result, -, h⟩ := outcome_liftM_bind_eq_ok.mp h
    cases h
    exact ⟨rfl, iff_of_true (errorCode_succeeded receipt result) rfl⟩
  | false =>
    obtain ⟨bytes, -, rfl, -⟩ := (settle_of_failure hstatus).mp h
    have hne : receipt.status ≠ 0 := by simpa [Receipt.isStatusOk] using hstatus
    have hcode := errorCode_reverted (g := g) hne bytes receipt.message
    exact ⟨rfl, by simpa [failed] using hcode⟩

end

/-! ## Transactions that are asked for -/

/-- A transaction is reported if the node has answered for its hash and the answer is verified. -/
theorem getTransaction_eq_ok_iff {hash : String} {number : UInt64} {blocks : BlockSource}
    {v : VerifiedTransaction} :
    outcome (g.getTransaction node hash number blocks) before = (.ok v, after) ↔
      ∃ proof, (trim hash).isEmpty = false ∧ ProofAnswered node (trim hash) before proof ∧
        Verified g node blocks number
          (before ++ [.transaction (trim hash)] ++ [.receipt (trim hash)]) after proof ∧
        g.report hash number proof = .ok v := by
  rw [getTransaction, outcome_bind_eq_ok]
  constructor
  · rintro ⟨data, _, hdata, h⟩
    obtain ⟨proof, hread, h⟩ := outcome_liftM_bind_eq_ok.mp h
    obtain ⟨hhash, hanswered, rfl⟩ := requestProof_eq_ok.mp ⟨data, hdata, hread⟩
    obtain ⟨_, _, hverify, h⟩ := outcome_bind_eq_ok.mp h
    rw [outcome_liftM, Prod.mk.injEq] at h
    obtain ⟨hreport, rfl⟩ := h
    exact ⟨proof, hhash, hanswered, verifyProven_eq_ok_iff.mp hverify, hreport⟩
  · rintro ⟨proof, hhash, hanswered, hverified, hreport⟩
    obtain ⟨data, hdata, hread⟩ := requestProof_eq_ok.mpr ⟨hhash, hanswered, rfl⟩
    refine ⟨data, _, hdata, outcome_liftM_bind_eq_ok.mpr ⟨proof, hread, ?_⟩⟩
    refine outcome_bind_eq_ok.mpr ⟨(), after, verifyProven_eq_ok_iff.mpr hverified, ?_⟩
    rw [outcome_liftM, hreport]

/-- With proofs, the source has the block, and both proofs lead to its roots. -/
theorem getTransaction_eq_ok (hg : g.proofsSupported = true) {hash : String} {number : UInt64}
    {blocks : BlockSource} {v : VerifiedTransaction} :
    outcome (g.getTransaction node hash number blocks) before = (.ok v, after) ↔
      ∃ proof block, (trim hash).isEmpty = false ∧
        ProofAnswered node (trim hash) before proof ∧
        outcome (blocks.askBlock node number)
          (before ++ [.transaction (trim hash)] ++ [.receipt (trim hash)]) = (.ok block, after) ∧
        g.BothProvenIn block proof ∧ g.report hash number proof = .ok v := by
  simp only [getTransaction_eq_ok_iff, Verified, if_pos hg]
  constructor
  · rintro ⟨proof, hhash, hanswered, ⟨block, hblock, hproven⟩, hreport⟩
    exact ⟨proof, block, hhash, hanswered, hblock, hproven, hreport⟩
  · rintro ⟨proof, block, hhash, hanswered, hblock, hproven, hreport⟩
    exact ⟨proof, hhash, hanswered, ⟨block, hblock, hproven⟩, hreport⟩

/-! ## Deployments -/

section

variable {name abi binary : String} {arguments : List String}

/-- What a deployment needs before it asks anything. -/
structure Prepared (context : RequestContext) (name abi binary : String) (arguments : List String)
    (account : Account) (interface : Abi.Interface) (code encoded : Bytes) : Prop where
  signer : context.account = some account
  named : isAllBlank name = false
  read : Abi.Interface.read abi = .ok interface
  decoded : readHex binary = .ok code
  content : code.isEmpty = false
  encoded : Arguments.encode (interface.constructor?.getD []) arguments = .ok encoded

theorem Prepared.unique {account account' : Account} {interface interface' : Abi.Interface}
    {code code' encoded encoded' : Bytes}
    (h : Prepared context name abi binary arguments account interface code encoded)
    (h' : Prepared context name abi binary arguments account' interface' code' encoded') :
    account = account' ∧ code = code' ∧ encoded = encoded' := by
  obtain rfl := Option.some.inj (h.signer.symm.trans h'.signer)
  obtain rfl := Except.ok.inj (h.read.symm.trans h'.read)
  obtain rfl := Except.ok.inj (h.decoded.symm.trans h'.decoded)
  exact ⟨rfl, rfl, Except.ok.inj (h.encoded.symm.trans h'.encoded)⟩

/-- What becomes of the receipt of a deployment. -/
def concludeDeploy (g : Gateway) (name abi : String) (receipt : Receipt) :
    Exchange GatewayError (Address × Gateway) := do
  let address ← g.deployedAddress receipt
  let (_, g) ← g.register name (some address) abi
  pure (address, g)

/-- The transaction of a deployment, limited by a height. -/
def unsignedDeploy (g : Gateway) (draws : Draws) (code encoded : Bytes) (limit : UInt64) :
    Except TransactionError Transaction :=
  Transaction.buildDeploy draws.nonce code encoded g.groupId g.chainId limit

theorem deployAndRegister_of_prepared {account : Account} {interface : Abi.Interface}
    {code encoded : Bytes}
    (h : Prepared context name abi binary arguments account interface code encoded) :
    g.deployAndRegister node context name abi binary arguments draws =
      g.submitSigned node account (g.unsignedDeploy draws code encoded)
        (fun signed => envelope ⟨deployMethod, some arguments, {}⟩ (.sendTx signed.raw)
          account.identity none)
        (g.concludeDeploy name abi) := by
  rw [deployAndRegister, h.signer, h.named]
  simp only [Bool.false_eq_true, if_false, pure_bind, h.read, h.decoded, h.content, h.encoded,
    mapError_ok, liftM_ok_bind]
  rfl

/-- What is not prepared ends without a question. -/
theorem deployAndRegister_of_unprepared (hnone : ∀ account interface code encoded,
    ¬ Prepared context name abi binary arguments account interface code encoded) :
    ∃ e, outcome (g.deployAndRegister node context name abi binary arguments draws) before =
      (.error e, before) := by
  unfold deployAndRegister
  dsimp only
  cases hsigner : context.account with
  | none => exact ⟨_, outcome_bind_of_error (outcome_throw _ _)⟩
  | some account =>
    rw [outcome_bind_of_ok (outcome_pure _ _)]
    by_cases hnamed : isAllBlank name = true
    · rw [if_pos hnamed]
      exact ⟨_, outcome_bind_of_error (outcome_throw _ _)⟩
    rw [if_neg hnamed]
    cases hread : Abi.Interface.read abi with
    | error e => exact ⟨_, outcome_bind_of_error (outcome_liftM _ _)⟩
    | ok interface =>
      rw [mapError_ok, liftM_ok_bind]
      cases hdecoded : readHex binary with
      | error e => exact ⟨_, outcome_bind_of_error (outcome_liftM _ _)⟩
      | ok code =>
        rw [liftM_ok_bind]
        by_cases hcontent : code.isEmpty = true
        · rw [if_pos hcontent]
          exact ⟨_, outcome_bind_of_error (outcome_throw _ _)⟩
        rw [if_neg hcontent]
        cases hencoded : Arguments.encode (interface.constructor?.getD []) arguments with
        | error e => exact ⟨_, outcome_bind_of_error (outcome_liftM _ _)⟩
        | ok encoded =>
          rw [Bool.not_eq_true] at hnamed hcontent
          exact absurd ⟨hsigner, hnamed, hread, hdecoded, hcontent, hencoded⟩
            (hnone account interface code encoded)

theorem deployAndRegister_cases (g : Gateway) (node : Node) (context : RequestContext)
    (name abi binary : String) (arguments : List String) (draws : Draws) (before : History) :
    (∃ e, outcome (g.deployAndRegister node context name abi binary arguments draws) before =
        (.error e, before) ∧
      ∀ account interface code encoded,
        ¬ Prepared context name abi binary arguments account interface code encoded) ∨
    ∃ account interface code encoded,
      Prepared context name abi binary arguments account interface code encoded := by
  by_cases hprepared : ∃ account interface code encoded,
      Prepared context name abi binary arguments account interface code encoded
  · exact .inr hprepared
  · left
    have hnone : ∀ account interface code encoded,
        ¬ Prepared context name abi binary arguments account interface code encoded := by
      intro account interface code encoded h
      exact hprepared ⟨account, interface, code, encoded, h⟩
    obtain ⟨e, houtcome⟩ := deployAndRegister_of_unprepared hnone
    exact ⟨e, houtcome, hnone⟩

/-- A deployment asks for the height and submits a transaction, and nothing else. -/
theorem asksOnly_deployAndRegister :
    AsksOnly IsOfTransaction
      (g.deployAndRegister node context name abi binary arguments draws) := by
  intro before
  rcases deployAndRegister_cases g node context name abi binary arguments draws before with
    ⟨e, houtcome, -⟩ | ⟨account, interface, code, encoded, hprepared⟩
  · exact ⟨[], by rw [houtcome, List.append_nil], by simp⟩
  · rw [deployAndRegister_of_prepared hprepared]
    refine asksOnly_submitSigned (fun receipt => ?_) before
    exact asksOnly_bind (asksOnly_liftM _) fun _ =>
      asksOnly_bind (asksOnly_liftM _) fun _ => asksOnly_pure _

theorem deployedAddress_eq_ok {receipt : Receipt} {address : Address} :
    g.deployedAddress receipt = .ok address ↔
      receipt.status = 0 ∧ GatewayError.readAddress receipt.contractAddress = .ok address ∧
        address ≠ Address.zero := by
  have hstatus : receipt.isStatusOk = true ↔ receipt.status = 0 := by simp [Receipt.isStatusOk]
  rw [← hstatus]
  unfold deployedAddress
  split
  · rename_i hok
    rw [except_bind_eq_ok]
    constructor
    · rintro ⟨address', hread, h⟩
      split at h
      · cases h
      · rename_i hzero
        cases h
        exact ⟨hok, hread, hzero⟩
    · rintro ⟨-, hread, hzero⟩
      exact ⟨address, hread, if_neg hzero⟩
  · rename_i hfailed
    constructor
    · intro h
      obtain ⟨_, -, h⟩ := except_bind_eq_ok.mp h
      cases h
    · rintro ⟨hok, -⟩
      exact absurd hok hfailed

/-- The gateway with a contract in place of the one of its name. -/
def registering (g : Gateway) (c : Contract) : Gateway := { g with registry := g.registry.insert c }

/-- An interface that was read once is read again. -/
theorem register_of_read {address : Address} {interface : Abi.Interface}
    (hread : Abi.Interface.read abi = .ok interface) :
    g.register name (some address) abi =
      .ok (⟨name, some address, interface, abi⟩,
        g.registering ⟨name, some address, interface, abi⟩) := by
  have hregister : g.registry.register name (some address) abi =
      .ok (⟨name, some address, interface, abi⟩,
        g.registry.insert ⟨name, some address, interface, abi⟩) :=
    Registry.register_eq_ok.mpr ⟨interface, hread, rfl, rfl⟩
  rw [register, hregister]
  rfl

/-- The transaction of a deployment was signed and submitted, and the node has answered with a
receipt. -/
structure DeploySent (g : Gateway) (node : Node) (context : RequestContext)
    (name abi binary : String) (arguments : List String) (draws : Draws) (before : History)
    (signed : Transaction.Signed) (receipt : Receipt) : Prop where
  /-- There is an account, a name, and code with its arguments, and the transaction carries them. -/
  built : ∃ account interface code encoded height limit, context.account = some account ∧
    isAllBlank name = false ∧ (Abi.Interface.read abi) = .ok interface ∧ readHex binary = .ok code ∧
    code.isEmpty = false ∧
    Arguments.encode (interface.constructor?.getD []) arguments = .ok encoded ∧
    node.height before = .ok height ∧ blockLimit height = .ok limit ∧
    g.signBuilt account (Transaction.buildDeploy draws.nonce code encoded g.groupId g.chainId
      limit) = .ok signed
  /-- The node was asked for the height and then given the signed bytes. -/
  answered : node.submit (before ++ [.height]) signed.raw = .ok (some receipt)
  content : receipt.isEmpty = false

theorem concludeDeploy_eq_ok {receipt : Receipt} {address : Address} {g' : Gateway} :
    outcome (g.concludeDeploy name abi receipt) before = (.ok (address, g'), after) ↔
      g.deployedAddress receipt = .ok address ∧
        (∃ contract, g.register name (some address) abi = .ok (contract, g')) ∧ before = after := by
  constructor
  · intro h
    obtain ⟨address', haddress, h⟩ := outcome_liftM_bind_eq_ok.mp h
    obtain ⟨⟨contract, g''⟩, hregister, h⟩ := outcome_liftM_bind_eq_ok.mp h
    cases h
    exact ⟨haddress, ⟨contract, hregister⟩, rfl⟩
  · rintro ⟨haddress, ⟨contract, hregister⟩, rfl⟩
    refine outcome_liftM_bind_eq_ok.mpr ⟨address, haddress, ?_⟩
    exact outcome_liftM_bind_eq_ok.mpr ⟨(contract, g'), hregister, rfl⟩

theorem concludeDeploy_of_error {receipt : Receipt} {e : GatewayError}
    (h : g.deployedAddress receipt = .error e) (before : History) :
    outcome (g.concludeDeploy name abi receipt) before = (.error e, before) := by
  rw [concludeDeploy, h, outcome_bind_of_error (outcome_liftM _ _)]

/-- A deployment ends with an address if it was sent, and then with the one in the receipt. -/
theorem deployAndRegister_eq_ok {address : Address} {g' : Gateway} :
    outcome (g.deployAndRegister node context name abi binary arguments draws) before =
        (.ok (address, g'), after) ↔
      ∃ signed receipt contract,
        DeploySent g node context name abi binary arguments draws before signed receipt ∧
        g.deployedAddress receipt = .ok address ∧
        g.register name (some address) abi = .ok (contract, g') ∧
        before ++ [.height] ++ [.submit signed.raw] = after := by
  constructor
  · intro h
    rcases deployAndRegister_cases g node context name abi binary arguments draws before with
      ⟨e, houtcome, -⟩ | ⟨account, interface, code, encoded, hprepared⟩
    · rw [houtcome] at h
      cases h
    · rw [deployAndRegister_of_prepared hprepared, submitSigned_eq_ok fun _ => rfl] at h
      obtain ⟨height, limit, signed, receipt, hsigns, hanswer, hcontent, h⟩ := h
      obtain ⟨haddress, ⟨contract, hregister⟩, hend⟩ := concludeDeploy_eq_ok.mp h
      exact ⟨signed, receipt, contract,
        ⟨⟨account, interface, code, encoded, height, limit, hprepared.signer, hprepared.named,
          hprepared.read, hprepared.decoded, hprepared.content, hprepared.encoded, hsigns.reported,
          hsigns.blockLimit, hsigns.signed⟩, hanswer, hcontent⟩, haddress, hregister, hend⟩
  · rintro ⟨signed, receipt, contract, hsent, haddress, hregister, rfl⟩
    obtain ⟨account, interface, code, encoded, height, limit, hsigner, hnamed, hread, hdecoded,
      hcontent, hencoded, hreported, hlimit, hsigned⟩ := hsent.built
    have hprepared : Prepared context name abi binary arguments account interface code encoded :=
      ⟨hsigner, hnamed, hread, hdecoded, hcontent, hencoded⟩
    have hsigns : SignsAt g node account (g.unsignedDeploy draws code encoded) before height limit
        signed := .of_blockLimit hreported hlimit hsigned
    rw [deployAndRegister_of_prepared hprepared,
      outcome_of_answered (fun _ => rfl) hsigns hsent.answered hsent.content]
    exact concludeDeploy_eq_ok.mpr ⟨haddress, ⟨contract, hregister⟩, rfl⟩

theorem deploy_of_ok {address : Address} {g' : Gateway}
    (h : outcome (g.deployAndRegister node context name abi binary arguments draws) before =
      (.ok (address, g'), after)) :
    (g.deploy node context name abi binary arguments draws).run before =
      ((.ok address, g'), after) := by
  have hrun : (g.deployAndRegister node context name abi binary arguments draws).run.run before =
      (.ok (address, g'), after) := h
  simp only [deploy, StateT.run_bind, hrun]
  rfl

theorem deploy_of_error {e : GatewayError}
    (h : outcome (g.deployAndRegister node context name abi binary arguments draws) before =
      (.error e, after)) :
    (g.deploy node context name abi binary arguments draws).run before =
      ((.error e, g), after) := by
  have hrun : (g.deployAndRegister node context name abi binary arguments draws).run.run before =
      (.error e, after) := h
  simp only [deploy, StateT.run_bind, hrun]
  rfl

/-- However a deployment ends, it has asked for the height and submitted a transaction at most. -/
theorem history_deploy :
    ∃ asked, ((g.deploy node context name abi binary arguments draws).run before).2 =
      before ++ asked ∧ ∀ q ∈ asked, IsOfTransaction q := by
  have honly : AsksOnly IsOfTransaction
      (g.deployAndRegister node context name abi binary arguments draws) :=
    asksOnly_deployAndRegister
  obtain ⟨asked, hasked, hkind⟩ := honly before
  refine ⟨asked, ?_, hkind⟩
  match hrun :
    outcome (g.deployAndRegister node context name abi binary arguments draws) before with
  | (.ok (address, g'), after) => rw [deploy_of_ok hrun, ← hasked, hrun]
  | (.error e, after) => rw [deploy_of_error hrun, ← hasked, hrun]

/-- An address that a deployment reports is the one in the receipt that the node has answered
with. -/
theorem deployedAddress_of_deploy {address : Address}
    (h : ((g.deploy node context name abi binary arguments draws).run before).1.1 = .ok address) :
    ∃ signed receipt,
      DeploySent g node context name abi binary arguments draws before signed receipt ∧
      g.deployedAddress receipt = .ok address := by
  match hrun :
    outcome (g.deployAndRegister node context name abi binary arguments draws) before with
  | (.ok (address', g'), after) =>
    rw [deploy_of_ok hrun, Except.ok.injEq] at h
    obtain ⟨signed, receipt, _, hsent, haddress, -⟩ := deployAndRegister_eq_ok.mp hrun
    exact ⟨signed, receipt, hsent, h ▸ haddress⟩
  | (.error e, after) =>
    rw [deploy_of_error hrun] at h
    cases h

end

end LedgerGateway.Gateway

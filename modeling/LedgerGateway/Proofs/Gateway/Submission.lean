import LedgerGateway.Proofs.Gateway.Identity
import LedgerGateway.Proofs.Gateway.Requests
import LedgerGateway.Proofs.Gateway.Soundness

/-!
# What a transaction does to the node

A transaction asks the node for the height and hands it the signed bytes. Behind that only the source
of blocks is asked, for the block of a receipt that reports a success, and if the source is the node
itself then that is a third question to it.

The bytes that are submitted say what the request was encoded to. The account in their envelope is
the one that is recovered from them.
-/

namespace LedgerGateway

open Exchange

/-- The question is one for the node; a source of blocks of its own is asked elsewhere. -/
def Question.toNode : Question → Bool
  | .trustedBlock _ => false
  | _ => true

namespace Gateway

section

variable {g : Gateway} {node : Node} {context : RequestContext} {request : TransactionRequest}
  {byProxy : Bool} {draws : Draws} {before : History}

/-! ## Transactions -/

/-- Everything that has to go well before a transaction is submitted. -/
structure Submits (g : Gateway) (node : Node) (context : RequestContext)
    (request : TransactionRequest) (byProxy : Bool) (draws : Draws) (before : History)
    (account : Account) (blocks : BlockSource) (invocation : Invocation) (height : UInt64)
    (signed : Transaction.Signed) : Prop where
  checked : checkRequest context request = .ok (account, blocks)
  encoded : g.encodeInvocation context.path request byProxy true draws.uid = .ok invocation
  signs : ∃ limit, SignsAt g node account (g.unsignedFor draws invocation) before height limit signed

section

variable {account : Account} {blocks : BlockSource} {invocation : Invocation} {height : UInt64}
  {signed : Transaction.Signed}

/-- The request says who signs, what is called and where blocks are trusted. -/
theorem Submits.request_eq {account' : Account} {blocks' : BlockSource} {invocation' : Invocation}
    (h : Submits g node context request byProxy draws before account blocks invocation height signed)
    (hchecked : checkRequest context request = .ok (account', blocks'))
    (hencoded : g.encodeInvocation context.path request byProxy true draws.uid = .ok invocation') :
    account = account' ∧ blocks = blocks' ∧ invocation = invocation' := by
  obtain ⟨rfl, rfl⟩ := Prod.mk.inj (Except.ok.inj (h.checked.symm.trans hchecked))
  exact ⟨rfl, rfl, Except.ok.inj (h.encoded.symm.trans hencoded)⟩

/-- Of the same request no two transactions are submitted. -/
theorem Submits.signed_eq {account' : Account} {blocks' : BlockSource} {invocation' : Invocation}
    {height' : UInt64} {signed' : Transaction.Signed}
    (h : Submits g node context request byProxy draws before account blocks invocation height signed)
    (h' : Submits g node context request byProxy draws before account' blocks' invocation' height'
      signed') : signed = signed' := by
  obtain ⟨rfl, rfl, rfl⟩ := h.request_eq h'.checked h'.encoded
  obtain ⟨limit, hsigns⟩ := h.signs
  obtain ⟨limit', hsigns'⟩ := h'.signs
  exact hsigns.unique hsigns'

/-- With the receipt that the node answers with, a transaction goes on to settle it. -/
theorem Submits.outcome_eq {receipt : Receipt}
    (h : Submits g node context request byProxy draws before account blocks invocation height signed)
    (hanswer : node.submit (before ++ [.height]) signed.raw = .ok (some receipt))
    (hcontent : receipt.isEmpty = false) :
    outcome (g.sendTransaction node context request byProxy draws) before =
      outcome (g.settle node blocks invocation receipt)
        (before ++ [.height] ++ [.submit signed.raw]) := by
  obtain ⟨limit, hsigns⟩ := h.signs
  rw [sendTransaction_of_encoded h.checked h.encoded]
  exact outcome_of_answered (fun signed => bytes_payload invocation signed.raw true) hsigns hanswer
    hcontent

end

/-! ## What is asked -/

/-- What a transaction asks: `calls` of its own, and then the source of blocks for a header. -/
structure Asks (g : Gateway) (node : Node) (context : RequestContext)
    (request : TransactionRequest) (byProxy : Bool) (draws : Draws) (before calls headers : History) :
    Prop where
  order : ∃ raw, calls <+: [.height, .submit raw]
  submits : ∀ raw, .submit raw ∈ calls ↔ ∃ account blocks invocation height signed,
    Submits g node context request byProxy draws before account blocks invocation height signed ∧
      signed.raw = raw
  header : headers = [] ∨ ∃ blocks raw receipt, context.blocks = some blocks ∧
    calls = [.height, .submit raw] ∧
    node.submit (before ++ [.height]) raw = .ok (some receipt) ∧ receipt.isStatusOk = true ∧
    g.proofsSupported = true ∧ headers = [blocks.question receipt.blockNumber]
  elsewhere : ∀ block, context.blocks = some (.independent block) →
    (calls ++ headers).filter Question.toNode = calls

theorem filter_toNode_calls {calls : History} {raw : Bytes}
    (h : calls <+: [.height, .submit raw]) : calls.filter Question.toNode = calls := by
  refine List.filter_eq_self.mpr fun q hq => ?_
  have hmem := h.subset hq
  simp only [List.mem_cons, List.not_mem_nil, or_false] at hmem
  rcases hmem with rfl | rfl <;> rfl

/-- What a transaction asks that ends before anything is signed. -/
theorem asks_of_unsigned {calls : History} (hcalls : calls <+: [.height])
    (hnone : ∀ account blocks invocation height signed,
      ¬ Submits g node context request byProxy draws before account blocks invocation height
        signed) : Asks g node context request byProxy draws before calls [] := by
  have horder : calls <+: [.height, .submit []] := hcalls.trans ⟨[.submit []], rfl⟩
  refine ⟨⟨[], horder⟩, ?_, .inl rfl, ?_⟩
  · intro raw
    constructor
    · intro h
      simpa using hcalls.subset h
    · rintro ⟨account, blocks, invocation, height, signed, hsubmits, -⟩
      exact absurd hsubmits (hnone account blocks invocation height signed)
  · intro block _
    rw [List.append_nil]
    exact filter_toNode_calls horder

theorem asks_of_signed {account : Account} {blocks : BlockSource} {invocation : Invocation}
    {height : UInt64} {signed : Transaction.Signed} {headers : History}
    (hsubmits : Submits g node context request byProxy draws before account blocks invocation height
      signed)
    (hheader : headers = [] ∨ ∃ receipt,
      node.submit (before ++ [.height]) signed.raw = .ok (some receipt) ∧
      receipt.isStatusOk = true ∧ g.proofsSupported = true ∧
      headers = [blocks.question receipt.blockNumber]) :
    Asks g node context request byProxy draws before [.height, .submit signed.raw] headers := by
  have hblocks := (of_checkRequest hsubmits.checked).2
  refine ⟨⟨signed.raw, List.prefix_rfl⟩, ?_, ?_, ?_⟩
  · intro raw
    constructor
    · intro h
      obtain rfl : raw = signed.raw := by simpa using h
      exact ⟨account, blocks, invocation, height, signed, hsubmits, rfl⟩
    · rintro ⟨account', blocks', invocation', height', signed', hsubmits', rfl⟩
      rw [hsubmits.signed_eq hsubmits']
      simp
  · rcases hheader with hnone | ⟨receipt, hanswer, hstatus, hg, hask⟩
    · exact .inl hnone
    · exact .inr ⟨blocks, signed.raw, receipt, hblocks, rfl, hanswer, hstatus, hg, hask⟩
  · intro block hsource
    obtain rfl := Option.some.inj (hblocks.symm.trans hsource)
    rcases hheader with rfl | ⟨receipt, -, -, -, rfl⟩ <;> rfl

theorem sendTransaction_asks (g : Gateway) (node : Node) (context : RequestContext)
    (request : TransactionRequest) (byProxy : Bool) (draws : Draws) (before : History) :
    ∃ calls headers,
      (outcome (g.sendTransaction node context request byProxy draws) before).2 =
        before ++ calls ++ headers ∧
      Asks g node context request byProxy draws before calls headers := by
  rcases sendTransaction_cases g node context request byProxy draws before with
    ⟨e, houtcome, hnone⟩ | ⟨account, blocks, invocation, hchecked, hencoded⟩
  · refine ⟨[], [], by rw [houtcome]; simp, asks_of_unsigned List.nil_prefix ?_⟩
    intro account blocks invocation height signed hsubmits
    exact hnone _ _ _ hsubmits.checked hsubmits.encoded
  have hrun : Submitting g node account (g.unsignedFor draws invocation)
      (g.settle node blocks invocation) before
      (outcome (g.sendTransaction node context request byProxy draws) before) := by
    rw [sendTransaction_of_encoded hchecked hencoded]
    exact submitting fun signed => bytes_payload invocation signed.raw true
  generalize outcome (g.sendTransaction node context request byProxy draws) before = run at hrun
  cases hrun with
  | unsigned hnone =>
    refine ⟨[.height], [], by simp, asks_of_unsigned List.prefix_rfl ?_⟩
    intro account' blocks' invocation' height signed hsubmits
    obtain ⟨rfl, rfl, rfl⟩ := hsubmits.request_eq hchecked hencoded
    obtain ⟨limit, hsigns⟩ := hsubmits.signs
    exact hnone height limit signed hsigns
  | unanswered hsigns =>
    have hsubmits := Submits.mk hchecked hencoded ⟨_, hsigns⟩
    exact ⟨_, [], by simp, asks_of_signed hsubmits (.inl rfl)⟩
  | @answered height limit signed receipt hsigns hanswer =>
    have hsubmits := Submits.mk hchecked hencoded ⟨limit, hsigns⟩
    rw [history_settle]
    split
    · rename_i hask
      obtain ⟨hstatus, hg⟩ := Bool.and_eq_true_iff.mp hask
      refine ⟨_, [blocks.question receipt.blockNumber], by simp, asks_of_signed hsubmits ?_⟩
      exact .inr ⟨receipt, hanswer, hstatus, hg, rfl⟩
    · exact ⟨_, [], by simp, asks_of_signed hsubmits (.inl rfl)⟩

/-! ## What is submitted -/

section

variable {account : Account} {invocation : Invocation} {height limit : UInt64}
  {signed : Transaction.Signed} {destination : Option Address} {data : Bytes} {tx : Transaction}

theorem destination_of_encodeDirect {path : ResourcePath}
    (h : g.encodeDirect path request = .ok invocation) :
    ∃ contract, g.registry.get? path.resource = some contract ∧
      contract.address? = some invocation.destination := by
  unfold encodeDirect at h
  split at h
  · cases h
  · rename_i address hfound
    cases h
    exact Option.bind_eq_some_iff.mp hfound

theorem destination_of_encodeProxied {path : ResourcePath} {send : Bool} {uid : String}
    (h : g.encodeProxied path request send uid = .ok invocation) :
    g.proxyAddress = some invocation.destination := by
  unfold encodeProxied at h
  split at h
  · cases h
  · rename_i address hproxy
    obtain ⟨contract, -, h⟩ := except_bind_eq_ok.mp h
    obtain ⟨f, -, h⟩ := except_bind_eq_ok.mp h
    obtain ⟨call, -, h⟩ := except_bind_eq_ok.mp h
    cases h
    exact hproxy

/-- What a transaction of the gateway says beside what is drawn for it. -/
structure Carries (g : Gateway) (destination : Option Address) (data : Bytes) (height : UInt64)
    (tx : Transaction) : Prop where
  destination : tx.destination = destination
  chainId : tx.chainId = g.chainId
  groupId : tx.groupId = g.groupId
  value : tx.value = 0
  extraData : tx.extraData = []
  data : tx.data = data
  blockLimit : tx.blockLimit.toNat = height.toNat + blockLimitStep

theorem carries_of_build
    (hlimit : limit.toNat = height.toNat + blockLimitStep)
    (h : Transaction.build draws.nonce destination g.groupId g.chainId limit data = .ok tx) :
    Carries g destination data height tx := by
  obtain ⟨-, rfl⟩ := Transaction.build_eq_ok.mp h
  exact ⟨rfl, rfl, rfl, rfl, rfl, rfl, hlimit⟩

/-- Bytes that were signed spell what was built, and are read as that if the key is regular. The
account is recovered from them if the profile recovers it. -/
theorem spelled_of_signBuilt {built : Except TransactionError Transaction}
    (h : g.signBuilt account built = .ok signed) :
    ∃ tx signature, built = .ok tx ∧ signed.raw = tx.encodeSigned signature ∧
      (account.keyPair.Regular → signed.raw.length < UInt64.size →
        Transaction.decode signed.raw = .ok ⟨tx, signature⟩ ∧
        (g.profile.Recovers account.keyPair (Transaction.signingHash g.profile tx) →
          Transaction.recoverSender g.profile signed.raw = .ok account.address)) := by
  obtain ⟨tx, signature, hbuilt, hsign, hsignature, hraw⟩ := of_signBuilt h
  refine ⟨tx, signature, hbuilt, hraw, ?_⟩
  intro hkey hsize
  have hspellable := hkey.spellable _ _ hsignature
  constructor
  · rw [hraw] at hsize ⊢
    exact Transaction.decode_encodeSigned hspellable hsize
  · intro hrecovers
    exact Transaction.recoverSender_of_sign hkey hrecovers hsign hsize

/-- Where the bytes of a submission go, in what envelope they are handed over, and what they say. -/
structure Submission (g : Gateway) (node : Node) (context : RequestContext)
    (request : TransactionRequest) (byProxy : Bool) (draws : Draws) (before : History)
    (account : Account) (blocks : BlockSource) (invocation : Invocation) (height : UInt64)
    (signed : Transaction.Signed) : Prop where
  direct : byProxy = false → ∃ contract, g.registry.get? context.path.resource = some contract ∧
    contract.address? = some invocation.destination
  proxied : byProxy = true → g.proxyAddress = some invocation.destination
  handed : outcome (g.sendTransaction node context request byProxy draws) before =
    outcome (do
      let response ← node.handle (sendRequest account request invocation signed)
      g.concludeSend node blocks invocation response) (before ++ [.height])
  envelope : ∃ params, TransactionParams.ofBytes
      (sendRequest account request invocation signed).data = .ok params ∧
    params.data = signed.raw ∧ params.sender = some account.address.hex
  content : ∃ tx signature, signed.raw = tx.encodeSigned signature ∧
    Carries g (some invocation.destination) invocation.data height tx ∧
    (account.keyPair.Regular → signed.raw.length < UInt64.size →
      Transaction.decode signed.raw = .ok ⟨tx, signature⟩ ∧
      (g.profile.Recovers account.keyPair (Transaction.signingHash g.profile tx) →
        Transaction.recoverSender g.profile signed.raw = .ok account.address))

theorem ofBytes_sendRequest :
    TransactionParams.ofBytes (sendRequest account request invocation signed).data =
      .ok (envelope request (invocation.payload signed.raw true) account.identity
        (some invocation.destination)) := by
  rw [sendRequest, Inquiry.data_ofKind]
  exact TransactionParams.ofBytes_toBytes _

theorem submission_of_submits {blocks : BlockSource}
    (h : Submits g node context request byProxy draws before account blocks invocation height
      signed) :
    Submission g node context request byProxy draws before account blocks invocation height
      signed := by
  obtain ⟨limit, hsigns⟩ := h.signs
  have hencoded := h.encoded
  unfold encodeInvocation at hencoded
  refine ⟨?_, ?_, ?_, ?_, ?_⟩
  · rintro rfl
    exact destination_of_encodeDirect hencoded
  · rintro rfl
    exact destination_of_encodeProxied hencoded
  · have hheight : outcome (getHeight node) before = (.ok height, before ++ [.height]) :=
      getHeight_eq_ok.mpr ⟨hsigns.reported, rfl⟩
    have hsigned := hsigns.signed
    unfold unsignedFor at hsigned
    rw [sendTransaction_eq, h.checked, outcome_bind_of_ok (outcome_liftM _ _), h.encoded,
      outcome_bind_of_ok (outcome_liftM _ _), outcome_bind_of_ok hheight, hsigns.blockLimit,
      outcome_bind_of_ok (outcome_liftM _ _), hsigned, outcome_bind_of_ok (outcome_liftM _ _)]
  · exact ⟨_, ofBytes_sendRequest, bytes_payload invocation signed.raw true, rfl⟩
  · obtain ⟨tx, signature, hbuilt, hraw, hread⟩ := spelled_of_signBuilt hsigns.signed
    exact ⟨tx, signature, hraw, carries_of_build hsigns.limited hbuilt, hread⟩

end

theorem sendTransaction_submits (g : Gateway) (node : Node) (context : RequestContext)
    (request : TransactionRequest) (byProxy : Bool) (draws : Draws) (before : History) :
    (∃ calls headers,
      (outcome (g.sendTransaction node context request byProxy draws) before).2 =
        before ++ calls ++ headers ∧
      Asks g node context request byProxy draws before calls headers) ∧
    (∀ account blocks invocation height signed,
      Submits g node context request byProxy draws before account blocks invocation height signed →
      Submission g node context request byProxy draws before account blocks invocation height
        signed) ∧
    ∀ (kind : CryptoKind) (secret : Bytes) (k : KeyPair),
      kind.profile.loadKeyPair secret = .ok k → k.Regular := by
  refine ⟨sendTransaction_asks g node context request byProxy draws before, ?_, ?_⟩
  · intro account blocks invocation height signed h
    exact submission_of_submits h
  · intro kind secret k h
    exact (Transaction.regular_of_loadKeyPair h).2

end

/-! ## A transaction whose sender is recovered -/

namespace UnitKey

open Transaction (lengthProfile unitKey)

/-- The chain of one transaction under a profile that recovers senders. -/
def gateway : Gateway := { OneBlock.gateway with profile := lengthProfile }

/-- The node reports that the transaction has failed. -/
def node : Node := OneBlock.node (OneBlock.hashOf 1) 1

def account : Account := ⟨"a", unitKey⟩

def context : RequestContext :=
  { OneBlock.context (OneBlock.hashOf 1) with account := some account }

def invocation : Invocation where
  data := PlainCall.encode lengthProfile OneBlock.request.method OneBlock.request.args
  destination := Address.zero

def transaction : Transaction :=
  { OneBlock.transaction with data := invocation.data }

def signature : Signature :=
  .ecdsa 27 Transaction.unitR (Transaction.unitS (Transaction.signingHash lengthProfile transaction))

def signed : Transaction.Signed :=
  ⟨transaction.encodeSigned signature, lengthProfile.hash (transaction.encodeSigned signature)⟩

theorem signBuilt_transaction :
    gateway.signBuilt account (gateway.unsignedFor OneBlock.draws invocation 506) = .ok signed := by
  rfl

theorem submits_transaction :
    Submits gateway node context OneBlock.request false OneBlock.draws [] account
      (OneBlock.source (OneBlock.hashOf 1)) invocation 6 signed :=
  ⟨rfl, rfl, 506, rfl, by decide, rfl, signBuilt_transaction⟩

theorem recovers_transaction :
    lengthProfile.Recovers unitKey (Transaction.signingHash lengthProfile transaction) := by
  intro _ made h
  obtain rfl : signature = made := Except.ok.inj h
  have hpoint : Ecdsa.recover? (Transaction.signingHash lengthProfile transaction) false
      Transaction.unitR.toNat
      (Transaction.unitS (Transaction.signingHash lengthProfile transaction)).toNat =
        some Ecdsa.curve.g := by
    decide +kernel
  rw [show lengthProfile.recoverSigner = Ecdsa.recoverSigner from rfl, signature,
    Transaction.recoverSigner_even hpoint, unitKey]

set_option maxRecDepth 4000 in
theorem length_signed : signed.raw.length < UInt64.size := by
  decide

theorem decode_signed : Transaction.decode signed.raw = .ok ⟨transaction, signature⟩ :=
  Transaction.decode_encodeSigned (Transaction.regular_unitKey.spellable _ _ rfl) length_signed

end UnitKey

open UnitKey in
/-- The height is asked for, and the transaction that is submitted is one of the account. -/
theorem sendTransaction_submits_unitKey :
    (outcome (gateway.sendTransaction node context OneBlock.request false OneBlock.draws) []).2 =
        [.height, .submit signed.raw] ∧
      (∃ calls headers,
        (outcome (gateway.sendTransaction node context OneBlock.request false OneBlock.draws) []).2 =
          [] ++ calls ++ headers ∧
        Asks gateway node context OneBlock.request false OneBlock.draws [] calls headers) ∧
      ∃ decoded, Transaction.decode signed.raw = .ok decoded ∧
        Carries gateway (some Address.zero) invocation.data 6 decoded.transaction ∧
        Transaction.recoverSender gateway.profile signed.raw = .ok account.address := by
  have hhistory : (outcome (gateway.sendTransaction node context OneBlock.request false
      OneBlock.draws) []).2 = [.height, .submit signed.raw] := by
    have hanswer : node.submit ([] ++ [.height]) signed.raw =
        .ok (some (OneBlock.receipt (OneBlock.hashOf 1) 1)) := rfl
    rw [submits_transaction.outcome_eq hanswer rfl, history_settle]
    rfl
  obtain ⟨hasks, hsubmission, -⟩ := sendTransaction_submits gateway node context OneBlock.request
    false OneBlock.draws []
  have hsubmitted := hsubmission _ _ _ _ _ submits_transaction
  obtain ⟨tx, made, -, hcarries, hread⟩ := hsubmitted.content
  obtain ⟨hdecode, hsender⟩ := hread Transaction.regular_unitKey length_signed
  obtain ⟨rfl, rfl⟩ := Transaction.Decoded.mk.inj (Except.ok.inj (hdecode.symm.trans decode_signed))
  exact ⟨hhistory, hasks, _, hdecode, hcarries, hsender recovers_transaction⟩

/-- The account and the source of the chain of one transaction, which is the node itself. -/
def OneBlock.nodeContext (hash : Bytes) : RequestContext :=
  { OneBlock.context hash with blocks := some .node }

theorem OneBlock.submits_transaction (hash : Bytes) :
    Submits OneBlock.gateway (OneBlock.node hash 0) (OneBlock.nodeContext hash) OneBlock.request false
      OneBlock.draws [] ⟨"a", OneBlock.keyPair⟩ .node OneBlock.invocation 6 OneBlock.signed :=
  ⟨rfl, OneBlock.encodeInvocation_request hash, 506, rfl, by decide, rfl,
    OneBlock.signBuilt_transaction⟩

/-- A source of blocks that reads them through the node asks it a third question. -/
theorem sendTransaction_asks_block :
    ¬ ∀ (g : Gateway) (node : Node) (context : RequestContext) (request : TransactionRequest)
        (byProxy : Bool) (draws : Draws) (before : History), ∃ asked raw,
      (outcome (g.sendTransaction node context request byProxy draws) before).2 = before ++ asked ∧
        asked.filter Question.toNode <+: [.height, .submit raw] := by
  intro hall
  obtain ⟨asked, raw, hasked, horder⟩ := hall OneBlock.gateway (OneBlock.node (OneBlock.hashOf 1) 0)
    (OneBlock.nodeContext (OneBlock.hashOf 1)) OneBlock.request false OneBlock.draws []
  have hhistory : (outcome (OneBlock.gateway.sendTransaction (OneBlock.node (OneBlock.hashOf 1) 0)
      (OneBlock.nodeContext (OneBlock.hashOf 1)) OneBlock.request false OneBlock.draws) []).2 =
      [.height, .submit OneBlock.signed.raw, .block 7 false] := by
    have hanswer : (OneBlock.node (OneBlock.hashOf 1) 0).submit ([] ++ [.height])
        OneBlock.signed.raw = .ok (some (OneBlock.receipt (OneBlock.hashOf 1) 0)) := rfl
    rw [(OneBlock.submits_transaction _).outcome_eq hanswer rfl, history_settle]
    rfl
  rw [hhistory] at hasked
  obtain rfl : asked = [.height, .submit OneBlock.signed.raw, .block 7 false] := hasked.symm
  have hlength := horder.length_le
  have hthree : [Question.height, .submit OneBlock.signed.raw, .block 7 false].filter
      Question.toNode = [.height, .submit OneBlock.signed.raw, .block 7 false] := rfl
  rw [hthree] at hlength
  simp at hlength

end Gateway

end LedgerGateway

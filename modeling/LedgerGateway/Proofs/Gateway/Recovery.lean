import LedgerGateway.Proofs.Call.Unwrapping
import LedgerGateway.Proofs.Gateway.Requests
import LedgerGateway.Proofs.Gateway.Soundness
import LedgerGateway.Proofs.Registry

/-!
# Requests are recovered from their envelopes

What the router asked is recovered from the request that was handed to the dispatcher. Without the
proxy this holds of every method and all arguments. Through the proxy it holds of functions that take
texts, except that a function that takes nothing is reported without arguments even if it was called
with an empty list of them.
-/

namespace LedgerGateway.Gateway

open Abi UnwrappedCall.TwoOfOneSignature

/-! ## A contract behind the proxy

A gateway of the national family that knows one contract with one function `f`, which takes nothing
or a text, and an account whose key signs every hash alike. -/

namespace ByProxy

def contractOf (f : Function) (inputs : List Json) : Contract :=
  ⟨"c", some Address.zero, { functions := [f] }, (Json.array [entry inputs]).render⟩

def gateway (c : Contract) : Gateway where
  profile := CryptoKind.gm.profile
  groupId := "group0"
  chainId := "chain0"
  proxyAddress := some Address.zero
  registry := Registry.empty.insert c

def keyPair : KeyPair where
  kind := .gm
  address := Address.zero
  secret := SizedBytes.ofNat 32 1
  signHash := fun _ => .ok (.sm2 (SizedBytes.ofNat 64 1) 1 1)

def context : RequestContext := ⟨some ⟨"a", keyPair⟩, ⟨"z", "b", "c"⟩, some .node⟩

theorem regular_keyPair : keyPair.Regular :=
  Transaction.regular_of_signs (fun _ => .sm2 (SizedBytes.ofNat 64 1) 1 1) (fun _ => rfl)
    fun _ => ⟨rfl, trivial⟩

theorem regular_of_context (account : Account) (h : context.account = some account) :
    account.keyPair.Regular := by
  cases h
  exact regular_keyPair

theorem built_gateway {c : Contract} (h : Interface.read c.interfaceText = .ok c.interface) :
    (gateway c).registry.Built :=
  .register .empty (Registry.register_eq_ok.mpr ⟨_, h, rfl, rfl⟩)

theorem contract_gateway (c : Contract) : (gateway c).contract c.name = .ok c := by
  have hget : (gateway c).registry.get? c.name = some c := by
    rw [gateway, Registry.get?_insert, if_pos rfl]
  rw [Gateway.contract, hget]

def getter : Function := ⟨"f", [], []⟩

def setter : Function := ⟨"f", [Arguments.textParameter], []⟩

theorem read_getter : Interface.read (contractOf getter []).interfaceText =
    .ok (contractOf getter []).interface :=
  Interface.read_render rfl rfl

theorem read_setter : Interface.read (contractOf setter [textEntry]).interfaceText =
    .ok (contractOf setter [textEntry]).interface :=
  Interface.read_render rfl rfl

def draws : Draws := ⟨1, "0x1"⟩

/-- The transaction that carries call data to the proxy or to the contract. -/
def transaction (data : Bytes) : Transaction where
  nonce := draws.nonce
  gasPrice := Transaction.defaultGasPrice
  gasLimit := Transaction.defaultGasLimit
  blockLimit := 506
  destination := some Address.zero
  value := 0
  data := data
  chainId := "chain0"
  groupId := "group0"
  extraData := []

def signed (data : Bytes) : Transaction.Signed :=
  ⟨(transaction data).encodeSigned (.sm2 (SizedBytes.ofNat 64 1) 1 1),
    CryptoKind.gm.profile.hash
      ((transaction data).encodeSigned (.sm2 (SizedBytes.ofNat 64 1) 1 1))⟩

section

variable {c : Contract} {request : TransactionRequest} {byProxy : Bool} {invocation : Invocation}

theorem checkRequest_context (hmethod : Text.isAllBlank request.method = false) :
    checkRequest context request = .ok (⟨"a", keyPair⟩, .node) := by
  have hchecked : checkRequest context request = if Text.isAllBlank request.method then
    .error .emptyMethod else .ok (⟨"a", keyPair⟩, .node) := rfl
  rw [hchecked, hmethod]
  rfl

theorem handsOver_call (hmethod : Text.isAllBlank request.method = false)
    (h : (gateway c).encodeInvocation context.path request byProxy false draws.uid =
      .ok invocation) :
    (gateway c).HandsOver context request byProxy draws invocation.data
      (callRequest ⟨"a", keyPair⟩ request invocation) :=
  .call (checkRequest_context hmethod) h

theorem handsOver_send (hmethod : Text.isAllBlank request.method = false)
    (h : (gateway c).encodeInvocation context.path request byProxy true draws.uid = .ok invocation)
    (hdestination : invocation.destination = Address.zero) :
    (gateway c).HandsOver context request byProxy draws (signed invocation.data).raw
      (sendRequest ⟨"a", keyPair⟩ request invocation (signed invocation.data)) := by
  have hsigned : (gateway c).signBuilt ⟨"a", keyPair⟩ (Transaction.build draws.nonce
      (some Address.zero) (gateway c).groupId (gateway c).chainId 506 invocation.data) =
        .ok (signed invocation.data) := rfl
  refine .send (checkRequest_context hmethod) h OneBlock.blockLimit_six ?_
  rw [hdestination]
  exact hsigned

end

end ByProxy

/-! ## Without the proxy -/

section

variable {g : Gateway} {context : RequestContext} {request : TransactionRequest} {draws : Draws}
  {body : Bytes} {r : Request}

theorem data_of_encodeDirect {path : ResourcePath} {invocation : Invocation}
    (h : g.encodeDirect path request = .ok invocation) :
    invocation.data = PlainCall.encode g.profile request.method request.args ∧
      invocation.proxy = none := by
  unfold encodeDirect at h
  split at h
  · cases h
  · cases h
    exact ⟨rfl, rfl⟩

/-- What is asked of a contract itself is recovered as it was, provided that the two signatures of
the method have selectors of their own. -/
theorem decodeRequest_direct
    (hselectors : g.profile.selector (PlainCall.bareSignature request.method) ≠
      g.profile.selector (PlainCall.listSignature request.method))
    (hkey : ∀ account, context.account = some account → account.keyPair.Regular)
    (hsize : body.length < UInt64.size) (h : g.HandsOver context request false draws body r) :
    g.decodeRequest r = .ok (some request) := by
  obtain ⟨send, invocation, hinvocation, hdata, hdecode⟩ := h.decodeRequest hkey hsize
  obtain ⟨hcall, hproxy⟩ := data_of_encodeDirect hinvocation
  rw [hcall] at hdata
  have harguments : PlainCall.decode g.profile request.method invocation.data = .ok request.args := by
    rw [hcall]
    refine PlainCall.decode_encode hselectors ?_
    intro texts htexts
    exact (PlainCall.length_texts_le texts htexts).trans_lt hdata
  rw [hdecode, reread_of_direct hproxy body send harguments]

end

namespace ByProxy

/-- A request with an empty list of arguments. -/
def listRequest : TransactionRequest := { method := "f", args := some [] }

def listInvocation : Invocation where
  data := PlainCall.encode CryptoKind.gm.profile listRequest.method listRequest.args
  destination := Address.zero

theorem length_list : listInvocation.data.length < UInt64.size := by
  rw [listInvocation, PlainCall.encode, CryptoProfile.length_callData]
  decide +kernel

theorem length_signed_list : (signed listInvocation.data).raw.length < UInt64.size := by
  decide +kernel

end ByProxy

open ByProxy in
/-- An empty list stays one, in a call and in a transaction. -/
theorem decodeRequest_direct_emptyList :
    (gateway (contractOf getter [])).decodeRequest
        (callRequest ⟨"a", keyPair⟩ listRequest listInvocation) = .ok (some listRequest) ∧
    (gateway (contractOf getter [])).decodeRequest
        (sendRequest ⟨"a", keyPair⟩ listRequest listInvocation (signed listInvocation.data)) =
      .ok (some listRequest) := by
  constructor
  · exact decodeRequest_direct PlainCall.selector_bare_ne_list regular_of_context length_list
      (handsOver_call rfl rfl)
  · exact decodeRequest_direct PlainCall.selector_bare_ne_list regular_of_context length_signed_list
      (handsOver_send rfl rfl rfl)

/-! ## Through the proxy -/

section

variable {g : Gateway} {context : RequestContext} {request : TransactionRequest} {draws : Draws}
  {body : Bytes} {r : Request}

/-- The call that is made for a function forwards it, within the distributed transaction if the
options name one. -/
theorem forwards_of_proxyCall {path : ResourcePath} {f : Function} {arguments : List String}
    {xa : Option (String × UInt64)} {send : Bool} {uid : String} {c : ProxyCall}
    (h : g.proxyCall path f arguments xa send uid = .ok c) : c.Forwards g.profile f arguments := by
  unfold proxyCall at h
  split at h
  · obtain ⟨encoded, hencoded, h⟩ := except_bind_eq_ok.mp h
    cases send <;> cases h <;> exact ⟨rfl, hencoded⟩
  · obtain ⟨inner, hinner, h⟩ := except_bind_eq_ok.mp h
    cases send <;> cases h <;> exact hinner

/-- An invocation through the proxy carries the call that is made for the function which the
interface of the contract has for the method. -/
theorem encodeProxied_eq_ok {path : ResourcePath} {send : Bool} {uid : String}
    {invocation : Invocation} (h : g.encodeProxied path request send uid = .ok invocation) :
    ∃ (destination : Address) (contract : Contract) (f : Function) (c : ProxyCall),
      g.proxyAddress = some destination ∧ g.contract path.resource = .ok contract ∧
      contract.interface.functionNamed request.method (request.args.getD []).length = .ok f ∧
      g.proxyCall path f (request.args.getD []) request.options.xa send uid = .ok c ∧
      invocation = ⟨c.encode g.profile, destination, some f, some (contract.interfaceText,
        ⟨path.display, request.options.xa.map (·.1), (request.options.xa.map (·.2)).getD 0⟩)⟩ := by
  unfold encodeProxied at h
  split at h
  · cases h
  · rename_i destination hdestination
    obtain ⟨contract, hcontract, h⟩ := except_bind_eq_ok.mp h
    obtain ⟨f, hf, h⟩ := except_bind_eq_ok.mp h
    obtain ⟨c, hc, h⟩ := except_bind_eq_ok.mp h
    cases h
    exact ⟨destination, contract, f, c, hdestination, hcontract, mapError_eq_ok.mp hf,
      mapError_eq_ok.mp hc, rfl⟩

theorem forwards_of_encodeProxied {path : ResourcePath} {send : Bool} {uid : String}
    {invocation : Invocation} (h : g.encodeProxied path request send uid = .ok invocation) :
    ∃ (contract : Contract) (f : Function) (c : ProxyCall) (route : ProxyRoute),
      g.contract path.resource = .ok contract ∧
      contract.interface.functionNamed request.method (request.args.getD []).length = .ok f ∧
      c.Forwards g.profile f (request.args.getD []) ∧
      invocation.data = c.encode g.profile ∧
      invocation.proxy = some (contract.interfaceText, route) := by
  obtain ⟨destination, contract, f, c, -, hcontract, hf, hc, rfl⟩ := encodeProxied_eq_ok h
  exact ⟨contract, f, c, _, hcontract, hf, forwards_of_proxyCall hc, rfl, rfl⟩

theorem get?_of_contract {name : String} {contract : Contract}
    (h : g.contract name = .ok contract) : g.registry.get? name = some contract := by
  unfold Gateway.contract at h
  split at h
  · rename_i hget
    cases h
    exact hget
  · cases h

/-- The function that a request is for takes texts only, and selectors tell apart what they have to. -/
structure TakesTexts (g : Gateway) (context : RequestContext) (request : TransactionRequest)
    (contract : Contract) (f : Function) : Prop where
  /-- All contracts were registered by the text of their interface. -/
  built : g.registry.Built
  registered : g.contract context.path.resource = .ok contract
  /-- Its interface has the function for the method and so many arguments. -/
  target : contract.interface.functionNamed request.method (request.args.getD []).length = .ok f
  /-- Everything that the function takes is a text. -/
  texts : ∀ p ∈ f.inputs, p.typeText = "string"
  /-- The methods of the proxy have selectors of their own. -/
  proxySelectors : Function.Injective fun m : ProxyMethod => g.profile.selector m.signature
  /-- Functions of the interface that share a selector have one signature. -/
  selectors : ∀ a ∈ contract.interface.functions, ∀ b ∈ contract.interface.functions,
    g.profile.selector a.signature = g.profile.selector b.signature → a.signature = b.signature

theorem HandsOver.decodeRequest_texts {contract : Contract} {f : Function}
    (htexts : g.TakesTexts context request contract f)
    (hkey : ∀ account, context.account = some account → account.keyPair.Regular)
    (hsize : body.length < UInt64.size) (h : g.HandsOver context request true draws body r) :
    (request.args.getD []).length = f.inputs.length ∧ g.decodeRequest r =
      .ok (some { request with args := if f.inputs.isEmpty then none else request.args }) := by
  obtain ⟨send, invocation, hinvocation, hdata, hdecode⟩ := h.decodeRequest hkey hsize
  obtain ⟨contract', f', c, route, hcontract, hf, hforwards, hcall, hroute⟩ :=
    forwards_of_encodeProxied hinvocation
  obtain rfl := Except.ok.inj (htexts.registered.symm.trans hcontract)
  obtain rfl := Except.ok.inj (htexts.target.symm.trans hf)
  have hread := htexts.built.read_interfaceText (get?_of_contract hcontract)
  obtain ⟨hmem, hname⟩ := Interface.mem_of_functionNamed hf
  rw [hcall] at hdata
  obtain ⟨hlength, hunwrapped⟩ := UnwrappedCall.ofCall_texts hread hmem htexts.texts
    htexts.proxySelectors hforwards hdata fun a ha => htexts.selectors a ha f hmem
  rw [← hcall] at hunwrapped
  -- Absent arguments are sent like an empty list, which only a function that takes nothing accepts.
  have harguments : (if f.inputs.isEmpty then none else some (request.args.getD [])) =
      if f.inputs.isEmpty then none else request.args := by
    cases hargs : request.args with
    | some arguments => rfl
    | none =>
      rw [hargs] at hlength
      rw [List.length_eq_zero_iff.mp hlength.symm]
      rfl
  refine ⟨hlength, ?_⟩
  rw [hdecode, reread_of_proxied hroute body send hread hunwrapped, harguments, hname]

/-- What is asked of a function that takes texts is recovered through the proxy, except for an empty
list of arguments to a function that takes nothing: it comes back as no arguments. -/
theorem decodeRequest_byProxy {contract : Contract} {f : Function}
    (htexts : g.TakesTexts context request contract f)
    (hkey : ∀ account, context.account = some account → account.keyPair.Regular)
    (hsize : body.length < UInt64.size) (h : g.HandsOver context request true draws body r) :
    g.decodeRequest r =
        .ok (some { request with args := if f.inputs.isEmpty then none else request.args }) ∧
      (g.decodeRequest r = .ok (some request) ↔ ¬ (f.inputs = [] ∧ request.args = some [])) := by
  obtain ⟨hlength, hdecode⟩ := h.decodeRequest_texts htexts hkey hsize
  refine ⟨hdecode, ?_⟩
  rw [hdecode, Except.ok.injEq, Option.some.injEq, TransactionRequest.mk.injEq]
  cases hinputs : f.inputs with
  | nil =>
    rw [hinputs] at hlength
    cases hargs : request.args with
    | none => simp
    | some arguments =>
      rw [hargs] at hlength
      obtain rfl : arguments = [] := List.length_eq_zero_iff.mp hlength
      simp
  | cons p ps => simp

end

namespace ByProxy

/-- A request with a text, within a distributed transaction. -/
def setRequest : TransactionRequest := ⟨"f", some ["a"], ⟨some "7", some 3⟩⟩

def setCall : ProxyCall :=
  .sendTransaction draws.uid "7" 3 "z.b.c" setter.signature (Value.encodeAll [.string "a"])

def setInvocation : Invocation where
  data := setCall.encode CryptoKind.gm.profile
  destination := Address.zero
  function := some setter
  proxy := some ((contractOf setter [textEntry]).interfaceText, ⟨"z.b.c", some "7", 3⟩)

theorem length_signed_set : (signed setInvocation.data).raw.length < UInt64.size := by
  decide +kernel

/-- A call of the proxy for the request with an empty list. -/
def getCall : ProxyCall :=
  .constantCallWithoutXa "c" (CryptoKind.gm.profile.callData getter.signature (Value.encodeAll []))

def getInvocation : Invocation where
  data := getCall.encode CryptoKind.gm.profile
  destination := Address.zero
  function := some getter
  proxy := some ((contractOf getter []).interfaceText, ⟨"z.b.c", none, 0⟩)

theorem length_get : getInvocation.data.length < UInt64.size := by
  rw [getInvocation, ProxyCall.encode, CryptoProfile.length_callData]
  decide +kernel

/-- A contract with one function has no two of one selector. -/
theorem takesTexts_contractOf {f : Function} {inputs : List Json} {request : TransactionRequest}
    (hread : Interface.read (contractOf f inputs).interfaceText =
      .ok (contractOf f inputs).interface)
    (htarget : (contractOf f inputs).interface.functionNamed request.method
      (request.args.getD []).length = .ok f)
    (htexts : ∀ p ∈ f.inputs, p.typeText = "string") :
    (gateway (contractOf f inputs)).TakesTexts context request (contractOf f inputs) f where
  built := built_gateway hread
  registered := contract_gateway _
  target := htarget
  texts := htexts
  proxySelectors := ProxyMethod.injective_selector_gm
  selectors := by
    intro a ha b hb _
    rw [List.mem_singleton.mp ha, List.mem_singleton.mp hb]

theorem takesTexts_setter : (gateway (contractOf setter [textEntry])).TakesTexts context setRequest
    (contractOf setter [textEntry]) setter := by
  refine takesTexts_contractOf read_setter rfl ?_
  intro p hp
  rw [List.mem_singleton.mp hp]
  rfl

theorem takesTexts_getter : (gateway (contractOf getter [])).TakesTexts context listRequest
    (contractOf getter []) getter := by
  refine takesTexts_contractOf read_getter rfl ?_
  intro p hp
  cases hp

end ByProxy

open ByProxy in
/-- A transaction with a text within a distributed one. -/
theorem decodeRequest_byProxy_text :
    (gateway (contractOf setter [textEntry])).decodeRequest
        (sendRequest ⟨"a", keyPair⟩ setRequest setInvocation (signed setInvocation.data)) =
      .ok (some setRequest) :=
  (decodeRequest_byProxy takesTexts_setter regular_of_context length_signed_set
    (handsOver_send rfl rfl rfl)).1

open ByProxy in
/-- The empty list of a call to a function that takes nothing is lost. -/
theorem decodeRequest_byProxy_forgets :
    ¬ ∀ (g : Gateway) (context : RequestContext) (request : TransactionRequest) (draws : Draws)
        (contract : Contract) (f : Function) (body : Bytes) (r : Request),
      g.TakesTexts context request contract f →
      (∀ account, context.account = some account → account.keyPair.Regular) →
      body.length < UInt64.size → g.HandsOver context request true draws body r →
      g.decodeRequest r = .ok (some request) := by
  intro hall
  have hhands : (gateway (contractOf getter [])).HandsOver ByProxy.context listRequest true draws
      getInvocation.data (callRequest ⟨"a", keyPair⟩ listRequest getInvocation) :=
    handsOver_call rfl rfl
  have hclaimed := hall _ _ _ _ _ _ _ _ takesTexts_getter regular_of_context length_get hhands
  obtain ⟨-, hdecode⟩ := hhands.decodeRequest_texts takesTexts_getter regular_of_context length_get
  rw [hdecode, Except.ok.injEq, Option.some.injEq] at hclaimed
  cases congrArg TransactionRequest.args hclaimed

end LedgerGateway.Gateway

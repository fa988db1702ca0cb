import LedgerGateway.Proofs.Gateway.Recovery
import LedgerGateway.Proofs.ResourcePath

/-!
# Invocations of the proxy are read back

The gateway finds a contract by its path and a function by its name and the number of arguments,
and builds one of four calls from them. Reading the data of that call back, it knows only what the
proxy is told: a path or a bare name, and a signature or a selector. Both ways lead to the same
contract and the same function, to the arguments as they are reported, and to the same distributed
transaction.
-/

namespace LedgerGateway

open Abi UnwrappedCall.TwoOfOneSignature

namespace TransactionOptions

/-- The options that put a request into a distributed transaction, or into none. -/
def ofXa : Option (String × UInt64) → TransactionOptions
  | some (id, seq) => ⟨some id, some seq⟩
  | none => {}

/-- An id that stands for a distributed transaction does so at every place in it. -/
theorem xa_ofXa_of_xa {o : TransactionOptions} {id : String} {seq : UInt64}
    (h : o.xa = some (id, seq)) (place : UInt64) :
    (ofXa (some (id, place))).xa = some (id, place) := by
  unfold xa at h
  split at h
  · split at h
    · cases h
    · rename_i hid
      cases h
      exact if_neg hid
  · cases h

end TransactionOptions

/-- As many arguments are reported as were given. -/
theorem UnwrappedCall.length_reported {f : Function} {arguments : List String} {vs : List Value}
    (hvalues : Arguments.values f.inputs arguments = .ok vs) :
    ((reported f vs).map List.length).getD 0 = arguments.length := by
  obtain ⟨hinputs, ts, hts, -⟩ := Arguments.values_eq_ok.mp hvalues
  obtain ⟨hlength, -⟩ := Arguments.renderAll_of_values hvalues hts
  unfold reported
  by_cases hempty : f.inputs.isEmpty = true
  · rw [if_pos hempty, ← hinputs, List.isEmpty_iff.mp hempty]
    rfl
  · rw [if_neg hempty, ← hlength]
    rfl

namespace Gateway

/-! ## Names -/

theorem lastSegment_of_ne_dot {s : String} (h : ∀ c ∈ s.toList, (c == '.') = false) :
    lastSegment s = s := by
  rw [lastSegment, Text.segments_eq_singleton h]
  exact String.ofList_toList

theorem lastSegment_append_dot (s t : String) : lastSegment (s ++ "." ++ t) = lastSegment t := by
  have hlist : (s ++ "." ++ t).toList = s.toList ++ '.' :: t.toList := by simp
  have hcut : Text.segments (· == '.') (s.toList ++ '.' :: t.toList) =
      Text.segments (· == '.') s.toList ++ Text.segments (· == '.') t.toList :=
    Text.segments_append_cons (by decide) _ _
  obtain ⟨piece, pieces, hpieces⟩ := Text.exists_segments (· == '.') t.toList
  rw [lastSegment, lastSegment, hlist, hcut, hpieces, List.getLast?_append_of_ne_nil]
  exact List.cons_ne_nil _ _

variable {g : Gateway} {path : ResourcePath} {request : TransactionRequest} {send : Bool}
  {uid : String} {invocation : Invocation} {contract : Contract} {f : Function}

/-- The resource is found behind the last dot of the path and of its own name. -/
theorem lastSegment_of_parse {text : String} (h : ResourcePath.parse text = .ok path) :
    lastSegment path.display = path.resource ∧ lastSegment path.resource = path.resource := by
  have hresource := lastSegment_of_ne_dot (ResourcePath.ne_dot_of_parse h)
  refine ⟨?_, hresource⟩
  rw [ResourcePath.display, lastSegment_append_dot, hresource]

/-! ## Calls -/

/-- What a call of the proxy says beside the function: where it goes, and within which distributed
transaction. The place in that is told by transactions only. -/
structure Bears (c : ProxyCall) (path : ResourcePath) (xa : Option (String × UInt64))
    (send : Bool) : Prop where
  target : c.target = path.display ∨ c.target = path.resource
  xa : c.xa? = if send then xa else xa.map fun (id, _) => (id, 0)

theorem bears_of_proxyCall {arguments : List String} {xa : Option (String × UInt64)}
    {c : ProxyCall} (h : g.proxyCall path f arguments xa send uid = .ok c) :
    Bears c path xa send := by
  unfold proxyCall at h
  split at h
  · obtain ⟨encoded, -, h⟩ := except_bind_eq_ok.mp h
    cases send <;> cases h <;> exact ⟨.inl rfl, rfl⟩
  · obtain ⟨inner, -, h⟩ := except_bind_eq_ok.mp h
    cases send <;> cases h <;> exact ⟨.inr rfl, rfl⟩

/-- Options that are made of what a call bears stand for that again. -/
theorem Bears.xa_ofXa {c : ProxyCall} {o : TransactionOptions} (h : Bears c path o.xa send) :
    (TransactionOptions.ofXa c.xa?).xa = c.xa? := by
  rw [h.xa]
  cases hxa : o.xa with
  | none => cases send <;> rfl
  | some xa =>
    obtain ⟨id, seq⟩ := xa
    cases send with
    | true => exact TransactionOptions.xa_ofXa_of_xa hxa seq
    | false => exact TransactionOptions.xa_ofXa_of_xa hxa 0

/-- The route says what the call says: its distributed transaction, the place in that if it is a
transaction, and where it goes. -/
structure Agrees (route : ProxyRoute) (c : ProxyCall) (resource : String) (send : Bool) : Prop where
  id : c.xaTransactionId? = route.xaTransactionId
  place : send = true → (c.xa?.map (·.2)).getD 0 = route.xaTransactionSeq
  resource : lastSegment route.resource = resource ∧ lastSegment c.target = resource

theorem Bears.agrees {text : String} {c : ProxyCall} {xa : Option (String × UInt64)}
    (h : Bears c path xa send) (hpath : ResourcePath.parse text = .ok path) :
    Agrees ⟨path.display, xa.map (·.1), (xa.map (·.2)).getD 0⟩ c path.resource send := by
  obtain ⟨hdisplay, hresource⟩ := lastSegment_of_parse hpath
  have hid : c.xaTransactionId? = c.xa?.map (·.1) := by
    cases c <;> rfl
  refine ⟨?_, ?_, hdisplay, ?_⟩
  · rw [hid, h.xa]
    cases send with
    | true => rfl
    | false => cases xa <;> rfl
  · rintro rfl
    rw [h.xa, if_pos rfl]
  · rcases h.target with htarget | htarget
    · rw [htarget, hdisplay]
    · rw [htarget, hresource]

/-- What the interface of a contract has to keep apart so that its functions are found again. -/
structure TellsApart (p : CryptoProfile) (i : Interface) : Prop where
  /-- The methods of the proxy have selectors of their own. -/
  proxySelectors : Function.Injective fun m : ProxyMethod => p.selector m.signature
  /-- Functions that share a selector have one signature. -/
  selectors : ∀ a ∈ i.functions, ∀ b ∈ i.functions,
    p.selector a.signature = p.selector b.signature → a.signature = b.signature
  /-- No function takes a tuple of nothing. -/
  filled : ∀ a ∈ i.functions, ∀ ts, Parameter.types? a.inputs = some ts → Ty.areFilled ts = true

/-- Of a call that was decoded, for a contract that is known, the interface tells the rest. -/
theorem decodeProxied_of_decode {input : Bytes} {c : ProxyCall}
    (hcall : ProxyCall.decode g.profile input = .ok c)
    (hcontract : g.contract (lastSegment c.target) = .ok contract) :
    g.decodeProxied input = (do
      let unwrapped ← (UnwrappedCall.ofCall g.profile (some contract.interface) input).mapError
        GatewayError.call
      let f ← (contract.interface.functionNamed unwrapped.method
        ((unwrapped.arguments.map List.length).getD 0)).mapError GatewayError.call
      pure ⟨lastSegment c.target,
        ⟨unwrapped.method, unwrapped.arguments, TransactionOptions.ofXa c.xa?⟩, f⟩) := by
  unfold decodeProxied
  simp only [hcall, mapError_ok, bind, Except.bind, hcontract]
  cases c.xa? <;> rfl

theorem decodeProxied_of_ofCall_error {input : Bytes} {c : ProxyCall} {e : CallError}
    (hcall : ProxyCall.decode g.profile input = .ok c)
    (hcontract : g.contract (lastSegment c.target) = .ok contract)
    (herror : UnwrappedCall.ofCall g.profile (some contract.interface) input = .error e) :
    g.decodeProxied input = .error (.call e) := by
  rw [decodeProxied_of_decode hcall hcontract, herror]
  rfl

/-- The data of a call that was made for a function is read as a request for that function. -/
theorem decodeProxied_encode {text : String} {c : ProxyCall} {vs : List Value}
    (hpath : ResourcePath.parse text = .ok path)
    (hcontract : g.contract path.resource = .ok contract)
    (hf : contract.interface.functionNamed request.method (request.args.getD []).length = .ok f)
    (hc : g.proxyCall path f (request.args.getD []) request.options.xa send uid = .ok c)
    (hread : Interface.read contract.interfaceText = .ok contract.interface)
    (htells : TellsApart g.profile contract.interface)
    (hknown : ∀ h ∈ contract.interface.functions, h.signature = f.signature →
      (Parameter.types? h.inputs).isSome = true)
    (hvalues : Arguments.values f.inputs (request.args.getD []) = .ok vs)
    (hdepth : Value.deepest vs ≤ nestingLimit) (hsize : (c.encode g.profile).length < UInt64.size) :
    g.decodeProxied (c.encode g.profile) = .ok ⟨path.resource,
      ⟨f.name, UnwrappedCall.reported f vs, TransactionOptions.ofXa c.xa?⟩, f⟩ := by
  obtain ⟨hmem, hname⟩ := Interface.mem_of_functionNamed hf
  obtain ⟨-, ts, hts, -⟩ := Arguments.values_eq_ok.mp hvalues
  have hbears := bears_of_proxyCall hc
  have hcall : ProxyCall.decode g.profile (c.encode g.profile) = .ok c :=
    ProxyCall.decode_encode htells.proxySelectors hsize
  have hsegment := (hbears.agrees hpath).resource.2
  have hunwrapped := UnwrappedCall.ofCall_of_forwards htells.proxySelectors hmem
    (UnwrappedCall.standsFor_of_read hread hmem hts hknown) hts hvalues
    (htells.filled f hmem ts hts) hdepth (forwards_of_proxyCall hc) hsize
    fun _ h hh => htells.selectors h hh f hmem
  -- The function is looked for once more, by the same name and for as many arguments.
  have hfound : contract.interface.functionNamed f.name
      (((UnwrappedCall.reported f vs).map List.length).getD 0) = .ok f := by
    rw [UnwrappedCall.length_reported hvalues, hname, hf]
  rw [decodeProxied_of_decode hcall (hsegment.symm ▸ hcontract), hunwrapped, hsegment]
  simp only [mapError_ok, bind, Except.bind, hfound]
  rfl

/-! ## A contract with a tuple

A gateway of the national family that knows one contract, with both functions of one signature or
with one of them, and a request within a distributed transaction. -/

namespace OfTuple

def contractOf (functions : List Function) (abi : Json) : Contract :=
  ⟨"Hello", some Address.zero, { functions }, abi.render⟩

def knownContract : Contract := contractOf [known] knownJson

/-- The function that was meant comes second. -/
def bothContract : Contract := contractOf [unknown, known] bothJson

def helloPath : ResourcePath := ⟨"a", "b", "Hello"⟩

def tupleRequest : TransactionRequest := ⟨"f", some texts, ⟨some "xa", some 3⟩⟩

/-- What is built for the request as a call. -/
def tupleInvocation (c : Contract) : Invocation where
  data := UnwrappedCall.TwoOfOneSignature.call.encode CryptoKind.gm.profile
  destination := Address.zero
  function := some known
  proxy := some (c.interfaceText, ⟨"a.b.Hello", some "xa", 3⟩)

theorem parse_helloPath : ResourcePath.parse "a.b.Hello" = .ok helloPath := by decide +kernel

theorem encodeInvocation_known :
    (ByProxy.gateway knownContract).encodeInvocation helloPath tupleRequest true false "" =
      .ok (tupleInvocation knownContract) := rfl

theorem encodeInvocation_both :
    (ByProxy.gateway bothContract).encodeInvocation helloPath tupleRequest true false "" =
      .ok (tupleInvocation bothContract) := rfl

/-- There is but one signature. -/
theorem tellsApart_contractOf (functions : List Function) (abi : Json)
    (h : ∀ f ∈ functions, f = known ∨ f = unknown) :
    TellsApart CryptoKind.gm.profile (contractOf functions abi).interface where
  proxySelectors := ProxyMethod.injective_selector_gm
  selectors := by
    have hsignature : ∀ f ∈ functions, f.signature = known.signature := by
      intro f hf
      rcases h f hf with rfl | rfl
      · rfl
      · exact signature_unknown
    intro a ha b hb _
    rw [hsignature a ha, hsignature b hb]
  filled := by
    intro f hf ts hts
    rcases h f hf with rfl | rfl
    · obtain rfl := Option.some.inj (types_known.symm.trans hts)
      rfl
    · cases hts

/-- The first function of the signature is asked, and its type is not known. -/
theorem decodeInvocation_both :
    (ByProxy.gateway bothContract).decodeInvocation (tupleInvocation bothContract).data
        (some Address.zero) true =
      .error (.call (.unsupportedType "tuple,string")) := by
  have hcall := ProxyCall.decode_encode ProxyMethod.injective_selector_gm
    (length_call CryptoKind.gm.profile)
  have hcontract : (ByProxy.gateway bothContract).contract
      (lastSegment UnwrappedCall.TwoOfOneSignature.call.target) = .ok bothContract := by
    have hname : lastSegment UnwrappedCall.TwoOfOneSignature.call.target = "Hello" :=
      (lastSegment_of_parse parse_helloPath).1
    rw [hname]
    exact ByProxy.contract_gateway bothContract
  have herror : UnwrappedCall.ofCall CryptoKind.gm.profile
      (some { functions := [unknown, known] })
      (UnwrappedCall.TwoOfOneSignature.call.encode CryptoKind.gm.profile) =
        .error (.unsupportedType "tuple,string") := by
    rw [UnwrappedCall.ofCall_of_decode hcall, inner_call]
    rfl
  exact decodeProxied_of_ofCall_error hcall hcontract herror

theorem deepest_of_values (vs : List Value)
    (h : Arguments.values known.inputs (tupleRequest.args.getD []) = .ok vs) :
    Value.deepest vs ≤ nestingLimit := by
  obtain rfl := Except.ok.inj (values_known.symm.trans h)
  decide

end OfTuple

/-- What was built for the proxy is read back: the resource, the function, the arguments as they
are reported, and the distributed transaction, of which a call that changes nothing forgets the
place. -/
theorem decodeInvocation_encodeInvocation {text : String} (hbuilt : g.registry.Built)
    (hpath : ResourcePath.parse text = .ok path)
    (hinvocation : g.encodeInvocation path request true send uid = .ok invocation)
    (hcontract : g.contract path.resource = .ok contract) (hfunction : invocation.function = some f)
    (htells : TellsApart g.profile contract.interface)
    (hknown : ∀ h ∈ contract.interface.functions, h.signature = f.signature →
      (Parameter.types? h.inputs).isSome = true)
    (hdepth : ∀ vs, Arguments.values f.inputs (request.args.getD []) = .ok vs →
      Value.deepest vs ≤ nestingLimit)
    (hsize : invocation.data.length < UInt64.size) :
    ∃ (vs : List Value) (options : TransactionOptions) (route : ProxyRoute) (c : ProxyCall),
      Arguments.values f.inputs (request.args.getD []) = .ok vs ∧
      g.decodeInvocation invocation.data g.proxyAddress true = .ok ⟨path.resource,
        ⟨f.name, if f.inputs.isEmpty then none else some (Value.renderAll vs), options⟩, f⟩ ∧
      options.xa =
        (if send then request.options.xa else request.options.xa.map fun (id, _) => (id, 0)) ∧
      invocation.proxy = some (contract.interfaceText, route) ∧
      ProxyCall.decode g.profile invocation.data = .ok c ∧
      Agrees route c path.resource send := by
  obtain ⟨destination, contract', f', c, -, hcontract', hf, hc, rfl⟩ :=
    encodeProxied_eq_ok hinvocation
  obtain rfl := Except.ok.inj (hcontract.symm.trans hcontract')
  obtain rfl := Option.some.inj hfunction
  obtain ⟨vs, hvalues⟩ := (forwards_of_proxyCall hc).exists_values
  have hread := hbuilt.read_interfaceText (get?_of_contract hcontract)
  have hdecode := decodeProxied_encode hpath hcontract hf hc hread htells hknown hvalues
    (hdepth vs hvalues) hsize
  have hbears := bears_of_proxyCall hc
  have hcall := ProxyCall.decode_encode htells.proxySelectors hsize
  have hxa := hbears.xa_ofXa.trans hbears.xa
  exact ⟨vs, _, _, c, hvalues, hdecode, hxa, rfl, hcall, hbears.agrees hpath⟩

open OfTuple in
/-- A call with a tuple and a text; the tuple is reported as a list, and the place is forgotten. -/
theorem decodeInvocation_encodeInvocation_tuple :
    ∃ options : TransactionOptions,
      (ByProxy.gateway knownContract).decodeInvocation (tupleInvocation knownContract).data
          (some Address.zero) true =
        .ok ⟨"Hello", ⟨"f", some ["[\"a\"]", "b"], options⟩, known⟩ ∧
      options.xa = some ("xa", 0) := by
  have hread : Interface.read knownContract.interfaceText = .ok knownContract.interface :=
    read_known
  have htells := tellsApart_contractOf [known] knownJson (by simp)
  have hknown : ∀ h ∈ knownContract.interface.functions, h.signature = known.signature →
      (Parameter.types? h.inputs).isSome = true := by
    intro h hh _
    obtain rfl := List.mem_singleton.mp hh
    rfl
  obtain ⟨vs, options, route, c, hvalues, hdecode, hxa, -⟩ :=
    decodeInvocation_encodeInvocation (ByProxy.built_gateway hread) parse_helloPath
      encodeInvocation_known (ByProxy.contract_gateway _) rfl htells hknown deepest_of_values
      (length_call CryptoKind.gm.profile)
  obtain rfl := Except.ok.inj (values_known.symm.trans hvalues)
  exact ⟨options, hdecode, hxa⟩

open OfTuple in
/-- Where another function of the signature stands in front of the one that was called, and nobody
knows its type, the gateway cannot read what it has built. -/
theorem decodeInvocation_encodeInvocation_unknownType :
    ¬ ∀ (g : Gateway) (text : String) (path : ResourcePath) (request : TransactionRequest)
        (send : Bool) (uid : String) (invocation : Invocation) (contract : Contract) (f : Function),
      g.registry.Built → ResourcePath.parse text = .ok path →
      g.encodeInvocation path request true send uid = .ok invocation →
      g.contract path.resource = .ok contract → invocation.function = some f →
      TellsApart g.profile contract.interface →
      (∀ vs, Arguments.values f.inputs (request.args.getD []) = .ok vs →
        Value.deepest vs ≤ nestingLimit) →
      invocation.data.length < UInt64.size →
      ∃ recovered, g.decodeInvocation invocation.data g.proxyAddress true = .ok recovered := by
  intro hall
  have hread : Interface.read bothContract.interfaceText = .ok bothContract.interface := read_both
  have htells := tellsApart_contractOf [unknown, known] bothJson (by simp)
  obtain ⟨recovered, hrecovered⟩ := hall _ _ _ _ _ _ _ _ _ (ByProxy.built_gateway hread)
    parse_helloPath encodeInvocation_both (ByProxy.contract_gateway _) rfl htells deepest_of_values
    (length_call CryptoKind.gm.profile)
  cases decodeInvocation_both.symm.trans hrecovered

end Gateway

end LedgerGateway

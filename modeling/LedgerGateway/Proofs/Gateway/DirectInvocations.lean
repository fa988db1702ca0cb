import LedgerGateway.Proofs.Gateway.Invocations
import LedgerGateway.Proofs.Json.Verbatim

/-!
# Direct invocations are seldom read back

What is sent to a contract itself has the shape that needs no interface: no arguments, or one list of
texts. What is found on the ledger is read by the interface of the contract. Both name one function
only if the interface has the method with just these parameters, and then a list of texts is one
argument, which is reported as one text.
-/

namespace LedgerGateway

open Abi

/-! ## The shape without an interface -/

namespace PlainCall

def listParameter : Parameter := ⟨"string[]", []⟩

/-- What a method takes that is called without an interface. -/
def parameters : Option (List String) → List Parameter
  | none => []
  | some _ => [listParameter]

/-- A function of the shape in which a method is called. -/
def shape (method : String) (arguments : Option (List String)) : Function :=
  ⟨method, parameters arguments, []⟩

theorem signature_shape (method : String) (arguments : Option (List String)) :
    (shape method arguments).signature = signature method arguments := by
  rw [← String.toList_inj]
  cases arguments with
  | none => simp [shape, parameters, Function.signature, Parameter.signatureTexts, signature,
      bareSignature]
  | some texts => simp [shape, parameters, listParameter, Function.signature,
      Parameter.signatureTexts, Parameter.signatureText, signature, listSignature]

theorem isChecked_shape {method : String} (hmethod : isIdentifier method = true)
    (arguments : Option (List String)) : (shape method arguments).isChecked = true := by
  have hlist : listParameter.isChecked = true := by decide
  cases arguments with
  | none => simp [shape, parameters, Function.isChecked, Parameter.areChecked, hmethod]
  | some texts => simp [shape, parameters, Function.isChecked, Parameter.areChecked, hmethod, hlist]

theorem isPlain_of_mem_parameters {arguments : Option (List String)} :
    ∀ q ∈ parameters arguments, q.IsPlain := by
  cases arguments with
  | none => simp [parameters]
  | some texts =>
    intro q hq
    obtain rfl := List.mem_singleton.mp hq
    exact ⟨rfl, by decide⟩

/-- Only a function of the shape has the signature that a call without an interface names. -/
theorem signature_eq_iff {f : Function} (hf : f.isChecked = true) {method : String}
    (hmethod : isIdentifier method = true) {arguments : Option (List String)} :
    f.signature = signature method arguments ↔
      f.name = method ∧ f.inputs = parameters arguments := by
  constructor
  · intro h
    rw [← signature_shape] at h
    obtain ⟨hname, hinputs⟩ := Function.inputs_eq_of_signature (isChecked_shape hmethod arguments) hf
      h.symm isPlain_of_mem_parameters
    exact ⟨hname.symm, hinputs.symm⟩
  · rintro ⟨hname, hinputs⟩
    rw [← signature_shape, Function.signature, Function.signature, hname, hinputs]
    rfl

variable {p : CryptoProfile} {i : Interface} {f : Function} {method : String}
  {arguments : Option (List String)}

theorem functionOfCall_encode_eq_error
    (hnone : ∀ f ∈ i.functions, p.selector f.signature ≠ p.selector (signature method arguments)) :
    i.functionOfCall p (encode p method arguments) =
      .error (.noFunctionSelected (p.selector (signature method arguments)).1) := by
  have hlength := p.length_callData (signature method arguments)
    ((arguments.map TextList.encode).getD [])
  have hfound : i.functions.find? (p.isCallOf ·.signature (encode p method arguments)) = none := by
    rw [List.find?_eq_none]
    intro f hf hcall
    rw [encode, CryptoProfile.isCallOf_callData, decide_eq_true_iff] at hcall
    exact hnone f hf hcall.symm
  rw [Interface.functionOfCall, hfound, encode, if_neg (by omega), CryptoProfile.take_callData]

/-- A list of texts is reported as one text. -/
def reported (arguments : Option (List String)) : Option (List String) :=
  arguments.map fun texts => [(Json.ofTexts texts).render]

theorem decode_listParameter {texts : List String}
    (hsize : (TextList.encode texts).length < UInt64.size) :
    Arguments.decode [listParameter] (TextList.encode texts) =
      .ok [(Json.ofTexts texts).render] := by
  have htypes : Parameter.types? [listParameter] = some [.array .string] := rfl
  have hdecode := Arguments.decode_encodeAll htypes (.cons (TextList.hasType_array texts) .nil) rfl
    (TextList.deepest_array texts) hsize
  rw [TextList.encode, hdecode, Value.renderAll, Value.render, Value.renderAll_texts,
    Value.renderAll]

theorem decodeCall_encode (hsignature : f.signature = signature method arguments)
    (hinputs : f.inputs = parameters arguments)
    (hsize : (encode p method arguments).length < UInt64.size) :
    f.decodeCall p (encode p method arguments) = .ok (reported arguments) := by
  have hlength := p.length_callData (signature method arguments)
    ((arguments.map TextList.encode).getD [])
  have hshort : decide ((encode p method arguments).length < selectorLength) = false := by
    rw [encode]
    exact decide_eq_false (by omega)
  have hcall : p.isCallOf f.signature (encode p method arguments) = true := by
    rw [encode, CryptoProfile.isCallOf_callData, hsignature, decide_eq_true_iff]
  have hdrop : (encode p method arguments).drop selectorLength =
      (arguments.map TextList.encode).getD [] := CryptoProfile.drop_callData ..
  rw [Function.decodeCall, hshort, hcall, hdrop, hinputs]
  cases arguments with
  | none => rfl
  | some texts =>
    have hbody := decode_listParameter (Nat.lt_of_le_of_lt (length_texts_le texts rfl) hsize)
    change (Arguments.decode [listParameter] (TextList.encode texts)).map some = _
    rw [hbody]
    rfl

/-- A list of texts never comes back. -/
theorem reported_eq_iff : reported arguments = arguments ↔ arguments = none := by
  cases arguments with
  | none => exact iff_of_true rfl rfl
  | some texts =>
    refine iff_of_false (fun h => ?_) nofun
    have hsame : [(Json.ofTexts texts).render] = texts := Option.some.inj h
    cases texts with
    | nil => cases hsame
    | cons s rest =>
      obtain ⟨hs, rfl⟩ := List.cons.inj hsame
      exact Json.render_ofTexts_singleton_ne s hs

end PlainCall

namespace Gateway

open PlainCall UnwrappedCall.TwoOfOneSignature

variable {g : Gateway} {path : ResourcePath} {request : TransactionRequest} {uid : String}
  {send : Bool} {invocation : Invocation} {contract : Contract}

/-- What is sent to a contract itself needs nothing but its address. -/
theorem encodeDirect_eq_ok (h : g.encodeDirect path request = .ok invocation) :
    ∃ contract destination, g.registry.get? path.resource = some contract ∧
      contract.address? = some destination ∧
      invocation = { data := encode g.profile request.method request.args, destination } := by
  unfold encodeDirect at h
  split at h
  · cases h
  · rename_i destination hdestination
    obtain ⟨contract, hcontract, haddress⟩ := Option.bind_eq_some_iff.mp hdestination
    cases h
    exact ⟨contract, destination, hcontract, haddress, rfl⟩

/-- Nothing but its parameters keeps a method from being read back: the contract has a function of
its name, no other contract has the address, and no function of another signature the selector. -/
structure StandsAlone (g : Gateway) (path : ResourcePath) (request : TransactionRequest)
    (contract : Contract) : Prop where
  /-- All contracts were registered by the text of their interface. -/
  built : g.registry.Built
  registered : g.registry.get? path.resource = some contract
  method : ∃ f ∈ contract.interface.functions, f.name = request.method
  address : ∀ name c, g.registry.get? name = some c → c.address? = contract.address? →
    name = path.resource
  selectors : ∀ f ∈ contract.interface.functions,
    g.profile.selector f.signature = g.profile.selector (signature request.method request.args) →
    f.signature = signature request.method request.args

namespace StandsAlone

variable (h : g.StandsAlone path request contract)
include h

theorem isChecked : ∀ f ∈ contract.interface.functions, f.isChecked = true :=
  Interface.isChecked_of_read (h.built.read_interfaceText h.registered)

/-- The function that a request is sent to is the one of its shape. -/
theorem signature_eq_iff {f : Function} (hf : f ∈ contract.interface.functions) :
    f.signature = signature request.method request.args ↔
      f.name = request.method ∧ f.inputs = parameters request.args := by
  obtain ⟨named, hnamed, hname⟩ := h.method
  have hidentifier : isIdentifier request.method = true := by
    have hchecked := h.isChecked named hnamed
    rw [Function.isChecked, Bool.and_eq_true, hname] at hchecked
    exact hchecked.1
  exact PlainCall.signature_eq_iff (h.isChecked f hf) hidentifier

theorem decodeDirect_eq {destination : Address} (hdestination : contract.address? = some destination)
    (input : Bytes) : g.decodeDirect input (some destination) = (do
      let f ← (contract.interface.functionOfCall g.profile input).mapError GatewayError.call
      let arguments ← (f.decodeCall g.profile input).mapError GatewayError.call
      pure ⟨path.resource, ⟨f.name, arguments, {}⟩, f⟩) := by
  obtain ⟨c, hc⟩ := Registry.exists_findByAddress? h.registered hdestination
  obtain ⟨hsame, hget⟩ := Registry.get?_of_findByAddress? hc
  have hname := h.address c.name c hget (hsame.trans hdestination.symm)
  rw [hname, h.registered] at hget
  obtain rfl := Option.some.inj hget
  unfold decodeDirect
  rw [Option.bind_some, hc, ← hname]

/-- A function of the shape of the request takes what was sent, and a list of texts is one argument
for it. -/
theorem decodeDirect_of_shape {destination : Address}
    (hdestination : contract.address? = some destination)
    (hsize : (encode g.profile request.method request.args).length < UInt64.size)
    (hshape : ∃ f ∈ contract.interface.functions,
      f.name = request.method ∧ f.inputs = parameters request.args) :
    ∃ f ∈ contract.interface.functions, (f.name = request.method ∧
      f.inputs = parameters request.args) ∧
      g.decodeDirect (encode g.profile request.method request.args) (some destination) =
        .ok ⟨path.resource, ⟨request.method, reported request.args, {}⟩, f⟩ := by
  obtain ⟨f, hf, hfshape⟩ := hshape
  have hsignature := (h.signature_eq_iff hf).mpr hfshape
  obtain ⟨found, hfound, hselector, hcall⟩ := Interface.functionOfCall_callData (p := g.profile) hf
    ((request.args.map TextList.encode).getD [])
  rw [hsignature] at hselector hcall
  have hfoundSignature := h.selectors found hfound hselector
  have hfoundShape := (h.signature_eq_iff hfound).mp hfoundSignature
  have harguments := decodeCall_encode (p := g.profile) hfoundSignature hfoundShape.2 hsize
  refine ⟨found, hfound, hfoundShape, ?_⟩
  rw [h.decodeDirect_eq hdestination, encode, hcall]
  rw [encode] at harguments
  simp only [mapError_ok, bind, Except.bind, harguments, hfoundShape.1]
  rfl

/-- Where no function has the shape of the request, none is found. -/
theorem decodeDirect_of_not_shape {destination : Address}
    (hdestination : contract.address? = some destination)
    (hshape : ¬ ∃ f ∈ contract.interface.functions,
      f.name = request.method ∧ f.inputs = parameters request.args) :
    g.decodeDirect (encode g.profile request.method request.args) (some destination) =
      .error (.call (.noFunctionSelected
        (g.profile.selector (signature request.method request.args)).1)) := by
  have hnone : ∀ f ∈ contract.interface.functions, g.profile.selector f.signature ≠
      g.profile.selector (signature request.method request.args) :=
    fun f hf hselector =>
      hshape ⟨f, hf, (h.signature_eq_iff hf).mp (h.selectors f hf hselector)⟩
  rw [h.decodeDirect_eq hdestination, functionOfCall_encode_eq_error hnone]
  rfl

/-- What was sent comes back if there is nothing in it but the method. -/
theorem decodeDirect_eq_sent_iff {destination : Address}
    (hdestination : contract.address? = some destination)
    (hsize : (encode g.profile request.method request.args).length < UInt64.size) :
    (∃ f, g.decodeDirect (encode g.profile request.method request.args) (some destination) =
        .ok ⟨path.resource, ⟨request.method, request.args, {}⟩, f⟩) ↔
      request.args = none ∧
        ∃ f ∈ contract.interface.functions, f.name = request.method ∧ f.inputs = [] := by
  constructor
  · rintro ⟨f, hf⟩
    by_cases hshape : ∃ f ∈ contract.interface.functions,
        f.name = request.method ∧ f.inputs = parameters request.args
    · obtain ⟨found, -, -, hdecode⟩ := h.decodeDirect_of_shape hdestination hsize hshape
      have hsame := Except.ok.inj (hdecode.symm.trans hf)
      have harguments : reported request.args = request.args := by
        injection hsame with _ hrequest _
        injection hrequest
      have hargs := reported_eq_iff.mp harguments
      rw [hargs] at hshape
      exact ⟨hargs, hshape⟩
    · cases (h.decodeDirect_of_not_shape hdestination hshape).symm.trans hf
  · rintro ⟨hargs, hshape⟩
    have hparameters : parameters request.args = [] := by rw [hargs]; rfl
    obtain ⟨found, -, -, hdecode⟩ := h.decodeDirect_of_shape hdestination hsize
      (hparameters ▸ hshape)
    rw [reported_eq_iff.mpr hargs] at hdecode
    exact ⟨found, hdecode⟩

end StandsAlone

namespace ByProxy

def directPath : ResourcePath := ⟨"z", "b", "c"⟩

/-- The only contract of a gateway stands alone, if no function has the selector of another shape. -/
theorem standsAlone_gateway {c : Contract} {request : TransactionRequest} (hname : c.name = "c")
    (hread : Interface.read c.interfaceText = .ok c.interface)
    (hmethod : ∃ f ∈ c.interface.functions, f.name = request.method)
    (hselectors : ∀ f ∈ c.interface.functions,
      CryptoKind.gm.profile.selector f.signature =
        CryptoKind.gm.profile.selector (signature request.method request.args) →
      f.signature = signature request.method request.args) :
    (gateway c).StandsAlone directPath request c where
  built := built_gateway hread
  registered := by
    rw [gateway, Registry.get?_insert]
    exact if_pos hname.symm
  method := hmethod
  address := by
    intro name other hother _
    rw [gateway, Registry.get?_insert, Registry.get?_empty] at hother
    split at hother
    · rename_i hsame
      exact hsame.trans hname
    · cases hother
  selectors := hselectors

def bareRequest : TransactionRequest := { method := "f", args := none }

def textRequest : TransactionRequest := { method := "f", args := some ["a"] }

/-- What is sent for a request. -/
def directInvocation (request : TransactionRequest) : Invocation where
  data := encode CryptoKind.gm.profile request.method request.args
  destination := Address.zero

theorem length_bare : (directInvocation bareRequest).data.length < UInt64.size := by
  rw [directInvocation, encode, CryptoProfile.length_callData]
  decide

theorem standsAlone_getter :
    (gateway (contractOf getter [])).StandsAlone directPath bareRequest (contractOf getter []) := by
  refine standsAlone_gateway rfl read_getter ⟨getter, List.mem_singleton_self getter, rfl⟩ ?_
  intro f hf _
  rw [List.mem_singleton.mp hf]
  rfl

theorem selector_text_ne_list : CryptoKind.gm.profile.selector setter.signature ≠
    CryptoKind.gm.profile.selector (listSignature "f") := by
  decide +kernel

theorem standsAlone_setter : (gateway (contractOf setter [textEntry])).StandsAlone directPath
    textRequest (contractOf setter [textEntry]) := by
  refine standsAlone_gateway rfl read_setter ⟨setter, List.mem_singleton_self setter, rfl⟩ ?_
  intro f hf hselector
  rw [List.mem_singleton.mp hf] at hselector
  exact absurd hselector selector_text_ne_list

end ByProxy

/-- What was sent to a contract itself is read back exactly if it was sent without arguments and the
contract has a function of the method that takes nothing. A function that takes a list of texts is
told of one text in place of a list of arguments, and for all others nothing is read. -/
theorem decodeInvocation_encodeInvocation_direct (h : g.StandsAlone path request contract)
    (hinvocation : g.encodeInvocation path request false send uid = .ok invocation)
    (hsize : invocation.data.length < UInt64.size) :
    ((∃ f, g.decodeInvocation invocation.data (some invocation.destination) false =
        .ok ⟨path.resource, ⟨request.method, request.args, {}⟩, f⟩) ↔
      request.args = none ∧
        ∃ f ∈ contract.interface.functions, f.name = request.method ∧ f.inputs = []) ∧
    ((∃ f ∈ contract.interface.functions,
        f.name = request.method ∧ f.inputs = parameters request.args) →
      ∃ f ∈ contract.interface.functions,
        (f.name = request.method ∧ f.inputs = parameters request.args) ∧
        g.decodeInvocation invocation.data (some invocation.destination) false =
          .ok ⟨path.resource, ⟨request.method, reported request.args, {}⟩, f⟩) ∧
    ((¬ ∃ f ∈ contract.interface.functions,
        f.name = request.method ∧ f.inputs = parameters request.args) →
      g.decodeInvocation invocation.data (some invocation.destination) false =
        .error (.call (.noFunctionSelected
          (g.profile.selector (signature request.method request.args)).1))) := by
  obtain ⟨contract', destination, hcontract, hdestination, rfl⟩ := encodeDirect_eq_ok hinvocation
  obtain rfl := Option.some.inj (h.registered.symm.trans hcontract)
  exact ⟨h.decodeDirect_eq_sent_iff hdestination hsize, h.decodeDirect_of_shape hdestination hsize,
    h.decodeDirect_of_not_shape hdestination⟩

open ByProxy in
theorem decodeInvocation_encodeInvocation_direct_bare :
    ∃ f, (gateway (contractOf getter [])).decodeInvocation (directInvocation bareRequest).data
        (some Address.zero) false =
      .ok ⟨"c", ⟨"f", none, {}⟩, f⟩ := by
  have hsent : (gateway (contractOf getter [])).encodeInvocation directPath bareRequest false false
      "" = .ok (directInvocation bareRequest) := rfl
  have hback := (decodeInvocation_encodeInvocation_direct standsAlone_getter hsent length_bare).1
  exact hback.mpr ⟨rfl, getter, List.mem_singleton_self getter, rfl, rfl⟩

open ByProxy in
/-- A text is sent as a list of texts, and no function of the contract takes that. -/
theorem decodeInvocation_encodeInvocation_direct_text :
    (gateway (contractOf setter [textEntry])).encodeInvocation directPath textRequest false false "" =
        .ok (directInvocation textRequest) ∧
      (∃ f ∈ (contractOf setter [textEntry]).interface.functions, f.name = textRequest.method) ∧
      (gateway (contractOf setter [textEntry])).decodeInvocation (directInvocation textRequest).data
          (some (directInvocation textRequest).destination) false =
        .error (.call (.noFunctionSelected
          (CryptoKind.gm.profile.selector (listSignature "f")).1)) := by
  have hnone : ¬ ∃ f ∈ (contractOf setter [textEntry]).interface.functions,
      f.name = textRequest.method ∧ f.inputs = parameters textRequest.args := by
    rintro ⟨f, hf, -, hinputs⟩
    rw [List.mem_singleton.mp hf] at hinputs
    have htypeText : "string" = "string[]" :=
      congrArg Parameter.typeText (List.cons.inj hinputs).1
    exact absurd htypeText (by decide)
  have haddress : (contractOf setter [textEntry]).address? = some Address.zero := rfl
  have hread := standsAlone_setter.decodeDirect_of_not_shape haddress hnone
  exact ⟨rfl, ⟨setter, List.mem_singleton_self setter, rfl⟩, hread⟩

end Gateway

end LedgerGateway

import LedgerGateway.Proofs.Gateway.Invocations

/-!
# The function behind a call of the proxy

A call of the proxy names a function by its signature or by the selector of its call data, and the
arguments are read as those of the first function of that. What was found is then looked for once
more, by its name and the number of arguments, so that the output is read as that of another function
where one of the same name with as many parameters stands in front of it.
-/

namespace LedgerGateway

open Abi

/-- The call is for the function: it says its signature, or the selector of that. -/
def ProxyCall.names (p : CryptoProfile) (c : ProxyCall) (f : Function) : Bool :=
  match c with
  | .sendTransaction _ _ _ _ signature _ | .constantCall _ _ signature _ => f.signature == signature
  | .sendTransactionWithoutXa _ _ payload | .constantCallWithoutXa _ payload =>
    p.isCallOf f.signature payload

/-! ## How many arguments are read -/

theorem Abi.Ty.length_of_decodeEach {frame : Frame} {ts : List Ty} {rest rest' : Bytes}
    {vs : List Value} (h : decodeEach frame ts rest = .ok (vs, rest')) : vs.length = ts.length := by
  induction ts generalizing rest vs with
  | nil =>
    cases h
    rfl
  | cons t ts ih =>
    rw [decodeEach] at h
    obtain ⟨⟨v, left⟩, -, h⟩ := except_bind_eq_ok.mp h
    obtain ⟨⟨others, left'⟩, hothers, h⟩ := except_bind_eq_ok.mp h
    cases h
    simp [ih hothers]

theorem Abi.Ty.length_of_decodeAll {ts : List Ty} (hfilled : areFilled ts = true) {data : Bytes}
    {vs : List Value} (h : decodeAll ts data = .ok vs) : vs.length = ts.length := by
  obtain ⟨rest, heach⟩ := decodeEach_of_decodeAll hfilled h
  exact length_of_decodeEach heach

theorem Arguments.length_of_decode {ps : List Parameter} {ts : List Ty}
    (hts : Parameter.types? ps = some ts) (hfilled : Ty.areFilled ts = true) {data : Bytes}
    {texts : List String} (h : decode ps data = .ok texts) : texts.length = ps.length := by
  unfold decode at h
  obtain ⟨ts', hts', h⟩ := except_bind_eq_ok.mp h
  obtain rfl := Option.some.inj (hts.symm.trans (types_eq_ok.mp hts'))
  split at h
  · rename_i vs hvs
    cases h
    rw [Value.renderAll_eq_map, List.length_map, Ty.length_of_decodeAll hfilled hvs,
      Parameter.length_of_types? hts]
  · cases h

/-! ## The first lookup -/

namespace UnwrappedCall

/-- The arguments were read as those of a function; one that takes nothing has none. -/
def Told (f : Function) (arguments : Option (List String)) : Prop :=
  f.inputs = [] ∧ arguments = none ∨
    ∃ data texts, Arguments.decode f.inputs data = .ok texts ∧ arguments = some texts

/-- As many arguments are told as the function takes. -/
theorem Told.length {f : Function} {arguments : Option (List String)} (h : Told f arguments)
    {ts : List Ty} (hts : Parameter.types? f.inputs = some ts) (hfilled : Ty.areFilled ts = true) :
    (arguments.map List.length).getD 0 = f.inputs.length := by
  rcases h with ⟨hinputs, rfl⟩ | ⟨data, texts, htexts, rfl⟩
  · rw [hinputs]
    rfl
  · exact Arguments.length_of_decode hts hfilled htexts

variable {p : CryptoProfile} {i : Interface} {f : Function} {arguments : Option (List String)}

theorem find?_of_functionSigned {signature : String} (h : i.functionSigned signature = .ok f) :
    i.functions.find? (·.signature == signature) = some f := by
  unfold Interface.functionSigned at h
  split at h
  · rename_i hfound
    cases h
    exact hfound
  · cases h

theorem find?_of_functionOfCall {payload : Bytes} (h : i.functionOfCall p payload = .ok f) :
    i.functions.find? (p.isCallOf ·.signature payload) = some f := by
  unfold Interface.functionOfCall at h
  split at h
  · cases h
  · split at h
    · rename_i hfound
      cases h
      exact hfound
    · cases h

theorem told_of_decodeCall {payload : Bytes} (h : f.decodeCall p payload = .ok arguments) :
    Told f arguments := by
  unfold Function.decodeCall at h
  split at h
  · cases h
  · split at h
    · rename_i hempty
      cases h
      exact .inl ⟨List.isEmpty_iff.mp hempty, rfl⟩
    · obtain ⟨texts, htexts, rfl⟩ := map_eq_ok.mp h
      exact .inr ⟨_, texts, htexts, rfl⟩

theorem told_of_signed {signature : String} {data : Bytes}
    (h : (do
      let g ← i.functionSigned signature
      if g.inputs.isEmpty then pure (g, none)
      else do pure (g, some (← Arguments.decode g.inputs data))) =
        (.ok (f, arguments) : Except CallError (Function × Option (List String)))) :
    i.functions.find? (·.signature == signature) = some f ∧ Told f arguments := by
  obtain ⟨g, hg, h⟩ := except_bind_eq_ok.mp h
  have hfound := find?_of_functionSigned hg
  split at h
  · rename_i hempty
    cases h
    exact ⟨hfound, .inl ⟨List.isEmpty_iff.mp hempty, rfl⟩⟩
  · obtain ⟨texts, htexts, h⟩ := except_bind_eq_ok.mp h
    cases h
    exact ⟨hfound, .inr ⟨data, texts, htexts, rfl⟩⟩

theorem told_of_selected {payload : Bytes}
    (h : (do
      let g ← i.functionOfCall p payload
      pure (g, ← g.decodeCall p payload)) =
        (.ok (f, arguments) : Except CallError (Function × Option (List String)))) :
    i.functions.find? (p.isCallOf ·.signature payload) = some f ∧ Told f arguments := by
  obtain ⟨g, hg, h⟩ := except_bind_eq_ok.mp h
  obtain ⟨told, htold, h⟩ := except_bind_eq_ok.mp h
  cases h
  exact ⟨find?_of_functionOfCall hg, told_of_decodeCall htold⟩

/-- The arguments are those of the first function that the call names. -/
theorem inner_eq_ok {c : ProxyCall} (h : inner p i c = .ok (f, arguments)) :
    i.functions.find? (c.names p) = some f ∧ Told f arguments := by
  cases c with
  | sendTransaction | constantCall => exact told_of_signed h
  | sendTransactionWithoutXa | constantCallWithoutXa => exact told_of_selected h

end UnwrappedCall

/-! ## The second lookup -/

/-- The functions have one name and as many parameters. -/
def Abi.Function.isAlike (f g : Function) : Bool :=
  g.name == f.name && g.inputs.length == f.inputs.length

/-- Of a name and a number of parameters the first function is found, which stands in front of any
other one. -/
theorem Abi.Interface.functionNamed_of_append {i : Interface} {before after : List Function}
    {f : Function} (h : i.functions = before ++ f :: after) :
    i.functionNamed f.name f.inputs.length = .ok ((before.find? f.isAlike).getD f) := by
  have hfound : (i.overloads f.name).find? (·.inputs.length == f.inputs.length) =
      some ((before.find? f.isAlike).getD f) := by
    have hself : f.isAlike f = true := by simp [Function.isAlike]
    have hboth : (i.overloads f.name).find? (·.inputs.length == f.inputs.length) =
        i.functions.find? f.isAlike := by
      rw [overloads, List.find?_filter]
      congr 1
      funext g
      rw [Bool.decide_and, Bool.decide_eq_true, Bool.decide_eq_true, Function.isAlike]
    rw [hboth, h, List.find?_append, List.find?_cons_of_pos hself]
    cases before.find? f.isAlike <;> rfl
  unfold functionNamed
  split
  · rename_i hnone
    rw [hnone] at hfound
    cases hfound
  · rename_i hoverloads
    rw [hoverloads] at hfound
    rw [hfound, Option.getD_some]

namespace Gateway

variable {g : Gateway} {input : Bytes} {destination : Option Address} {r : RecoveredRequest}

/-- The function in front of the one that was called is not the one that was called. -/
theorem names_getD_find? {c : ProxyCall} {p : CryptoProfile} {before : List Function}
    {called : Function} (hcalled : c.names p called = true)
    (hbefore : ∀ f ∈ before, c.names p f = false) :
    c.names p ((before.find? called.isAlike).getD called) = true ↔
      ∀ f ∈ before, f.name = called.name → f.inputs.length ≠ called.inputs.length := by
  cases hfind : before.find? called.isAlike with
  | none =>
    refine iff_of_true hcalled fun f hf hname hlength => ?_
    refine List.find?_eq_none.mp hfind f hf ?_
    rw [Function.isAlike, hname, hlength, beq_self_eq_true, beq_self_eq_true, Bool.and_self]
  | some f =>
    have hmem := List.mem_of_find?_eq_some hfind
    have halike := List.find?_some hfind
    rw [Function.isAlike, Bool.and_eq_true, beq_iff_eq, beq_iff_eq] at halike
    refine iff_of_false ?_ fun hall => hall f hmem halike.1 halike.2
    rw [Option.getD_some, hbefore f hmem]
    exact Bool.false_ne_true

theorem decodeProxied_of_inner {c : ProxyCall} {contract : Contract} {called f : Function}
    {arguments : Option (List String)} (hcall : ProxyCall.decode g.profile input = .ok c)
    (hcontract : g.contract (lastSegment c.target) = .ok contract)
    (hinner : UnwrappedCall.inner g.profile contract.interface c = .ok (called, arguments))
    (hf : contract.interface.functionNamed called.name ((arguments.map List.length).getD 0) =
      .ok f) :
    g.decodeProxied input =
      .ok ⟨lastSegment c.target, ⟨called.name, arguments, TransactionOptions.ofXa c.xa?⟩, f⟩ := by
  rw [decodeProxied_of_decode hcall hcontract, UnwrappedCall.ofCall_of_decode hcall, hinner]
  simp only [Except.map, mapError_ok, bind, Except.bind, hf]
  rfl

theorem decodeProxied_eq_ok (h : g.decodeProxied input = .ok r) :
    ∃ (c : ProxyCall) (contract : Contract) (called : Function) (arguments : Option (List String)),
      ProxyCall.decode g.profile input = .ok c ∧ g.contract (lastSegment c.target) = .ok contract ∧
      UnwrappedCall.inner g.profile contract.interface c = .ok (called, arguments) ∧
      contract.interface.functionNamed called.name ((arguments.map List.length).getD 0) =
        .ok r.function ∧
      r.resource = lastSegment c.target ∧
      r.request = ⟨called.name, arguments, TransactionOptions.ofXa c.xa?⟩ := by
  have hpeel := h
  obtain ⟨c, hc, hpeel⟩ := except_bind_eq_ok.mp hpeel
  obtain ⟨contract, hcontract, -⟩ := except_bind_eq_ok.mp hpeel
  have hcall := mapError_eq_ok.mp hc
  rw [decodeProxied_of_decode hcall hcontract] at h
  obtain ⟨unwrapped, hunwrapped, h⟩ := except_bind_eq_ok.mp h
  obtain ⟨f, hf, h⟩ := except_bind_eq_ok.mp h
  cases h
  have htold := mapError_eq_ok.mp hunwrapped
  rw [UnwrappedCall.ofCall_of_decode hcall] at htold
  obtain ⟨⟨called, arguments⟩, hinner, rfl⟩ := map_eq_ok.mp htold
  exact ⟨c, contract, called, arguments, hcall, hcontract, hinner, mapError_eq_ok.mp hf, rfl, rfl⟩

/-- The function that is returned has the name of the one that was called, whose arguments are told.
It is the one that was called exactly if no function of that name with as many parameters stands in
front of it. -/
theorem decodeInvocation_byProxy_function
    (h : g.decodeInvocation input destination true = .ok r) :
    ∃ (c : ProxyCall) (contract : Contract) (before : List Function) (called : Function)
      (after : List Function),
      ProxyCall.decode g.profile input = .ok c ∧ g.contract r.resource = .ok contract ∧
      contract.interface.functions = before ++ called :: after ∧
      c.names g.profile called = true ∧ (∀ f ∈ before, c.names g.profile f = false) ∧
      r.request.method = called.name ∧ UnwrappedCall.Told called r.request.args ∧
      contract.interface.functionNamed called.name ((r.request.args.map List.length).getD 0) =
        .ok r.function ∧
      ∀ ts, Parameter.types? called.inputs = some ts → Ty.areFilled ts = true →
        r.function = (before.find? called.isAlike).getD called ∧
        (c.names g.profile r.function = true ↔
          ∀ f ∈ before, f.name = called.name → f.inputs.length ≠ called.inputs.length) := by
  obtain ⟨c, contract, called, arguments, hcall, hcontract, hinner, hfunction, hresource, hrequest⟩ :=
    decodeProxied_eq_ok h
  obtain ⟨hfound, htold⟩ := UnwrappedCall.inner_eq_ok hinner
  obtain ⟨hnames, before, after, hfunctions, hbefore⟩ := List.find?_eq_some_iff_append.mp hfound
  have hbefore : ∀ f ∈ before, c.names g.profile f = false := by simpa using hbefore
  refine ⟨c, contract, before, called, after, hcall, hresource ▸ hcontract, hfunctions, hnames,
    hbefore, by rw [hrequest], by rw [hrequest]; exact htold, by rw [hrequest]; exact hfunction, ?_⟩
  intro ts hts hfilled
  have hsecond : r.function = (before.find? called.isAlike).getD called := by
    rw [htold.length hts hfilled, Interface.functionNamed_of_append hfunctions] at hfunction
    exact (Except.ok.inj hfunction).symm
  exact ⟨hsecond, hsecond ▸ names_getD_find? hnames hbefore⟩

/-! ## A contract with two functions of one name

Each takes a value and returns one like it, and they differ in its type. -/

namespace Overloaded

def echo (typeText : String) : Function := ⟨"f", [⟨typeText, []⟩], [⟨typeText, []⟩]⟩

def echoEntry (typeText : String) : Json :=
  .object [("type", .text "function"), ("name", .text "f"),
    ("inputs", .array [.object [("type", .text typeText)]]),
    ("outputs", .array [.object [("type", .text typeText)]])]

def contract (typeTexts : List String) : Contract :=
  ⟨"Hello", some Address.zero, { functions := typeTexts.map echo },
    (Json.array (typeTexts.map echoEntry)).render⟩

def textFirst : Contract := contract ["string", "uint256"]

def textSecond : Contract := contract ["uint256", "string"]

theorem read_textFirst : Interface.read textFirst.interfaceText = .ok textFirst.interface :=
  Interface.read_render rfl rfl

theorem read_textSecond : Interface.read textSecond.interfaceText = .ok textSecond.interface :=
  Interface.read_render rfl rfl

/-- A call of the function that takes a text. -/
def echoCall : ProxyCall :=
  .constantCall "xa" "a.b.Hello" (echo "string").signature (Value.encodeAll [.string "hello"])

theorem length_echoCall : (echoCall.encode CryptoKind.gm.profile).length < UInt64.size := by
  rw [ProxyCall.encode, CryptoProfile.length_callData]
  decide +kernel

def echoInput : Bytes := echoCall.encode CryptoKind.gm.profile

/-- What the proxy puts around the text that was returned. -/
def echoOutput : Bytes := ProxyOutput.encode (Value.encodeAll [.string "hello"])

def told (f : Function) : RecoveredRequest :=
  ⟨"Hello", ⟨"f", some ["hello"], ⟨some "xa", some 0⟩⟩, f⟩

theorem decode_echoInput : ProxyCall.decode CryptoKind.gm.profile echoInput = .ok echoCall :=
  ProxyCall.decode_encode ProxyMethod.injective_selector_gm length_echoCall

/-- Of both contracts the function that was called is found, and the one of its name and number of
parameters that stands first is returned. -/
theorem decodeInvocation_overloaded {typeTexts : List String} {f : Function}
    (hinner : UnwrappedCall.inner CryptoKind.gm.profile (contract typeTexts).interface echoCall =
      .ok (echo "string", some ["hello"]))
    (hf : (contract typeTexts).interface.functionNamed "f" 1 = .ok f) :
    (ByProxy.gateway (contract typeTexts)).decodeInvocation echoInput (some Address.zero) true =
      .ok (told f) := by
  have hname : lastSegment echoCall.target = "Hello" :=
    (lastSegment_of_parse OfTuple.parse_helloPath).1
  have hcontract : (ByProxy.gateway (contract typeTexts)).contract (lastSegment echoCall.target) =
      .ok (contract typeTexts) := by
    rw [hname]
    exact ByProxy.contract_gateway (contract typeTexts)
  have htold := decodeProxied_of_inner (g := ByProxy.gateway (contract typeTexts))
    decode_echoInput hcontract hinner hf
  rw [hname] at htold
  exact htold

theorem decodeInvocation_textFirst :
    (ByProxy.gateway textFirst).decodeInvocation echoInput (some Address.zero) true =
      .ok (told (echo "string")) :=
  decodeInvocation_overloaded rfl rfl

theorem decodeInvocation_textSecond :
    (ByProxy.gateway textSecond).decodeInvocation echoInput (some Address.zero) true =
      .ok (told (echo "uint256")) :=
  decodeInvocation_overloaded rfl rfl

end Overloaded

open Overloaded in
theorem decodeInvocation_byProxy_function_textFirst :
    ∃ r, (ByProxy.gateway textFirst).decodeInvocation echoInput (some Address.zero) true = .ok r ∧
      echoCall.names CryptoKind.gm.profile r.function = true := by
  refine ⟨_, decodeInvocation_textFirst, ?_⟩
  obtain ⟨c, found, before, called, after, hcall, hcontract, hfunctions, hnames, hbefore, -, -, -,
    hreturned⟩ := decodeInvocation_byProxy_function decodeInvocation_textFirst
  obtain rfl := Except.ok.inj (decode_echoInput.symm.trans hcall)
  obtain rfl := Except.ok.inj ((ByProxy.contract_gateway textFirst).symm.trans hcontract)
  cases before with
  | nil =>
    obtain rfl : echo "string" = called := (List.cons.inj hfunctions).1
    exact (hreturned [.string] rfl rfl).2.mpr (by simp)
  | cons first before =>
    obtain rfl : echo "string" = first := (List.cons.inj hfunctions).1
    cases hbefore (echo "string") List.mem_cons_self

open Overloaded in
/-- The call is for the function that takes a text. Its argument is read as a text, and its output is
read as a number. -/
theorem decodeInvocation_byProxy_otherFunction :
    ∃ r, (ByProxy.gateway textSecond).decodeInvocation echoInput (some Address.zero) true = .ok r ∧
      ProxyCall.decode CryptoKind.gm.profile echoInput = .ok echoCall ∧
      echoCall.names CryptoKind.gm.profile r.function = false ∧
      decodeOutput (some (echo "string")) true echoOutput = .ok ["hello"] ∧
      decodeOutput (some r.function) true echoOutput = .ok ["32"] := by
  have hinner : ProxyOutput.decode echoOutput = .ok (Value.encodeAll [.string "hello"]) :=
    ProxyOutput.decode_encode (by decide +kernel)
  refine ⟨_, decodeInvocation_textSecond, decode_echoInput, rfl, ?_, ?_⟩
  · rw [decodeOutput]
    simp only [if_true, hinner, bind, Except.bind]
    rfl
  · rw [decodeOutput]
    simp only [if_true, hinner, bind, Except.bind]
    rfl

end Gateway

end LedgerGateway

import LedgerGateway.Proofs.Abi.Interface
import LedgerGateway.Proofs.Call.Arguments
import LedgerGateway.Proofs.Call.Proxy

/-!
# What the proxy forwards is told by the interface

A call through the proxy names a function by its signature, or by the selector of its call data, and
the interface answers with the first function of that. Other functions of one signature stand in for
each other as long as their types are known, since signatures tell types.
-/

namespace LedgerGateway

open Abi

/-! ## Wrapped calls -/

/-- The call forwards a function with encoded arguments: beside the signature within a distributed
transaction, and behind the selector outside of one. -/
def ProxyCall.Forwards (p : CryptoProfile) (f : Function) (arguments : List String) :
    ProxyCall → Prop
  | .sendTransaction _ _ _ _ signature body | .constantCall _ _ signature body =>
    signature = f.signature ∧ Arguments.encode f.inputs arguments = .ok body
  | .sendTransactionWithoutXa _ _ payload | .constantCallWithoutXa _ payload =>
    f.encodeCall p arguments = .ok payload

theorem Arguments.encode_of_values {ps : List Parameter} {arguments : List String} {vs : List Value}
    (h : values ps arguments = .ok vs) : encode ps arguments = .ok (Value.encodeAll vs) := by
  rw [encode, h]
  rfl

theorem Abi.Function.encodeCall_of_values {p : CryptoProfile} {f : Function}
    {arguments : List String} {vs : List Value} (h : Arguments.values f.inputs arguments = .ok vs) :
    f.encodeCall p arguments = .ok (p.callData f.signature (Value.encodeAll vs)) := by
  rw [encodeCall, Arguments.encode_of_values h]
  rfl

theorem ProxyCall.Forwards.exists_values {p : CryptoProfile} {f : Function}
    {arguments : List String} {c : ProxyCall} (h : c.Forwards p f arguments) :
    ∃ vs, Arguments.values f.inputs arguments = .ok vs := by
  have hencoded : ∃ body, Arguments.encode f.inputs arguments = .ok body := by
    cases c with
    | sendTransaction uid id seq path signature body => exact ⟨body, h.2⟩
    | constantCall id path signature body => exact ⟨body, h.2⟩
    | sendTransactionWithoutXa uid name payload =>
      obtain ⟨body, hbody, -⟩ := map_eq_ok.mp h
      exact ⟨body, hbody⟩
    | constantCallWithoutXa name payload =>
      obtain ⟨body, hbody, -⟩ := map_eq_ok.mp h
      exact ⟨body, hbody⟩
  obtain ⟨body, hbody⟩ := hencoded
  obtain ⟨vs, hvalues, -⟩ := map_eq_ok.mp hbody
  exact ⟨vs, hvalues⟩

theorem Abi.length_encode_le_of_mem {v : Value} {vs : List Value} (h : v ∈ vs) :
    v.encode.length ≤ (Value.encodeAll vs).length := by
  induction vs with
  | nil => cases h
  | cons w vs ih =>
    have hcons := length_layOut_parts_cons w vs
    simp only [Value.encodeAll] at ih ⊢
    rcases List.mem_cons.mp h with rfl | hmem
    · omega
    · have hrest := ih hmem
      omega

theorem Abi.length_le_encode_bytes (b : Bytes) : b.length ≤ (Value.bytes b).encode.length := by
  simp [Value.encode, encodeBytes, padToWords, Bytes.padRight]
  omega

/-- The bytes that are forwarded are a part of the call data. -/
theorem ProxyCall.length_le_encode (p : CryptoProfile) (c : ProxyCall) (b : Bytes)
    (h : .bytes b ∈ c.values) : b.length ≤ (c.encode p).length := by
  have hbytes := length_le_encode_bytes b
  have hvalues := length_encode_le_of_mem h
  rw [encode, CryptoProfile.length_callData]
  omega

theorem ProxyOutput.length_le_encode (output : Bytes) :
    output.length ≤ (encode output).length :=
  (length_le_encode_bytes output).trans (length_encode_le_of_mem (List.mem_singleton_self _))

theorem ProxyCall.Forwards.length_le {p : CryptoProfile} {f : Function} {arguments : List String}
    {vs : List Value} (hvalues : Arguments.values f.inputs arguments = .ok vs) {c : ProxyCall}
    (h : c.Forwards p f arguments) : (Value.encodeAll vs).length ≤ (c.encode p).length := by
  have hcallData := p.length_callData f.signature (Value.encodeAll vs)
  cases c with
  | sendTransaction uid id seq path signature body =>
    obtain rfl := Except.ok.inj ((Arguments.encode_of_values hvalues).symm.trans h.2)
    exact length_le_encode p _ _ (by simp [values])
  | constantCall id path signature body =>
    obtain rfl := Except.ok.inj ((Arguments.encode_of_values hvalues).symm.trans h.2)
    exact length_le_encode p _ _ (by simp [values])
  | sendTransactionWithoutXa uid name payload =>
    have hpayload := length_le_encode p (.sendTransactionWithoutXa uid name payload) payload
      (by simp [values])
    obtain rfl := Except.ok.inj ((Function.encodeCall_of_values hvalues).symm.trans h)
    omega
  | constantCallWithoutXa name payload =>
    have hpayload := length_le_encode p (.constantCallWithoutXa name payload) payload
      (by simp [values])
    obtain rfl := Except.ok.inj ((Function.encodeCall_of_values hvalues).symm.trans h)
    omega

/-! ## Lookup -/

namespace Abi.Interface

variable {p : CryptoProfile} {i : Interface} {f : Function}

theorem functionSigned_signature (hf : f ∈ i.functions) :
    ∃ g ∈ i.functions, g.signature = f.signature ∧ i.functionSigned f.signature = .ok g := by
  obtain ⟨g, hg⟩ : ∃ g, i.functions.find? (·.signature == f.signature) = some g := by
    rw [← Option.isSome_iff_exists, List.find?_isSome]
    exact ⟨f, hf, by simp⟩
  refine ⟨g, List.mem_of_find?_eq_some hg, by simpa using List.find?_some hg, ?_⟩
  rw [functionSigned, hg]

theorem functionOfCall_callData (hf : f ∈ i.functions) (body : Bytes) :
    ∃ g ∈ i.functions, p.selector g.signature = p.selector f.signature ∧
      i.functionOfCall p (p.callData f.signature body) = .ok g := by
  have hlength := p.length_callData f.signature body
  obtain ⟨g, hg⟩ : ∃ g, i.functions.find? (p.isCallOf ·.signature (p.callData f.signature body)) =
      some g := by
    rw [← Option.isSome_iff_exists, List.find?_isSome]
    exact ⟨f, hf, by simp [CryptoProfile.isCallOf_callData]⟩
  have hselector := List.find?_some hg
  simp only [CryptoProfile.isCallOf_callData, decide_eq_true_eq] at hselector
  refine ⟨g, List.mem_of_find?_eq_some hg, hselector.symm, ?_⟩
  rw [functionOfCall, if_neg (by omega), hg]

theorem mem_of_functionNamed {i : Interface} {name : String} {count : Nat} {f : Function}
    (h : i.functionNamed name count = .ok f) : f ∈ i.functions ∧ f.name = name := by
  have hmem : f ∈ i.overloads name := by
    unfold functionNamed at h
    split at h
    · cases h
    · rename_i first rest hoverloads
      cases h
      rw [hoverloads]
      cases hfound : (first :: rest).find? (·.inputs.length == count) with
      | none => exact List.mem_cons_self
      | some f => exact List.mem_of_find?_eq_some hfound
  rw [overloads, List.mem_filter] at hmem
  exact ⟨hmem.1, by simpa using hmem.2⟩

end Abi.Interface

/-! ## Unwrapping -/

/-- Two functions have one name and take the same known types. -/
structure Abi.Function.StandsFor (g f : Function) (ts : List Ty) : Prop where
  name : g.name = f.name
  types : Parameter.types? g.inputs = some ts
  known : Parameter.types? f.inputs = some ts

theorem Abi.Function.StandsFor.isEmpty_inputs {g f : Function} {ts : List Ty}
    (h : g.StandsFor f ts) : g.inputs.isEmpty = f.inputs.isEmpty := by
  have hg := Parameter.length_of_types? h.types
  have hf := Parameter.length_of_types? h.known
  rw [Bool.eq_iff_iff, List.isEmpty_iff_length_eq_zero, List.isEmpty_iff_length_eq_zero]
  omega

namespace UnwrappedCall

variable {p : CryptoProfile} {i : Interface} {f : Function} {ts : List Ty} {vs : List Value}

/-- What is told of the call that was decoded. -/
theorem ofCall_of_decode {data : Bytes} {c : ProxyCall} (h : ProxyCall.decode p data = .ok c) :
    ofCall p (some i) data =
      (inner p i c).map fun (g, arguments) => ⟨c.target, g.name, arguments⟩ := by
  rw [ofCall]
  simp only [bind, Except.bind, h]
  cases inner p i c <;> rfl

/-- The arguments that are reported for a function. -/
def reported (f : Function) (vs : List Value) : Option (List String) :=
  if f.inputs.isEmpty then none else some (Value.renderAll vs)

theorem reported_of_standsFor {g : Function} (h : g.StandsFor f ts) :
    reported g vs = reported f vs := by
  rw [reported, reported, h.isEmpty_inputs]

section Inner

variable (hf : f ∈ i.functions)
  (hstands : ∀ g ∈ i.functions, g.signature = f.signature → g.StandsFor f ts)
  (hdecode : ∀ g : Function, g.StandsFor f ts →
    Arguments.decode g.inputs (Value.encodeAll vs) = .ok (Value.renderAll vs))

include hf hstands hdecode

/-- Within a distributed transaction the function is found by its signature. -/
theorem inner_signed : ∃ g : Function, g.name = f.name ∧ (do
    let g ← i.functionSigned f.signature
    if g.inputs.isEmpty then pure (g, none)
    else do pure (g, some (← Arguments.decode g.inputs (Value.encodeAll vs)))) =
      (.ok (g, reported f vs) : Except CallError (Function × Option (List String))) := by
  obtain ⟨g, hg, hsignature, hfound⟩ := Interface.functionSigned_signature hf
  have hstand := hstands g hg hsignature
  refine ⟨g, hstand.name, ?_⟩
  rw [hfound, ← reported_of_standsFor hstand, reported]
  simp only [bind, Except.bind, hdecode g hstand]
  split <;> rfl

/-- Outside of one it is found by the selector of its call data, if no other signature has that. -/
theorem inner_selected (hselector : ∀ g ∈ i.functions,
    p.selector g.signature = p.selector f.signature → g.signature = f.signature) :
    ∃ g : Function, g.name = f.name ∧ (do
      let g ← i.functionOfCall p (p.callData f.signature (Value.encodeAll vs))
      pure (g, ← g.decodeCall p (p.callData f.signature (Value.encodeAll vs)))) =
        (.ok (g, reported f vs) : Except CallError (Function × Option (List String))) := by
  obtain ⟨g, hg, hsame, hfound⟩ := Interface.functionOfCall_callData (p := p) hf
    (Value.encodeAll vs)
  have hstand := hstands g hg (hselector g hg hsame)
  have hlength := p.length_callData f.signature (Value.encodeAll vs)
  have hshort : decide ((p.callData f.signature (Value.encodeAll vs)).length < selectorLength) =
      false := decide_eq_false (by omega)
  have hcall : g.decodeCall p (p.callData f.signature (Value.encodeAll vs)) =
      .ok (reported g vs) := by
    rw [Function.decodeCall, CryptoProfile.isCallOf_callData, hsame, hshort]
    simp only [decide_true, Bool.not_true, Bool.or_self, Bool.false_eq_true, if_false,
      CryptoProfile.drop_callData, hdecode g hstand, reported]
    split <;> rfl
  refine ⟨g, hstand.name, ?_⟩
  rw [hfound]
  simp only [bind, Except.bind, hcall, reported_of_standsFor hstand]
  rfl

end Inner

/-- A call of the proxy is told by the interface of the contract behind it: the function that was
forwarded comes back by its name, with the texts of the values that it was forwarded with. -/
theorem ofCall_of_forwards
    (hproxy : Function.Injective fun m : ProxyMethod => p.selector m.signature)
    (hf : f ∈ i.functions)
    (hstands : ∀ g ∈ i.functions, g.signature = f.signature → g.StandsFor f ts)
    {arguments : List String} (hts : Parameter.types? f.inputs = some ts)
    (hvalues : Arguments.values f.inputs arguments = .ok vs) (hfilled : Ty.areFilled ts = true)
    (hdepth : Value.deepest vs ≤ nestingLimit) {c : ProxyCall} (hforwards : c.Forwards p f arguments)
    (hsize : (c.encode p).length < UInt64.size)
    (hselector : c.xaTransactionId? = none → ∀ g ∈ i.functions,
      p.selector g.signature = p.selector f.signature → g.signature = f.signature) :
    ofCall p (some i) (c.encode p) = .ok ⟨c.target, f.name, reported f vs⟩ := by
  have hbody : (Value.encodeAll vs).length < UInt64.size :=
    Nat.lt_of_le_of_lt (hforwards.length_le hvalues) hsize
  have hdecode : ∀ g : Function, g.StandsFor f ts →
      Arguments.decode g.inputs (Value.encodeAll vs) = .ok (Value.renderAll vs) :=
    fun g hg => Arguments.decode_encodeAll hg.types (Arguments.forall₂_of_values hvalues hts) hfilled
      hdepth hbody
  -- Within a distributed transaction the signature is sent, and outside of one only the selector.
  have hinner : ∃ g : Function, g.name = f.name ∧ inner p i c = .ok (g, reported f vs) := by
    cases c with
    | sendTransaction uid id seq path signature body =>
      obtain rfl := Except.ok.inj ((Arguments.encode_of_values hvalues).symm.trans hforwards.2)
      obtain rfl := hforwards.1
      exact inner_signed hf hstands hdecode
    | constantCall id path signature body =>
      obtain rfl := Except.ok.inj ((Arguments.encode_of_values hvalues).symm.trans hforwards.2)
      obtain rfl := hforwards.1
      exact inner_signed hf hstands hdecode
    | sendTransactionWithoutXa uid name payload =>
      obtain rfl := Except.ok.inj ((Function.encodeCall_of_values hvalues).symm.trans hforwards)
      exact inner_selected hf hstands hdecode (hselector rfl)
    | constantCallWithoutXa name payload =>
      obtain rfl := Except.ok.inj ((Function.encodeCall_of_values hvalues).symm.trans hforwards)
      exact inner_selected hf hstands hdecode (hselector rfl)
  obtain ⟨g, hname, hinner⟩ := hinner
  rw [ofCall_of_decode (ProxyCall.decode_encode hproxy hsize), hinner, ← hname]
  rfl

/-- Of an interface that was read, functions of one signature stand in for each other if all their
types are known. -/
theorem standsFor_of_read {text : String} (hread : Interface.read text = .ok i)
    (hf : f ∈ i.functions) (hts : Parameter.types? f.inputs = some ts)
    (hknown : ∀ g ∈ i.functions, g.signature = f.signature →
      (Parameter.types? g.inputs).isSome = true) :
    ∀ g ∈ i.functions, g.signature = f.signature → g.StandsFor f ts := by
  intro g hg hsignature
  obtain ⟨us, hus⟩ := Option.isSome_iff_exists.mp (hknown g hg hsignature)
  have hchecked := Interface.isChecked_of_read hread
  obtain ⟨hname, rfl⟩ := Function.types_eq_of_signature (hchecked g hg) (hchecked f hf) hsignature
    hus hts
  exact ⟨hname, hus, hts⟩

/-! ## Functions that take texts -/

/-- Parameters that are written as texts are texts without parts. -/
theorem inputs_eq_replicate {text : String} (hread : Interface.read text = .ok i)
    (hf : f ∈ i.functions) (hstrings : ∀ p ∈ f.inputs, p.typeText = "string") :
    ∃ n, f.inputs = List.replicate n Arguments.textParameter := by
  have hchecked := Interface.isChecked_of_read hread f hf
  simp only [Function.isChecked, Bool.and_eq_true] at hchecked
  refine ⟨f.inputs.length, List.eq_replicate_iff.mpr ⟨rfl, ?_⟩⟩
  rintro ⟨typeText, components⟩ hp
  obtain rfl : typeText = "string" := hstrings _ hp
  have hparameter := Parameter.areChecked_iff.mp hchecked.2 _ hp
  cases components with
  | nil => rfl
  | cons part parts =>
    -- Only a tuple has parts.
    have hword : Parameter.tupleWord.isPrefixOf "string".toList = false := by decide
    rw [Parameter.isChecked, hword] at hparameter
    cases hparameter

/-- A function that takes texts stands for every function of its signature in an interface that was
read, whatever is known of the types of that one. -/
theorem standsFor_of_texts {text : String} (hread : Interface.read text = .ok i)
    (hf : f ∈ i.functions) {n : Nat}
    (hinputs : f.inputs = List.replicate n Arguments.textParameter) :
    ∀ h ∈ i.functions, h.signature = f.signature → h.StandsFor f (List.replicate n .string) := by
  intro h hh hsignature
  have hchecked := Interface.isChecked_of_read hread
  have hplain : ∀ p ∈ f.inputs, p.IsPlain := by
    intro p hp
    rw [hinputs] at hp
    obtain rfl := List.eq_of_mem_replicate hp
    exact ⟨rfl, by decide⟩
  obtain ⟨hname, hsame⟩ :=
    Function.inputs_eq_of_signature (hchecked f hf) (hchecked h hh) hsignature.symm hplain
  have htypes := Arguments.types?_texts n
  exact ⟨hname.symm, by rw [← hsame, hinputs, htypes], by rw [hinputs, htypes]⟩

/-- Texts that were wrapped for the proxy are unwrapped as they were, and a function that takes nothing
is reported without arguments. -/
theorem ofCall_texts {text : String} (hread : Interface.read text = .ok i) (hf : f ∈ i.functions)
    (hstrings : ∀ p ∈ f.inputs, p.typeText = "string")
    (hproxy : Function.Injective fun m : ProxyMethod => p.selector m.signature)
    {arguments : List String} {c : ProxyCall} (hforwards : c.Forwards p f arguments)
    (hsize : (c.encode p).length < UInt64.size)
    (hselector : ∀ g ∈ i.functions,
      p.selector g.signature = p.selector f.signature → g.signature = f.signature) :
    arguments.length = f.inputs.length ∧ ofCall p (some i) (c.encode p) =
      .ok ⟨c.target, f.name, if f.inputs.isEmpty then none else some arguments⟩ := by
  obtain ⟨n, hinputs⟩ := inputs_eq_replicate hread hf hstrings
  obtain ⟨vs, hvalues⟩ := hforwards.exists_values
  obtain ⟨hlength, hvs⟩ : arguments.length = n ∧ vs = arguments.map .string := by
    rw [hinputs] at hvalues
    exact Arguments.values_texts hvalues
  have hts : Parameter.types? f.inputs = some (List.replicate n .string) := by
    rw [hinputs, Arguments.types?_texts]
  have hdepth : Value.deepest vs ≤ nestingLimit := by
    have hdeepest := TextList.deepest_map_string arguments
    rw [hvs, nestingLimit]
    omega
  have hunwrapped := ofCall_of_forwards hproxy hf (standsFor_of_texts hread hf hinputs) hts hvalues
    (Arguments.areFilled_texts n) hdepth hforwards hsize fun _ => hselector
  refine ⟨by rw [hlength, hinputs, List.length_replicate], ?_⟩
  rw [hunwrapped, reported, hvs, Value.renderAll_texts]

/-! ## Two functions of one signature

The word for a tuple may be followed by anything, and a signature repeats what follows it. So a tuple of
a text and a text beside it are written like one tuple of a type that nobody knows. -/

namespace TwoOfOneSignature

/-- An entry for a function `f`. -/
def entry (inputs : List Json) : Json :=
  .object [("type", .text "function"), ("name", .text "f"), ("inputs", .array inputs),
    ("outputs", .array [])]

def textEntry : Json := .object [("type", .text "string")]

/-- A text in a tuple, under a type that starts with the word for one. -/
def tupleEntry (typeText : String) : Json :=
  .object [("type", .text typeText), ("components", .array [textEntry])]

/-- Takes a text in a tuple and a text. -/
def known : Function := ⟨"f", [⟨"tuple", [⟨"string", []⟩]⟩, ⟨"string", []⟩], []⟩

/-- Takes a text in a tuple of a type that nobody knows. -/
def unknown : Function := ⟨"f", [⟨"tuple,string", [⟨"string", []⟩]⟩], []⟩

theorem signature_unknown : unknown.signature = known.signature := by
  rw [← String.toList_inj, Function.toList_signature, Function.toList_signature]
  rfl

def knownJson : Json := .array [entry [tupleEntry "tuple", textEntry]]

/-- Lists the other function before it. -/
def bothJson : Json :=
  .array [entry [tupleEntry "tuple,string"], entry [tupleEntry "tuple", textEntry]]

theorem read_known : Interface.read knownJson.render = .ok { functions := [known] } :=
  Interface.read_render rfl rfl

theorem read_both : Interface.read bothJson.render = .ok { functions := [unknown, known] } :=
  Interface.read_render rfl rfl

def texts : List String := ["(\"a\")", "b"]

def textValues : List Value := [.tuple [.string "a"], .string "b"]

theorem types_known : Parameter.types? known.inputs = some [.tuple [.string], .string] := rfl

theorem values_known : Arguments.values known.inputs texts = .ok textValues := rfl

/-- A call that belongs to a distributed transaction. -/
def call : ProxyCall :=
  .constantCall "xa" "a.b.Hello" known.signature (Value.encodeAll textValues)

theorem forwards_call (p : CryptoProfile) : call.Forwards p known texts :=
  ⟨rfl, Arguments.encode_of_values values_known⟩

theorem length_call (p : CryptoProfile) : (call.encode p).length < UInt64.size := by
  rw [ProxyCall.encode, CryptoProfile.length_callData]
  decide +kernel

theorem decode_unknown (data : Bytes) :
    Arguments.decode unknown.inputs data = .error (.unsupportedType "tuple,string") := by
  have htypes : Arguments.types unknown.inputs = .error (.unsupportedType "tuple,string") := rfl
  rw [Arguments.decode, htypes]
  rfl

/-- The first function of the signature is asked, whatever is known of its types. -/
theorem inner_call (p : CryptoProfile) :
    inner p { functions := [unknown, known] } call = .error (.unsupportedType "tuple,string") := by
  have hfound : Interface.functionSigned { functions := [unknown, known] } known.signature =
      .ok unknown := by
    rw [Interface.functionSigned, List.find?_cons_of_pos (by simp [signature_unknown])]
  rw [call, inner, hfound]
  simp only [bind, Except.bind, decode_unknown]
  rfl

end TwoOfOneSignature

/-- What was wrapped for the proxy is unwrapped as the target, the name of the function and one text
for each argument, which is the argument itself where it is a text. Of the functions of the interface
all that have the signature must have known types, and outside of distributed transactions no other
signature may have the selector. -/
theorem ofCall_wrapped {text : String} (hread : Interface.read text = .ok i) (hf : f ∈ i.functions)
    (hknown : ∀ g ∈ i.functions, g.signature = f.signature →
      (Parameter.types? g.inputs).isSome = true)
    (hproxy : Function.Injective fun m : ProxyMethod => p.selector m.signature)
    {arguments : List String} (hts : Parameter.types? f.inputs = some ts)
    (hvalues : Arguments.values f.inputs arguments = .ok vs) (hfilled : Ty.areFilled ts = true)
    (hdepth : Value.deepest vs ≤ nestingLimit) {c : ProxyCall} (hforwards : c.Forwards p f arguments)
    (hsize : (c.encode p).length < UInt64.size)
    (hselector : c.xaTransactionId? = none → ∀ g ∈ i.functions,
      p.selector g.signature = p.selector f.signature → g.signature = f.signature) :
    ofCall p (some i) (c.encode p) =
        .ok ⟨c.target, f.name, if f.inputs.isEmpty then none else some (Value.renderAll vs)⟩ ∧
      (Value.renderAll vs).length = arguments.length ∧
      ∀ k : Nat, ts[k]? = some .string → (Value.renderAll vs)[k]? = arguments[k]? := by
  have hstands := standsFor_of_read hread hf hts hknown
  have hunwrapped := ofCall_of_forwards hproxy hf hstands hts hvalues hfilled hdepth hforwards hsize
    hselector
  exact ⟨hunwrapped, Arguments.renderAll_of_values hvalues hts⟩

open TwoOfOneSignature

/-- A function of a text in a tuple and a text, of which the first is reported as a list. -/
theorem ofCall_wrapped_tuple :
    ofCall CryptoKind.gm.profile (some { functions := [known] })
        (call.encode CryptoKind.gm.profile) =
      .ok ⟨"a.b.Hello", "f", some ["[\"a\"]", "b"]⟩ := by
  refine (ofCall_wrapped read_known List.mem_cons_self ?_ ProxyMethod.injective_selector_gm
    types_known values_known rfl (by decide) (forwards_call CryptoKind.gm.profile)
    (length_call CryptoKind.gm.profile) ?_).1
  · intro g hg _
    obtain rfl := List.mem_singleton.mp hg
    rfl
  · intro hnone
    cases hnone

/-- With another function of the signature in front, whose type nobody knows, the same call is
refused. -/
theorem ofCall_wrapped_unknownType :
    ∃ i : Interface, Interface.read bothJson.render = .ok i ∧ known ∈ i.functions ∧
      Function.Injective (fun m : ProxyMethod => CryptoKind.gm.profile.selector m.signature) ∧
      Parameter.types? known.inputs = some [.tuple [.string], .string] ∧
      Ty.areFilled [.tuple [.string], .string] = true ∧
      Arguments.values known.inputs texts = .ok textValues ∧
      Value.deepest textValues ≤ nestingLimit ∧
      call.Forwards CryptoKind.gm.profile known texts ∧
      (call.encode CryptoKind.gm.profile).length < UInt64.size ∧ call.xaTransactionId? = some "xa" ∧
      ofCall CryptoKind.gm.profile (some i) (call.encode CryptoKind.gm.profile) =
        .error (.unsupportedType "tuple,string") := by
  have hdecode := ProxyCall.decode_encode ProxyMethod.injective_selector_gm
    (length_call CryptoKind.gm.profile)
  refine ⟨_, read_both, by simp, ProxyMethod.injective_selector_gm, types_known, rfl, values_known,
    by decide, forwards_call _, length_call _, rfl, ?_⟩
  rw [ofCall_of_decode hdecode, inner_call]
  rfl

end UnwrappedCall

end LedgerGateway

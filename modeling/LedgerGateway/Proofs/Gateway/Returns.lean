import LedgerGateway.Proofs.Call.Proxy
import LedgerGateway.Proofs.Call.Unwrapping
import LedgerGateway.Proofs.Gateway.Calls
import LedgerGateway.Proofs.Gateway.Recovery

/-!
# What a call returns

The values that a function returns come back through four coats: their own encoding, the one that
the proxy puts around it, the hexadecimal text, and the record that the node answers with. A call
through the proxy reads them by the function that was selected, and a call of the contract itself as
a list of texts. There are three ways to return nothing, which are no outputs, no bytes and an empty
list, and none of them takes the place of another.
-/

namespace LedgerGateway

open Abi

/-! ## Outputs of functions -/

namespace Abi

variable {f : Function} {returned : List String} {ts : List Ty} {vs : List Value}

/-- What a function returns is read as the texts of the values, one for each output. -/
theorem Function.decodeOutput_encodeAll (hstand : Arguments.StandFor f.outputs returned ts vs)
    (hfilled : Ty.areFilled ts = true) (hdepth : Value.deepest vs ≤ nestingLimit)
    (hsize : (Value.encodeAll vs).length < UInt64.size) :
    f.decodeOutput (Value.encodeAll vs) = .ok (vs.map Value.render) := by
  have hts := Arguments.types_eq_ok.mp hstand.types
  have htypes := Arguments.forall₂_of_values hstand.values hts
  rw [decodeOutput]
  cases hnone : f.outputs.isEmpty with
  | true =>
    have hvs : vs = [] := by
      rw [← List.length_eq_zero_iff, hstand.values_length, List.length_eq_zero_iff,
        ← List.isEmpty_iff, hnone]
    rw [hvs]
    rfl
  | false =>
    have hne : ts ≠ [] := by
      rintro rfl
      have hlength := Parameter.length_of_types? hts
      rw [List.length_nil, eq_comm, List.length_eq_zero_iff, ← List.isEmpty_iff, hnone] at hlength
      cases hlength
    have hbytes := encodeAll_ne_nil htypes (Parameter.areProper_of_types? f.outputs hts) hfilled hne
    have hempty : (Value.encodeAll vs).isEmpty = false := by
      simpa [List.isEmpty_eq_false_iff] using hbytes
    rw [hempty, Bool.or_self, if_neg Bool.false_ne_true,
      Arguments.decode_encodeAll hts htypes hfilled hdepth hsize, Value.renderAll_eq_map]

end Abi

namespace Gateway

open Exchange

/-! ## Outputs in their coats -/

section

variable {f : Function} {returned : List String} {ts : List Ty} {vs : List Value}

theorem decodeOutput_encode (hstand : Arguments.StandFor f.outputs returned ts vs)
    (hfilled : Ty.areFilled ts = true) (hdepth : Value.deepest vs ≤ nestingLimit)
    (hsize : (ProxyOutput.encode (Value.encodeAll vs)).length < UInt64.size) :
    decodeOutput (some f) true (ProxyOutput.encode (Value.encodeAll vs)) =
      .ok (vs.map Value.render) := by
  have hinner := (ProxyOutput.length_le_encode (Value.encodeAll vs)).trans_lt hsize
  simp only [decodeOutput, if_true, bind, Except.bind, ProxyOutput.decode_encode hsize]
  exact Function.decodeOutput_encodeAll hstand hfilled hdepth hinner

theorem decodeOutput_texts {texts : List String}
    (hsize : (TextList.encode texts).length < UInt64.size) (wrapped : Bool) :
    decodeOutput none wrapped (TextList.encode texts) = .ok texts := by
  rw [decodeOutput, PlainCall.decodeOutput_encode hsize]
  rfl

/-- No bytes are no values, whatever was expected. -/
theorem decodeOutput_nil (function : Option Function) : decodeOutput function true [] = .ok [] := by
  cases function with
  | none => rfl
  | some f =>
    have hnothing : (f.outputs.isEmpty || ([] : Bytes).isEmpty) = true := Bool.or_true _
    show f.decodeOutput [] = .ok []
    rw [Function.decodeOutput, if_pos hnothing]

end

/-! ## Calls that succeed -/

variable {g : Gateway} {node : Node} {context : RequestContext} {request : TransactionRequest}
  {byProxy : Bool} {draws : Draws} {before : History} {account : Account} {invocation : Invocation}
  {answer : CallOutput}

/-- The call ends as a success with this result, at the height that the node has answered with. -/
def Returns (g : Gateway) (node : Node) (context : RequestContext) (request : TransactionRequest)
    (byProxy : Bool) (draws : Draws) (before : History) (account : Account)
    (invocation : Invocation) (answer : CallOutput) (result : List String) : Prop :=
  outcome (g.call node context request byProxy draws) before =
    (.ok { TransactionResponse.success result with blockNumber := answer.currentBlockNumber },
      before ++ [callQuestion account invocation])

theorem returns_of_decodeOutput {bytes : Bytes} {result : List String}
    (hcalled : Called g node context request byProxy draws before account invocation answer)
    (hstatus : answer.status = 0) (hread : readHex answer.output = .ok bytes)
    (hresult : decodeOutput invocation.function true bytes = .ok result) :
    Returns g node context request byProxy draws before account invocation answer result :=
  call_eq_ok.mpr ⟨account, invocation, answer, hcalled,
    settleCall_of_success hstatus hread hresult, rfl⟩

theorem function_of_encodeDirect {path : ResourcePath}
    (h : g.encodeDirect path request = .ok invocation) : invocation.function = none := by
  unfold encodeDirect at h
  split at h
  · cases h
  · cases h
    rfl

/-- Through the proxy goes the function that the request selects. -/
theorem function_of_encodeProxied {path : ResourcePath} {send : Bool} {uid : String}
    {contract : Contract} {f : Function} (hcontract : g.contract path.resource = .ok contract)
    (hf : contract.interface.functionNamed request.method (request.args.getD []).length = .ok f)
    (h : g.encodeProxied path request send uid = .ok invocation) :
    invocation.function = some f := by
  obtain ⟨_, contract', f', _, -, hcontract', hf', -, rfl⟩ := encodeProxied_eq_ok h
  obtain rfl := Except.ok.inj (hcontract.symm.trans hcontract')
  obtain rfl := Except.ok.inj (hf.symm.trans hf')
  rfl

/-- What a contract returns reaches the caller: through the proxy as the texts of the values, one
for each output of the selected function, and without it as the list of texts that it is. -/
theorem call_returns (g : Gateway) (node : Node) (context : RequestContext)
    (request : TransactionRequest) (draws : Draws) (before : History) (account : Account)
    (invocation : Invocation) (answer : CallOutput) :
    (∀ contract f returned data,
      Called g node context request true draws before account invocation answer →
      g.contract context.path.resource = .ok contract →
      contract.interface.functionNamed request.method (request.args.getD []).length = .ok f →
      Arguments.encode f.outputs returned = .ok data →
      answer.status = 0 → answer.output = Hex.encode (ProxyOutput.encode data) →
      ∃ ts vs, Arguments.StandFor f.outputs returned ts vs ∧
        (Ty.areFilled ts = true → Value.deepest vs ≤ nestingLimit →
          (ProxyOutput.encode data).length < UInt64.size →
          Returns g node context request true draws before account invocation answer
            (vs.map Value.render))) ∧
    (∀ texts, Called g node context request false draws before account invocation answer →
      answer.status = 0 → readHex answer.output = .ok (TextList.encode texts) →
      (TextList.encode texts).length < UInt64.size →
      Returns g node context request false draws before account invocation answer texts) ∧
    ∀ byProxy, Called g node context request byProxy draws before account invocation answer →
      answer.status = 0 → readHex answer.output = .ok [] →
      Returns g node context request byProxy draws before account invocation answer [] := by
  refine ⟨?proxied, ?direct, ?empty⟩
  case proxied =>
    intro contract f returned data hcalled hcontract hf hdata hstatus houtput
    obtain ⟨vs, hvalues, rfl⟩ := map_eq_ok.mp hdata
    obtain ⟨ts, hstand⟩ := Arguments.standFor_of_values hvalues
    refine ⟨ts, vs, hstand, fun hfilled hdepth hsize => ?_⟩
    -- Outside in: the hexadecimal text, the coat of the proxy, the encoding of the values.
    have hread : readHex answer.output = .ok (ProxyOutput.encode (Value.encodeAll vs)) := by
      rw [houtput, readHex_encode]
    refine returns_of_decodeOutput hcalled hstatus hread ?_
    rw [function_of_encodeProxied hcontract hf hcalled.encoded]
    exact decodeOutput_encode hstand hfilled hdepth hsize
  case direct =>
    intro texts hcalled hstatus hread hsize
    refine returns_of_decodeOutput hcalled hstatus hread ?_
    rw [function_of_encodeDirect hcalled.encoded]
    exact decodeOutput_texts hsize true
  case empty =>
    intro byProxy hcalled hstatus hread
    exact returns_of_decodeOutput hcalled hstatus hread (decodeOutput_nil invocation.function)

namespace ByProxy

/-- A function that returns a list of names with their numbers, and a text. -/
def lister : Function := ⟨"f", [], Arguments.Nested.parameters⟩

def listerContract : Contract := ⟨"c", some Address.zero, { functions := [lister] }, ""⟩

def listerRequest : TransactionRequest := { method := "f" }

def listerInvocation : Invocation where
  data := (ProxyCall.constantCallWithoutXa "c"
    (CryptoKind.gm.profile.callData lister.signature (Value.encodeAll []))).encode
      CryptoKind.gm.profile
  destination := Address.zero
  function := some lister
  proxy := some ("", ⟨"z.b.c", none, 0⟩)

def bareInvocation : Invocation where
  data := PlainCall.encode CryptoKind.gm.profile listerRequest.method listerRequest.args
  destination := Address.zero

def answerOf (bytes : Bytes) : CallOutput := ⟨9, 0, Hex.encode bytes⟩

/-- A node that answers every call with these bytes. -/
def returning (bytes : Bytes) : Node :=
  { OneBlock.node [1] 0 with call := fun _ _ _ _ => .ok (answerOf bytes) }

theorem called_lister (bytes : Bytes) :
    Called (gateway listerContract) (returning bytes) ByProxy.context listerRequest true draws []
      ⟨"a", keyPair⟩ listerInvocation (answerOf bytes) where
  checked := ⟨.node, checkRequest_context rfl⟩
  encoded := rfl
  answered := rfl

theorem called_bare (bytes : Bytes) :
    Called (gateway listerContract) (returning bytes) ByProxy.context listerRequest false draws []
      ⟨"a", keyPair⟩ bareInvocation (answerOf bytes) where
  checked := ⟨.node, checkRequest_context rfl⟩
  encoded := rfl
  answered := rfl

end ByProxy

open ByProxy Arguments.Nested in
/-- A nested list and a text through the proxy, two texts without it, and no bytes at all. -/
theorem call_returns_nested :
    Returns (gateway listerContract) (returning (ProxyOutput.encode (Value.encodeAll held)))
        ByProxy.context listerRequest true draws [] ⟨"a", keyPair⟩ listerInvocation
        (answerOf (ProxyOutput.encode (Value.encodeAll held))) (held.map Value.render) ∧
      Returns (gateway listerContract) (returning (TextList.encode ["a", ""])) ByProxy.context
        listerRequest false draws [] ⟨"a", keyPair⟩ bareInvocation
        (answerOf (TextList.encode ["a", ""])) ["a", ""] ∧
      Returns (gateway listerContract) (returning []) ByProxy.context listerRequest true draws []
        ⟨"a", keyPair⟩ listerInvocation (answerOf []) [] := by
  have hencode : Arguments.encode lister.outputs texts = .ok (Value.encodeAll held) :=
    map_eq_ok.mpr ⟨held, Arguments.Nested.values_held, rfl⟩
  obtain ⟨ts, vs, hstand, hreturns⟩ := (call_returns _ _ _ _ _ _ _ _ _).1 listerContract lister
    texts _ (called_lister _) (contract_gateway listerContract) rfl hencode rfl rfl
  obtain rfl : vs = held := Except.ok.inj (hstand.values.symm.trans Arguments.Nested.values_held)
  obtain rfl : ts = kinds := Except.ok.inj (hstand.types.symm.trans Arguments.Nested.types_kinds)
  refine ⟨hreturns rfl (by decide) (by decide +kernel), ?_, ?_⟩
  · exact (call_returns _ _ _ _ _ _ _ _ _).2.1 _ (called_bare _) rfl (readHex_encode _)
      (by decide +kernel)
  · exact (call_returns _ _ _ _ _ _ _ _ _).2.2 true (called_lister []) rfl (readHex_encode [])

end Gateway

end LedgerGateway

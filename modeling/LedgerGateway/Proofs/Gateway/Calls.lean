import LedgerGateway.Proofs.Gateway.Operations

/-!
# Calls that are answered

A call falls into two parts, like a transaction: `Called` up to the output that the node answers
with, and `settleCall` from there. Only the first part asks the node something.
-/

namespace LedgerGateway.Gateway

open Exchange

variable {g : Gateway} {node : Node} {context : RequestContext} {request : TransactionRequest}
  {byProxy : Bool} {draws : Draws} {before after : History} {account : Account}
  {invocation : Invocation} {output : CallOutput} {response : TransactionResponse}

/-- A request was sent as a call, and the node has answered it with an output. -/
structure Called (g : Gateway) (node : Node) (context : RequestContext)
    (request : TransactionRequest) (byProxy : Bool) (draws : Draws) (before : History)
    (account : Account) (invocation : Invocation) (output : CallOutput) : Prop where
  checked : ∃ blocks, checkRequest context request = .ok (account, blocks)
  encoded : g.encodeInvocation context.path request byProxy false draws.uid = .ok invocation
  answered : node.call before account.identity invocation.destination.hex invocation.data =
    .ok output

/-- What the call of a request asks. -/
def callQuestion (account : Account) (invocation : Invocation) : Question :=
  .call account.identity invocation.destination.hex invocation.data

/-- What becomes of the output of a call. -/
def settleCall (g : Gateway) (invocation : Invocation) (output : CallOutput) :
    Except GatewayError TransactionResponse := do
  let bytes ← readHex output.output
  if output.status != 0 then
    pure { g.reverted output.status bytes none with blockNumber := output.currentBlockNumber }
  else
    let result ← (decodeOutput invocation.function true bytes).mapError GatewayError.call
    pure { TransactionResponse.success result with blockNumber := output.currentBlockNumber }

theorem settleCall_of_failure {bytes : Bytes} (hstatus : output.status ≠ 0)
    (hread : readHex output.output = .ok bytes) :
    g.settleCall invocation output =
      .ok { g.reverted output.status bytes none with
        blockNumber := output.currentBlockNumber } := by
  have hfailed : (output.status != 0) = true := by simpa using hstatus
  rw [settleCall, hread]
  simp only [bind, Except.bind, hfailed, if_true, pure, Except.pure]

theorem settleCall_of_success {bytes : Bytes} {result : List String} (hstatus : output.status = 0)
    (hread : readHex output.output = .ok bytes)
    (hresult : decodeOutput invocation.function true bytes = .ok result) :
    g.settleCall invocation output =
      .ok { TransactionResponse.success result with
        blockNumber := output.currentBlockNumber } := by
  have hsuccess : (output.status != 0) = false := by simpa using hstatus
  rw [settleCall, hread]
  simp only [bind, Except.bind, hsuccess, Bool.false_eq_true, if_false, hresult, mapError_ok, pure,
    Except.pure]

/-- What follows the answer to a call takes no further question. -/
theorem call_eq_settle : g.call node context request byProxy draws = (do
    let (account, _) ← checkRequest context request
    let invocation ← g.encodeInvocation context.path request byProxy false draws.uid
    let params := envelope request (invocation.payload invocation.data false) account.identity
      (some invocation.destination)
    let data ← Gateway.request node .call params.toBytes .callNotSuccessStatus
    let output ← readData CallOutput.decoder data
    g.settleCall invocation output) := by
  unfold call
  refine bind_congr fun checked => bind_congr fun invocation => bind_congr fun data =>
    bind_congr fun output => ?_
  -- From here on both sides take the same steps, lifted one by one or all at once.
  rw [settleCall, liftM_bind]
  refine bind_congr fun bytes => ?_
  split
  · rw [liftM_pure]
  · rw [liftM_bind]
    exact bind_congr fun result => (liftM_pure _).symm

theorem requestInvocation_eq_ok {fallback : StatusCode} :
    (∃ data, outcome (Gateway.request node .call (envelope request
        (invocation.payload invocation.data false) account.identity
        (some invocation.destination)).toBytes fallback) before = (.ok data, after) ∧
      readData CallOutput.decoder data = .ok output) ↔
      node.call before account.identity invocation.destination.hex invocation.data = .ok output ∧
        before ++ [callQuestion account invocation] = after := by
  have hdata : (envelope request (invocation.payload invocation.data false) account.identity
      (some invocation.destination)).data = invocation.data :=
    bytes_payload invocation invocation.data false
  rw [requestCall_eq_ok rfl rfl, hdata, callQuestion]

/-- A call ends with a value if the node has answered it and its output is settled. -/
theorem call_eq_ok :
    outcome (g.call node context request byProxy draws) before = (.ok response, after) ↔
      ∃ account invocation output,
        Called g node context request byProxy draws before account invocation output ∧
        g.settleCall invocation output = .ok response ∧
        before ++ [callQuestion account invocation] = after := by
  rw [call_eq_settle]
  constructor
  · intro h
    obtain ⟨⟨account, blocks⟩, hchecked, h⟩ := outcome_liftM_bind_eq_ok.mp h
    obtain ⟨invocation, hencoded, h⟩ := outcome_liftM_bind_eq_ok.mp h
    obtain ⟨data, middle, hdata, h⟩ := outcome_bind_eq_ok.mp h
    obtain ⟨output, hread, h⟩ := outcome_liftM_bind_eq_ok.mp h
    rw [outcome_liftM, Prod.mk.injEq] at h
    obtain ⟨hsettle, rfl⟩ := h
    obtain ⟨hanswer, hend⟩ := requestInvocation_eq_ok.mp ⟨data, hdata, hread⟩
    exact ⟨account, invocation, output, ⟨⟨blocks, hchecked⟩, hencoded, hanswer⟩, hsettle, hend⟩
  · rintro ⟨account, invocation, output, ⟨⟨blocks, hchecked⟩, hencoded, hanswer⟩, hsettle, hend⟩
    obtain ⟨data, hdata, hread⟩ := requestInvocation_eq_ok.mpr ⟨hanswer, hend⟩
    refine outcome_liftM_bind_eq_ok.mpr ⟨(account, blocks), hchecked, ?_⟩
    refine outcome_liftM_bind_eq_ok.mpr ⟨invocation, hencoded, ?_⟩
    refine outcome_bind_eq_ok.mpr ⟨data, after, hdata, ?_⟩
    refine outcome_liftM_bind_eq_ok.mpr ⟨output, hread, ?_⟩
    rw [outcome_liftM, hsettle]

end LedgerGateway.Gateway

import LedgerGateway.Proofs.Gateway.Submission
import LedgerGateway.Proofs.Gateway.Trust

/-!
# Deployments change the registry last

A deployment prepares its code and arguments, submits the transaction, and reads the address in the
receipt. Only then is the contract registered, so whatever fails leaves the gateway as it was. Since
the interface was read before anything was asked, registering does not fail once there is an address.

`Session.deploy` is the same sequence of steps on a gateway that each of them might change. It leaves
the gateway that `deploy` returns.
-/

namespace LedgerGateway.Gateway

open Exchange Text

section

variable {g : Gateway} {node : Node} {context : RequestContext} {name abi binary : String}
  {arguments : List String} {draws : Draws} {before : History}

/-! ## A gateway that changes -/

/-- A dialogue during which the gateway may change. -/
abbrev Session (α : Type) := ExceptT GatewayError (StateM (Gateway × History)) α

namespace Session

variable {α β : Type}

instance : MonadLift (Exchange GatewayError) Session where
  monadLift x := ExceptT.mk fun s => ((outcome x s.2).1, (s.1, (outcome x s.2).2))

def gateway : Session Gateway := ExceptT.mk fun s => (.ok s.1, s)

/-- Registers a contract with the gateway as it is. -/
def register (name : String) (address? : Option Address) (abi : String) : Session Contract :=
  ExceptT.mk fun s => match s.1.register name address? abi with
    | .ok (c, g) => (.ok c, (g, s.2))
    | .error e => (.error e, s)

/-- Deploys a contract step by step on a gateway that may change at each of them. -/
def deploy (node : Node) (context : RequestContext) (name abi binary : String)
    (arguments : List String) (draws : Draws) : Session Address := do
  let g ← gateway
  let account ← match context.account with
    | some account => pure account
    | none => throw .accountMissing
  if Text.isAllBlank name then throw .emptyContractName
  let interface ← (Abi.Interface.read abi).mapError GatewayError.call
  let code ← readHex binary
  if code.isEmpty then throw .emptyBinary
  let parameters := interface.constructor?.getD []
  let encoded ← (Arguments.encode parameters arguments).mapError GatewayError.call
  let height ← getHeight node
  let limit ← blockLimit height
  let signed ← g.signBuilt account
    (Transaction.buildDeploy draws.nonce code encoded g.groupId g.chainId limit)
  let receipt ← submit node (envelope ⟨deployMethod, some arguments, {}⟩ (.sendTx signed.raw)
    account.identity none)
  let address ← g.deployedAddress receipt
  let _ ← register name (some address) abi
  pure address

/-- What a dialogue leaves that ends with another gateway, and with the same one if it fails. -/
def leaves (g : Gateway) (ended : Except GatewayError (α × Gateway) × History) :
    Except GatewayError α × Gateway × History :=
  match ended with
  | (.ok (a, g'), after) => (.ok a, g', after)
  | (.error e, after) => (.error e, g, after)

/-- A session leaves what a dialogue leaves. -/
def EndsAs (g : Gateway) (y : Session α) (x : Exchange GatewayError (α × Gateway)) : Prop :=
  ∀ before, y.run.run (g, before) = leaves g (outcome x before)

theorem run_liftM_bind {x : Exchange GatewayError β} {f : β → Session α} (before : History) :
    ((liftM x : Session β) >>= f).run.run (g, before) = match outcome x before with
      | (.ok b, after) => (f b).run.run (g, after)
      | (.error e, after) => (.error e, (g, after)) := by
  have hbind : ((liftM x : Session β) >>= f).run.run (g, before) =
      ExceptT.bindCont f (outcome x before).1 (g, (outcome x before).2) := rfl
  rw [hbind]
  rcases outcome x before with ⟨e | b, after⟩ <;> rfl

theorem endsAs_throw_bind (e : GatewayError) (f' : β → Session α)
    (f : β → Exchange GatewayError (α × Gateway)) :
    EndsAs g (throw e >>= f') (throw e >>= f) := by
  intro before
  rw [outcome_bind_of_error (outcome_throw e before)]
  rfl

theorem endsAs_bind {x : Exchange GatewayError β} {f' : β → Session α}
    {f : β → Exchange GatewayError (α × Gateway)} (h : ∀ b, EndsAs g (f' b) (f b)) :
    EndsAs g ((liftM x : Session β) >>= f') (x >>= f) := by
  intro before
  rw [run_liftM_bind]
  rcases hx : outcome x before with ⟨e | b, after⟩
  · rw [outcome_bind_of_error hx]
    rfl
  · rw [outcome_bind_of_ok hx]
    exact h b after

theorem endsAs_except_bind {x : Except GatewayError β} {f' : β → Session α}
    {f : β → Exchange GatewayError (α × Gateway)} (h : ∀ b, EndsAs g (f' b) (f b)) :
    EndsAs g ((liftM x : Session β) >>= f') ((liftM x : Exchange GatewayError β) >>= f) := by
  intro before
  cases x with
  | error e => rfl
  | ok b => exact h b before

theorem endsAs_register {address : Address} :
    EndsAs g (register name (some address) abi >>= fun _ => pure address)
      ((liftM (g.register name (some address) abi) : Exchange GatewayError (Contract × Gateway)) >>=
        fun done => pure (address, done.2)) := by
  intro before
  have hregister : (register name (some address) abi).run.run (g, before) =
      match g.register name (some address) abi with
      | .ok (c, g') => (.ok c, (g', before))
      | .error e => (.error e, (g, before)) := rfl
  have hbind : (register name (some address) abi >>= fun _ => (pure address : Session Address)).run.run
      (g, before) = ExceptT.bindCont (fun _ => (pure address : Session Address))
        ((register name (some address) abi).run.run (g, before)).1
        ((register name (some address) abi).run.run (g, before)).2 := rfl
  rw [hbind, hregister]
  cases g.register name (some address) abi <;> rfl

theorem endsAs_gateway_bind {f : Gateway → Session α} {x : Exchange GatewayError (α × Gateway)}
    (h : EndsAs g (f g) x) : EndsAs g (gateway >>= f) x := fun before => h before

theorem endsAs_pure_bind {b : β} {f' : β → Session α} {f : β → Exchange GatewayError (α × Gateway)}
    (h : EndsAs g (f' b) (f b)) : EndsAs g (pure b >>= f') (pure b >>= f) := fun before => h before

/-- Step by step, a deployment leaves the gateway as it was until it registers. -/
theorem endsAs_deploy : EndsAs g (deploy node context name abi binary arguments draws)
    (g.deployAndRegister node context name abi binary arguments draws) := by
  unfold deploy deployAndRegister
  refine endsAs_gateway_bind ?_
  dsimp only
  cases context.account with
  | none => exact endsAs_throw_bind _ _ _
  | some account =>
    refine endsAs_pure_bind ?_
    by_cases hname : isAllBlank name = true
    · rw [if_pos hname, if_pos hname]
      exact endsAs_throw_bind _ _ _
    rw [if_neg hname, if_neg hname]
    refine endsAs_except_bind fun interface => ?_
    refine endsAs_except_bind fun code => ?_
    by_cases hcode : code.isEmpty = true
    · rw [if_pos hcode, if_pos hcode]
      exact endsAs_throw_bind _ _ _
    rw [if_neg hcode, if_neg hcode]
    refine endsAs_except_bind fun encoded => ?_
    refine endsAs_bind fun height => ?_
    refine endsAs_except_bind fun limit => ?_
    refine endsAs_except_bind fun signed => ?_
    refine endsAs_bind fun receipt => ?_
    refine endsAs_except_bind fun address => ?_
    exact endsAs_register

end Session

/-! ## All or nothing -/

/-- Everything that has to go well before a deployment is submitted. -/
structure DeploySubmits (g : Gateway) (node : Node) (context : RequestContext)
    (name abi binary : String) (arguments : List String) (draws : Draws) (before : History)
    (account : Account) (interface : Abi.Interface) (code encoded : Bytes) (height : UInt64)
    (signed : Transaction.Signed) : Prop where
  prepared : Prepared context name abi binary arguments account interface code encoded
  signs : ∃ limit, SignsAt g node account (g.unsignedDeploy draws code encoded) before height limit
    signed

/-- What a deployment has asked and what it leaves. -/
structure AllOrNothing (g : Gateway) (node : Node) (context : RequestContext)
    (name abi binary : String) (arguments : List String) (draws : Draws) (before : History)
    (result : Except GatewayError Address) (g' : Gateway) (asked : History) : Prop where
  order : ∃ raw, asked <+: [.height, .submit raw]
  submits : ∀ raw, .submit raw ∈ asked ↔ ∃ account interface code encoded height signed,
    DeploySubmits g node context name abi binary arguments draws before account interface code
      encoded height signed ∧ signed.raw = raw
  failed : ∀ e, result = .error e → g' = g
  deployed : ∀ address, result = .ok address → ∃ raw receipt interface, .submit raw ∈ asked ∧
    node.submit (before ++ [.height]) raw = .ok (some receipt) ∧ receipt.status = 0 ∧
    GatewayError.readAddress receipt.contractAddress = .ok address ∧ address ≠ Address.zero ∧
    Abi.Interface.read abi = .ok interface ∧
    g' = { g with registry := g'.registry } ∧ ∀ other, g'.registry.get? other =
      if other = name then some ⟨name, some address, interface, abi⟩ else g.registry.get? other
  certain : ∀ raw receipt address, .submit raw ∈ asked →
    node.submit (before ++ [.height]) raw = .ok (some receipt) → receipt.isEmpty = false →
    receipt.status = 0 → GatewayError.readAddress receipt.contractAddress = .ok address →
    address ≠ Address.zero → result = .ok address

section

variable {account : Account} {interface : Abi.Interface} {code encoded : Bytes} {height : UInt64}
  {signed : Transaction.Signed} {e : GatewayError}

/-- Of the same deployment no two transactions are submitted. -/
theorem DeploySubmits.signed_eq {account' : Account} {interface' : Abi.Interface}
    {code' encoded' : Bytes} {height' : UInt64} {signed' : Transaction.Signed}
    (h : DeploySubmits g node context name abi binary arguments draws before account interface code
      encoded height signed)
    (h' : DeploySubmits g node context name abi binary arguments draws before account' interface'
      code' encoded' height' signed') : signed = signed' := by
  obtain ⟨rfl, rfl, rfl⟩ := h.prepared.unique h'.prepared
  obtain ⟨limit, hsigns⟩ := h.signs
  obtain ⟨limit', hsigns'⟩ := h'.signs
  exact hsigns.unique hsigns'

theorem submit_mem_iff
    (h : DeploySubmits g node context name abi binary arguments draws before account interface code
      encoded height signed) (raw : Bytes) :
    Question.submit raw ∈ [Question.height, .submit signed.raw] ↔
      ∃ account interface code encoded height signed,
        DeploySubmits g node context name abi binary arguments draws before account interface code
          encoded height signed ∧ signed.raw = raw := by
  constructor
  · intro hmem
    obtain rfl : raw = signed.raw := by simpa using hmem
    exact ⟨account, interface, code, encoded, height, signed, h, rfl⟩
  · rintro ⟨_, _, _, _, _, signed', h', rfl⟩
    rw [h.signed_eq h']
    simp

/-- Before anything is signed nothing can be registered. -/
theorem allOrNothing_of_unsigned {asked : History} (hasked : asked <+: [.height])
    (hnone : ∀ account interface code encoded height signed,
      ¬ DeploySubmits g node context name abi binary arguments draws before account interface code
        encoded height signed) :
    AllOrNothing g node context name abi binary arguments draws before (.error e) g asked := by
  have hmem : ∀ raw, .submit raw ∉ asked := by
    intro raw h
    simpa using hasked.subset h
  refine ⟨⟨[], hasked.trans ⟨[.submit []], rfl⟩⟩, ?_, fun _ _ => rfl, ?_, ?_⟩
  · intro raw
    constructor
    · intro h
      exact absurd h (hmem raw)
    · rintro ⟨account, interface, code, encoded, height, signed, h, -⟩
      exact absurd h (hnone account interface code encoded height signed)
  · intro address h
    cases h
  · intro raw receipt address h
    exact absurd h (hmem raw)

/-- Without an address in a receipt nothing is registered. -/
theorem allOrNothing_of_submitted
    (h : DeploySubmits g node context name abi binary arguments draws before account interface code
      encoded height signed)
    (hnone : ∀ receipt, node.submit (before ++ [.height]) signed.raw = .ok (some receipt) →
      receipt.isEmpty = false → ∀ address, g.deployedAddress receipt ≠ .ok address) :
    AllOrNothing g node context name abi binary arguments draws before (.error e) g
      [.height, .submit signed.raw] := by
  refine ⟨⟨signed.raw, List.prefix_rfl⟩, submit_mem_iff h, fun _ _ => rfl, ?_, ?_⟩
  · intro address h
    cases h
  · intro raw receipt address hmem hanswer hcontent hstatus hread hzero
    obtain rfl : raw = signed.raw := by simpa using hmem
    exact absurd (deployedAddress_eq_ok.mpr ⟨hstatus, hread, hzero⟩)
      (hnone receipt hanswer hcontent address)

/-- With an address in the receipt the contract is registered. -/
theorem allOrNothing_of_address {receipt : Receipt} {address : Address}
    (h : DeploySubmits g node context name abi binary arguments draws before account interface code
      encoded height signed)
    (hanswer : node.submit (before ++ [.height]) signed.raw = .ok (some receipt))
    (haddress : g.deployedAddress receipt = .ok address) :
    AllOrNothing g node context name abi binary arguments draws before (.ok address)
      (g.registering ⟨name, some address, interface, abi⟩) [.height, .submit signed.raw] := by
  obtain ⟨hstatus, hread, hzero⟩ := deployedAddress_eq_ok.mp haddress
  refine ⟨⟨signed.raw, List.prefix_rfl⟩, submit_mem_iff h, ?_, ?_, ?_⟩
  · intro e hresult
    cases hresult
  · intro address' hresult
    cases hresult
    refine ⟨signed.raw, receipt, interface, by simp, hanswer, hstatus, hread, hzero,
      h.prepared.read, rfl, ?_⟩
    intro other
    exact Registry.get?_insert g.registry _ other
  · intro raw receipt' address' hmem hanswer' _ _ hread' _
    obtain rfl : raw = signed.raw := by simpa using hmem
    obtain rfl := Option.some.inj (Except.ok.inj (hanswer.symm.trans hanswer'))
    exact congrArg Except.ok (Except.ok.inj (hread.symm.trans hread'))

end

theorem leaves_deploy (g : Gateway) (node : Node) (context : RequestContext)
    (name abi binary : String) (arguments : List String) (draws : Draws) (before : History) :
    ∃ result g' asked,
      Session.leaves g
          (outcome (g.deployAndRegister node context name abi binary arguments draws) before) =
        (result, g', before ++ asked) ∧
      AllOrNothing g node context name abi binary arguments draws before result g' asked := by
  rcases deployAndRegister_cases g node context name abi binary arguments draws before with
    ⟨e, houtcome, hnone⟩ | ⟨account, interface, code, encoded, hprepared⟩
  · refine ⟨.error e, g, [], ?_, allOrNothing_of_unsigned List.nil_prefix ?_⟩
    · rw [houtcome, List.append_nil]
      rfl
    · intro account interface code encoded height signed h
      exact hnone account interface code encoded h.prepared
  have hrun : Submitting g node account (g.unsignedDeploy draws code encoded)
      (g.concludeDeploy name abi) before
      (outcome (g.deployAndRegister node context name abi binary arguments draws) before) := by
    rw [deployAndRegister_of_prepared hprepared]
    exact submitting fun _ => rfl
  generalize outcome (g.deployAndRegister node context name abi binary arguments draws) before = ran
    at hrun
  cases hrun with
  | unsigned hnone =>
    refine ⟨_, g, [.height], rfl, allOrNothing_of_unsigned List.prefix_rfl ?_⟩
    intro account' interface' code' encoded' height signed h
    obtain ⟨rfl, rfl, rfl⟩ := h.prepared.unique hprepared
    obtain ⟨limit, hsigns⟩ := h.signs
    exact hnone height limit signed hsigns
  | unanswered hsigns hnone =>
    have hsubmits := DeploySubmits.mk hprepared ⟨_, hsigns⟩
    rw [List.append_assoc]
    refine ⟨_, g, _, rfl, allOrNothing_of_submitted hsubmits ?_⟩
    intro receipt hanswer hcontent
    rw [hnone receipt hanswer] at hcontent
    cases hcontent
  | @answered height limit signed receipt hsigns hanswer =>
    have hsubmits := DeploySubmits.mk hprepared ⟨limit, hsigns⟩
    rw [List.append_assoc]
    cases haddress : g.deployedAddress receipt with
    | error e =>
      rw [concludeDeploy_of_error haddress]
      refine ⟨.error e, g, _, rfl, allOrNothing_of_submitted hsubmits ?_⟩
      intro receipt' hanswer' _ address
      obtain rfl := Option.some.inj (Except.ok.inj (hanswer.symm.trans hanswer'))
      rw [haddress]
      intro h
      cases h
    | ok address =>
      rw [concludeDeploy_eq_ok.mpr ⟨haddress, ⟨_, register_of_read hprepared.read⟩, rfl⟩]
      exact ⟨.ok address, _, _, rfl, allOrNothing_of_address hsubmits hanswer haddress⟩

/-- A deployment leaves what its dialogue leaves, also if it is run step by step. -/
theorem run_deploy {result : Except GatewayError Address} {g' : Gateway} {after : History}
    (h : Session.leaves g
      (outcome (g.deployAndRegister node context name abi binary arguments draws) before) =
        (result, g', after)) :
    (g.deploy node context name abi binary arguments draws).run before = ((result, g'), after) ∧
      (Session.deploy node context name abi binary arguments draws).run.run (g, before) =
        (result, g', after) := by
  refine ⟨?_, (Session.endsAs_deploy before).trans h⟩
  rcases hrun : outcome (g.deployAndRegister node context name abi binary arguments draws) before with
    ⟨e | ⟨address, changed⟩, last⟩
  · rw [hrun] at h
    cases h
    exact deploy_of_error hrun
  · rw [hrun] at h
    cases h
    exact deploy_of_ok hrun

/-- A deployment that fails leaves the gateway as it was, whatever has failed; one that does not has
registered the contract at the address in the receipt, and changed nothing else. It has submitted one
transaction at most, which carries the code with its arguments and names no contract. -/
theorem deploy_allOrNothing (g : Gateway) (node : Node) (context : RequestContext)
    (name abi binary : String) (arguments : List String) (draws : Draws) (before : History) :
    (∃ result g' asked,
      (g.deploy node context name abi binary arguments draws).run before =
        ((result, g'), before ++ asked) ∧
      (Session.deploy node context name abi binary arguments draws).run.run (g, before) =
        (result, g', before ++ asked) ∧
      AllOrNothing g node context name abi binary arguments draws before result g' asked) ∧
    ∀ account interface code encoded height signed,
      DeploySubmits g node context name abi binary arguments draws before account interface code
        encoded height signed →
      ∃ tx signature, signed.raw = tx.encodeSigned signature ∧
        Carries g none (code ++ encoded) height tx ∧
        (account.keyPair.Regular → signed.raw.length < UInt64.size →
          Transaction.decode signed.raw = .ok ⟨tx, signature⟩) := by
  constructor
  · obtain ⟨result, g', asked, hleft, hnothing⟩ :=
      leaves_deploy g node context name abi binary arguments draws before
    obtain ⟨hrun, hsession⟩ := run_deploy hleft
    exact ⟨result, g', asked, hrun, hsession, hnothing⟩
  · intro account interface code encoded height signed h
    obtain ⟨limit, hsigns⟩ := h.signs
    obtain ⟨tx, signature, hbuilt, hraw, hread⟩ := spelled_of_signBuilt hsigns.signed
    refine ⟨tx, signature, hraw, carries_of_build hsigns.limited hbuilt, ?_⟩
    intro hkey hsize
    exact (hread hkey hsize).1

end

namespace OneBlock

theorem regular_keyPair : keyPair.Regular := by
  refine Transaction.regular_of_signs (fun _ => .ecdsa 27 1 1) (fun _ => rfl) ?_
  intro hash
  refine ⟨rfl, ?_⟩
  rw [Transaction.Spellable]
  decide

theorem deploySubmits :
    DeploySubmits gateway deployNode (context [1]) "d" "[]" "0x00" [] draws [] ⟨"a", keyPair⟩ {} [0]
      [] 6 deploySigned where
  prepared := ⟨rfl, rfl, read_interface, rfl, rfl, rfl⟩
  signs := ⟨506, rfl, by decide, rfl, signBuilt_deployTransaction⟩

set_option maxRecDepth 4000 in
theorem length_deploySigned : deploySigned.raw.length < UInt64.size := by
  decide

end OneBlock

open OneBlock in
/-- The contract is registered under the address in the receipt, and the transaction is read as one
that carries its code. -/
theorem deploy_allOrNothing_oneBlock :
    (∃ g' asked,
      (gateway.deploy deployNode (context [1]) "d" "[]" "0x00" [] draws).run [] =
        ((.ok deployed, g'), asked) ∧
      .submit deploySigned.raw ∈ asked ∧
      g'.registry.get? "d" = some ⟨"d", some deployed, {}, "[]"⟩ ∧
      g'.registry.get? "c" = some OneBlock.contract) ∧
    ∃ tx signature, Transaction.decode deploySigned.raw = .ok ⟨tx, signature⟩ ∧
      Carries gateway none [0] 6 tx := by
  obtain ⟨⟨result, g', asked, hrun, -, hall⟩, hcontent⟩ :=
    deploy_allOrNothing gateway deployNode (context [1]) "d" "[]" "0x00" [] draws []
  have hresult := outcome_deploy
  rw [hrun] at hresult
  obtain ⟨raw, receipt, interface, -, -, -, -, -, hread, -, hregistry⟩ := hall.deployed _ hresult
  obtain rfl : {} = interface := Except.ok.inj (read_interface.symm.trans hread)
  have hsubmitted : .submit deploySigned.raw ∈ asked :=
    (hall.submits _).mpr ⟨_, _, _, _, _, _, deploySubmits, rfl⟩
  refine ⟨⟨g', asked, ?_, hsubmitted, ?_, ?_⟩, ?_⟩
  · rw [hrun, List.nil_append]
    exact congrArg (fun r => ((r, g'), asked)) hresult
  · rw [hregistry, if_pos rfl]
  · rw [hregistry, if_neg (by decide)]
    rfl
  · obtain ⟨tx, signature, -, hcarries, hdecode⟩ := hcontent _ _ _ _ _ _ deploySubmits
    exact ⟨tx, signature, hdecode regular_keyPair length_deploySigned, hcarries⟩

end LedgerGateway.Gateway

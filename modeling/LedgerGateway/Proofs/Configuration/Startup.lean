import LedgerGateway.Gateway.Basic
import LedgerGateway.Proofs.Bytes.Address
import LedgerGateway.Proofs.Configuration.Validation
import LedgerGateway.Proofs.Registry

/-!
# From validated settings to a gateway

Validation looks at addresses as the gateway does, but of an interface it only asks that its text is a
JSON list. So all that can go wrong with validated settings is that such a list is no interface.
-/

namespace LedgerGateway

open Abi

/-- The gateway forgives blanks around an address, and reads what validation reads. -/
theorem GatewayError.readAddress_of_read {s : String} {a : Address} (h : Address.read s = .ok a) :
    readAddress s = .ok a := by
  rw [readAddress, Address.trim_eq_self_of_read h, h, mapError_ok]

/-! ## What validation has seen -/

namespace Settings

/-- Every contract of the settings, the proxy first. -/
def contracts (s : Settings) : List ResourceSettings :=
  (s.proxy.map fun proxy => ⟨Gateway.proxyName, some proxy.address, proxy.abi⟩).toList ++ s.resources

/-- The texts of interfaces in the order in which they are read. -/
def interfaceTexts (s : Settings) : List String := s.contracts.map (·.abi)

/-- The addresses of validated settings are addresses. -/
theorem read_of_validate {s : Settings} (h : s.validate = .ok ()) :
    ∀ r ∈ s.contracts, ∀ address, r.address = some address →
      ∃ a, Address.read address = .ok a := by
  have hsound := validate_eq_ok_iff.mp h
  intro r hr address haddress
  rcases List.mem_append.mp hr with hr | hr
  · obtain ⟨proxy, hsome, rfl⟩ := Option.map_eq_some_iff.mp (Option.mem_toList.mp hr)
    obtain rfl : proxy.address = address := by simpa using haddress
    exact (hsound.proxy proxy hsome).1
  · exact (hsound.resources r hr).address address haddress

theorem read_proxy_of_validate {s : Settings} (h : s.validate = .ok ()) :
    ∀ address, s.proxy.map (·.address) = some address → ∃ a, Address.read address = .ok a := by
  intro address haddress
  obtain ⟨proxy, hproxy, rfl⟩ := Option.map_eq_some_iff.mp haddress
  refine read_of_validate h ⟨Gateway.proxyName, some proxy.address, proxy.abi⟩ ?_ _ rfl
  simp [contracts, hproxy]

end Settings

/-! ## What the gateway reads -/

/-- Behind texts of interfaces stands one that is none. -/
def Abi.Interface.FirstRefused (texts : List String) (cause : Json.ReadError) : Prop :=
  ∃ before text after, texts = before ++ text :: after ∧
    (∀ t ∈ before, ∃ i, Interface.read t = .ok i) ∧ Interface.parse text = .error cause

theorem Abi.Interface.FirstRefused.not_read {texts : List String} {cause : Json.ReadError}
    (h : FirstRefused texts cause) : ¬ ∀ text ∈ texts, ∃ i, Interface.read text = .ok i := by
  obtain ⟨before, text, after, rfl, -, hcause⟩ := h
  intro hall
  obtain ⟨i, hi⟩ := hall text (by simp)
  rw [read, hcause] at hi
  cases hi

namespace Gateway

/-- An address that is read is read alike by the reader that forgives blanks. -/
theorem mapM_readAddress_eq {address? : Option String}
    (h : ∀ address, address? = some address → ∃ a, Address.read address = .ok a) :
    ∃ a?, address?.mapM GatewayError.readAddress = .ok a? ∧ address?.mapM Address.read = .ok a? := by
  cases address? with
  | none => exact ⟨none, rfl, rfl⟩
  | some address =>
    obtain ⟨a, ha⟩ := h address rfl
    refine ⟨some a, ?_, ?_⟩
    · rw [Option.mapM_some, GatewayError.readAddress_of_read ha]
      rfl
    · rw [Option.mapM_some, ha]
      rfl

theorem mapM_readAddress {address? : Option String}
    (h : ∀ address, address? = some address → ∃ a, Address.read address = .ok a) :
    ∃ a?, address?.mapM GatewayError.readAddress = .ok a? :=
  (mapM_readAddress_eq h).imp fun _ ha => ha.1

/-- Contracts with readable addresses are registered one after the other, up to the first whose
interface is none. -/
theorem registerAll_cases (g : Gateway) {rs : List ResourceSettings}
    (haddresses : ∀ r ∈ rs, ∀ address, r.address = some address →
      ∃ a, Address.read address = .ok a) :
    (∃ g', g.registerAll rs = .ok g' ∧
      ∀ text ∈ rs.map (·.abi), ∃ i, Interface.read text = .ok i) ∨
    ∃ cause, g.registerAll rs = .error (.call (.invalidInterface cause)) ∧
      Interface.FirstRefused (rs.map (·.abi)) cause := by
  induction rs generalizing g with
  | nil => exact .inl ⟨g, rfl, by simp⟩
  | cons r rs ih =>
    obtain ⟨a?, ha⟩ := mapM_readAddress (haddresses r List.mem_cons_self)
    rw [registerAll, ha, List.map_cons]
    cases hparse : Interface.parse r.abi with
    | error cause =>
      have hregister : g.register r.name a? r.abi = .error (.call (.invalidInterface cause)) := by
        simp only [register, Registry.register, Interface.read, hparse]
        rfl
      simp only [bind, Except.bind, hregister]
      exact .inr ⟨cause, rfl, [], r.abi, rs.map (·.abi), rfl, by simp, hparse⟩
    | ok i =>
      have hread : Interface.read r.abi = .ok i := mapError_eq_ok.mpr hparse
      obtain ⟨c, registry, hregistry⟩ :
          ∃ c registry, g.registry.register r.name a? r.abi = .ok (c, registry) :=
        ⟨_, _, Registry.register_eq_ok.mpr ⟨i, hread, rfl, rfl⟩⟩
      have hregister : g.register r.name a? r.abi = .ok (c, { g with registry }) := by
        rw [register, hregistry]
      simp only [bind, Except.bind, hregister]
      rcases ih { g with registry } fun r hr => haddresses r (List.mem_cons_of_mem _ hr) with
        ⟨g', hg', htexts⟩ | ⟨cause, hcause, before, text, after, htexts, hbefore, hrefused⟩
      · exact .inl ⟨g', hg', List.forall_mem_cons.mpr ⟨⟨i, hread⟩, htexts⟩⟩
      · refine .inr ⟨cause, hcause, r.abi :: before, text, after, by rw [htexts]; rfl, ?_, hrefused⟩
        exact List.forall_mem_cons.mpr ⟨⟨i, hread⟩, hbefore⟩

/-- The gateway of a chain before anything is registered. -/
def ofChain (chain : ChainSettings) (proxyAddress : Option Address) : Gateway :=
  { profile := chain.crypto.profile, groupId := chain.groupId, chainId := chain.chainId,
    proxyAddress, nodeVersion := chain.nodeVersion }

/-- The proxy is registered like any other contract. -/
theorem ofSettings_eq_registerAll {s : Settings} {proxyAddress : Option Address}
    (h : (s.proxy.map (·.address)).mapM GatewayError.readAddress = .ok proxyAddress) :
    ofSettings s = (ofChain s.chain proxyAddress).registerAll s.contracts := by
  unfold ofSettings Settings.contracts
  cases hproxy : s.proxy with
  | none =>
    rw [hproxy] at h
    cases h
    rfl
  | some proxy =>
    rw [hproxy, Option.map_some, Option.mapM_some] at h
    obtain ⟨a, hread, rfl⟩ := map_eq_ok.mp h
    rw [Option.map_some, Option.toList_some, List.singleton_append, registerAll]
    simp only [Option.mapM_some, hread]
    change (register (ofChain s.chain (some a)) proxyName (some a) proxy.abi).map Prod.snd >>=
      (fun g => g.registerAll s.resources) =
        register (ofChain s.chain (some a)) proxyName (some a) proxy.abi >>=
          fun registered => registered.2.registerAll s.resources
    cases (ofChain s.chain (some a)).register proxyName (some a) proxy.abi <;> rfl

/-- A gateway comes from validated settings exactly if the text of every interface is one, and if not,
the first that is none is reported. -/
theorem ofSettings_of_validate {s : Settings} (h : s.validate = .ok ()) :
    ((∃ g, ofSettings s = .ok g) ↔
      ∀ text ∈ s.interfaceTexts, ∃ i, Interface.read text = .ok i) ∧
    ∀ e, ofSettings s = .error e → ∃ cause, e = .call (.invalidInterface cause) ∧
      Interface.FirstRefused s.interfaceTexts cause := by
  have haddresses := Settings.read_of_validate h
  obtain ⟨proxyAddress, hproxy⟩ := mapM_readAddress (Settings.read_proxy_of_validate h)
  rw [ofSettings_eq_registerAll hproxy]
  rcases registerAll_cases (ofChain s.chain proxyAddress) haddresses with
    ⟨g, hg, htexts⟩ | ⟨cause, hcause, hrefused⟩
  · refine ⟨iff_of_true ⟨g, hg⟩ htexts, ?_⟩
    intro e he
    rw [hg] at he
    cases he
  · refine ⟨iff_of_false ?_ hrefused.not_read, ?_⟩
    · rintro ⟨g, hg⟩
      rw [hcause] at hg
      cases hg
    · intro e he
      obtain rfl := Except.error.inj (hcause.symm.trans he)
      exact ⟨cause, rfl, hrefused⟩

/-- Settings for a proxy and a contract. -/
def twoContracts (abi : String) : Settings where
  chain := { name := "bcos" }
  proxy := some ⟨"0x2222222222222222222222222222222222222222", "[]"⟩
  resources := [⟨"HelloWorld", none, abi⟩]

theorem validate_number : (twoContracts "[1]").validate = .ok () := rfl

theorem parse_number : Interface.parse "[1]" = .error ⟨some (.unexpected "a record"), 1, 3⟩ := rfl

theorem ofSettings_of_validate_twoContracts :
    (twoContracts "[]").validate = .ok () ∧ (∃ g, ofSettings (twoContracts "[]") = .ok g) ∧
      (twoContracts "[1]").validate = .ok () ∧
      ¬ ∃ g, ofSettings (twoContracts "[1]") = .ok g := by
  have hempty : (twoContracts "[]").validate = .ok () := rfl
  have hread : ∀ text ∈ (twoContracts "[]").interfaceTexts, ∃ i, Interface.read text = .ok i := by
    intro text htext
    obtain rfl : text = "[]" := by simpa [twoContracts, Settings.interfaceTexts,
      Settings.contracts] using htext
    exact ⟨{}, rfl⟩
  have hrefused : Interface.FirstRefused (twoContracts "[1]").interfaceTexts
      ⟨some (.unexpected "a record"), 1, 3⟩ :=
    ⟨["[]"], "[1]", [], rfl, fun t ht => ⟨{}, List.mem_singleton.mp ht ▸ rfl⟩, parse_number⟩
  refine ⟨hempty, (ofSettings_of_validate hempty).1.mpr hread, validate_number, ?_⟩
  rw [(ofSettings_of_validate validate_number).1]
  exact hrefused.not_read

/-- A number in a list is JSON, and no part of an interface. -/
theorem ofSettings_number_ne_ok :
    (twoContracts "[1]").validate = .ok () ∧
      ofSettings (twoContracts "[1]") =
        .error (.call (.invalidInterface ⟨some (.unexpected "a record"), 1, 3⟩)) :=
  ⟨validate_number, rfl⟩

end Gateway

end LedgerGateway

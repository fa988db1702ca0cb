import LedgerGateway.Proofs.Configuration.Startup

/-!
# What a gateway knows from its settings

The proxy is registered first and the contracts after it, each in place of the one that had its name.
Validation keeps the names of the contracts apart, so every contract stays. It does not keep them apart
from the name of the proxy: a contract of that name takes the place of the proxy.
-/

namespace LedgerGateway

open Abi

/-- The proxy as a contract like any other. -/
def ProxySettings.resource (proxy : ProxySettings) : ResourceSettings :=
  ⟨Gateway.proxyName, some proxy.address, proxy.abi⟩

/-- The contract is what the settings say. -/
structure ResourceSettings.Describes (r : ResourceSettings) (c : Contract) : Prop where
  name : c.name = r.name
  address : r.address.mapM Address.read = .ok c.address?
  interface : Interface.read r.abi = .ok c.interface
  text : c.interfaceText = r.abi

theorem ResourceSettings.Describes.unique {r : ResourceSettings} {c c' : Contract}
    (h : r.Describes c) (h' : r.Describes c') : c = c' := by
  have haddress := Except.ok.inj (h.address.symm.trans h'.address)
  have hinterface := Except.ok.inj (h.interface.symm.trans h'.interface)
  cases c
  cases c'
  simp only [Contract.mk.injEq]
  exact ⟨h.name.trans h'.name.symm, haddress, hinterface, h.text.trans h'.text.symm⟩

namespace Settings

theorem contracts_of_proxy {s : Settings} {proxy : ProxySettings} (h : s.proxy = some proxy) :
    s.contracts = proxy.resource :: s.resources := by
  simp [contracts, h, ProxySettings.resource]

theorem contracts_of_none {s : Settings} (h : s.proxy = none) : s.contracts = s.resources := by
  simp [contracts, h]

end Settings

/-! ## One registration after the other -/

namespace Gateway

variable {g g' : Gateway} {r : ResourceSettings} {rs : List ResourceSettings}

/-- Every address of the settings is one. -/
def AddressesRead (rs : List ResourceSettings) : Prop :=
  ∀ r ∈ rs, ∀ address, r.address = some address → ∃ a, Address.read address = .ok a

/-- The first of the contracts is registered as the settings describe it, and the others after it. -/
theorem registerAll_cons_eq_ok (haddresses : AddressesRead (r :: rs)) :
    g.registerAll (r :: rs) = .ok g' ↔
      ∃ c, r.Describes c ∧ registerAll { g with registry := g.registry.insert c } rs = .ok g' := by
  obtain ⟨a?, hforgiving, hread⟩ := mapM_readAddress_eq (haddresses r List.mem_cons_self)
  rw [registerAll, hforgiving]
  constructor
  · intro h
    obtain ⟨_, ⟨⟩, h⟩ := except_bind_eq_ok.mp h
    obtain ⟨⟨c, registered⟩, hregister, hrest⟩ := except_bind_eq_ok.mp h
    unfold register at hregister
    split at hregister
    · rename_i hregistry
      cases hregister
      obtain ⟨i, hi, rfl, rfl⟩ := Registry.register_eq_ok.mp hregistry
      exact ⟨_, ⟨rfl, hread, hi, rfl⟩, hrest⟩
    · cases hregister
  · rintro ⟨c, hc, hrest⟩
    have haddress := Except.ok.inj (hread.symm.trans hc.address)
    have hregistry : g.registry.register r.name a? r.abi = .ok (c, g.registry.insert c) := by
      refine Registry.register_eq_ok.mpr ⟨c.interface, hc.interface, ?_, rfl⟩
      cases c
      simp only [Contract.mk.injEq]
      exact ⟨hc.name, haddress.symm, trivial, hc.text⟩
    have hregister : g.register r.name a? r.abi =
        .ok (c, { g with registry := g.registry.insert c }) := by
      rw [register, hregistry]
    exact except_bind_eq_ok.mpr ⟨a?, rfl, except_bind_eq_ok.mpr ⟨_, hregister, hrest⟩⟩

theorem AddressesRead.tail (h : AddressesRead (r :: rs)) : AddressesRead rs := fun r' hr' =>
  h r' (List.mem_cons_of_mem _ hr')

/-- What has a name that none of the contracts has stays as it is. -/
theorem get?_registerAll_of_notMem (haddresses : AddressesRead rs)
    (h : g.registerAll rs = .ok g') {name : String} (hname : name ∉ rs.map (·.name)) :
    g'.registry.get? name = g.registry.get? name := by
  induction rs generalizing g with
  | nil =>
    cases h
    rfl
  | cons r rs ih =>
    obtain ⟨c, hc, hrest⟩ := (registerAll_cons_eq_ok haddresses).mp h
    rw [List.map_cons, List.mem_cons, not_or] at hname
    rw [ih haddresses.tail hrest hname.2, Registry.get?_insert, hc.name, if_neg hname.1]

/-- The first of the contracts is known in the end unless another one has its name. -/
theorem exists_get?_registerAll_cons (haddresses : AddressesRead (r :: rs))
    (h : g.registerAll (r :: rs) = .ok g') :
    ∃ c, r.Describes c ∧
      (r.name ∉ rs.map (·.name) → g'.registry.get? r.name = some c) := by
  obtain ⟨c, hc, hrest⟩ := (registerAll_cons_eq_ok haddresses).mp h
  refine ⟨c, hc, fun hname => ?_⟩
  rw [get?_registerAll_of_notMem haddresses.tail hrest hname, Registry.get?_insert, hc.name,
    if_pos rfl]

/-- Contracts with names of their own are all known in the end. -/
theorem exists_get?_registerAll (haddresses : AddressesRead rs) (hnodup : (rs.map (·.name)).Nodup)
    (h : g.registerAll rs = .ok g') :
    ∀ r ∈ rs, ∃ c, r.Describes c ∧ g'.registry.get? r.name = some c := by
  induction rs generalizing g with
  | nil => simp
  | cons first rs ih =>
    rw [List.map_cons, List.nodup_cons] at hnodup
    obtain ⟨c, hc, hget⟩ := exists_get?_registerAll_cons haddresses h
    obtain ⟨_, -, hrest⟩ := (registerAll_cons_eq_ok haddresses).mp h
    intro r hr
    rcases List.mem_cons.mp hr with rfl | hr
    · exact ⟨c, hc, hget hnodup.1⟩
    · exact ih haddresses.tail hnodup.2 hrest r hr

/-- Nothing else is known than what was known before and what has been registered. -/
theorem get?_registerAll_cases (haddresses : AddressesRead rs) (h : g.registerAll rs = .ok g')
    {name : String} {c : Contract} (hc : g'.registry.get? name = some c) :
    g.registry.get? name = some c ∨ ∃ r ∈ rs, r.Describes c := by
  induction rs generalizing g with
  | nil =>
    cases h
    exact .inl hc
  | cons first rs ih =>
    obtain ⟨d, hd, hrest⟩ := (registerAll_cons_eq_ok haddresses).mp h
    rcases ih haddresses.tail hrest with hknown | ⟨r, hr, hdescribes⟩
    · rw [Registry.get?_insert] at hknown
      split at hknown
      · cases hknown
        exact .inr ⟨first, List.mem_cons_self, hd⟩
      · exact .inl hknown
    · exact .inr ⟨r, List.mem_cons_of_mem _ hr, hdescribes⟩

/-! ## The gateway of settings -/

variable {s : Settings}

/-- The gateway of validated settings, as one registration after the other. -/
theorem exists_registerAll (hvalid : s.validate = .ok ()) (h : ofSettings s = .ok g) :
    ∃ start : Gateway, start.registry = .empty ∧ start.registerAll s.contracts = .ok g := by
  obtain ⟨proxyAddress, hproxy⟩ := mapM_readAddress (Settings.read_proxy_of_validate hvalid)
  rw [ofSettings_eq_registerAll hproxy] at h
  exact ⟨_, rfl, h⟩

/-- The contracts of validated settings are known to the gateway. -/
theorem exists_get?_resource (hvalid : s.validate = .ok ()) (h : ofSettings s = .ok g) :
    ∀ r ∈ s.resources, ∃ c, r.Describes c ∧ g.registry.get? r.name = some c := by
  obtain ⟨start, -, hstart⟩ := exists_registerAll hvalid h
  have haddresses : AddressesRead s.contracts := Settings.read_of_validate hvalid
  have hnodup := (Settings.validate_eq_ok_iff.mp hvalid).distinct
  cases hproxy : s.proxy with
  | none =>
    rw [Settings.contracts_of_none hproxy] at hstart haddresses
    exact exists_get?_registerAll haddresses hnodup hstart
  | some proxy =>
    rw [Settings.contracts_of_proxy hproxy] at hstart haddresses
    obtain ⟨_, -, hrest⟩ := (registerAll_cons_eq_ok haddresses).mp hstart
    exact exists_get?_registerAll haddresses.tail hnodup hrest

/-- The proxy is known to the gateway if no contract has its name. -/
theorem exists_get?_proxy (hvalid : s.validate = .ok ()) (h : ofSettings s = .ok g)
    {proxy : ProxySettings} (hproxy : s.proxy = some proxy) :
    ∃ c, proxy.resource.Describes c ∧
      (proxyName ∉ s.resources.map (·.name) → g.registry.get? proxyName = some c) := by
  obtain ⟨start, -, hstart⟩ := exists_registerAll hvalid h
  have haddresses : AddressesRead s.contracts := Settings.read_of_validate hvalid
  rw [Settings.contracts_of_proxy hproxy] at hstart haddresses
  exact exists_get?_registerAll_cons haddresses hstart

/-- The gateway of validated settings knows every contract of them, and nothing that is not in them.
It knows the proxy exactly if no contract that says something else has its name. -/
theorem registry_ofSettings (hvalid : s.validate = .ok ()) (h : ofSettings s = .ok g) :
    (∀ r ∈ s.resources, ∃ c, r.Describes c ∧ g.registry.get? r.name = some c) ∧
    (∀ proxy, s.proxy = some proxy → ∃ c, proxy.resource.Describes c ∧
      (g.registry.get? proxyName = some c ↔
        ∀ r ∈ s.resources, r.name = proxyName → r.Describes c)) ∧
    ∀ c ∈ g.registry.contracts, ∃ r ∈ s.contracts, r.Describes c := by
  have hresources := exists_get?_resource hvalid h
  refine ⟨hresources, ?proxy, ?nothingElse⟩
  case proxy =>
    intro proxy hproxy
    obtain ⟨c, hc, hget⟩ := exists_get?_proxy hvalid h hproxy
    refine ⟨c, hc, ?_, ?_⟩
    · intro hknown r hr hname
      obtain ⟨d, hd, hd'⟩ := hresources r hr
      rw [hname, hknown, Option.some.injEq] at hd'
      exact hd' ▸ hd
    · intro hsame
      by_cases hmem : proxyName ∈ s.resources.map (·.name)
      · obtain ⟨r, hr, hname⟩ := List.mem_map.mp hmem
        obtain ⟨d, hd, hd'⟩ := hresources r hr
        rw [← hname, hd', hd.unique (hsame r hr hname)]
      · exact hget hmem
  case nothingElse =>
    intro c hc
    obtain ⟨start, hempty, hstart⟩ := exists_registerAll hvalid h
    rcases get?_registerAll_cases (Settings.read_of_validate hvalid) hstart
      (Registry.get?_of_mem hc) with hknown | hdescribed
    · rw [hempty] at hknown
      cases hknown
    · exact hdescribed

/-- Settings for a proxy and a contract of the given name. -/
def besideProxy (name : String) : Settings where
  chain := { name := "bcos" }
  proxy := some ⟨"0x2222222222222222222222222222222222222222", "[]"⟩
  resources := [⟨name, none, "[]"⟩]

theorem validate_besideProxy :
    (besideProxy "HelloWorld").validate = .ok () ∧ (besideProxy proxyName).validate = .ok () :=
  ⟨rfl, rfl⟩

theorem ofSettings_besideProxy :
    (∃ g, ofSettings (besideProxy "HelloWorld") = .ok g) ∧
      ∃ g, ofSettings (besideProxy proxyName) = .ok g :=
  ⟨⟨_, rfl⟩, _, rfl⟩

/-- A contract without an address does not say what the proxy says. -/
theorem not_describes_besideProxy {proxy : ProxySettings} {c : Contract}
    (hproxy : proxy.resource.Describes c) :
    ¬ (⟨proxyName, none, "[]"⟩ : ResourceSettings).Describes c := by
  intro h
  have hnone : none = c.address? := Except.ok.inj h.address
  have hsome : (some proxy.address).mapM Address.read = .ok c.address? := hproxy.address
  rw [← hnone, Option.mapM_some] at hsome
  cases hread : Address.read proxy.address with
  | error e => simp [hread] at hsome
  | ok a => simp [hread] at hsome

/-- A contract stands beside the proxy, or in its place. -/
theorem registry_ofSettings_besideProxy :
    (∃ g c, (besideProxy "HelloWorld").validate = .ok () ∧
      ofSettings (besideProxy "HelloWorld") = .ok g ∧ g.registry.get? proxyName = some c) ∧
    ∃ g c proxy, (besideProxy proxyName).validate = .ok () ∧
      ofSettings (besideProxy proxyName) = .ok g ∧ (besideProxy proxyName).proxy = some proxy ∧
      proxy.resource.Describes c ∧ g.registry.get? proxyName ≠ some c := by
  obtain ⟨hvalid, hvalid'⟩ := validate_besideProxy
  obtain ⟨⟨g, hg⟩, g', hg'⟩ := ofSettings_besideProxy
  constructor
  · obtain ⟨c, -, hknown⟩ := (registry_ofSettings hvalid hg).2.1 _ rfl
    refine ⟨g, c, hvalid, hg, hknown.mpr fun r hr hname => ?_⟩
    obtain rfl := List.mem_singleton.mp hr
    exact absurd hname (by decide)
  · obtain ⟨c, hc, hknown⟩ := (registry_ofSettings hvalid' hg').2.1 _ rfl
    refine ⟨g', c, _, hvalid', hg', rfl, hc, fun hget => ?_⟩
    exact not_describes_besideProxy hc (hknown.mp hget _ (List.mem_singleton.mpr rfl) rfl)

/-- Validated settings can name a contract like the proxy, which is not known then. -/
theorem ofSettings_forgets_proxy :
    ¬ ∀ (s : Settings) (g : Gateway) (proxy : ProxySettings), s.validate = .ok () →
      ofSettings s = .ok g → s.proxy = some proxy →
      ∃ c, proxy.resource.Describes c ∧ g.registry.get? proxyName = some c := by
  intro hall
  obtain ⟨-, hvalid⟩ := validate_besideProxy
  obtain ⟨-, g, hg⟩ := ofSettings_besideProxy
  obtain ⟨c, hc, hget⟩ := hall _ g _ hvalid hg rfl
  obtain ⟨d, hd, hget'⟩ := exists_get?_resource hvalid hg _ (List.mem_singleton.mpr rfl)
  rw [hget, Option.some.injEq] at hget'
  exact not_describes_besideProxy hc (hget' ▸ hd)

end Gateway

end LedgerGateway

import LedgerGateway.Configuration.Loader
import LedgerGateway.Proofs.Except
import Mathlib.Data.List.Nodup

/-!
# What validation asks of settings

Validation asks one thing after the other. `Settings.demands` is the list of these demands, each with
what meets it and what is reported where it is broken; validation ends with the first that is. Settings
that meet all of them are sound, which says nothing about an order. What is loaded from a text has been
changed by the environment before it is looked at.
-/

namespace LedgerGateway

/-- The text has more than blanks. -/
def Text.Shows (s : String) : Prop := ∃ c ∈ s.toList, isBlank c = false

theorem Text.isAllBlank_eq_false_iff {s : String} : isAllBlank s = false ↔ Shows s := by
  simp [isAllBlank, Shows, List.all_eq_false]

/-- The text is the address of something. -/
def Address.Writes (text : String) : Prop := ∃ a, read text = .ok a

/-- The text is a JSON list. -/
def Json.WritesList (text : String) : Prop := ∃ items, decodeText asJson text = .ok (.array items)

namespace Settings

/-! ## Demands -/

/-- One thing that is asked of settings. -/
inductive Demand where
  /-- A text has more than blanks; otherwise this is reported. -/
  | shows (text : String) (report : Violation)
  | address (owner text : String)
  /-- The text of an interface is a JSON list. -/
  | interface (owner text : String)
  /-- A name is none of the earlier ones. -/
  | fresh (earlier : List String) (name : String)

namespace Demand

def Met : Demand → Prop
  | shows text _ => Text.Shows text
  | address _ text => Address.Writes text
  | interface _ text => Json.WritesList text
  | fresh earlier name => name ∉ earlier

theorem met_shows {text : String} {report : Violation} :
    (shows text report).Met ↔ Text.Shows text := .rfl

theorem met_address {owner text : String} : (address owner text).Met ↔ Address.Writes text := .rfl

theorem met_interface {owner text : String} : (interface owner text).Met ↔ Json.WritesList text := .rfl

theorem met_fresh {earlier : List String} {name : String} :
    (fresh earlier name).Met ↔ name ∉ earlier := .rfl

/-- The demand is not met, and this is reported. -/
inductive Breaks : Demand → Violation → Prop where
  | blank {text : String} {report : Violation} (h : ¬ Text.Shows text) :
      Breaks (.shows text report) report
  | address {owner text : String} {cause : Address.Error} (h : Address.read text = .error cause) :
      Breaks (.address owner text) (.invalidAddress owner cause)
  | notJson {owner text : String} {cause : Json.ReadError}
      (h : Json.decodeText Json.asJson text = .error cause) :
      Breaks (.interface owner text) (.invalidInterface owner cause)
  | notList {owner text : String} {value : Json} (h : Json.decodeText Json.asJson text = .ok value)
      (hvalue : ∀ items, value ≠ .array items) :
      Breaks (.interface owner text) (.interfaceNotAList owner)
  | duplicate {earlier : List String} {name : String} (h : name ∈ earlier) :
      Breaks (.fresh earlier name) (.duplicateResource name)

/-- How the demand is checked. -/
def check : Demand → Except Violation Unit
  | shows text report => if Text.isAllBlank text then .error report else .ok ()
  | address owner text => checkAddress owner text
  | interface owner text => checkInterface owner text
  | fresh earlier name =>
    if earlier.contains name then .error (.duplicateResource name) else .ok ()

variable {d : Demand} {v : Violation}

theorem check_eq_ok_iff : d.check = .ok () ↔ d.Met := by
  cases d with
  | shows text report =>
    rw [check, Met, ← Text.isAllBlank_eq_false_iff]
    cases Text.isAllBlank text <;> simp
  | address owner text =>
    rw [check, checkAddress, Met, Address.Writes]
    cases Address.read text <;> simp
  | interface owner text =>
    rw [check, checkInterface, Met, Json.WritesList]
    split
    · rename_i items h
      simp [h]
    · rename_i value hvalue h
      simpa [h] using hvalue
    · rename_i cause h
      simp [h]
  | fresh earlier name =>
    rw [check, Met]
    by_cases h : name ∈ earlier <;> simp [h]

theorem breaks_of_check (h : d.check = .error v) : d.Breaks v := by
  cases d with
  | shows text report =>
    rw [check] at h
    split at h
    · rename_i hblank
      cases h
      exact .blank (by simp [← Text.isAllBlank_eq_false_iff, hblank])
    · cases h
  | address owner text =>
    rw [check, checkAddress] at h
    split at h
    · cases h
    · rename_i cause hread
      cases h
      exact .address hread
  | interface owner text =>
    rw [check, checkInterface] at h
    split at h
    · cases h
    · rename_i value hvalue hread
      cases h
      exact .notList hread hvalue
    · rename_i cause hread
      cases h
      exact .notJson hread
  | fresh earlier name =>
    rw [check] at h
    split at h
    · rename_i hearlier
      cases h
      exact .duplicate (by simpa using hearlier)
    · cases h

theorem check_of_breaks (h : d.Breaks v) : d.check = .error v := by
  cases h with
  | blank h =>
    rw [← Text.isAllBlank_eq_false_iff, Bool.not_eq_false] at h
    rw [check, if_pos h]
  | address h => rw [check, checkAddress, h]
  | notJson h => rw [check, checkInterface, h]
  | notList h hvalue =>
    rw [check, checkInterface, h]
    split
    · rename_i items heq
      exact absurd (Except.ok.inj heq) (hvalue items)
    · rfl
    · rename_i heq
      cases heq
  | duplicate h => rw [check, if_pos (by simpa using h)]

theorem check_eq_error_iff : d.check = .error v ↔ d.Breaks v := ⟨breaks_of_check, check_of_breaks⟩

end Demand

/-- What is asked of a contract behind contracts of the earlier names. -/
def resourceDemands (earlier : List String) (r : ResourceSettings) : List Demand :=
  [.shows r.name .emptyResourceName, .fresh earlier r.name] ++
    (r.address.toList.map (.address r.name) ++ [.interface r.name r.abi])

def resourcesDemands (earlier : List String) : List ResourceSettings → List Demand
  | [] => []
  | r :: rest => resourceDemands earlier r ++ resourcesDemands (r.name :: earlier) rest

def proxyDemands (proxy : ProxySettings) : List Demand :=
  [.address "proxy" proxy.address, .interface "proxy" proxy.abi]

/-- All that is asked of settings, in order. -/
def demands (s : Settings) : List Demand :=
  [.shows s.chain.groupId .emptyGroupId, .shows s.chain.chainId .emptyChainId] ++
    (s.proxy.toList.flatMap proxyDemands ++ resourcesDemands [] s.resources)

/-! ## Validation meets the demands in order -/

theorem checkResources_cons (seen : List String) (r : ResourceSettings)
    (rest : List ResourceSettings) : checkResources seen (r :: rest) =
      if Text.isAllBlank r.name then .error .emptyResourceName
      else if seen.contains r.name then .error (.duplicateResource r.name)
      else (do
        r.address.forM (checkAddress r.name)
        checkInterface r.name r.abi
        checkResources (r.name :: seen) rest) := by
  rw [checkResources]
  cases r.address with
  | none => rfl
  | some address => simp only [Option.forM]

theorem validate_eq (s : Settings) : s.validate =
    if Text.isAllBlank s.chain.groupId then .error .emptyGroupId
    else if Text.isAllBlank s.chain.chainId then .error .emptyChainId
    else (do
      s.proxy.forM fun proxy => do
        checkAddress "proxy" proxy.address
        checkInterface "proxy" proxy.abi
      checkResources [] s.resources) := by
  rw [validate]
  cases s.proxy with
  | none => rfl
  | some proxy =>
    simp only [Option.forM]
    cases checkAddress "proxy" proxy.address <;> rfl

theorem check_shows_bind {α : Type} (text : String) (report : Violation)
    (next : PUnit → Except Violation α) :
    ((Demand.shows text report).check >>= next) =
      if Text.isAllBlank text then .error report else next () := by
  rw [Demand.check]
  split <;> rfl

theorem check_fresh_bind {α : Type} (earlier : List String) (name : String)
    (next : PUnit → Except Violation α) :
    ((Demand.fresh earlier name).check >>= next) =
      if earlier.contains name then .error (.duplicateResource name) else next () := by
  rw [Demand.check]
  split <;> rfl

theorem checkResources_eq_forM (earlier : List String) (rs : List ResourceSettings) :
    checkResources earlier rs = forM (resourcesDemands earlier rs) Demand.check := by
  induction rs generalizing earlier with
  | nil => rfl
  | cons r rs ih =>
    rw [checkResources_cons, ih]
    simp only [resourcesDemands, resourceDemands, List.cons_append, List.nil_append,
      List.append_assoc, List.forM_cons, check_shows_bind, check_fresh_bind]
    cases r.address with
    | none => rfl
    | some address => simp only [Option.forM, Option.toList_some, List.map_cons, List.map_nil,
        List.cons_append, List.nil_append, List.forM_cons, Demand.check]

/-- Validation checks the demands one after the other. -/
theorem validate_eq_forM (s : Settings) : s.validate = forM s.demands Demand.check := by
  rw [validate_eq, checkResources_eq_forM]
  simp only [demands, List.cons_append, List.nil_append, List.forM_cons, check_shows_bind]
  cases s.proxy with
  | none => rfl
  | some proxy => simp [Option.forM, Demand.check, proxyDemands]

/-! ## Sound settings -/

/-- What is said about a contract can be read, and it has a name. -/
structure SoundResource (r : ResourceSettings) : Prop where
  name : Text.Shows r.name
  address : ∀ address, r.address = some address → Address.Writes address
  interface : Json.WritesList r.abi

/-- Settings that can be used, whatever was looked at first. -/
structure Sound (s : Settings) : Prop where
  groupId : Text.Shows s.chain.groupId
  chainId : Text.Shows s.chain.chainId
  proxy : ∀ proxy, s.proxy = some proxy → Address.Writes proxy.address ∧ Json.WritesList proxy.abi
  resources : ∀ r ∈ s.resources, SoundResource r
  distinct : (s.resources.map (·.name)).Nodup

theorem met_resourceDemands {earlier : List String} {r : ResourceSettings} :
    (∀ d ∈ resourceDemands earlier r, d.Met) ↔ SoundResource r ∧ r.name ∉ earlier := by
  simp only [resourceDemands, List.forall_mem_append, List.forall_mem_cons, List.forall_mem_map,
    Option.mem_toList, Demand.met_shows, Demand.met_address, Demand.met_interface, Demand.met_fresh]
  constructor
  · rintro ⟨⟨hname, hfresh, -⟩, haddress, hinterface, -⟩
    exact ⟨⟨hname, haddress, hinterface⟩, hfresh⟩
  · rintro ⟨⟨hname, haddress, hinterface⟩, hfresh⟩
    exact ⟨⟨hname, hfresh, by simp⟩, haddress, hinterface, by simp⟩

/-- The demands on contracts are met if each is sound, and no name is that of an earlier one. -/
theorem met_resourcesDemands {earlier : List String} {rs : List ResourceSettings} :
    (∀ d ∈ resourcesDemands earlier rs, d.Met) ↔
      (∀ r ∈ rs, SoundResource r) ∧ (rs.map (·.name)).Nodup ∧ ∀ r ∈ rs, r.name ∉ earlier := by
  induction rs generalizing earlier with
  | nil => simp [resourcesDemands]
  | cons r rs ih =>
    have hother : r.name ∉ rs.map (·.name) ↔ ∀ q ∈ rs, q.name ≠ r.name := by simp
    rw [resourcesDemands, List.forall_mem_append, met_resourceDemands, ih, List.forall_mem_cons,
      List.forall_mem_cons, List.map_cons, List.nodup_cons, hother]
    simp only [List.mem_cons, not_or]
    constructor
    · rintro ⟨⟨hr, hfresh⟩, hrs, hnodup, hlater⟩
      exact ⟨⟨hr, hrs⟩, ⟨fun q hq => (hlater q hq).1, hnodup⟩, hfresh, fun q hq => (hlater q hq).2⟩
    · rintro ⟨⟨hr, hrs⟩, ⟨hother, hnodup⟩, hfresh, hlater⟩
      exact ⟨⟨hr, hfresh⟩, hrs, hnodup, fun q hq => ⟨hother q hq, hlater q hq⟩⟩

/-- Settings are sound exactly if they meet every demand. -/
theorem met_demands {s : Settings} : (∀ d ∈ s.demands, d.Met) ↔ s.Sound := by
  simp only [demands, List.forall_mem_append, List.forall_mem_cons, List.forall_mem_flatMap,
    Option.mem_toList, proxyDemands, met_resourcesDemands, Demand.met_shows, Demand.met_address,
    Demand.met_interface]
  constructor
  · rintro ⟨⟨hgroup, hchain, -⟩, hproxy, hresources, hdistinct, -⟩
    exact ⟨hgroup, hchain, fun proxy h => ⟨(hproxy proxy h).1, (hproxy proxy h).2.1⟩, hresources,
      hdistinct⟩
  · rintro ⟨hgroup, hchain, hproxy, hresources, hdistinct⟩
    exact ⟨⟨hgroup, hchain, by simp⟩, fun proxy h => ⟨(hproxy proxy h).1, (hproxy proxy h).2, by simp⟩,
      hresources, hdistinct, by simp⟩

/-- The violation is that of the first demand that is not met. -/
def FirstBroken (s : Settings) (v : Violation) : Prop :=
  ∃ before d after, s.demands = before ++ d :: after ∧ (∀ e ∈ before, e.Met) ∧ d.Breaks v

theorem validate_eq_ok_iff {s : Settings} : s.validate = .ok () ↔ s.Sound := by
  simp only [validate_eq_forM, forM_eq_ok_iff, Demand.check_eq_ok_iff, met_demands]

theorem validate_eq_error_iff {s : Settings} {v : Violation} :
    s.validate = .error v ↔ s.FirstBroken v := by
  simp only [validate_eq_forM, forM_eq_error_iff, Demand.check_eq_ok_iff, Demand.check_eq_error_iff,
    FirstBroken]

/-! ## Settings from a text -/

/-- The settings as they stand in a text, when its placeholders have been filled. -/
def WrittenIn (env : Placeholder.Environment) (text : String) (written : Settings) : Prop :=
  ∃ filled v, Placeholder.substitute env text = .ok filled ∧ Toml.parse? filled = some v ∧
    decoder .toml v.node = .ok written

/-- The settings with what the environment says in place of what was written. -/
structure Overridden (env : Placeholder.Environment) (lead : String) (written s : Settings) : Prop where
  groupId : s.chain.groupId = (env (lead ++ "GROUP_ID")).getD written.chain.groupId
  chainId : s.chain.chainId = (env (lead ++ "CHAIN_ID")).getD written.chain.chainId
  nodeVersion : s.chain.nodeVersion = (env (lead ++ "NODE_VERSION")).or written.chain.nodeVersion
  name : s.chain.name = written.chain.name
  crypto : s.chain.crypto = written.chain.crypto
  proxy : s.proxy = written.proxy
  resources : s.resources = written.resources

theorem overridden_iff {env : Placeholder.Environment} {lead : String} {written s : Settings} :
    Overridden env lead written s ↔ s = written.override env lead := by
  have hor : (env (lead ++ "NODE_VERSION")).orElse (fun _ => written.chain.nodeVersion) =
      (env (lead ++ "NODE_VERSION")).or written.chain.nodeVersion := by
    cases env (lead ++ "NODE_VERSION") <;> rfl
  constructor
  · rintro ⟨hgroup, hchain, hversion, hname, hcrypto, hproxy, hresources⟩
    obtain ⟨⟨name, groupId, chainId, crypto, nodeVersion⟩, proxy, resources⟩ := s
    simp only at hgroup hchain hversion hname hcrypto hproxy hresources
    simp only [override, hor, hgroup, hchain, hversion, hname, hcrypto, hproxy, hresources]
  · rintro rfl
    exact ⟨rfl, rfl, hor, rfl, rfl, rfl, rfl⟩

end Settings

open Settings

theorem Loader.loadText_eq_ok_iff {l : Loader} {env : Placeholder.Environment} {text : String}
    {s : Settings} : l.loadText env text = .ok s ↔
      ∃ written, WrittenIn env text written ∧ s = written.override env l.lead ∧
        s.validate = .ok () := by
  rw [loadText, except_bind_eq_ok]
  constructor
  · rintro ⟨filled, hfilled, h⟩
    split at h
    · cases h
    · rename_i v hv
      obtain ⟨written, hwritten, h⟩ := except_bind_eq_ok.mp h
      obtain ⟨hvalid, h⟩ := check_bind_eq_ok.mp h
      cases h
      exact ⟨written, ⟨filled, v, mapError_eq_ok.mp hfilled, hv, mapError_eq_ok.mp hwritten⟩, rfl,
        mapError_eq_ok.mp hvalid⟩
  · rintro ⟨written, ⟨filled, v, hfilled, hv, hwritten⟩, rfl, hvalid⟩
    refine ⟨filled, mapError_eq_ok.mpr hfilled, ?_⟩
    rw [hv]
    exact except_bind_eq_ok.mpr ⟨written, mapError_eq_ok.mpr hwritten,
      check_bind_eq_ok.mpr ⟨mapError_eq_ok.mpr hvalid, rfl⟩⟩

/-- What is loaded from a text are the settings that stand in it, with what the environment says in
place of what was written, and they are sound. Settings are refused exactly if they are not, and the
first demand that they break is reported. -/
theorem Loader.loadText_sound (l : Loader) (env : Placeholder.Environment) :
    (∀ text s, l.loadText env text = .ok s ↔
      ∃ written, WrittenIn env text written ∧ Overridden env l.lead written s ∧ s.Sound) ∧
    ∀ s : Settings, ((∃ v, s.validate = .error v) ↔ ¬ s.Sound) ∧
      ∀ v, s.validate = .error v ↔ s.FirstBroken v := by
  refine ⟨fun text s => ?_, fun s => ⟨?_, fun v => validate_eq_error_iff⟩⟩
  · simp only [loadText_eq_ok_iff, overridden_iff, validate_eq_ok_iff]
  · rw [← validate_eq_ok_iff]
    cases s.validate <;> simp

/-- An environment in which only the group is set. -/
def groupOnly (name : String) : Option String :=
  if name = "BCOS_STUB_GROUP_ID" then some "group9" else none

/-- Two contracts, the first without an address that can be read, the second without a name. -/
def twiceBroken : Settings where
  chain := { name := "bcos" }
  resources := [⟨"HelloWorld", some "0x12", "[]"⟩, ⟨" ", none, "[]"⟩]

/-- A blank group is saved by the environment, and of two contracts the first is reported. -/
theorem Loader.loadText_sound_overridden :
    (∃ s, ({} : Loader).loadText groupOnly "[chain]\nname = \"bcos\"\ngroup_id = \" \"" = .ok s ∧
      s.chain.groupId = "group9" ∧ s.Sound) ∧
    twiceBroken.FirstBroken (.invalidAddress "HelloWorld" .wrongLength) ∧ ¬ twiceBroken.Sound := by
  obtain ⟨hload, hvalidate⟩ := loadText_sound {} groupOnly
  have htext : ({} : Loader).loadText groupOnly "[chain]\nname = \"bcos\"\ngroup_id = \" \"" =
      .ok { chain := { name := "bcos", groupId := "group9" } } := by decide +kernel
  have hbroken : twiceBroken.validate = .error (.invalidAddress "HelloWorld" .wrongLength) := rfl
  obtain ⟨-, -, -, hsound⟩ := (hload _ _).mp htext
  exact ⟨⟨_, htext, rfl, hsound⟩, ((hvalidate twiceBroken).2 _).mp hbroken,
    (hvalidate twiceBroken).1.mp ⟨_, hbroken⟩⟩

end LedgerGateway

import LedgerGateway.Proofs.Except
import LedgerGateway.Registry
import Mathlib.Data.List.Nodup

/-!
# Registries that were built

A registry starts empty; contracts are registered by the text of their interface and erased by their
name. Whatever was done, the interface that is looked up is the one that the text beside it reads as.
-/

namespace LedgerGateway.Registry

open Abi

variable {r r' : Registry} {c : Contract} {name text : String} {address? : Option Address}

/-- A registry that was empty once and has been changed by registering and erasing only. -/
inductive Built : Registry → Prop
  | empty : Built .empty
  | register {r r' : Registry} {c : Contract} {name text : String} {address? : Option Address} :
      Built r → r.register name address? text = .ok (c, r') → Built r'
  | erase {r : Registry} (name : String) : Built r → Built (r.erase name)

theorem register_eq_ok : r.register name address? text = .ok (c, r') ↔
    ∃ i, Interface.read text = .ok i ∧ c = ⟨name, address?, i, text⟩ ∧ r' = r.insert c := by
  rw [register, except_bind_eq_ok]
  constructor
  · rintro ⟨i, hread, h⟩
    cases h
    exact ⟨i, hread, rfl, rfl⟩
  · rintro ⟨i, hread, rfl, rfl⟩
    exact ⟨i, hread, rfl⟩

/-- The interface of a contract is never another than that of its text. -/
theorem Built.read_interfaceText (h : Built r) :
    ∀ {name : String} {c : Contract}, r.get? name = some c →
      Interface.read c.interfaceText = .ok c.interface := by
  induction h with
  | empty =>
    intro name c hc
    cases hc
  | register hbuilt hregister ih =>
    intro other d hd
    obtain ⟨i, hread, rfl, rfl⟩ := register_eq_ok.mp hregister
    rw [get?_insert] at hd
    split at hd
    · cases hd
      exact hread
    · exact ih hd
  | erase name hbuilt ih =>
    intro other d hd
    rw [get?_erase] at hd
    split at hd
    · cases hd
    · exact ih hd

/-- A contract is found by its name, which is that of no other one. -/
theorem get?_of_mem (h : c ∈ r.contracts) : r.get? c.name = some c := by
  obtain ⟨d, hd⟩ : ∃ d, r.get? c.name = some d := by
    rw [← Option.isSome_iff_exists, get?, List.find?_isSome]
    exact ⟨c, h, beq_self_eq_true c.name⟩
  have hname : d.name = c.name := by simpa using List.find?_some hd
  rw [hd, List.inj_on_of_nodup_map r.nodup (List.mem_of_find?_eq_some hd) h hname]

/-- A contract that is found at an address has it, and is found by its name as well. -/
theorem get?_of_findByAddress? {address : Address} (h : r.findByAddress? address = some c) :
    c.address? = some address ∧ r.get? c.name = some c :=
  ⟨by simpa using List.find?_some h, get?_of_mem (List.mem_of_find?_eq_some h)⟩

theorem exists_findByAddress? {address : Address} (h : r.get? name = some c)
    (haddress : c.address? = some address) : ∃ d, r.findByAddress? address = some d := by
  rw [← Option.isSome_iff_exists, findByAddress?, List.find?_isSome]
  exact ⟨c, List.mem_of_find?_eq_some h, by simp [haddress]⟩

end LedgerGateway.Registry

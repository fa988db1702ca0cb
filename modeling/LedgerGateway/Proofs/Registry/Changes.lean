import LedgerGateway.Proofs.Registry
import Mathlib.Data.List.Induction

/-!
# Registries are maps

A registry that was empty once is a map from names to contracts. What it holds under a name depends on
the changes to this name alone, and among them on the last that was not refused. The contracts may be
kept in any order: that shows only in which contract is found at an address that several have.
-/

namespace LedgerGateway.Registry

open Abi

/-- A change of a registry as somebody asks for it. -/
inductive Change where
  | register (name : String) (address? : Option Address) (interfaceText : String)
  | erase (name : String)

namespace Change

/-- The name that a change is about. -/
def name : Change → String
  | register name _ _ => name
  | erase name => name

/-- What is to be known under the name afterwards. -/
def wanted : Change → Except CallError (Option Contract)
  | register name address? text =>
    (Interface.read text).map fun interface => some ⟨name, address?, interface, text⟩
  | erase _ => .ok none

/-- A contract whose text is no interface is refused. -/
def Refused (x : Change) : Prop := ∃ e, x.wanted = .error e

/-- The change registers this contract. -/
def Registers (x : Change) (c : Contract) : Prop :=
  x = register c.name c.address? c.interfaceText ∧ Interface.read c.interfaceText = .ok c.interface

end Change

/-- The contract comes from the last change to its name that was not refused. -/
def Stands (changes : List Change) (c : Contract) : Prop :=
  ∃ before x after, changes = before ++ x :: after ∧ x.Registers c ∧
    ∀ y ∈ after, y.name = c.name → y.Refused

/-- The registry after a change. A change that is refused leaves it as it is. -/
def apply (r : Registry) : Change → Registry
  | .register name address? text =>
    match r.register name address? text with
    | .ok (_, changed) => changed
    | .error _ => r
  | .erase name => r.erase name

/-- What is answered to a change: the contract that is registered, or the one that is erased. -/
def answer (r : Registry) : Change → Except CallError (Option Contract)
  | .register name address? text => (r.register name address? text).map fun (c, _) => some c
  | .erase name => .ok (r.get? name)

def applyAll (r : Registry) (changes : List Change) : Registry := changes.foldl apply r

/-- The registry is the map that the changes leave, if they are made to an empty one. -/
structure Reflects (r : Registry) (changes : List Change) : Prop where
  get? : ∀ name c, r.get? name = some c ↔ c.name = name ∧ Stands changes c
  /-- The size counts the names under which there is a contract. -/
  size : ∃ names : List String, names.Nodup ∧
    (∀ name, name ∈ names ↔ ∃ c, c.name = name ∧ Stands changes c) ∧ r.size = names.length
  findByAddress? : ∀ address,
    ((∃ c, r.findByAddress? address = some c) ↔
      ∃ c, c.address? = some address ∧ Stands changes c) ∧
    ∀ c, r.findByAddress? address = some c →
      c.address? = some address ∧ Stands changes c ∧ r.get? c.name = some c

variable {r r' : Registry} {x y : Change} {c : Contract} {name : String}

/-! ## One change -/

theorem register_eq_map (r : Registry) (name text : String) (address? : Option Address) :
    r.register name address? text =
      (Interface.read text).map fun i =>
        (⟨name, address?, i, text⟩, r.insert ⟨name, address?, i, text⟩) := by
  rw [register]
  cases Interface.read text <;> rfl

theorem answer_eq_error_iff {e : CallError} : r.answer x = .error e ↔ x.wanted = .error e := by
  cases x with
  | register name address? text =>
    rw [answer, Change.wanted, map_eq_error, register_eq_map, map_eq_error, map_eq_error]
  | erase name => simp [answer, Change.wanted]

theorem apply_of_refused (h : x.Refused) (r : Registry) : r.apply x = r := by
  obtain ⟨e, he⟩ := h
  cases x with
  | register name address? text =>
    rw [Change.wanted, map_eq_error] at he
    rw [apply, register_eq_map, he]
    rfl
  | erase name => cases he

/-- A change shows under its name only, and not at all if it is refused. -/
theorem get?_apply (r : Registry) (x : Change) (name : String) :
    (r.apply x).get? name =
      match x.wanted with
      | .ok c? => if name = x.name then c? else r.get? name
      | .error _ => r.get? name := by
  cases x with
  | register other address? text =>
    rw [apply, register_eq_map, Change.wanted]
    cases Interface.read text with
    | ok i => exact get?_insert r _ name
    | error e => rfl
  | erase other => exact get?_erase r other name

theorem wanted_eq_some_iff : x.wanted = .ok (some c) ↔ x.Registers c := by
  cases x with
  | register name address? text =>
    rw [Change.wanted, map_eq_ok, Change.Registers, Change.register.injEq]
    constructor
    · rintro ⟨i, hread, hc⟩
      cases hc
      exact ⟨⟨rfl, rfl, rfl⟩, hread⟩
    · rintro ⟨⟨rfl, rfl, rfl⟩, hread⟩
      exact ⟨c.interface, hread, rfl⟩
  | erase name => simp [Change.wanted, Change.Registers]

theorem name_of_registers (h : x.Registers c) : x.name = c.name := by
  rw [h.1]
  rfl

/-- A contract that is known after a change is the registered one, or it was known before. -/
theorem get?_apply_eq_some_iff : (r.apply x).get? name = some c ↔
    (c.name = name ∧ x.Registers c) ∨ (r.get? name = some c ∧ (x.name = name → x.Refused)) := by
  rw [get?_apply]
  cases hx : x.wanted with
  | error e =>
    have hrefused : x.Refused := ⟨e, hx⟩
    have hnone : ¬ x.Registers c := by
      rw [← wanted_eq_some_iff, hx]
      simp
    simp [hrefused, hnone]
  | ok c? =>
    have hrefused : ¬ x.Refused := by
      rintro ⟨e, he⟩
      rw [hx] at he
      cases he
    have hregisters : x.Registers c ↔ c? = some c := by
      rw [← wanted_eq_some_iff, hx, Except.ok.injEq]
    simp only [hrefused, imp_false]
    by_cases hname : name = x.name
    · rw [if_pos hname]
      constructor
      · intro hc
        have hc := hregisters.mpr hc
        exact .inl ⟨by rw [hname, name_of_registers hc], hc⟩
      · rintro (⟨-, hc⟩ | ⟨-, hne⟩)
        · exact hregisters.mp hc
        · exact absurd hname.symm hne
    · rw [if_neg hname]
      constructor
      · exact fun h => .inr ⟨h, Ne.symm hname⟩
      · rintro (⟨rfl, hc⟩ | ⟨h, -⟩)
        · exact absurd (name_of_registers hc).symm hname
        · exact h

/-- An answer does not depend on changes to other names. -/
theorem answer_apply_of_ne (h : x.name ≠ y.name) (r : Registry) :
    (r.apply x).answer y = r.answer y := by
  cases y with
  | register name address? text =>
    rw [answer, answer, register_eq_map, register_eq_map]
    cases Interface.read text <;> rfl
  | erase name =>
    rw [answer, answer, get?_apply]
    cases x.wanted with
    | ok c? => exact congrArg Except.ok (if_neg (Ne.symm h))
    | error e => rfl

/-! ## The same contracts in another order -/

theorem mem_contracts_iff : c ∈ r.contracts ↔ r.get? c.name = some c :=
  ⟨get?_of_mem, List.mem_of_find?_eq_some⟩

theorem name_of_get? (h : r.get? name = some c) : c.name = name := by
  simpa using List.find?_some h

theorem perm_of_get? (h : ∀ name, r.get? name = r'.get? name) : r.contracts.Perm r'.contracts := by
  refine (List.perm_ext_iff_of_nodup r.nodup.of_map r'.nodup.of_map).mpr fun c => ?_
  rw [mem_contracts_iff, mem_contracts_iff, h]

theorem get?_of_perm (h : r.contracts.Perm r'.contracts) (name : String) :
    r.get? name = r'.get? name := by
  ext c
  constructor
  · intro hc
    have hmem := h.mem_iff.mp (List.mem_of_find?_eq_some hc)
    rw [← name_of_get? hc]
    exact get?_of_mem hmem
  · intro hc
    have hmem := h.mem_iff.mpr (List.mem_of_find?_eq_some hc)
    rw [← name_of_get? hc]
    exact get?_of_mem hmem

/-! ## Many changes -/

theorem applyAll_append (r : Registry) (before after : List Change) :
    r.applyAll (before ++ after) = (r.applyAll before).applyAll after :=
  List.foldl_append

/-- Registries that know the same contracts still do so after the same changes. -/
theorem get?_applyAll_congr (h : ∀ name, r.get? name = r'.get? name) (changes : List Change) :
    ∀ name, (r.applyAll changes).get? name = (r'.applyAll changes).get? name := by
  induction changes generalizing r r' with
  | nil => exact h
  | cons x changes ih =>
    refine ih fun name => ?_
    rw [get?_apply, get?_apply, h]

/-- A change that is refused might as well not have been asked for. -/
theorem applyAll_refused (h : x.Refused) (r : Registry) (before after : List Change) :
    r.applyAll (before ++ x :: after) = r.applyAll (before ++ after) := by
  rw [applyAll_append, applyAll_append]
  change (((r.applyAll before).apply x).applyAll after) = _
  rw [apply_of_refused h]

theorem get?_apply_comm (h : x.name ≠ y.name) (r : Registry) (name : String) :
    ((r.apply x).apply y).get? name = ((r.apply y).apply x).get? name := by
  simp only [get?_apply]
  cases x.wanted with
  | error e => rfl
  | ok c? =>
    cases y.wanted with
    | error e => rfl
    | ok d? =>
      simp only
      by_cases hx : name = x.name
      · have hy : name ≠ y.name := hx ▸ h
        rw [if_pos hx, if_neg hy, if_pos hx]
      · rw [if_neg hx, if_neg hx]

/-- Changes to different names may be made in either order. -/
theorem applyAll_comm (h : x.name ≠ y.name) (r : Registry) (before after : List Change) :
    (r.applyAll (before ++ x :: y :: after)).contracts.Perm
      (r.applyAll (before ++ y :: x :: after)).contracts := by
  rw [applyAll_append, applyAll_append]
  exact perm_of_get? (get?_applyAll_congr (get?_apply_comm h _) after)

/-- The last change decides about its name, unless it is refused. -/
theorem stands_concat {changes : List Change} : Stands (changes ++ [x]) c ↔
    x.Registers c ∨ (Stands changes c ∧ (x.name = c.name → x.Refused)) := by
  constructor
  · rintro ⟨before, z, after, hchanges, hz, hafter⟩
    rcases List.eq_nil_or_concat after with rfl | ⟨after, w, rfl⟩
    · obtain ⟨-, hx⟩ := List.append_inj' hchanges rfl
      obtain rfl := List.singleton_inj.mp hx
      exact .inl hz
    · rw [List.concat_eq_append, ← List.cons_append, ← List.append_assoc] at hchanges
      obtain ⟨rfl, hx⟩ := List.append_inj' hchanges rfl
      obtain rfl := List.singleton_inj.mp hx
      refine .inr ⟨⟨before, z, after, rfl, hz, fun y hy => hafter y (by simp [hy])⟩, ?_⟩
      exact hafter x (by simp)
  · rintro (hx | ⟨⟨before, z, after, rfl, hz, hafter⟩, hx⟩)
    · exact ⟨changes, x, [], rfl, hx, by simp⟩
    · refine ⟨before, z, after ++ [x], by simp, hz, fun y hy => ?_⟩
      rcases List.mem_append.mp hy with hy | hy
      · exact hafter y hy
      · rw [List.mem_singleton.mp hy]
        exact hx

/-- What is known under a name is what stands. -/
theorem get?_applyAll_eq_some_iff {changes : List Change} :
    (empty.applyAll changes).get? name = some c ↔ c.name = name ∧ Stands changes c := by
  induction changes using List.reverseRecOn generalizing c with
  | nil => simp [applyAll, Stands]
  | append_singleton changes x ih =>
    rw [applyAll_append]
    change ((empty.applyAll changes).apply x).get? name = some c ↔ _
    rw [get?_apply_eq_some_iff, ih, stands_concat]
    constructor
    · rintro (⟨rfl, hx⟩ | ⟨⟨rfl, hc⟩, hx⟩)
      · exact ⟨rfl, .inl hx⟩
      · exact ⟨rfl, .inr ⟨hc, hx⟩⟩
    · rintro ⟨rfl, hx | ⟨hc, hx⟩⟩
      · exact .inl ⟨rfl, hx⟩
      · exact .inr ⟨⟨rfl, hc⟩, hx⟩

theorem mem_iff_stands {changes : List Change}
    (h : ∀ name c, r.get? name = some c ↔ c.name = name ∧ Stands changes c) :
    c ∈ r.contracts ↔ Stands changes c := by
  rw [mem_contracts_iff, h]
  exact and_iff_right rfl

/-- A registry with the right contracts under the names is right in all that can be asked of it. -/
theorem reflects_of_get? {changes : List Change}
    (h : ∀ name c, r.get? name = some c ↔ c.name = name ∧ Stands changes c) :
    r.Reflects changes := by
  refine ⟨h, ⟨r.contracts.map (·.name), r.nodup, fun name => ?_, by simp [size]⟩, fun address => ?_⟩
  · rw [List.mem_map]
    constructor
    · rintro ⟨c, hc, hname⟩
      exact ⟨c, hname, (mem_iff_stands h).mp hc⟩
    · rintro ⟨c, hname, hc⟩
      exact ⟨c, (mem_iff_stands h).mpr hc, hname⟩
  · have hfound : ∀ c, r.findByAddress? address = some c →
        c.address? = some address ∧ Stands changes c ∧ r.get? c.name = some c := by
      intro c hc
      obtain ⟨haddress, hget⟩ := get?_of_findByAddress? hc
      exact ⟨haddress, ((h _ _).mp hget).2, hget⟩
    refine ⟨⟨?_, ?_⟩, hfound⟩
    · rintro ⟨c, hc⟩
      exact ⟨c, (hfound c hc).1, (hfound c hc).2.1⟩
    · rintro ⟨c, haddress, hc⟩
      exact exists_findByAddress? ((h _ _).mpr ⟨rfl, hc⟩) haddress

/-- Whatever has been done to a registry that was empty: it is the map of what stands, in whatever order
it keeps its contracts. A change that is answered with an error changes nothing, and two changes to
different names may be made in either order, with the same answers. -/
theorem applyAll_isMap (changes : List Change) :
    (∀ r : Registry, r.contracts.Perm (empty.applyAll changes).contracts → r.Reflects changes) ∧
    (∀ before x after e, changes = before ++ x :: after →
      (empty.applyAll before).answer x = .error e →
      empty.applyAll changes = empty.applyAll (before ++ after)) ∧
    ∀ before x y after, changes = before ++ x :: y :: after → x.name ≠ y.name →
      (empty.applyAll changes).contracts.Perm
        (empty.applyAll (before ++ y :: x :: after)).contracts ∧
      ((empty.applyAll before).apply x).answer y = (empty.applyAll before).answer y ∧
      ((empty.applyAll before).apply y).answer x = (empty.applyAll before).answer x := by
  refine ⟨?map, ?refused, ?swapped⟩
  case map =>
    intro r hperm
    refine reflects_of_get? fun name c => ?_
    rw [get?_of_perm hperm, get?_applyAll_eq_some_iff]
  case refused =>
    rintro before x after e rfl he
    exact applyAll_refused ⟨e, answer_eq_error_iff.mp he⟩ empty before after
  case swapped =>
    rintro before x y after rfl hne
    exact ⟨applyAll_comm hne empty before after, answer_apply_of_ne hne _,
      answer_apply_of_ne (Ne.symm hne) _⟩

/-- A contract that is registered, registered anew with an address, and then refused, beside another one
that comes and goes. -/
def sampleChanges : List Change :=
  [.register "Hello" none "[]", .register "Other" none "[]", .register "Hello" (some Address.zero) "[]",
    .register "Hello" none "[1]", .erase "Other"]

theorem applyAll_isMap_sample :
    ∃ r : Registry, r.contracts.Perm (empty.applyAll sampleChanges).contracts ∧
      r.Reflects sampleChanges ∧
      Stands sampleChanges ⟨"Hello", some Address.zero, {}, "[]"⟩ ∧
      (∃ e, (empty.applyAll (sampleChanges.take 3)).answer (.register "Hello" none "[1]") = .error e) ∧
      empty.applyAll sampleChanges = empty.applyAll (sampleChanges.take 3 ++ [.erase "Other"]) ∧
      "Hello" ≠ "Other" ∧
      (empty.applyAll sampleChanges).contracts.Perm
        (empty.applyAll
          (sampleChanges.take 3 ++ [.erase "Other", .register "Hello" none "[1]"])).contracts := by
  obtain ⟨hmap, hrefused, hswapped⟩ := applyAll_isMap sampleChanges
  have hreflects := hmap _ (List.Perm.refl _)
  have hknown : (empty.applyAll sampleChanges).get? "Hello" =
      some ⟨"Hello", some Address.zero, {}, "[]"⟩ := rfl
  have herror : (empty.applyAll (sampleChanges.take 3)).answer (.register "Hello" none "[1]") =
      .error (.invalidInterface ⟨some (.unexpected "a record"), 1, 3⟩) := rfl
  exact ⟨_, List.Perm.refl _, hreflects, ((hreflects.get? _ _).mp hknown).2, ⟨_, herror⟩,
    hrefused _ _ _ _ rfl herror, by decide, (hswapped _ _ _ _ rfl (by decide)).1⟩

end LedgerGateway.Registry

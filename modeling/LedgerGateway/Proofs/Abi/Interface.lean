import LedgerGateway.Call.Method
import LedgerGateway.Proofs.Abi.Signature
import LedgerGateway.Proofs.Except
import LedgerGateway.Proofs.Json.Written

/-!
# What is known of an interface that was read

The reader of interfaces lets only functions through whose name is an identifier and whose parameters
are types of the grammar. Whether anybody knows these types is left open until they are used.
-/

namespace LedgerGateway

open Json

theorem Json.forall_of_each {α : Type} {decode : Decoder α} {P : α → Prop}
    (hdecode : ∀ {node a}, decode node = .ok a → P a) {nodes : List Node} {as : List α}
    (h : each decode nodes = .ok as) : ∀ a ∈ as, P a := by
  induction nodes generalizing as with
  | nil =>
    cases h
    simp
  | cons node nodes ih =>
    rw [each] at h
    obtain ⟨first, hfirst, h⟩ := except_bind_eq_ok.mp h
    obtain ⟨others, hothers, h⟩ := except_bind_eq_ok.mp h
    cases h
    simpa using ⟨hdecode hfirst, ih hothers⟩

theorem Json.forall_of_asList {α : Type} {decode : Decoder α} {P : α → Prop}
    (hdecode : ∀ {node a}, decode node = .ok a → P a) {node : Node} {as : List α}
    (h : asList decode node = .ok as) : ∀ a ∈ as, P a := by
  cases node with
  | array items => exact forall_of_each hdecode h
  | _ => cases h

theorem Json.Slot.orElse_cases {α : Type} {default a : α} {decode : Decoder α} {slot : Slot}
    (h : slot.orElse default decode = .ok a) : a = default ∨ ∃ node, decode node = .ok a := by
  cases slot with
  | given node => exact .inr ⟨node, h⟩
  | absent =>
    cases h
    exact .inl rfl

theorem Json.Slot.required_cases {α : Type} {field : String} {a : α} {decode : Decoder α}
    {slot : Slot} (h : slot.required field decode = .ok a) : ∃ node, decode node = .ok a := by
  cases slot with
  | given node => exact ⟨node, h⟩
  | absent => cases h

theorem Json.decodeBytes_cases {α : Type} {decode : Decoder α} {bytes : Bytes} {a : α}
    (h : decodeBytes decode bytes = .ok a) : ∃ node, decode node = .ok a := by
  unfold decodeBytes at h
  split at h
  · cases h
  · rename_i node _
    split at h
    · cases h
    · rename_i hnode
      cases h
      exact ⟨node, hnode⟩

namespace Abi

namespace Parameter

theorem areChecked_iff {ps : List Parameter} :
    areChecked ps = true ↔ ∀ p ∈ ps, p.isChecked = true := by
  induction ps with
  | nil => simp [areChecked]
  | cons p ps ih => simp [areChecked, ih]

theorem isChecked_of_checked {name typeText : String} {components : List Parameter} {p : Parameter}
    (hparts : areChecked components = true) (h : checked name typeText components = .ok p) :
    p.isChecked = true := by
  unfold checked at h
  split at h
  · cases h
  · split at h
    · split at h
      · rename_i q hq
        cases h
        obtain ⟨written, hparse, rfl⟩ := Option.map_eq_some_iff.mp hq
        rw [isChecked, hparse, Option.isSome_some]
      · cases h
    · rename_i hsome
      split at h
      · rename_i hword
        cases h
        cases components with
        | nil => exact absurd rfl hsome
        | cons part parts =>
          obtain ⟨hpart, hothers⟩ : part.isChecked = true ∧ areChecked parts = true := by
            simpa [areChecked] using hparts
          simp [isChecked, hword, hpart, hothers]
      · cases h

theorem isChecked_of_decoder {depth : Nat} {ofEvent : Bool} {node : Node} {p : Parameter}
    (h : decoder ofEvent depth node = .ok p) : p.isChecked = true := by
  induction depth using Nat.strongRecOn generalizing ofEvent node p with
  | ind depth ih =>
    match depth, ih, h with
    | 0, _, h => cases h
    | depth + 1, ih, h =>
      rw [decoder.eq_def] at h
      obtain ⟨slot, -, h⟩ := except_bind_eq_ok.mp h
      obtain ⟨name, -, h⟩ := except_bind_eq_ok.mp h
      obtain ⟨typeText, -, h⟩ := except_bind_eq_ok.mp h
      obtain ⟨indexed, -, h⟩ := except_bind_eq_ok.mp h
      obtain ⟨_, -, h⟩ := except_bind_eq_ok.mp h
      obtain ⟨components, hcomponents, h⟩ := except_bind_eq_ok.mp h
      split at h
      · cases h
      refine isChecked_of_checked (areChecked_iff.mpr ?_) h
      rcases Slot.orElse_cases hcomponents with rfl | ⟨parts, hparts⟩
      · simp
      · cases depth with
        | zero => cases hparts
        | succ depth => exact forall_of_asList (ih depth (by omega)) hparts

end Parameter

namespace Interface

theorem mem_insertFunction {f g : Function} {fs : List Function} (h : g ∈ insertFunction f fs) :
    g = f ∨ g ∈ fs := by
  induction fs with
  | nil => simpa [insertFunction] using h
  | cons head fs ih =>
    rw [insertFunction] at h
    split at h
    · simpa using h
    · rcases List.mem_cons.mp h with rfl | hmem
      · exact .inr List.mem_cons_self
      · rcases ih hmem with rfl | hrest
        · exact .inl rfl
        · exact .inr (List.mem_cons_of_mem head hrest)

theorem isIdentifier_of_decoder {node : Node} {name : String}
    (h : identifierDecoder node = .ok name) : isIdentifier name = true := by
  unfold identifierDecoder at h
  obtain ⟨s, -, h⟩ := except_bind_eq_ok.mp h
  split at h
  · rename_i hname
    cases h
    exact hname
  · cases h

theorem isChecked_of_itemDecoder {node : Node} {f : Function}
    (h : itemDecoder node = .ok (.function f)) : f.isChecked = true := by
  unfold itemDecoder at h
  obtain ⟨kind, -, h⟩ := except_bind_eq_ok.mp h
  split at h
  · obtain ⟨slot, -, h⟩ := except_bind_eq_ok.mp h
    obtain ⟨name, hname, h⟩ := except_bind_eq_ok.mp h
    obtain ⟨inputs, hinputs, h⟩ := except_bind_eq_ok.mp h
    obtain ⟨outputs, -, h⟩ := except_bind_eq_ok.mp h
    obtain ⟨_, -, h⟩ := except_bind_eq_ok.mp h
    cases h
    obtain ⟨nameNode, hname⟩ := Slot.required_cases hname
    obtain ⟨inputsNode, hinputs⟩ := Slot.required_cases hinputs
    have hchecked := forall_of_asList Parameter.isChecked_of_decoder hinputs
    rw [Function.isChecked, isIdentifier_of_decoder hname, Parameter.areChecked_iff.mpr hchecked]
    rfl
  -- all other items are none of functions
  · iterate 3 obtain ⟨_, -, h⟩ := except_bind_eq_ok.mp h
    cases h
  · iterate 2 obtain ⟨_, -, h⟩ := except_bind_eq_ok.mp h
    cases h
  · iterate 2 obtain ⟨_, -, h⟩ := except_bind_eq_ok.mp h
    cases h
  · iterate 4 obtain ⟨_, -, h⟩ := except_bind_eq_ok.mp h
    cases h
  · iterate 3 obtain ⟨_, -, h⟩ := except_bind_eq_ok.mp h
    cases h
  · cases h

theorem isChecked_of_add {i j : Interface} {item : Item} (h : i.add item = .ok j)
    (hi : ∀ f ∈ i.functions, f.isChecked = true)
    (hitem : ∀ f, item = .function f → f.isChecked = true) :
    ∀ f ∈ j.functions, f.isChecked = true := by
  cases item with
  | function f =>
    cases h
    intro g hg
    rcases mem_insertFunction hg with rfl | hmem
    · exact hitem g rfl
    · exact hi g hmem
  | event | error =>
    cases h
    exact hi
  | constructor inputs | fallback | receive =>
    rw [add] at h
    split at h
    · cases h
    · cases h
      exact hi

theorem isChecked_of_addAll {i j : Interface} {nodes : List Node} (h : i.addAll nodes = .ok j)
    (hi : ∀ f ∈ i.functions, f.isChecked = true) : ∀ f ∈ j.functions, f.isChecked = true := by
  induction nodes generalizing i with
  | nil =>
    cases h
    exact hi
  | cons node nodes ih =>
    rw [addAll] at h
    obtain ⟨_, -, h⟩ := except_bind_eq_ok.mp h
    obtain ⟨item, hitem, h⟩ := except_bind_eq_ok.mp h
    obtain ⟨next, hnext, h⟩ := except_bind_eq_ok.mp h
    refine ih h (isChecked_of_add hnext hi ?_)
    rintro f rfl
    exact isChecked_of_itemDecoder hitem

/-- Every function of an interface that was read has an identifier for a name, and parameters whose
types are in the grammar. -/
theorem isChecked_of_read {text : String} {i : Interface} (h : read text = .ok i) :
    ∀ f ∈ i.functions, f.isChecked = true := by
  obtain ⟨node, hnode⟩ := decodeBytes_cases (mapError_eq_ok.mp h)
  cases node with
  | array items => exact isChecked_of_addAll hnode (by simp)
  | _ => cases hnode

/-- An interface that was written as JSON is read as its entries are. -/
theorem read_render {j : Json} (hwhole : j.isWhole = true) {i : Interface}
    (h : decoder j.node = .ok i) : read j.render = .ok i := by
  have hbytes := decodeBytes_bytes hwhole h
  rw [read, parse, decodeText, ← Json.bytes, hbytes]
  rfl

end Interface

end Abi

end LedgerGateway

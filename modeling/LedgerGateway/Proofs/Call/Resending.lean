import LedgerGateway.Proofs.Abi.Rendered
import LedgerGateway.Proofs.Call.Unwrapping

/-!
# Reported arguments are sent again

The texts that are reported for values are themselves arguments. They stand for the values again if
each of them is read again, and then they are encoded to the same call data.
-/

namespace LedgerGateway

open Abi

namespace Arguments

variable {ps : List Parameter} {ts : List Ty} {vs : List Value}

/-- Each value is read again by itself. -/
theorem readEach_renderAll (hproper : Ty.areProper ts = true) (htypes : List.Forall₂ HasType vs ts) :
    readEach ts (Value.renderAll vs) = .ok vs ↔ List.Forall₂ Value.Rereadable vs ts := by
  induction htypes with
  | nil => exact iff_of_true rfl .nil
  | @cons v t vs ts htype _ ih =>
    obtain ⟨hfirst, hothers⟩ := Ty.areProper_cons.mp hproper
    rw [Value.renderAll, List.forall₂_cons, ← Ty.read?_render_iff hfirst htype, ← ih hothers]
    constructor
    · intro h
      obtain ⟨w, others, hread, heach, hsame⟩ := readEach_cons_eq_ok h
      obtain ⟨rfl, rfl⟩ := List.cons.inj hsame
      exact ⟨hread, heach⟩
    · rintro ⟨hread, heach⟩
      rw [readEach, read_eq_ok.mpr hread, heach]
      rfl

theorem hasType_of_getElem? (htypes : List.Forall₂ HasType vs ts) {k : Nat} {v : Value} {t : Ty}
    (hv : vs[k]? = some v) (ht : ts[k]? = some t) : HasType v t :=
  (List.forall₂_iff_zip.mp htypes).2
    (List.mem_of_getElem? (List.getElem?_zip_eq_some.mpr ⟨hv, ht⟩))

theorem values_of_length {arguments : List String} (hts : Parameter.types? ps = some ts)
    (hlength : ps.length = arguments.length) : values ps arguments = readEach ts arguments := by
  rw [values, if_neg (not_not.mpr hlength), types_eq_ok.mpr hts]
  rfl

theorem values_of_renderAll (hts : Parameter.types? ps = some ts)
    (htypes : List.Forall₂ HasType vs ts) :
    values ps (Value.renderAll vs) = readEach ts (Value.renderAll vs) := by
  refine values_of_length hts ?_
  rw [Value.renderAll_eq_map, List.length_map, htypes.length_eq, Parameter.length_of_types? hts]

/-- One value that is refused is enough. -/
theorem readEach_renderAll_eq_error (hproper : Ty.areProper ts = true)
    (htypes : List.Forall₂ HasType vs ts) {k : Nat} {v : Value} {t : Ty} (hv : vs[k]? = some v)
    (ht : ts[k]? = some t) (hnot : ¬ v.Rereadable t) (htexts : t.listsTexts = false) :
    ∃ e, readEach ts (Value.renderAll vs) = .error e := by
  have htype := hasType_of_getElem? htypes hv ht
  have hnone := Ty.read?_render_eq_none (Ty.isProper_of_mem hproper (List.mem_of_getElem? ht)) htype
    hnot htexts
  have hargument : (Value.renderAll vs)[k]? = some v.render := by
    rw [Value.renderAll_eq_map, List.getElem?_map, hv, Option.map_some]
  cases hread : readEach ts (Value.renderAll vs) with
  | error e => exact ⟨e, rfl⟩
  | ok others =>
    obtain ⟨w, hw, -⟩ := getElem?_of_readEach hread ht hargument
    rw [read_eq_ok, hnone] at hw
    cases hw

/-- The texts that are reported for values stand for these values again exactly if each of them can be
read again, and then they are encoded to the same call data. Values that cannot are refused, unless
they are texts in a list. -/
theorem values_renderAll (hts : Parameter.types? ps = some ts)
    (htypes : List.Forall₂ HasType vs ts) :
    (values ps (Value.renderAll vs) = .ok vs ↔ List.Forall₂ Value.Rereadable vs ts) ∧
    (List.Forall₂ Value.Rereadable vs ts → ∀ (p : CryptoProfile) (f : Function), f.inputs = ps →
      f.encodeCall p (Value.renderAll vs) = .ok (p.callData f.signature (Value.encodeAll vs))) ∧
    ∀ (k : Nat) (v : Value) (t : Ty), vs[k]? = some v → ts[k]? = some t → ¬ v.Rereadable t →
      t.listsTexts = false → ∃ e, values ps (Value.renderAll vs) = .error e ∧ e.kind = .encode := by
  have hproper := Parameter.areProper_of_types? ps hts
  have hback : values ps (Value.renderAll vs) = .ok vs ↔ List.Forall₂ Value.Rereadable vs ts := by
    rw [values_of_renderAll hts htypes, readEach_renderAll hproper htypes]
  refine ⟨hback, ?_, ?_⟩
  · rintro hread p f rfl
    exact Function.encodeCall_of_values (hback.mpr hread)
  · intro k v t hv ht hnot htexts
    obtain ⟨e, he⟩ := readEach_renderAll_eq_error hproper htypes hv ht hnot htexts
    exact ⟨e, by rw [values_of_renderAll hts htypes, he], kind_of_readEach he⟩

namespace Reported

def parameters : List Parameter := [⟨"int8", []⟩, ⟨"string[2]", []⟩, ⟨"bytes[]", []⟩]

def kinds : List Ty := [.int 8, .fixedArray .string 2, .array .bytes]

/-- Brackets and commas in a text are no marks of the list around it. -/
def held : List Value :=
  [.int (BitVec.ofInt 256 (-5)), .tuple [.string "a, [b]", .string "c"], .array []]

theorem types_parameters : Parameter.types? parameters = some kinds := rfl

theorem signature_parameters :
    (Function.mk "f" parameters []).signature = "f(int8,string[2],bytes[])" := rfl

theorem hasTypes_held : List.Forall₂ HasType held kinds :=
  .cons (.int (by decide) (by decide)) (.cons (.fixedArray (.cons (.string _)
    (.cons (.string _) (.nil _)))) (.cons (.array (.nil _)) .nil))

theorem rereadable_held : List.Forall₂ Value.Rereadable held kinds := by
  refine .cons trivial (.cons ⟨rfl, fun s hs => ?_⟩ (.cons (.inl rfl) .nil))
  obtain rfl | rfl : s = "a, [b]" ∨ s = "c" := by simpa using hs
  · decide
  · decide

def numberParameters : List Parameter := [⟨"uint8[]", []⟩]

def numberKinds : List Ty := [.array (.uint 8)]

def numbers : List Value := [.array [.uint 1, .uint 2]]

theorem types_numberParameters : Parameter.types? numberParameters = some numberKinds := rfl

theorem hasTypes_numbers : List.Forall₂ HasType numbers numberKinds :=
  .cons (.array (.cons (.uint (by decide)) (.cons (.uint (by decide)) (.nil _)))) .nil

end Reported

open Reported in
theorem values_renderAll_held :
    values parameters ["-5", "[\"a, [b]\",\"c\"]", "[]"] = .ok held ∧
      (∀ p : CryptoProfile, Function.encodeCall p ⟨"f", parameters, []⟩
        ["-5", "[\"a, [b]\",\"c\"]", "[]"] =
          .ok (p.callData "f(int8,string[2],bytes[])" (Value.encodeAll held))) ∧
      ∃ e, values numberParameters ["[\"1\",\"2\"]"] = .error e ∧ e.kind = .encode := by
  have hheld : Value.renderAll held = ["-5", "[\"a, [b]\",\"c\"]", "[]"] := rfl
  have hnumbers : Value.renderAll numbers = ["[\"1\",\"2\"]"] := rfl
  have hnot : ¬ (Value.array [.uint 1, .uint 2]).Rereadable (.array (.uint 8)) := by
    simp [Value.Rereadable]
  refine ⟨?_, fun p => ?_, ?_⟩
  · rw [← hheld]
    exact (values_renderAll types_parameters hasTypes_held).1.mpr rereadable_held
  · rw [← hheld, ← signature_parameters]
    exact (values_renderAll types_parameters hasTypes_held).2.1 rereadable_held p _ rfl
  · rw [← hnumbers]
    exact (values_renderAll types_numberParameters hasTypes_numbers).2.2 0 _ _ rfl rfl hnot rfl

open Reported in
/-- The items of a list are reported between quotes, and only texts are read between quotes. -/
theorem values_numbers_ne :
    Parameter.types? numberParameters = some numberKinds ∧
      List.Forall₂ HasType numbers numberKinds ∧
      Value.renderAll numbers = ["[\"1\",\"2\"]"] ∧
      values numberParameters (Value.renderAll numbers) =
        .error (.unreadableArgument "[\"1\",\"2\"]" (.array (.uint 8))) :=
  ⟨types_numberParameters, hasTypes_numbers, rfl, rfl⟩

end Arguments

end LedgerGateway

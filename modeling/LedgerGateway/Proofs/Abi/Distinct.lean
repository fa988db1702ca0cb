import LedgerGateway.Proofs.Abi.Belonging
import LedgerGateway.Proofs.Bytes.Hex
import LedgerGateway.Proofs.Json.Records

/-!
# Different values are reported differently

Inside one type the reported text tells which value it was. Across types it does not: the text
`true` is reported for a truth value and for a string alike. A list is reported as JSON whose items
are the texts of its items, so it is enough that JSON keeps lists of texts apart, at every level of
nesting.
-/

namespace LedgerGateway

theorem SizedBytes.hex_injective {n : Nat} {a b : SizedBytes n} (h : a.hex = b.hex) : a = b :=
  Subtype.ext (Hex.encode_injective h)

namespace Abi

namespace Value

/-- Lists whose items are told apart by their texts are told apart by the texts of all items. -/
theorem eq_of_renderAll {t : Ty}
    (each : ∀ v w, HasType v t → HasType w t → v.render = w.render → v = w) {vs ws : List Value}
    (hvs : ∀ v ∈ vs, HasType v t) (hws : ∀ w ∈ ws, HasType w t)
    (h : renderAll vs = renderAll ws) : vs = ws := by
  induction vs generalizing ws with
  | nil =>
    cases ws with
    | nil => rfl
    | cons w ws =>
      rw [renderAll, renderAll] at h
      cases h
  | cons v vs ih =>
    cases ws with
    | nil =>
      rw [renderAll, renderAll] at h
      cases h
    | cons w ws =>
      rw [renderAll, renderAll] at h
      obtain ⟨hhead, htail⟩ := List.cons.inj h
      rw [List.forall_mem_cons] at hvs hws
      rw [each v w hvs.1 hws.1 hhead, ih hvs.2 hws.2 htail]

mutual

/-- The text tells which value of the type was reported. -/
theorem eq_of_render : ∀ (t : Ty) {v w : Value}, HasType v t → HasType w t →
    v.render = w.render → v = w
  | .bool, _, _, .bool a, .bool b, h => by
    cases a <;> cases b <;> first
      | rfl
      | exact absurd h (by simp [render])
  | .int _, _, _, .int _ _, .int _ _, h => by
    rw [render, render] at h
    rw [BitVec.eq_of_toInt_eq (Text.signedDecimal_injective h)]
  | .uint _, _, _, .uint _, .uint _, h => by
    rw [render, render] at h
    rw [BitVec.eq_of_toNat_eq (Text.decimal_injective h)]
  | .fixedBytes _, _, _, hv, hw, h => by
    obtain ⟨a, rfl, -⟩ := hasType_fixedBytes_iff.mp hv
    obtain ⟨b, rfl, -⟩ := hasType_fixedBytes_iff.mp hw
    rw [render, render] at h
    rw [Hex.encode_injective h]
  | .address, _, _, .address a, .address b, h => by
    rw [render, render] at h
    rw [SizedBytes.hex_injective h]
  | .function, _, _, .function f, .function g, h => by
    rw [render, render] at h
    have hhex := (String.append_right_inj _).mp ((String.append_left_inj _).mp h)
    rw [SizedBytes.hex_injective hhex]
  | .bytes, _, _, .bytes a, .bytes b, h => by
    rw [render, render] at h
    rw [Hex.encode_injective h]
  | .string, _, _, .string a, .string b, h => by
    rw [render, render] at h
    rw [h]
  | .array item, _, _, hv, hw, h => by
    obtain ⟨vs, rfl, hvs⟩ := hasType_array_iff.mp hv
    obtain ⟨ws, rfl, hws⟩ := hasType_array_iff.mp hw
    rw [render, render] at h
    have hall := Json.render_ofTexts_injective h
    -- The recursion is on the type, so the items need an induction of their own.
    rw [eq_of_renderAll (fun _ _ => eq_of_render item) hvs hws hall]
  | .fixedArray item _, _, _, hv, hw, h => by
    obtain ⟨vs, rfl, -, hvs⟩ := hasType_fixedArray_iff.mp hv
    obtain ⟨ws, rfl, -, hws⟩ := hasType_fixedArray_iff.mp hw
    rw [render, render] at h
    have hall := Json.render_ofTexts_injective h
    rw [eq_of_renderAll (fun _ _ => eq_of_render item) hvs hws hall]
  | .tuple items, _, _, hv, hw, h => by
    obtain ⟨vs, rfl, hvs⟩ := hasType_tuple_iff.mp hv
    obtain ⟨ws, rfl, hws⟩ := hasType_tuple_iff.mp hw
    rw [render, render] at h
    have hall := Json.render_ofTexts_injective h
    rw [eq_of_renderAll_forall₂ items hvs hws hall]

/-- The texts tell which values of the types were reported. -/
theorem eq_of_renderAll_forall₂ : ∀ (ts : List Ty) {vs ws : List Value},
    List.Forall₂ HasType vs ts → List.Forall₂ HasType ws ts → renderAll vs = renderAll ws → vs = ws
  | [], _, _, .nil, .nil, _ => rfl
  | t :: ts, _, _, .cons hv hvs, .cons hw hws, h => by
    rw [renderAll, renderAll] at h
    obtain ⟨hhead, htail⟩ := List.cons.inj h
    rw [eq_of_render t hv hw hhead, eq_of_renderAll_forall₂ ts hvs hws htail]

end

/-- Two values of one type are reported in one text only if they are the same value. -/
theorem render_inj {t : Ty} {v w : Value} (hv : HasType v t) (hw : HasType w t) :
    v.render = w.render ↔ v = w :=
  ⟨eq_of_render t hv hw, fun h => h ▸ rfl⟩

/-- A quote inside a text is no end of the text: one list of two texts is not reported as a list of
one text with the quotes and the comma in it, neither outside nor inside a further list. -/
theorem render_inj_quotes :
    let joined := array [array [string "a\",\"b"]]
    let apart := array [array [string "a", string "b"]]
    HasType joined (.array (.array .string)) ∧ HasType apart (.array (.array .string)) ∧
      joined.render ≠ apart.render := by
  intro joined apart
  have hjoined : HasType joined (.array (.array .string)) :=
    .array (.cons (.array (.cons (.string _) (.nil _))) (.nil _))
  have hapart : HasType apart (.array (.array .string)) :=
    .array (.cons (.array (.cons (.string _) (.cons (.string _) (.nil _)))) (.nil _))
  refine ⟨hjoined, hapart, fun h => ?_⟩
  have heq : joined = apart := (render_inj hjoined hapart).mp h
  simp [joined, apart] at heq

/-- Values of different types may share a text. -/
example : (string "true").render = (bool true).render := rfl

end Value

end Abi

end LedgerGateway

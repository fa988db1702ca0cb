import LedgerGateway.Proof.Receipt
import LedgerGateway.Proofs.Bytes.Hex
import LedgerGateway.Proofs.Text.Wide

/-!
# Amounts of gas

A receipt has two amounts of gas, in texts that are first normalised and then read. `gasUsed?` and
`remainGas?` say what the texts stand for, and `quantity_gasUsed` and `quantity_remainGas` that this is
what is read. Blanks are an exception: the gas that remains gets its mark in front of those it starts
with, and is then no number.
-/

namespace LedgerGateway

open Text

/-- The number that a text of gas stands for: hexadecimal behind a mark, else decimal. -/
def gasUsed? (text : String) : Option Nat :=
  if ReceiptEncoding.isMarked (trim text) then numeral? 16 (Hex.stripMarks (trim text))
  else numeral? 10 (trim text)

/-- The gas that remains is hexadecimal with or without a mark, and zero if it is missing. -/
def remainGas? : Option String → Option Nat
  | none => some 0
  | some text => numeral? 16 (Hex.stripMarks (trim text))

/-- Blanks stand in front of something that is none. -/
def isIndented (text : String) : Bool := text.toList.head?.any isBlank && !isAllBlank text

/-! ## Marks in front of a text -/

theorem trim_mark_append (text : String) :
    trim ("0x" ++ text) = String.ofList ('0' :: 'x' :: trimEnd text.toList) := by
  have hlist : ("0x" ++ text).toList = '0' :: 'x' :: text.toList := by simp
  rw [trim, hlist, trimStart_eq_self (by simp; decide), trimEnd_cons _ (by decide),
    trimEnd_cons _ (by decide)]

theorem exists_cons_of_isIndented {text : String} (h : isIndented text = true) :
    ∃ c cs, isBlank c = true ∧ trimEnd text.toList = c :: cs := by
  rw [isIndented, Bool.and_eq_true, Bool.not_eq_true', ← Bool.not_eq_true] at h
  obtain ⟨hhead, hall⟩ := h
  rw [isAllBlank, List.all_eq_true] at hall
  cases htext : text.toList with
  | nil => simp [htext] at hhead
  | cons c cs =>
    rw [htext] at hhead hall
    obtain ⟨rest, hrest⟩ := trimEnd_prefix (c :: cs)
    cases hend : trimEnd (c :: cs) with
    | nil => exact absurd (trimEnd_eq_nil_iff.mp hend) hall
    | cons d ds =>
      rw [hend, List.cons_append] at hrest
      obtain rfl : d = c := (List.cons.inj hrest).1
      exact ⟨d, ds, hhead, rfl⟩

theorem toList_trim_of_isIndented {text : String} (h : isIndented text = false) :
    (trim text).toList = trimEnd text.toList := by
  rw [trim, String.toList_ofList]
  rw [isIndented, Bool.and_eq_false_iff, Bool.not_eq_false'] at h
  rcases h with hhead | hall
  · have hfirst : ∀ c ∈ text.toList.head?, isBlank c = false := fun c hc => by
      rwa [hc, Option.any_some] at hhead
    rw [trimStart_eq_self hfirst]
  · -- Only blanks: nothing is left either way.
    rw [isAllBlank, List.all_eq_true] at hall
    have hstart : trimStart text.toList = [] := List.dropWhile_eq_nil_iff.mpr hall
    have hend : trimEnd text.toList = [] := trimEnd_eq_nil_iff.mpr hall
    rw [hstart, hend]
    rfl

/-- A mark that is set before blanks spoils the number; else it may be left away. -/
theorem numeral?_mark_append (text : String) :
    numeral? 16 (Hex.stripMarks (trim ("0x" ++ text))) =
      if isIndented text then none else numeral? 16 (Hex.stripMarks (trim text)) := by
  rw [trim_mark_append, Hex.stripMarks, String.toList_ofList, Hex.dropMarks]
  split
  · rename_i hindented
    obtain ⟨c, cs, hc, hend⟩ := exists_cons_of_isIndented hindented
    rw [hend, Hex.dropMarks_of_isBlank hc, numeral?_of_isBlank hc]
  · rename_i hindented
    rw [Hex.stripMarks, toList_trim_of_isIndented (by simpa using hindented)]

/-! ## Normalised texts -/

namespace ReceiptEncoding

theorem quantity_eq_ok {field value : String} {v : Word} :
    quantity field value = .ok v ↔ numeral? 16 (Hex.stripMarks (trim value)) = some v.toNat := by
  rw [← readHexadecimal_eq_ok_iff]
  unfold quantity
  split
  · rename_i heq
    simp [heq]
  · rename_i heq
    simp [heq]

/-- A marked text stays, and the number that another text writes is written behind a mark. A blank
text writes zero. -/
theorem normalizeGasUsed_eq_ok {text normal : String} :
    normalizeGasUsed text = .ok normal ↔
      (isMarked (trim text) = true ∧ normal = text) ∨
        (isMarked (trim text) = false ∧ ∃ v : Word, numeral? 10 (trim text) = some v.toNat ∧
          normal = "0x" ++ hexadecimal v.toNat) := by
  unfold normalizeGasUsed
  simp only
  split
  · rename_i hmark
    simp [hmark, eq_comm]
  · rename_i hmark
    simp only [hmark, Bool.false_eq_true, false_and, false_or, true_and]
    split
    · rename_i hempty
      rw [hempty, numeral?_empty, Except.ok.injEq]
      constructor
      · rintro rfl
        exact ⟨0#256, rfl, by decide⟩
      · rintro ⟨v, hv, rfl⟩
        rw [← Option.some.inj hv]
        decide
    · simp only [← readDecimal_eq_ok_iff]
      split
      · rename_i v hread
        simp [hread, eq_comm]
      · rename_i e hread
        simp [hread]

/-- Only a text that is neither marked nor blank is refused, and only if it cannot be read. -/
theorem normalizeGasUsed_eq_error {text : String} {e : ProofError} :
    normalizeGasUsed text = .error e ↔
      isMarked (trim text) = false ∧ isAllBlank text = false ∧
        ∃ why, Wide.readDecimal (trim text) = .error why ∧
          e = .invalidField "gasUsed" ("'" ++ trim text ++ "': " ++ why.message) := by
  have hblank : isAllBlank text = false ↔ trim text ≠ "" := by
    rw [← Bool.not_eq_true, ne_eq, trim_eq_empty_iff]
  rw [hblank]
  unfold normalizeGasUsed
  simp only
  split
  · rename_i hmark
    simp [hmark]
  · rename_i hmark
    split
    · rename_i hempty
      simp [hempty]
    · rename_i hne
      split
      · rename_i hread
        simp [hread]
      · rename_i hread
        simp [hmark, hne, hread, eq_comm]

/-- What was written behind a mark is read as the number. -/
theorem quantity_hexadecimal (field : String) (v : Word) :
    quantity field ("0x" ++ hexadecimal v.toNat) = .ok v := by
  have htrim : trim ("0x" ++ hexadecimal v.toNat) = "0x" ++ hexadecimal v.toNat :=
    trim_eq_self_of_forall (isBlank_of_mem_hexadecimal v.toNat)
  rw [quantity_eq_ok, htrim, Hex.stripMarks_hexadecimal, numeral?_hexadecimal]

/-- Normalising keeps the number. -/
theorem quantity_gasUsed {text : String} {v : Word} :
    (∃ normal, normalizeGasUsed text = .ok normal ∧ quantity "gasUsed" normal = .ok v) ↔
      gasUsed? text = some v.toNat := by
  rw [gasUsed?]
  simp only [normalizeGasUsed_eq_ok]
  constructor
  · rintro ⟨normal, ⟨hmark, rfl⟩ | ⟨hmark, w, hw, rfl⟩, h⟩
    · rw [if_pos hmark, quantity_eq_ok.mp h]
    · rw [quantity_hexadecimal] at h
      rw [if_neg (by simp [hmark]), hw, Except.ok.inj h]
  · intro h
    by_cases hmark : isMarked (trim text) = true
    · rw [if_pos hmark] at h
      exact ⟨text, .inl ⟨hmark, rfl⟩, quantity_eq_ok.mpr h⟩
    · rw [if_neg hmark] at h
      exact ⟨_, .inr ⟨by simpa using hmark, v, h, rfl⟩, quantity_hexadecimal "gasUsed" v⟩

theorem isIndented_of_isMarked {text : String} (h : isMarked text = true) :
    isIndented text = false := by
  obtain ⟨rest, hrest⟩ := List.isPrefixOf_iff_prefix.mp h
  have hhead : text.toList.head? = some '0' := by rw [← hrest]; rfl
  rw [isIndented, hhead]
  rfl

/-- A mark is set in front of blanks as well, and what is read then is no number. -/
theorem quantity_normalizeRemainGas {field text : String} {v : Word} :
    quantity field (normalizeRemainGas text) = .ok v ↔
      isIndented text = false ∧ numeral? 16 (Hex.stripMarks (trim text)) = some v.toNat := by
  rw [quantity_eq_ok, normalizeRemainGas]
  split
  · rename_i hmark
    simp [isIndented_of_isMarked hmark]
  · rw [numeral?_mark_append]
    split
    · rename_i hindented
      simp [hindented]
    · rename_i hindented
      simp [hindented]

theorem quantity_remainGas {text : Option String} {v : Word} :
    quantity "remainGas" ((text.map normalizeRemainGas).getD "0x0") = .ok v ↔
      text.any isIndented = false ∧ remainGas? text = some v.toNat := by
  cases text with
  | none =>
    rw [Option.map_none, Option.getD_none, quantity_eq_ok, Option.any_none, remainGas?]
    exact (and_iff_right rfl).symm
  | some text => exact quantity_normalizeRemainGas

end ReceiptEncoding

end LedgerGateway

import LedgerGateway.Quantity
import LedgerGateway.Proofs.Text.Blank
import LedgerGateway.Proofs.Text.Numeral

/-!
# Quantities are read back

The text of a quantity carries a mark, at least one digit and no blank, so each reader of quantities
takes it back to the number that was written.
-/

namespace LedgerGateway.Quantity

open Text

theorem toList_format (v : UInt64) :
    (format v).toList = '0' :: 'x' :: Nat.toDigits 16 v.toNat := by
  simp [format, hexadecimal]

theorem isBlank_of_mem_format (v : UInt64) : ∀ c ∈ (format v).toList, isBlank c = false :=
  isBlank_of_mem_hexadecimal v.toNat

/-- A quantity that was written is read back. -/
@[simp] theorem parse_format (v : UInt64) : parse (format v) = .ok v := by
  have htrim : trim (format v) = format v := trim_eq_self_of_forall (isBlank_of_mem_format v)
  have hread : readUInt64 16 (Nat.toDigits 16 v.toNat) = .ok v :=
    readUInt64_toDigits (by decide) (by decide) v
  rw [parse, htrim, toList_format]
  cases hd : Nat.toDigits 16 v.toNat with
  | nil => exact absurd hd Nat.toDigits_ne_nil
  | cons d ds =>
    rw [hd] at hread
    simp [afterMark?, hread]

@[simp] theorem decoder_text_format (v : UInt64) : decoder (.text (some (format v))) = .ok v := by
  simp [decoder]

@[simp] theorem optionDecoder_text_format (v : UInt64) :
    optionDecoder (.text (some (format v))) = .ok (some v) := by
  have hblank : isAllBlank (format v) = false := by
    rw [isAllBlank, toList_format]
    rfl
  simp [optionDecoder, hblank, Except.map]

end LedgerGateway.Quantity

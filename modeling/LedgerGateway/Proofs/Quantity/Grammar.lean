import LedgerGateway.Proofs.Quantity
import LedgerGateway.Proofs.Text.Grammar

/-!
# Which texts are quantities

A quantity is told by its mark: digits behind one are hexadecimal, and a text without one is decimal.
No digits at all are zero, but a plus sign asks for a digit. Blanks count at neither end, and zeros in
front of the digits count nothing, however many there are.
-/

namespace LedgerGateway.Quantity

open Text

/-- The letter of a mark. -/
def IsMark (x : Char) : Prop := x = 'x' ∨ x = 'X'

/-- The number that a text without blanks around it denotes. -/
inductive Denotes : List Char → Nat → Prop where
  | empty : Denotes [] 0
  /-- A mark alone. -/
  | mark {x : Char} (hx : IsMark x) : Denotes ['0', x] 0
  | hexadecimal {x : Char} {digits : List Char} {n : Nat} (hx : IsMark x)
      (h : IsNumber 16 digits n) : Denotes ('0' :: x :: digits) n
  | decimal {digits : List Char} {n : Nat} (h : IsNumber 10 digits n) : Denotes digits n

theorem afterMark?_eq_some {cs digits : List Char} :
    afterMark? cs = some digits ↔ ∃ x, IsMark x ∧ cs = '0' :: x :: digits := by
  constructor
  · intro h
    unfold afterMark? at h
    split at h
    · cases h
      exact ⟨'x', .inl rfl, rfl⟩
    · cases h
      exact ⟨'X', .inr rfl, rfl⟩
    · cases h
  · rintro ⟨x, rfl | rfl, rfl⟩ <;> rfl

/-- The letter of a mark is no decimal digit. -/
theorem not_isNumber_marked {x : Char} (hx : IsMark x) {digits : List Char} {n : Nat} :
    ¬ IsNumber 10 ('0' :: x :: digits) n := by
  have hnone : digit? 10 x = none := by
    obtain rfl | rfl := hx <;> decide
  rintro ⟨cs, rfl | hcs, -, ds, hds, -⟩
  · cases hds with
    | cons _ hds =>
      cases hds with
      | cons hd _ =>
        rw [(digit?_eq_some_iff (by decide)).mpr hd] at hnone
        cases hnone
  · cases hcs

/-! ## What is denoted -/

theorem denotes_marked_iff {x : Char} (hx : IsMark x) {digits : List Char} {n : Nat} :
    Denotes ('0' :: x :: digits) n ↔ digits = [] ∧ n = 0 ∨ IsNumber 16 digits n := by
  constructor
  · intro h
    cases h with
    | mark _ => exact .inl ⟨rfl, rfl⟩
    | hexadecimal _ h => exact .inr h
    | decimal h => exact absurd h (not_isNumber_marked hx)
  · rintro (⟨rfl, rfl⟩ | h)
    · exact .mark hx
    · exact .hexadecimal hx h

theorem denotes_unmarked_iff {cs : List Char} (hcs : afterMark? cs = none) {n : Nat} :
    Denotes cs n ↔ cs = [] ∧ n = 0 ∨ IsNumber 10 cs n := by
  have hmark : ∀ {x : Char} {digits : List Char}, IsMark x → cs ≠ '0' :: x :: digits := by
    intro x digits hx h
    rw [afterMark?_eq_some.mpr ⟨x, hx, h⟩] at hcs
    cases hcs
  constructor
  · intro h
    cases h with
    | empty => exact .inl ⟨rfl, rfl⟩
    | mark hx => exact absurd rfl (hmark hx)
    | hexadecimal hx _ => exact absurd rfl (hmark hx)
    | decimal h => exact .inr h
  · rintro (⟨rfl, rfl⟩ | h)
    · exact .empty
    · exact .decimal h

/-! ## What is read -/

theorem parse_marked_eq_ok {s : String} {digits : List Char} {v : UInt64}
    (hs : afterMark? (trim s).toList = some digits) :
    parse s = .ok v ↔ digits = [] ∧ v = 0 ∨ IsNumber 16 digits v.toNat := by
  rw [← readUInt64_eq_ok_iff (by decide) (by decide)]
  cases digits with
  | nil =>
    have hempty : readUInt64 16 [] = .error .empty := rfl
    simp [parse, hs, hempty, eq_comm]
  | cons c digits =>
    simp only [parse, hs]
    cases readUInt64 16 (c :: digits) <;> simp

theorem parse_unmarked_eq_ok {s : String} {v : UInt64} (hs : afterMark? (trim s).toList = none) :
    parse s = .ok v ↔ (trim s).toList = [] ∧ v = 0 ∨ IsNumber 10 (trim s).toList v.toNat := by
  rw [← readUInt64_eq_ok_iff (by decide) (by decide), String.toList_eq_nil_iff]
  by_cases hempty : trim s = ""
  · have hread : readUInt64 10 [] = .error .empty := rfl
    simp [parse, hempty, hread, afterMark?, eq_comm]
  · simp only [parse, hs, if_neg hempty]
    cases readUInt64 10 (trim s).toList <;> simp [hempty]

/-- A text is read as the number that it denotes between its blanks. -/
theorem parse_eq_ok_iff {s : String} {v : UInt64} :
    parse s = .ok v ↔ Denotes (trim s).toList v.toNat := by
  have hzero : v.toNat = 0 ↔ v = 0 := UInt64.toNat_inj (b := 0)
  cases hmark : afterMark? (trim s).toList with
  | none => rw [parse_unmarked_eq_ok hmark, denotes_unmarked_iff hmark, hzero]
  | some digits =>
    obtain ⟨x, hx, hcs⟩ := afterMark?_eq_some.mp hmark
    rw [parse_marked_eq_ok hmark, hcs, denotes_marked_iff hx, hzero]

/-- A text is read as a quantity exactly if what is between its blanks denotes a number of 64 bits,
and refused if it denotes none. The text of a quantity is a mark with digits behind it, of which the
first is zero only for zero, and it is read back. -/
theorem parse_iff_denotes :
    (∀ (s : String) (v : UInt64), parse s = .ok v ↔ Denotes (trim s).toList v.toNat) ∧
    (∀ s : String, (∃ e, parse s = .error e) ↔ ∀ v : UInt64, ¬ Denotes (trim s).toList v.toNat) ∧
    ∀ v : UInt64, parse (format v) = .ok v ∧ ∃ digits : List Char,
      (format v).toList = '0' :: 'x' :: digits ∧ digits ≠ [] ∧
      (v = 0 ∨ digits.head? ≠ some '0') := by
  refine ⟨fun s v => parse_eq_ok_iff, ?refused, ?written⟩
  case refused =>
    intro s
    simp only [← parse_eq_ok_iff]
    cases parse s <;> simp
  case written =>
    intro v
    refine ⟨parse_format v, Nat.toDigits 16 v.toNat, toList_format v, Nat.toDigits_ne_nil, ?_⟩
    by_cases hzero : (Nat.toDigits 16 v.toNat).head? = some '0'
    · exact .inl (UInt64.toNat_inj.mp (head?_toDigits (by decide) (by decide) hzero))
    · exact .inr hzero

example : parse "\t0X+00fF " = .ok 255 := by rfl

end LedgerGateway.Quantity

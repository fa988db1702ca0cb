import LedgerGateway.Proofs.Bytes.Hex
import LedgerGateway.Proofs.Text.Wide

/-!
# Spellings of digits

Hexadecimal digits may be written in either case, behind a mark or without one, and between blanks. All
readers of such texts first come down to the digits, and what they read from these does not depend on
their case.
-/

namespace LedgerGateway

open Text

/-! ## The case of digits -/

namespace Text

theorem toNat_toLower (c : Char) :
    c.toLower.toNat = if 65 ≤ c.toNat ∧ c.toNat ≤ 90 then c.toNat + 32 else c.toNat := by
  by_cases h : c.val ≥ 'A'.val ∧ c.val ≤ 'Z'.val
  · have hrange : 65 ≤ c.toNat ∧ c.toNat ≤ 90 := h
    have hval : c.toLower.val = c.val + 32 := congrArg Char.val (dif_pos h)
    have hle : c.val.toNat ≤ 90 := hrange.2
    rw [if_pos hrange]
    change c.toLower.val.toNat = c.val.toNat + 32
    rw [hval, UInt32.toNat_add]
    exact Nat.mod_eq_of_lt (by change c.val.toNat + 32 < 2 ^ 32; omega)
  · have hrange : ¬ (65 ≤ c.toNat ∧ c.toNat ≤ 90) := h
    have hsame : c.toLower = c := dif_neg h
    rw [hsame, if_neg hrange]

/-- A digit counts the same in either case. -/
theorem digit?_toLower (radix : Nat) (c : Char) : digit? radix c.toLower = digit? radix c := by
  have hle : ∀ a b : Char, a ≤ b ↔ a.toNat ≤ b.toNat := fun _ _ => Iff.rfl
  simp only [digit?, hle, toNat_toLower, Char.reduceToNat, Bool.and_eq_true, decide_eq_true_eq]
  split
  · rename_i h
    have hupper : ¬ (c.toNat ≤ 57) ∧ ¬ (97 ≤ c.toNat) := by omega
    have hlower : ¬ (c.toNat + 32 ≤ 57) ∧ 97 ≤ c.toNat + 32 ∧ c.toNat + 32 ≤ 122 := by omega
    have hvalue : c.toNat + 32 - 97 = c.toNat - 65 := by omega
    simp [hupper, hlower, hvalue]
  · rfl

theorem isDigit_toLower {c : Char} (h : (digit? 16 c).isSome) : (digit? 16 c.toLower).isSome := by
  rwa [digit?_toLower]

/-- A hexadecimal digit is neither a blank nor part of a mark or of a wider character. -/
theorem plain_of_digit? {c : Char} (h : (digit? 16 c).isSome) :
    isBlank c = false ∧ c ≠ 'x' ∧ c ≠ '_' ∧ c.toNat < 0x80 := by
  obtain ⟨d, hd⟩ := Option.isSome_iff_exists.mp h
  refine ⟨?_, ?_, ?_, ?_⟩
  · rw [← Bool.not_eq_true]
    intro hblank
    rw [digit?_of_isBlank hblank] at h
    cases h
  · rintro rfl
    exact absurd h (by decide)
  · rintro rfl
    exact absurd h (by decide)
  · have hrange := toNat_of_digit? hd
    omega

theorem numeral?_toLower {radix : Nat} {digits : List Char} (h : ∀ c ∈ digits, (digit? 16 c).isSome) :
    numeral? radix (String.ofList (digits.map Char.toLower)) =
      numeral? radix (String.ofList digits) := by
  have hplain : ∀ c ∈ digits, (c != '_') = true := fun c hc => by
    simpa using (plain_of_digit? (h c hc)).2.2.1
  have hlower : ∀ c ∈ digits.map Char.toLower, (c != '_') = true := by
    intro c hc
    obtain ⟨d, hd, rfl⟩ := List.mem_map.mp hc
    simpa using (plain_of_digit? (isDigit_toLower (h d hd))).2.2.1
  rw [numeral?, numeral?, String.toList_ofList, String.toList_ofList, digitsOf?, digitsOf?,
    List.filter_eq_self.mpr hplain, List.filter_eq_self.mpr hlower, List.mapM_map]
  have hdigit : digit? radix ∘ Char.toLower = digit? radix := funext (digit?_toLower radix)
  rw [hdigit]

end Text

namespace Hex

/-- Bytes that are digits alike are read alike. -/
theorem readPairs_congr {position : Nat} {text other : Bytes}
    (hsome : ∀ b ∈ text, (nibble? b).isSome) (h : text.map nibble? = other.map nibble?) :
    readPairs position text = readPairs position other := by
  fun_induction readPairs position text generalizing other with
  | case1 =>
    obtain rfl : other = [] := by simpa using h.symm
    rfl
  | case2 position a =>
    obtain ⟨c, tail, rfl, -, htail⟩ := List.map_eq_cons_iff.mp h.symm
    obtain rfl : tail = [] := by simpa using htail
    rfl
  | case3 position a b rest hnone => simp [hnone] at hsome
  | case4 position a b rest high hlow hhigh => simp [hlow] at hsome
  | case5 position a b rest high low hhigh hlow ih =>
    obtain ⟨c, tail, rfl, hc, htail⟩ := List.map_eq_cons_iff.mp h.symm
    obtain ⟨d, tail, rfl, hd, htail⟩ := List.map_eq_cons_iff.mp htail
    have hrest : ∀ b ∈ rest, (nibble? b).isSome := fun b hb => hsome b (by simp [hb])
    rw [readPairs, hc, hd, hhigh, hlow, ih hrest htail.symm]

theorem map_nibble?_encode {digits : List Char} (h : ∀ c ∈ digits, (digit? 16 c).isSome) :
    (Utf8.encode (String.ofList digits)).map nibble? = digits.map (digit? 16) := by
  rw [Utf8.encode, String.toList_ofList]
  induction digits with
  | nil => rfl
  | cons c digits ih =>
    obtain ⟨hc, hdigits⟩ := List.forall_mem_cons.mp h
    have hascii := (plain_of_digit? hc).2.2.2
    rw [List.flatMap_cons, List.map_append, Utf8.utf8EncodeChar_of_lt hascii, List.map_singleton,
      nibble?, Utf8.latin1_ofNat hascii, ih hdigits, List.singleton_append, List.map_cons]

/-- The bytes that digits spell do not depend on their case. -/
theorem decode_toLower {digits : List Char} (h : ∀ c ∈ digits, (digit? 16 c).isSome) :
    decode (String.ofList (digits.map Char.toLower)) = decode (String.ofList digits) := by
  have hlower : ∀ c ∈ digits.map Char.toLower, (digit? 16 c).isSome := by
    intro c hc
    obtain ⟨d, hd, rfl⟩ := List.mem_map.mp hc
    exact isDigit_toLower (h d hd)
  have hdigit : digit? 16 ∘ Char.toLower = digit? 16 := funext (digit?_toLower 16)
  have hmap : (Utf8.encode (String.ofList (digits.map Char.toLower))).map nibble? =
      (Utf8.encode (String.ofList digits)).map nibble? := by
    rw [map_nibble?_encode hlower, map_nibble?_encode h, List.map_map, hdigit]
  have hlength := congrArg List.length hmap
  rw [List.length_map, List.length_map] at hlength
  have hsome : ∀ b ∈ Utf8.encode (String.ofList (digits.map Char.toLower)), (nibble? b).isSome := by
    intro b hb
    have hmem := List.mem_map_of_mem (f := nibble?) hb
    rw [map_nibble?_encode hlower] at hmem
    obtain ⟨c, hc, hb⟩ := List.mem_map.mp hmem
    rw [← hb]
    exact hlower c hc
  rw [decode, decode, decodeBytes, decodeBytes, hlength, readPairs_congr hsome hmap]

end Hex

/-! ## Spellings -/

/-- A way to write hexadecimal digits: between blanks, and behind a mark or without one. -/
structure Spelling where
  before : List Char := []
  isMarked : Bool := false
  digits : List Char
  after : List Char := []
  all_before : before.all isBlank = true := by decide
  all_after : after.all isBlank = true := by decide
  all_digits : (digits.all fun c => (digit? 16 c).isSome) = true := by decide

namespace Spelling

/-- The text without the blanks. -/
def core (s : Spelling) : List Char := if s.isMarked then '0' :: 'x' :: s.digits else s.digits

def text (s : Spelling) : String := String.ofList (s.before ++ s.core ++ s.after)

/-- The digits are the same up to their case. -/
def SameDigits (s t : Spelling) : Prop := s.digits.map Char.toLower = t.digits.map Char.toLower

variable {s t : Spelling}

theorem isDigit (s : Spelling) : ∀ c ∈ s.digits, (digit? 16 c).isSome :=
  List.all_eq_true.mp s.all_digits

theorem isBlank_of_mem_core (s : Spelling) : ∀ c ∈ s.core, isBlank c = false := by
  have hdigits : ∀ c ∈ s.digits, isBlank c = false := fun c hc =>
    (plain_of_digit? (s.isDigit c hc)).1
  intro c hc
  rw [core] at hc
  split at hc
  · rw [List.mem_cons, List.mem_cons] at hc
    rcases hc with rfl | rfl | hc
    · decide
    · decide
    · exact hdigits c hc
  · exact hdigits c hc

@[simp] theorem trim_text (s : Spelling) : trim s.text = String.ofList s.core :=
  trim_surrounded (List.all_eq_true.mp s.all_before) s.isBlank_of_mem_core
    (List.all_eq_true.mp s.all_after)

theorem ne_x_of_mem_digits (s : Spelling) : ∀ c ∈ s.digits, c ≠ 'x' := fun c hc =>
  (plain_of_digit? (s.isDigit c hc)).2.1

theorem isPrefixOf_digits (s : Spelling) : ['0', 'x'].isPrefixOf s.digits = false := by
  rw [← Bool.not_eq_true]
  intro h
  have hmem : 'x' ∈ s.digits := (List.isPrefixOf_iff_prefix.mp h).subset (by simp)
  exact s.ne_x_of_mem_digits 'x' hmem rfl

/-- Whoever drops one mark, or every mark, comes down to the digits. -/
theorem stripLowerMark_core (s : Spelling) :
    Hex.stripLowerMark (String.ofList s.core) = String.ofList s.digits := by
  rw [Hex.stripLowerMark, String.toList_ofList, core]
  cases s.isMarked with
  | false => simp [afterLead?, s.isPrefixOf_digits]
  | true => rfl

theorem stripMarks_core (s : Spelling) :
    Hex.stripMarks (String.ofList s.core) = String.ofList s.digits := by
  have hdigits := Hex.dropMarks_eq_self s.ne_x_of_mem_digits
  rw [Hex.stripMarks, String.toList_ofList, core]
  cases s.isMarked with
  | false => simp [hdigits]
  | true => simp [Hex.dropMarks, hdigits]

theorem numeral?_digits (h : s.SameDigits t) (radix : Nat) :
    numeral? radix (String.ofList s.digits) = numeral? radix (String.ofList t.digits) := by
  rw [← numeral?_toLower s.isDigit, h, numeral?_toLower t.isDigit]

theorem decode_digits (h : s.SameDigits t) :
    Hex.decode (String.ofList s.digits) = Hex.decode (String.ofList t.digits) := by
  rw [← Hex.decode_toLower s.isDigit, h, Hex.decode_toLower t.isDigit]

end Spelling

/-- The texts are equal, or they are spellings of the same digits. -/
def Respelled (a b : String) : Prop :=
  a = b ∨ ∃ s t : Spelling, a = s.text ∧ b = t.text ∧ s.SameDigits t

/-- A mark stands before the digits of both texts or of neither. -/
def RespelledAlike (a b : String) : Prop :=
  a = b ∨ ∃ s t : Spelling, a = s.text ∧ b = t.text ∧ s.SameDigits t ∧ s.isMarked = t.isMarked

end LedgerGateway

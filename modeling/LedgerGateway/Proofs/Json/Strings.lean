import LedgerGateway.Json.Printer
import LedgerGateway.Json.Reader
import LedgerGateway.Proofs.Text.Numeral
import LedgerGateway.Proofs.Text.Utf8

/-!
# Written strings are read back

A character inside a string is written in one of three ways: as itself, as a letter behind a
backslash, or by its number. `escape_cases` says so in terms of bytes; everything else about strings
follows from it by induction on the text.
-/

namespace LedgerGateway.Json

open Text

/-! ## One step of the reader -/

theorem readTextParts_cons {b : UInt8} (rest : Bytes) (hl : 0x20 ≤ b.toNat) (hq : b ≠ 0x22)
    (hs : b ≠ 0x5c) :
    readTextParts (b :: rest) = (TextPart.byte b).before (readTextParts rest) := by
  rw [readTextParts]
  · simp [hs, UInt8.lt_iff_toNat_lt]
    omega
  · simpa using hq
  · simp [hs]
  · simp [hs]

theorem readTextParts_letter {letter b : UInt8} (rest : Bytes) (hu : letter ≠ 0x75)
    (he : escaped? letter = some b) :
    readTextParts (0x5c :: letter :: rest) = (TextPart.byte b).before (readTextParts rest) := by
  rw [readTextParts]
  · simp [he]
  · simp [hu]

theorem readTextParts_unit {a b c d : UInt8} {u : Nat} (rest : Bytes)
    (hu : unit? a b c d = some u) :
    readTextParts (0x5c :: 0x75 :: a :: b :: c :: d :: rest) =
      (TextPart.unit u).before (readTextParts rest) := by
  rw [readTextParts]
  simp [hu]

theorem readTextParts_bytes {bs : Bytes} {parts : List TextPart} {rest tail : Bytes}
    (hbs : ∀ b ∈ bs, 0x20 ≤ b.toNat ∧ b ≠ 0x22 ∧ b ≠ 0x5c)
    (h : readTextParts tail = .ok (parts, rest)) :
    readTextParts (bs ++ tail) = .ok (bs.map .byte ++ parts, rest) := by
  induction bs with
  | nil => simpa using h
  | cons b bs ih =>
    obtain ⟨hl, hq, hs⟩ := hbs b (by simp)
    rw [List.cons_append, readTextParts_cons _ hl hq hs, ih fun c hc => hbs c (by simp [hc])]
    rfl

/-! ## What the parts spell -/

theorem spell_bytes_append (bs : Bytes) (parts : List TextPart) :
    spell (bs.map .byte ++ parts) = (spell parts).map (bs ++ ·) := by
  induction bs with
  | nil => simp
  | cons b bs ih => simp [spell, ih, Function.comp_def]

/-- A unit below the halves of pairs stands for the character of its number. -/
theorem spell_unit_cons {u : Nat} (hu : u < 0xd800) (parts : List TextPart) :
    spell (.unit u :: parts) =
      (spell parts).map (String.utf8EncodeChar (Char.ofNat u) ++ ·) := by
  have hhigh : isHighUnit u = false := by simp [isHighUnit]; omega
  have hlow : isLowUnit u = false := by simp [isLowUnit]; omega
  cases parts with
  | nil => simp [spell, hhigh, hlow]
  | cons part parts => cases part <;> simp [spell, hhigh, hlow]

/-! ## Written characters -/

/-- The bytes that a character takes in a string. -/
def escapeBytes (c : Char) : Bytes := (escape c).flatMap String.utf8EncodeChar

theorem escapeBytes_of_escape {c : Char} {cs : List Char} (h : escape c = cs) :
    escapeBytes c = cs.flatMap String.utf8EncodeChar := by
  unfold escapeBytes
  rw [h]

/-- Two digits behind two zeros are read as the unit that they were written for. -/
theorem unit?_twoDigits :
    ∀ n < 0x20, unit? 0x30 0x30 (UInt8.ofNat (Nat.digitChar (n / 16)).toNat)
      (UInt8.ofNat (Nat.digitChar (n % 16)).toNat) = some n := by
  decide

/-- The three ways to write a character: as itself, as a letter, or by its number. -/
theorem escape_cases (c : Char) :
    (escapeBytes c = String.utf8EncodeChar c ∧
      ∀ b ∈ String.utf8EncodeChar c, 0x20 ≤ b.toNat ∧ b ≠ 0x22 ∧ b ≠ 0x5c) ∨
    (∃ letter b, escapeBytes c = [0x5c, letter] ∧ letter ≠ 0x75 ∧ escaped? letter = some b ∧
      String.utf8EncodeChar c = [b]) ∨
    (∃ x y, escapeBytes c = [0x5c, 0x75, 0x30, 0x30, x, y] ∧
      unit? 0x30 0x30 x y = some c.toNat ∧ c.toNat < 0x20) := by
  by_cases hquote : c = '"'
  · subst hquote
    exact .inr (.inl ⟨0x22, 0x22, by decide⟩)
  by_cases hslash : c = '\\'
  · subst hslash
    exact .inr (.inl ⟨0x5c, 0x5c, by decide⟩)
  by_cases hlow : c.toNat < 0x20
  · by_cases hb : c = '\x08'
    · subst hb
      exact .inr (.inl ⟨0x62, 0x08, by decide⟩)
    by_cases ht : c = '\t'
    · subst ht
      exact .inr (.inl ⟨0x74, 0x09, by decide⟩)
    by_cases hn : c = '\n'
    · subst hn
      exact .inr (.inl ⟨0x6e, 0x0a, by decide⟩)
    by_cases hf : c = '\x0c'
    · subst hf
      exact .inr (.inl ⟨0x66, 0x0c, by decide⟩)
    by_cases hr : c = '\r'
    · subst hr
      exact .inr (.inl ⟨0x72, 0x0d, by decide⟩)
    refine .inr (.inr ⟨UInt8.ofNat (Nat.digitChar (c.toNat / 16)).toNat,
      UInt8.ofNat (Nat.digitChar (c.toNat % 16)).toNat, ?_, unit?_twoDigits _ hlow, hlow⟩)
    have hesc : escape c = ['\\', 'u', '0', '0'] ++ twoDigits c.toNat := by
      simp [escape, hquote, hslash, hlow, hb, ht, hn, hf, hr]
    have hhigh := (digitChar_plain (d := c.toNat / 16) (by omega)).2.2
    have hunit := (digitChar_plain (d := c.toNat % 16) (by omega)).2.2
    rw [escapeBytes_of_escape hesc]
    simp [twoDigits, Utf8.utf8EncodeChar_of_lt hhigh, Utf8.utf8EncodeChar_of_lt hunit]
    rfl
  · have hesc : escape c = [c] := by simp [escape, hquote, hslash, hlow]
    refine .inl ⟨by simp [escapeBytes, hesc], fun b hb => ?_⟩
    by_cases hascii : c.toNat < 0x80
    · rw [Utf8.utf8EncodeChar_of_lt hascii, List.mem_singleton] at hb
      have hval : b.toNat = c.toNat := by
        rw [hb, UInt8.toNat_ofNat']
        omega
      refine ⟨by omega, ?_, ?_⟩
      · rintro rfl
        exact hquote (Char.toNat_inj.mp hval.symm)
      · rintro rfl
        exact hslash (Char.toNat_inj.mp hval.symm)
    · have := Utf8.toNat_of_mem_utf8EncodeChar (by omega) b hb
      refine ⟨by omega, ?_, ?_⟩ <;> rintro rfl <;> simp at this

/-! ## Written strings -/

theorem readTextParts_escaped (cs : List Char) (rest : Bytes) :
    ∃ parts, readTextParts (cs.flatMap escapeBytes ++ 0x22 :: rest) = .ok (parts, rest) ∧
      spell parts = some (cs.flatMap String.utf8EncodeChar) := by
  induction cs with
  | nil => exact ⟨[], by simp [readTextParts], rfl⟩
  | cons c cs ih =>
    obtain ⟨parts, hread, hspell⟩ := ih
    rw [List.flatMap_cons, List.append_assoc, List.flatMap_cons]
    rcases escape_cases c with ⟨hesc, hplain⟩ | ⟨letter, b, hesc, hu, hletter, hutf⟩ |
      ⟨x, y, hesc, hunit, hlow⟩
    · refine ⟨_, by rw [hesc, readTextParts_bytes hplain hread], ?_⟩
      rw [spell_bytes_append, hspell]
      rfl
    · refine ⟨.byte b :: parts, ?_, ?_⟩
      · rw [hesc, List.cons_append, List.cons_append, List.nil_append,
          readTextParts_letter _ hu hletter, hread]
        rfl
      · simp [spell, hspell, hutf]
    · refine ⟨.unit c.toNat :: parts, ?_, ?_⟩
      · simp only [hesc, List.cons_append, List.nil_append]
        rw [readTextParts_unit _ hunit, hread]
        rfl
      · rw [spell_unit_cons (by omega), hspell, Char.ofNat_toNat]
        rfl

/-- A text that was written behind its opening quote is read back. -/
theorem readText_escaped (s : String) (rest : Bytes) :
    readText (s.toList.flatMap escapeBytes ++ 0x22 :: rest) = .ok (some s, rest) := by
  obtain ⟨parts, hread, hspell⟩ := readTextParts_escaped s.toList rest
  have htext : Utf8.decode (s.toList.flatMap String.utf8EncodeChar) = .ok s := by
    have := Utf8.decode_encode s
    rwa [Utf8.encode] at this
  simp [readText, hread, hspell, htext, Except.map, Except.toOption]

end LedgerGateway.Json

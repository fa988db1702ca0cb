import LedgerGateway.Bytes.Hex
import LedgerGateway.Proofs.Text.Blank
import LedgerGateway.Proofs.Text.Numeral

/-!
# Hexadecimal bytes are read back

Two digits stand for each byte, and each digit is one byte of the text. The two ways to drop a mark
agree on every text that is a byte string behind it.
-/

namespace LedgerGateway.Hex

open Text

/-! ## Digits -/

theorem utf8EncodeChar_digitChar {d : Nat} (hd : d < 16) :
    String.utf8EncodeChar (digitChar d) = [UInt8.ofNat (digitChar d).toNat] := by
  revert d
  decide

theorem nibble?_digitChar {d : Nat} (hd : d < 16) :
    nibble? (UInt8.ofNat (digitChar d).toNat) = some d := by
  revert d
  decide

theorem flatMap_pair (b : UInt8) :
    (pair b).flatMap String.utf8EncodeChar =
      [UInt8.ofNat (digitChar (b.toNat / 16)).toNat,
        UInt8.ofNat (digitChar (b.toNat % 16)).toNat] := by
  have hb := b.toNat_lt
  simp [pair, utf8EncodeChar_digitChar (show b.toNat / 16 < 16 by omega),
    utf8EncodeChar_digitChar (show b.toNat % 16 < 16 by omega)]

theorem length_flatMap_pair (bytes : Bytes) :
    ((bytes.flatMap pair).flatMap String.utf8EncodeChar).length = 2 * bytes.length := by
  induction bytes with
  | nil => rfl
  | cons b bytes ih =>
    rw [List.flatMap_cons, List.flatMap_append, flatMap_pair, List.length_append, ih]
    simp
    omega

theorem readPairs_flatMap_pair (position : Nat) (bytes : Bytes) :
    readPairs position ((bytes.flatMap pair).flatMap String.utf8EncodeChar) = .ok bytes := by
  induction bytes generalizing position with
  | nil => rfl
  | cons b bytes ih =>
    have hb := b.toNat_lt
    rw [List.flatMap_cons, List.flatMap_append, flatMap_pair, List.cons_append,
      List.singleton_append, readPairs, nibble?_digitChar (show b.toNat / 16 < 16 by omega),
      nibble?_digitChar (show b.toNat % 16 < 16 by omega)]
    simp only [ih, Except.map, Nat.div_add_mod', UInt8.ofNat_toNat]

theorem encode_digits (bytes : Bytes) :
    Utf8.encode (digits bytes) = (bytes.flatMap pair).flatMap String.utf8EncodeChar := by
  simp [Utf8.encode, digits]

/-- The digits of a byte string are read back. -/
@[simp] theorem decode_digits (bytes : Bytes) : decode (digits bytes) = .ok bytes := by
  rw [decode, decodeBytes, encode_digits, length_flatMap_pair, if_neg (by omega),
    readPairs_flatMap_pair]

theorem isBlank_of_mem_pair (b : UInt8) : ∀ c ∈ pair b, isBlank c = false := by
  have hb := b.toNat_lt
  have hhigh := (digitChar_plain (show b.toNat / 16 < 16 by omega)).2.1
  have hlow := (digitChar_plain (show b.toNat % 16 < 16 by omega)).2.1
  intro c hc
  rw [pair, List.mem_cons, List.mem_singleton] at hc
  rcases hc with rfl | rfl
  · exact hhigh
  · exact hlow

/-! ## Marks -/

theorem toList_encode (bytes : Bytes) :
    (encode bytes).toList = '0' :: 'x' :: bytes.flatMap pair := by
  simp [encode, digits]

@[simp] theorem trim_encode (bytes : Bytes) : trim (encode bytes) = encode bytes := by
  refine trim_eq_self_of_forall fun c hc => ?_
  rw [toList_encode, List.mem_cons, List.mem_cons, List.mem_flatMap] at hc
  rcases hc with rfl | rfl | ⟨b, -, hc⟩
  · decide
  · decide
  · exact isBlank_of_mem_pair b c hc

theorem afterLead?_encode (bytes : Bytes) :
    afterLead? ['0', 'x'] (encode bytes).toList = some (bytes.flatMap pair) := by
  rw [toList_encode]
  exact afterLead?_append ['0', 'x'] _

@[simp] theorem stripMark_encode (bytes : Bytes) : stripMark (encode bytes) = digits bytes := by
  rw [stripMark, afterLead?_encode]
  rfl

@[simp] theorem stripLowerMark_encode (bytes : Bytes) :
    stripLowerMark (encode bytes) = digits bytes := by
  rw [stripLowerMark, afterLead?_encode]
  rfl

theorem encode_injective : Function.Injective encode := by
  intro a b h
  have hdigits : digits a = digits b := by rw [← stripMark_encode a, h, stripMark_encode]
  have hread : decode (digits a) = decode (digits b) := congrArg decode hdigits
  rw [decode_digits, decode_digits] at hread
  exact Except.ok.inj hread

theorem dropMarks_eq_self {cs : List Char} (h : ∀ c ∈ cs, c ≠ 'x') : dropMarks cs = cs := by
  unfold dropMarks
  split
  · exact absurd rfl (h 'x' (by simp))
  · rfl

theorem dropMarks_of_isBlank {c : Char} {cs : List Char} (h : isBlank c = true) :
    dropMarks (c :: cs) = c :: cs := by
  unfold dropMarks
  split
  · rename_i heq
    rw [(List.cons.inj heq).1] at h
    exact absurd h (by decide)
  · rfl

theorem digitChar_ne_mark {d : Nat} (hd : d < 16) : digitChar d ≠ 'x' := by
  revert d
  decide

@[simp] theorem stripMarks_encode (bytes : Bytes) : stripMarks (encode bytes) = digits bytes := by
  have hplain : ∀ c ∈ bytes.flatMap pair, c ≠ 'x' := by
    intro c hc
    obtain ⟨b, -, hc⟩ := List.mem_flatMap.mp hc
    have hb := b.toNat_lt
    rw [pair, List.mem_cons, List.mem_singleton] at hc
    rcases hc with rfl | rfl
    · exact digitChar_ne_mark (by omega)
    · exact digitChar_ne_mark (by omega)
  rw [stripMarks, toList_encode, dropMarks, dropMarks_eq_self hplain, digits]

/-- A number behind a mark is stripped to its digits. -/
@[simp] theorem stripMarks_hexadecimal (n : Nat) :
    stripMarks ("0x" ++ hexadecimal n) = hexadecimal n := by
  have hplain : ∀ c ∈ Nat.toDigits 16 n, c ≠ 'x' :=
    forall_mem_toDigits (by decide) (fun d hd => digitChar_ne_mark hd) n
  have hlist : ("0x" ++ hexadecimal n).toList = '0' :: 'x' :: Nat.toDigits 16 n := by
    simp [hexadecimal]
  rw [stripMarks, hlist, dropMarks, dropMarks_eq_self hplain, hexadecimal]

/-- A text that starts with `0X` is no string of digits. -/
theorem decode_ne_ok_of_afterLead {s : String} {rest : List Char}
    (h : afterLead? ['0', 'X'] s.toList = some rest) (bytes : Bytes) : decode s ≠ .ok bytes := by
  have hlist : s.toList = '0' :: 'X' :: rest := by
    unfold afterLead? at h
    split at h
    · rename_i hlead
      obtain ⟨tail, htail⟩ := List.isPrefixOf_iff_prefix.mp hlead
      rw [← htail] at h ⊢
      simp at h
      simp [h]
    · cases h
  have henc : Utf8.encode s = 0x30 :: 0x58 :: rest.flatMap String.utf8EncodeChar := by
    rw [Utf8.encode, hlist]
    rfl
  intro hok
  rw [decode, decodeBytes, henc] at hok
  split at hok
  · cases hok
  · rw [readPairs, show nibble? 0x30 = some 0 by decide, show nibble? 0x58 = none by decide] at hok
    cases hok

/-- The reader that forgives `0X` as well reads the same bytes. -/
theorem decode_stripMark_of_stripLowerMark {s : String} {bytes : Bytes}
    (h : decode (stripLowerMark s) = .ok bytes) : decode (stripMark s) = .ok bytes := by
  unfold stripLowerMark at h
  unfold stripMark
  split
  · rename_i heq
    rwa [heq] at h
  · rename_i heq
    rw [heq] at h
    split
    · rename_i hupper
      exact absurd h (decode_ne_ok_of_afterLead hupper bytes)
    · exact h

end LedgerGateway.Hex

import LedgerGateway.Proofs.Json.Strings

/-!
# Written numbers are read back

Whole numbers are written in decimal digits and end where the next byte can be no part of a number.
The reader takes the longest run of digits, so that it stops there as well.
-/

namespace LedgerGateway.Json

open Text

/-! ## Digits as bytes -/

/-- The bytes of a number's decimal digits. -/
def digitBytes (n : Nat) : Bytes := (Nat.toDigits 10 n).flatMap String.utf8EncodeChar

theorem utf8EncodeChar_digitChar {d : Nat} (hd : d < 10) :
    String.utf8EncodeChar (Nat.digitChar d) = [UInt8.ofNat (0x30 + d)] := by
  revert d
  decide

theorem digitBytes_of_lt {n : Nat} (h : n < 10) : digitBytes n = [UInt8.ofNat (0x30 + n)] := by
  rw [digitBytes, Nat.toDigits_of_lt_base h, List.flatMap_singleton, utf8EncodeChar_digitChar h]

theorem digitBytes_of_le {n : Nat} (h : 10 ≤ n) :
    digitBytes n = digitBytes (n / 10) ++ [UInt8.ofNat (0x30 + n % 10)] := by
  have hd : n % 10 < 10 := Nat.mod_lt n (by decide)
  rw [digitBytes, Nat.toDigits_of_base_le (by decide) h, List.flatMap_append,
    List.flatMap_singleton, utf8EncodeChar_digitChar hd]
  rfl

theorem digitBytes_ne_nil (n : Nat) : digitBytes n ≠ [] := by
  by_cases h : n < 10
  · rw [digitBytes_of_lt h]
    simp
  · rw [digitBytes_of_le (by omega)]
    simp

theorem isDigitByte_ofNat {d : Nat} (hd : d < 10) :
    isDigitByte (UInt8.ofNat (0x30 + d)) = true := by
  revert d
  decide

theorem isDigitByte_of_mem_digitBytes (n : Nat) : ∀ b ∈ digitBytes n, isDigitByte b = true := by
  induction n using Nat.strongRecOn with
  | ind n ih =>
    intro b hb
    by_cases h : n < 10
    · rw [digitBytes_of_lt h, List.mem_singleton] at hb
      exact hb ▸ isDigitByte_ofNat h
    · rw [digitBytes_of_le (by omega), List.mem_append, List.mem_singleton] at hb
      rcases hb with hb | rfl
      · exact ih (n / 10) (by omega) b hb
      · exact isDigitByte_ofNat (Nat.mod_lt n (by decide))

theorem digitsValue_append (ds : Bytes) (d : UInt8) :
    digitsValue (ds ++ [d]) = digitsValue ds * 10 + (d.toNat - 0x30) := by
  simp [digitsValue]

@[simp] theorem digitsValue_digitBytes (n : Nat) : digitsValue (digitBytes n) = n := by
  induction n using Nat.strongRecOn with
  | ind n ih =>
    by_cases h : n < 10
    · rw [digitBytes_of_lt h]
      simp [digitsValue]
      omega
    · rw [digitBytes_of_le (by omega), digitsValue_append, ih (n / 10) (by omega)]
      simp
      omega

/-- A zero stands in front of no other digit. -/
theorem digitBytes_eq_zero_or (n : Nat) :
    digitBytes n = [0x30] ∨ ∃ d ds, digitBytes n = d :: ds ∧ d ≠ 0x30 := by
  induction n using Nat.strongRecOn with
  | ind n ih =>
    by_cases hzero : n = 0
    · exact .inl (hzero ▸ rfl)
    by_cases h : n < 10
    · have hne : ∀ n < 10, n ≠ 0 → UInt8.ofNat (0x30 + n) ≠ 0x30 := by decide
      exact .inr ⟨_, [], digitBytes_of_lt h, hne n h hzero⟩
    · rw [digitBytes_of_le (by omega)]
      rcases ih (n / 10) (by omega) with hquot | ⟨d, ds, hquot, hd⟩
      · have hval := digitsValue_digitBytes (n / 10)
        rw [hquot] at hval
        simp [digitsValue] at hval
        omega
      · exact .inr ⟨d, ds ++ [UInt8.ofNat (0x30 + n % 10)], by rw [hquot]; rfl, hd⟩

/-! ## Where a number ends -/

def EndsNumber (rest : Bytes) : Prop :=
  ∀ b ∈ rest.head?, isDigitByte b = false ∧ b ≠ 0x2e ∧ b ≠ 0x65 ∧ b ≠ 0x45

theorem endsNumber_nil : EndsNumber [] := by simp [EndsNumber]

theorem readFraction_of_ends {rest : Bytes} (h : EndsNumber rest) :
    readFraction rest = .ok (none, rest) := by
  unfold readFraction
  split
  · exact absurd rfl (h _ rfl).2.1
  · rfl

theorem readExponent_of_ends {rest : Bytes} (h : EndsNumber rest) :
    readExponent rest = .ok (none, rest) := by
  cases rest with
  | nil => rfl
  | cons b rest =>
    obtain ⟨-, -, he, hE⟩ := h b rfl
    simp [readExponent, he, hE]

theorem takeWhile_digits {ds rest : Bytes} (hds : ∀ b ∈ ds, isDigitByte b = true)
    (h : EndsNumber rest) : (ds ++ rest).takeWhile isDigitByte = ds := by
  rw [List.takeWhile_append_of_pos hds]
  cases rest with
  | nil => simp
  | cons b rest => simp [(h b rfl).1]

theorem dropWhile_digits {ds rest : Bytes} (hds : ∀ b ∈ ds, isDigitByte b = true)
    (h : EndsNumber rest) : (ds ++ rest).dropWhile isDigitByte = rest := by
  rw [List.dropWhile_append_of_pos hds]
  cases rest with
  | nil => simp
  | cons b rest => simp [(h b rfl).1]

theorem readWhole_digitBytes {rest : Bytes} (n : Nat) (h : EndsNumber rest) :
    readWhole (digitBytes n ++ rest) = .ok (digitBytes n, rest) := by
  have hdigits := isDigitByte_of_mem_digitBytes n
  rcases digitBytes_eq_zero_or n with hzero | ⟨d, ds, hds, hd⟩
  · rw [hzero]
    cases rest with
    | nil => rfl
    | cons b rest => simp [readWhole, (h b rfl).1]
  · have htake := takeWhile_digits hdigits h
    have hdrop := dropWhile_digits hdigits h
    rw [hds] at htake hdrop ⊢
    rw [List.cons_append] at htake hdrop ⊢
    unfold readWhole
    split
    · rename_i heq
      exact absurd (List.cons.inj heq).1 hd
    · simp [readSomeDigits, htake, hdrop]

/-! ## Numbers -/

/-- A whole number as it is written. -/
def Number.numeral : Number → Numeral
  | .natural n => ⟨false, n.toNat, 0, true⟩
  | .negative i => ⟨i.toInt < 0, i.toInt.natAbs, 0, true⟩
  | .binary f => ⟨f.negative, f.mantissa, f.exponent, false⟩

/-- The number is no binary fraction. -/
def Number.isWhole : Number → Bool
  | .natural _ | .negative _ => true
  | .binary _ => false

theorem readNumeral_digitBytes {rest : Bytes} (n : Nat) (h : EndsNumber rest) :
    readNumeral (digitBytes n ++ rest) = .ok (⟨false, n, 0, true⟩, rest) := by
  have hminus : ∀ b bs, digitBytes n ++ rest = b :: bs → b ≠ 0x2d := by
    intro b bs heq hb
    obtain ⟨d, ds, hds⟩ := List.exists_cons_of_ne_nil (digitBytes_ne_nil n)
    have hd := isDigitByte_of_mem_digitBytes n d (by simp [hds])
    rw [hds, List.cons_append] at heq
    rw [(List.cons.inj heq).1, hb] at hd
    exact absurd hd (by decide)
  unfold readNumeral
  split
  · rename_i heq
    split at heq
    · rename_i hcons
      exact absurd rfl (hminus _ _ hcons)
    · cases heq
      simp [bind, Except.bind, pure, Except.pure, readWhole_digitBytes n h,
        readFraction_of_ends h, readExponent_of_ends h]

theorem readNumeral_minus {rest : Bytes} (n : Nat) (h : EndsNumber rest) :
    readNumeral (0x2d :: (digitBytes n ++ rest)) = .ok (⟨true, n, 0, true⟩, rest) := by
  simp [readNumeral, bind, Except.bind, pure, Except.pure, readWhole_digitBytes n h,
    readFraction_of_ends h, readExponent_of_ends h]

def Number.bytes (n : Number) : Bytes := n.render.toList.flatMap String.utf8EncodeChar

theorem Number.bytes_natural (n : UInt64) : (Number.natural n).bytes = digitBytes n.toNat := by
  simp [Number.bytes, Number.render, decimal, digitBytes]

theorem Number.bytes_negative (i : Int64) :
    (Number.negative i).bytes =
      if i.toInt < 0 then 0x2d :: digitBytes i.toInt.natAbs else digitBytes i.toInt.natAbs := by
  have hrender : (Number.negative i).render = signedDecimal i.toInt := rfl
  rw [Number.bytes, hrender, signedDecimal]
  by_cases hi : i.toInt < 0
  · rw [if_pos hi, if_pos hi, String.toList_append, List.flatMap_append]
    simp [decimal, digitBytes]
    rfl
  · rw [if_neg hi, if_neg hi]
    simp [decimal, digitBytes]

theorem readNumeral_number {n : Number} (hw : n.isWhole = true) {rest : Bytes}
    (h : EndsNumber rest) : readNumeral (n.bytes ++ rest) = .ok (n.numeral, rest) := by
  cases n with
  | natural n => rw [Number.bytes_natural, readNumeral_digitBytes _ h]; rfl
  | negative i =>
    rw [Number.bytes_negative]
    by_cases hi : i.toInt < 0
    · rw [if_pos hi, List.cons_append, readNumeral_minus _ h]
      simp [Number.numeral, hi]
    · rw [if_neg hi, readNumeral_digitBytes _ h]
      simp [Number.numeral, hi]
  | binary f => cases hw

end LedgerGateway.Json

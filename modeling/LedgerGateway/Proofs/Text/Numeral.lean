import LedgerGateway.Text.Blank
import LedgerGateway.Text.Numeral

/-!
# Numerals: written digits read back

Both readers of this module take the digits that `Nat.toDigits` writes, in any radix up to
sixteen, back to the number. The induction follows the digits: the last one is the remainder, and
those before it write the quotient.
-/

namespace LedgerGateway.Text

/-! ## Digits -/

theorem digit?_digitChar {radix d : Nat} (hr : radix ≤ 16) (hd : d < radix) :
    digit? radix (Nat.digitChar d) = some d := by
  have key : ∀ d < 16, (digit? 16 (Nat.digitChar d)) = some d := by decide
  have h := key d (by omega)
  simp only [digit?, Option.filter_eq_some_iff] at h ⊢
  exact ⟨h.1, by simpa using hd⟩

/-- Digits are characters of ASCII. -/
theorem toNat_of_digit? {radix d : Nat} {c : Char} (h : digit? radix c = some d) :
    (0x30 ≤ c.toNat ∧ c.toNat ≤ 0x39) ∨ (0x61 ≤ c.toNat ∧ c.toNat ≤ 0x7a) ∨
      (0x41 ≤ c.toNat ∧ c.toNat ≤ 0x5a) := by
  have hle : ∀ a b : Char, a ≤ b ↔ a.toNat ≤ b.toNat := fun _ _ => Iff.rfl
  unfold digit? at h
  simp only [Option.filter_eq_some_iff, Bool.and_eq_true, decide_eq_true_eq, hle] at h
  obtain ⟨h, -⟩ := h
  split at h
  · rename_i hnine
    exact .inl hnine
  · split at h
    · rename_i hlower
      exact .inr (.inl hlower)
    · split at h
      · rename_i hupper
        exact .inr (.inr hupper)
      · cases h

theorem digit?_of_le {radix : Nat} {c : Char} (h : 0x80 ≤ c.toNat) : digit? radix c = none := by
  rw [Option.eq_none_iff_forall_ne_some]
  intro d hd
  have hrange := toNat_of_digit? hd
  omega

theorem digit?_of_isBlank {radix : Nat} {c : Char} (h : isBlank c = true) :
    digit? radix c = none := by
  rw [Option.eq_none_iff_forall_ne_some]
  intro d hd
  have hrange := toNat_of_digit? hd
  simp only [isBlank, Bool.or_eq_true, Bool.and_eq_true, decide_eq_true_eq, beq_iff_eq] at h
  omega

/-- A digit is no sign, no blank, and one byte in a text. -/
theorem digitChar_plain {d : Nat} (hd : d < 16) :
    Nat.digitChar d ≠ '+' ∧ isBlank (Nat.digitChar d) = false ∧ (Nat.digitChar d).toNat < 0x80 := by
  revert d
  decide

/-- What holds of every digit of the radix holds of every character of a number. -/
theorem forall_mem_toDigits {p : Char → Prop} {radix : Nat} (hr : 1 < radix)
    (hp : ∀ d < radix, p (Nat.digitChar d)) (n : Nat) : ∀ c ∈ Nat.toDigits radix n, p c := by
  induction n using Nat.strongRecOn with
  | ind n ih =>
    intro c hc
    by_cases hn : n < radix
    · rw [Nat.toDigits_of_lt_base hn, List.mem_singleton] at hc
      exact hc ▸ hp n hn
    · rw [Nat.toDigits_of_base_le hr (by omega), List.mem_append, List.mem_singleton] at hc
      rcases hc with hc | hc
      · exact ih (n / radix) (Nat.div_lt_self (by omega) hr) c hc
      · exact hc ▸ hp _ (Nat.mod_lt n (by omega))

/-- A number behind a mark holds no blank. -/
theorem isBlank_of_mem_hexadecimal (n : Nat) :
    ∀ c ∈ ("0x" ++ hexadecimal n).toList, isBlank c = false := by
  have hdigits : ∀ c ∈ Nat.toDigits 16 n, isBlank c = false :=
    forall_mem_toDigits (by decide) (fun d hd => (digitChar_plain hd).2.1) n
  intro c hc
  have hlist : ("0x" ++ hexadecimal n).toList = '0' :: 'x' :: Nat.toDigits 16 n := by
    simp [hexadecimal]
  rw [hlist, List.mem_cons, List.mem_cons] at hc
  rcases hc with rfl | rfl | hc
  · decide
  · decide
  · exact hdigits c hc

/-! ## Different numbers -/

theorem decimal_injective {m n : Nat} (h : decimal m = decimal n) : m = n := by
  have hdigits : Nat.toDigits 10 m = Nat.toDigits 10 n := String.ofList_injective h
  rw [← Nat.ofDigitChars_ten_toDigits (n := m), hdigits, Nat.ofDigitChars_ten_toDigits]

/-- No digit is a minus sign. -/
theorem decimal_ne_minus (m n : Nat) : decimal m ≠ "-" ++ decimal n := by
  intro h
  have hplain : ∀ c ∈ Nat.toDigits 10 m, c ≠ '-' := forall_mem_toDigits (by decide) (by decide) m
  have hlist : Nat.toDigits 10 m = '-' :: Nat.toDigits 10 n := by
    simpa [decimal] using congrArg String.toList h
  exact hplain '-' (by rw [hlist]; exact List.mem_cons_self) rfl

theorem signedDecimal_injective {i j : Int} (h : signedDecimal i = signedDecimal j) : i = j := by
  unfold signedDecimal at h
  split at h <;> split at h
  · have habs := decimal_injective ((String.append_right_inj "-").mp h)
    omega
  · exact absurd h.symm (decimal_ne_minus _ _)
  · exact absurd h (decimal_ne_minus _ _)
  · have habs := decimal_injective h
    omega

/-! ## The plain reader -/

theorem readDigits_toDigits_append {radix bound : Nat} (hr : 1 < radix) (hr' : radix ≤ 16) (n : Nat)
    (hn : n < bound) (cs : List Char) :
    readDigits radix bound 0 (Nat.toDigits radix n ++ cs) = readDigits radix bound n cs := by
  induction n using Nat.strongRecOn generalizing cs with
  | ind n ih =>
    by_cases hlt : n < radix
    · rw [Nat.toDigits_of_lt_base hlt, List.singleton_append, readDigits, digit?_digitChar hr' hlt]
      simp [hn]
    · have hdiv : n / radix < n := Nat.div_lt_self (by omega) hr
      rw [Nat.toDigits_of_base_le hr (by omega), List.append_assoc, ih _ hdiv (by omega),
        List.singleton_append, readDigits, digit?_digitChar hr' (Nat.mod_lt n (by omega))]
      simp only [Nat.div_add_mod', hn, if_true]

theorem readNat_of_head {radix bound : Nat} {cs : List Char} (hne : cs ≠ [])
    (hplus : ∀ c ∈ cs, c ≠ '+') : readNat radix bound cs = readDigits radix bound 0 cs := by
  unfold readNat
  split
  · exact absurd rfl hne
  · exact absurd rfl (hplus '+' (by simp))
  · exact absurd rfl (hplus '+' (by simp))
  · rfl

/-- The digits of a number below the bound are read back as it. -/
theorem readNat_toDigits {radix bound : Nat} (hr : 1 < radix) (hr' : radix ≤ 16) {n : Nat}
    (hn : n < bound) : readNat radix bound (Nat.toDigits radix n) = .ok n := by
  have hplus := forall_mem_toDigits (p := (· ≠ '+')) hr
    (fun d hd => (digitChar_plain (Nat.lt_of_lt_of_le hd hr')).1) n
  rw [readNat_of_head Nat.toDigits_ne_nil hplus]
  have h := readDigits_toDigits_append hr hr' n hn []
  rw [List.append_nil] at h
  rw [h, readDigits]

theorem readUInt64_toDigits {radix : Nat} (hr : 1 < radix) (hr' : radix ≤ 16) (v : UInt64) :
    readUInt64 radix (Nat.toDigits radix v.toNat) = .ok v := by
  rw [readUInt64, readNat_toDigits hr hr' v.toNat_lt]
  simp [Except.map]

end LedgerGateway.Text

import LedgerGateway.Proofs.Except
import LedgerGateway.Proofs.Text.Numeral
import Mathlib.Data.List.Forall2
import Mathlib.Data.Nat.Digits.Defs

/-!
# Which texts are numbers

`IsNumeral` says what a row of digits writes: each digit counts by its place, and zeros in front
count nothing. The plain reader tests the bound after every digit, but more digits make no smaller
number, so it accepts a row exactly if the number that the whole row writes is below the bound.
-/

namespace LedgerGateway.Text

/-! ## Digits -/

/-- A character writes a digit, in either case. -/
def IsDigit (radix : Nat) (c : Char) (d : Nat) : Prop :=
  d < radix ∧ (c = Nat.digitChar d ∨ c = (Nat.digitChar d).toUpper)

theorem digit?_toUpper_digitChar {radix d : Nat} (hr : radix ≤ 16) (hd : d < radix) :
    digit? radix (Nat.digitChar d).toUpper = some d := by
  have key : ∀ d < 16, digit? 16 (Nat.digitChar d).toUpper = some d := by decide
  have h := key d (by omega)
  simp only [digit?, Option.filter_eq_some_iff] at h ⊢
  exact ⟨h.1, by simpa using hd⟩

/-- Where the digits of a value stand among the characters. -/
theorem toNat_digitChar {d : Nat} (hd : d < 16) :
    (Nat.digitChar d).toNat = (if d < 10 then 48 + d else 87 + d) ∧
      (Nat.digitChar d).toUpper.toNat = if d < 10 then 48 + d else 55 + d := by
  revert d
  decide

theorem isDigit_of_digit? {radix d : Nat} {c : Char} (hr : radix ≤ 16)
    (h : digit? radix c = some d) : IsDigit radix c d := by
  have hle : ∀ a b : Char, a ≤ b ↔ a.toNat ≤ b.toNat := fun _ _ => Iff.rfl
  simp only [digit?, Option.filter_eq_some_iff, Bool.and_eq_true, decide_eq_true_eq, hle] at h
  obtain ⟨h, hd⟩ := h
  obtain ⟨hlower, hupper⟩ := toNat_digitChar (Nat.lt_of_lt_of_le hd hr)
  refine ⟨hd, ?_⟩
  have h0 : '0'.toNat = 48 := rfl
  have h9 : '9'.toNat = 57 := rfl
  have ha : 'a'.toNat = 97 := rfl
  have hA : 'A'.toNat = 65 := rfl
  simp only [← Char.toNat_inj, hlower, hupper]
  split at h
  · cases h
    split <;> omega
  · split at h
    · cases h
      split <;> omega
    · split at h
      · cases h
        split <;> omega
      · cases h

theorem digit?_eq_some_iff {radix d : Nat} {c : Char} (hr : radix ≤ 16) :
    digit? radix c = some d ↔ IsDigit radix c d := by
  refine ⟨isDigit_of_digit? hr, ?_⟩
  rintro ⟨hd, rfl | rfl⟩
  · exact digit?_digitChar hr hd
  · exact digit?_toUpper_digitChar hr hd

/-! ## Rows of digits -/

/-- One digit or more that write a number, the last one as a unit. -/
def IsNumeral (radix : Nat) (cs : List Char) (n : Nat) : Prop :=
  cs ≠ [] ∧ ∃ ds, List.Forall₂ (IsDigit radix) cs ds ∧ n = Nat.ofDigits radix ds.reverse

/-- A numeral, which may have one plus sign in front. -/
def IsNumber (radix : Nat) (cs : List Char) (n : Nat) : Prop :=
  ∃ digits, (cs = digits ∨ cs = '+' :: digits) ∧ IsNumeral radix digits n

/-- The number that digits write behind a value. -/
def withDigits (radix value : Nat) (ds : List Nat) : Nat :=
  ds.foldl (fun n d => n * radix + d) value

theorem withDigits_zero (radix : Nat) (ds : List Nat) :
    withDigits radix 0 ds = Nat.ofDigits radix ds.reverse := by
  rw [withDigits, Nat.ofDigits_eq_foldr, List.foldr_reverse]
  simp only [Nat.cast_id, Nat.mul_comm radix, Nat.add_comm]

theorem le_withDigits {radix : Nat} (hr : 0 < radix) (value : Nat) (ds : List Nat) :
    value ≤ withDigits radix value ds := by
  induction ds generalizing value with
  | nil => exact Nat.le_refl value
  | cons d ds ih =>
    have hstep : value ≤ value * radix + d :=
      (Nat.le_mul_of_pos_right value hr).trans (Nat.le_add_right _ d)
    exact hstep.trans (ih (value * radix + d))

/-- The reader holds the value of the digits that it has read, which stays below the bound. -/
theorem readDigits_eq_ok_iff {radix bound value n : Nat} {cs : List Char} (hr : 0 < radix)
    (hr' : radix ≤ 16) (hvalue : value < bound) :
    readDigits radix bound value cs = .ok n ↔
      n < bound ∧ ∃ ds, List.Forall₂ (IsDigit radix) cs ds ∧ n = withDigits radix value ds := by
  induction cs generalizing value with
  | nil =>
    rw [readDigits, Except.ok.injEq]
    constructor
    · rintro rfl
      exact ⟨hvalue, [], .nil, rfl⟩
    · rintro ⟨-, ds, hds, rfl⟩
      cases hds
      rfl
  | cons c cs ih =>
    rw [readDigits]
    constructor
    · intro h
      split at h
      · cases h
      · rename_i d hd
        split at h
        · rename_i hstep
          obtain ⟨hlt, ds, hds, rfl⟩ := (ih hstep).mp h
          exact ⟨hlt, d :: ds, .cons ((digit?_eq_some_iff hr').mp hd) hds, rfl⟩
        · cases h
    · rintro ⟨hlt, ds, hds, rfl⟩
      cases hds with
      | cons hd hds =>
        rename_i d ds
        have hstep : value * radix + d < bound := Nat.lt_of_le_of_lt (le_withDigits hr _ ds) hlt
        rw [(digit?_eq_some_iff hr').mpr hd]
        simp only [if_pos hstep]
        exact (ih hstep).mpr ⟨hlt, ds, hds, rfl⟩

theorem readDigits_eq_ok_iff_isNumeral {radix bound n : Nat} {cs : List Char} (hr : 0 < radix)
    (hr' : radix ≤ 16) (hbound : 0 < bound) (hne : cs ≠ []) :
    readDigits radix bound 0 cs = .ok n ↔ n < bound ∧ IsNumeral radix cs n := by
  rw [readDigits_eq_ok_iff hr hr' hbound]
  simp only [withDigits_zero, IsNumeral, ne_eq, hne, not_false_eq_true, true_and]

/-! ## The plain reader -/

/-- A sign is no digit. -/
theorem ne_plus_of_isDigit {radix d : Nat} {c : Char} (hr : radix ≤ 16) (h : IsDigit radix c d) :
    c ≠ '+' := by
  have key : ∀ d < 16, Nat.digitChar d ≠ '+' ∧ (Nat.digitChar d).toUpper ≠ '+' := by decide
  obtain ⟨hd, rfl | rfl⟩ := h
  · exact (key d (by omega)).1
  · exact (key d (by omega)).2

theorem ne_plus_of_isNumeral {radix n : Nat} {cs : List Char} (hr : radix ≤ 16)
    (h : IsNumeral radix cs n) : ∀ c ∈ cs, c ≠ '+' := by
  obtain ⟨-, ds, hds, -⟩ := h
  have hplus := hds.imp fun c d hd => And.intro (ne_plus_of_isDigit hr hd) hd
  exact ((List.forall₂_and_left _ _).mp hplus).1

/-- Without a plus sign in front a number is a numeral. -/
theorem isNumber_iff_isNumeral {radix n : Nat} {cs : List Char} (h : ∀ c ∈ cs.head?, c ≠ '+') :
    IsNumber radix cs n ↔ IsNumeral radix cs n := by
  constructor
  · rintro ⟨digits, rfl | rfl, hdigits⟩
    · exact hdigits
    · exact absurd rfl (h '+' rfl)
  · intro hcs
    exact ⟨cs, .inl rfl, hcs⟩

theorem isNumber_plus_iff {radix n : Nat} {cs : List Char} (hr : radix ≤ 16) :
    IsNumber radix ('+' :: cs) n ↔ IsNumeral radix cs n := by
  constructor
  · rintro ⟨digits, rfl | hcs, hdigits⟩
    · exact absurd rfl (ne_plus_of_isNumeral hr hdigits '+' List.mem_cons_self)
    · rw [(List.cons.inj hcs).2]
      exact hdigits
  · intro hcs
    exact ⟨cs, .inr rfl, hcs⟩

/-- The reader accepts exactly the numbers below the bound. -/
theorem readNat_eq_ok_iff {radix bound n : Nat} {cs : List Char} (hr : 0 < radix) (hr' : radix ≤ 16)
    (hbound : 0 < bound) : readNat radix bound cs = .ok n ↔ n < bound ∧ IsNumber radix cs n := by
  unfold readNat
  split
  · rw [isNumber_iff_isNumeral (by simp)]
    simp [IsNumeral]
  · rw [isNumber_plus_iff hr']
    simp [IsNumeral]
  · rename_i digits hne
    rw [isNumber_plus_iff hr']
    exact readDigits_eq_ok_iff_isNumeral hr hr' hbound hne
  · rename_i hempty hsign hplus
    rw [isNumber_iff_isNumeral]
    · exact readDigits_eq_ok_iff_isNumeral hr hr' hbound hempty
    · rintro c hc rfl
      obtain ⟨digits, hcs⟩ := List.head?_eq_some_iff.mp hc
      exact hplus digits hcs

theorem readUInt64_eq_ok_iff {radix : Nat} {cs : List Char} {v : UInt64} (hr : 0 < radix)
    (hr' : radix ≤ 16) : readUInt64 radix cs = .ok v ↔ IsNumber radix cs v.toNat := by
  rw [readUInt64, map_eq_ok]
  simp only [readNat_eq_ok_iff hr hr' (show 0 < UInt64.size by decide)]
  constructor
  · rintro ⟨n, ⟨hlt, hn⟩, rfl⟩
    rwa [UInt64.toNat_ofNat_of_lt' hlt]
  · intro h
    exact ⟨v.toNat, ⟨v.toNat_lt, h⟩, UInt64.ofNat_toNat⟩

theorem readUInt32_eq_ok_iff {s : String} {v : UInt32} :
    readUInt32 s = .ok v ↔ IsNumber 10 s.toList v.toNat := by
  rw [readUInt32, map_eq_ok]
  simp only [readNat_eq_ok_iff (show 0 < 10 by decide) (by decide) (show 0 < UInt32.size by decide)]
  constructor
  · rintro ⟨n, ⟨hlt, hn⟩, rfl⟩
    rwa [UInt32.toNat_ofNat_of_lt' hlt]
  · intro h
    exact ⟨v.toNat, ⟨v.toNat_lt, h⟩, UInt32.ofNat_toNat⟩

/-! ## Written numbers -/

/-- The digits of a number write it. -/
theorem isNumeral_toDigits {radix : Nat} (hr : 1 < radix) (hr' : radix ≤ 16) (n : Nat) :
    IsNumeral radix (Nat.toDigits radix n) n := by
  have hplus : ∀ c ∈ Nat.toDigits radix n, c ≠ '+' := forall_mem_toDigits hr
    (fun d hd => (digitChar_plain (Nat.lt_of_lt_of_le hd hr')).1) n
  have hread := readNat_toDigits hr hr' (Nat.lt_succ_self n)
  obtain ⟨-, h⟩ := (readNat_eq_ok_iff (by omega) hr' (Nat.succ_pos n)).mp hread
  exact (isNumber_iff_isNumeral fun c hc => hplus c (List.mem_of_mem_head? hc)).mp h

/-- Only zero is written with a zero in front. -/
theorem head?_toDigits {radix : Nat} (hr : 1 < radix) (hr' : radix ≤ 16) {n : Nat}
    (h : (Nat.toDigits radix n).head? = some '0') : n = 0 := by
  have key : ∀ d < 16, Nat.digitChar d = '0' → d = 0 := by decide
  induction n using Nat.strongRecOn with
  | ind n ih =>
    by_cases hn : n < radix
    · rw [Nat.toDigits_of_lt_base hn, List.head?_cons, Option.some.injEq] at h
      exact key n (by omega) h
    · rw [Nat.toDigits_of_base_le hr (by omega),
        List.head?_append_of_ne_nil _ Nat.toDigits_ne_nil] at h
      have hdiv := ih (n / radix) (Nat.div_lt_self (by omega) hr) h
      rw [Nat.div_eq_zero_iff] at hdiv
      omega

end LedgerGateway.Text

import LedgerGateway.Proofs.Text.Numeral
import LedgerGateway.Proofs.Text.Utf8
import Mathlib.Data.Nat.Digits.Defs

/-!
# Numbers of 256 bits are read by place value

The readers go through the bytes of a text: the decimal one from the left, testing the value from
time to time, the others from the right with a weight. `numeral?` is what both compute. It looks at
the characters, and it says what a text stands for without a bound. A text is read exactly if the
number it stands for is below the bound (`readDecimal_eq_ok_iff`, `readHexadecimal_eq_ok_iff`).
-/

namespace LedgerGateway.Text

/-- The digits of a text in a radix. Underscores do not count. -/
def digitsOf? (radix : Nat) (cs : List Char) : Option (List Nat) :=
  (cs.filter (· != '_')).mapM (digit? radix)

/-- The number that a text writes in a radix; no digits write zero. -/
def numeral? (radix : Nat) (s : String) : Option Nat :=
  (digitsOf? radix s.toList).map fun digits => Nat.ofDigits radix digits.reverse

theorem mapM_eq_some {α β : Type} {f : α → Option β} {xs : List α} {ys : List β} :
    xs.mapM f = some ys ↔ xs.map f = ys.map some := by
  induction xs generalizing ys with
  | nil => cases ys <;> simp
  | cons x xs ih =>
    rw [List.mapM_cons, List.map_cons]
    cases hx : f x with
    | none => cases ys <;> simp
    | some y =>
      cases ys with
      | nil => simp [Option.bind_eq_some_iff]
      | cons z zs => simp [Option.bind_eq_some_iff, ih, and_comm]

@[simp] theorem numeral?_empty (radix : Nat) : numeral? radix "" = some 0 := rfl

/-- A blank in front of a number spoils it. -/
theorem numeral?_of_isBlank {radix : Nat} {c : Char} {cs : List Char} (h : isBlank c = true) :
    numeral? radix (String.ofList (c :: cs)) = none := by
  have hlow : (c != '_') = true := by
    rw [bne_iff_ne]
    rintro rfl
    exact absurd h (by decide)
  rw [numeral?, String.toList_ofList, digitsOf?, List.filter_cons_of_pos (p := (· != '_')) hlow,
    List.mapM_cons, digit?_of_isBlank h]
  rfl

/-! ## Digits in bytes -/

namespace Wide

def Write (radix : Nat) (bytes : List UInt8) (digits : List Nat) : Prop :=
  (bytes.filter (· != 0x5f)).map (fun b => digit? radix (Utf8.latin1 b)) = digits.map some

theorem write_underscore {radix : Nat} {bs : List UInt8} {ds : List Nat} (h : Write radix bs ds) :
    Write radix (0x5f :: bs) ds := h

theorem write_digit {radix : Nat} {b : UInt8} {bs : List UInt8} {d : Nat} {ds : List Nat}
    (hne : b ≠ 0x5f) (hd : digit? radix (Utf8.latin1 b) = some d) (h : Write radix bs ds) :
    Write radix (b :: bs) (d :: ds) := by
  unfold Write at h ⊢
  rw [List.filter_cons_of_pos (by simpa using hne), List.map_cons, hd, h, List.map_cons]

/-- The first byte is an underscore or the first digit. -/
theorem write_cons {radix : Nat} {b : UInt8} {bs : List UInt8} {ds : List Nat}
    (h : Write radix (b :: bs) ds) :
    (b = 0x5f ∧ Write radix bs ds) ∨
      (b ≠ 0x5f ∧ ∃ d ds', ds = d :: ds' ∧ digit? radix (Utf8.latin1 b) = some d ∧
        Write radix bs ds') := by
  by_cases hb : b = 0x5f
  · subst hb
    exact .inl ⟨rfl, h⟩
  · unfold Write at h
    rw [List.filter_cons_of_pos (by simpa using hb), List.map_cons] at h
    cases ds with
    | nil => cases h
    | cons d ds =>
      obtain ⟨hd, hrest⟩ := List.cons.inj h
      exact .inr ⟨hb, d, ds, rfl, hd, hrest⟩

end Wide

/-- What the bytes of a text write, its characters write. -/
theorem digitsOf?_of_write {radix : Nat} {cs : List Char} {digits : List Nat}
    (h : Wide.Write radix (cs.flatMap String.utf8EncodeChar) digits) :
    digitsOf? radix cs = some digits := by
  rw [digitsOf?, mapM_eq_some]
  induction cs generalizing digits with
  | nil => exact h
  | cons c cs ih =>
    rw [List.flatMap_cons] at h
    by_cases hascii : c.toNat < 0x80
    · have hchar : Utf8.latin1 (UInt8.ofNat c.toNat) = c := Utf8.latin1_ofNat hascii
      rw [Utf8.utf8EncodeChar_of_lt hascii, List.singleton_append] at h
      rcases Wide.write_cons h with ⟨hlow, hrest⟩ | ⟨hne, d, ds, rfl, hd, hrest⟩
      · rw [hlow] at hchar
        subst hchar
        exact ih hrest
      · have hne' : c ≠ '_' := by
          rintro rfl
          exact hne rfl
        rw [List.filter_cons_of_pos (by simpa using hne'), List.map_cons, ih hrest, ← hchar, hd,
          List.map_cons]
    · -- A byte of a wider character is neither an underscore nor a digit.
      have hwide := Utf8.toNat_of_mem_utf8EncodeChar (c := c) (by omega)
      obtain ⟨b, bs, hbytes⟩ :=
        List.exists_cons_of_ne_nil (by simp : String.utf8EncodeChar c ≠ [])
      have hb : 0x80 ≤ b.toNat := hwide b (by rw [hbytes]; exact List.mem_cons_self)
      have hnone : digit? radix (Utf8.latin1 b) = none :=
        digit?_of_le (by rw [Utf8.toNat_latin1]; exact hb)
      rw [hbytes, List.cons_append] at h
      rcases Wide.write_cons h with ⟨rfl, -⟩ | ⟨-, d, ds, -, hd, -⟩
      · exact absurd hb (by decide)
      · rw [hnone] at hd
        cases hd

/-- What the characters of a text write, its bytes write. -/
theorem write_of_digitsOf? {radix : Nat} {cs : List Char} {digits : List Nat}
    (h : digitsOf? radix cs = some digits) :
    Wide.Write radix (cs.flatMap String.utf8EncodeChar) digits := by
  rw [digitsOf?, mapM_eq_some] at h
  induction cs generalizing digits with
  | nil => exact h
  | cons c cs ih =>
    rw [List.flatMap_cons]
    by_cases hlow : c = '_'
    · subst hlow
      rw [Utf8.utf8EncodeChar_of_lt (by decide), List.singleton_append]
      exact Wide.write_underscore (ih h)
    · rw [List.filter_cons_of_pos (by simpa using hlow), List.map_cons] at h
      cases digits with
      | nil => cases h
      | cons d ds =>
        obtain ⟨hd, hrest⟩ := List.cons.inj h
        have hascii : c.toNat < 0x80 := by
          have hrange := toNat_of_digit? hd
          omega
        have hchar : Utf8.latin1 (UInt8.ofNat c.toNat) = c := Utf8.latin1_ofNat hascii
        have hne : UInt8.ofNat c.toNat ≠ 0x5f := by
          intro hb
          rw [hb] at hchar
          exact hlow hchar.symm
        rw [Utf8.utf8EncodeChar_of_lt hascii, List.singleton_append]
        exact Wide.write_digit hne (by rw [hchar]; exact hd) (ih hrest)

/-! ## The readers -/

namespace Wide

theorem write_reverse {radix : Nat} {bs : List UInt8} {ds : List Nat}
    (h : Write radix bs.reverse ds) : Write radix bs ds.reverse := by
  unfold Write at h ⊢
  rw [List.filter_reverse, List.map_reverse] at h
  rw [List.map_reverse, ← h, List.reverse_reverse]

theorem ofDigits_concat {read : List Nat} {value chunk count : Nat} (d : Nat)
    (h : Nat.ofDigits 10 read.reverse = value * Nat.pow 10 count + chunk) :
    Nat.ofDigits 10 (read ++ [d]).reverse =
      value * Nat.pow 10 (count + 1) + (chunk * 10 + d) := by
  rw [List.reverse_append, List.reverse_singleton, List.singleton_append, Nat.ofDigits_cons, h,
    show Nat.pow 10 (count + 1) = Nat.pow 10 count * 10 from rfl]
  ring

/-- From the left: `read` are the digits so far, of which `chunk` holds the last `count`. -/
theorem write_of_readDecimalFrom {value chunk count n : Nat} {bs : List UInt8} {read : List Nat}
    (hread : Nat.ofDigits 10 read.reverse = value * Nat.pow 10 count + chunk)
    (h : readDecimalFrom value chunk count bs = .ok n) :
    n < bound ∧ ∃ ds, Write 10 bs ds ∧ n = Nat.ofDigits 10 (read ++ ds).reverse := by
  induction bs generalizing value chunk count read with
  | nil =>
    rw [readDecimalFrom] at h
    split at h
    · rename_i hlt
      cases h
      exact ⟨hlt, [], rfl, by rw [List.append_nil, hread]⟩
    · cases h
  | cons b bs ih =>
    rw [readDecimalFrom] at h
    split at h
    · rename_i hlow
      obtain rfl : b = 0x5f := by simpa using hlow
      obtain ⟨hlt, ds, hds, hn⟩ := ih hread h
      exact ⟨hlt, ds, write_underscore hds, hn⟩
    · rename_i hne
      have hne : b ≠ 0x5f := by simpa using hne
      split at h
      · cases h
      · rename_i d hd
        have hstep := ofDigits_concat d hread
        have hrest : ∀ {value chunk count : Nat},
            Nat.ofDigits 10 (read ++ [d]).reverse = value * Nat.pow 10 count + chunk →
            readDecimalFrom value chunk count bs = .ok n →
            n < bound ∧ ∃ ds, Write 10 (b :: bs) ds ∧ n = Nat.ofDigits 10 (read ++ ds).reverse := by
          intro value chunk count hvalue hread
          obtain ⟨hlt, ds, hds, hn⟩ := ih hvalue hread
          rw [List.append_assoc, List.singleton_append] at hn
          exact ⟨hlt, d :: ds, write_digit hne hd hds, hn⟩
        split at h
        · exact hrest hstep h
        · simp only at h
          split at h
          · exact hrest (hstep.trans (Nat.mul_one _).symm) h
          · cases h

/-- From the right: the digits that are left write a multiple of the weight. -/
theorem write_of_readFromRight {radix value weight n : Nat} {bs : List UInt8}
    (hvalue : value < bound) (h : readFromRight radix value weight bs = .ok n) :
    n < bound ∧ ∃ ds, Write radix bs ds ∧ n = value + weight * Nat.ofDigits radix ds := by
  induction bs generalizing value weight with
  | nil =>
    cases h
    exact ⟨hvalue, [], rfl, by rw [Nat.ofDigits_nil, Nat.mul_zero, Nat.add_zero]⟩
  | cons b bs ih =>
    rw [readFromRight] at h
    split at h
    · rename_i hlow
      obtain rfl : b = 0x5f := by simpa using hlow
      obtain ⟨hlt, ds, hds, hn⟩ := ih hvalue h
      exact ⟨hlt, ds, write_underscore hds, hn⟩
    · rename_i hne
      have hne : b ≠ 0x5f := by simpa using hne
      split at h
      · cases h
      · rename_i d hd
        simp only at h
        split at h
        · rename_i htotal
          obtain ⟨hlt, ds, hds, hn⟩ := ih htotal h
          refine ⟨hlt, d :: ds, write_digit hne hd hds, ?_⟩
          rw [hn, Nat.ofDigits_cons]
          ring
        · cases h

/-- More digits make no smaller number. -/
theorem ofDigits_le_append (read ds : List Nat) :
    Nat.ofDigits 10 read.reverse ≤ Nat.ofDigits 10 (read ++ ds).reverse := by
  rw [List.reverse_append, Nat.ofDigits_append]
  have hweight : 1 ≤ 10 ^ ds.reverse.length := Nat.one_le_pow _ _ (by decide)
  exact (Nat.le_mul_of_pos_left _ hweight).trans (Nat.le_add_left _ _)

theorem readDecimalFrom_of_write {value chunk count : Nat} {bs : List UInt8} {read ds : List Nat}
    (hread : Nat.ofDigits 10 read.reverse = value * Nat.pow 10 count + chunk)
    (hwrite : Write 10 bs ds) (hlt : Nat.ofDigits 10 (read ++ ds).reverse < bound) :
    readDecimalFrom value chunk count bs = .ok (Nat.ofDigits 10 (read ++ ds).reverse) := by
  induction bs generalizing value chunk count read ds with
  | nil =>
    obtain rfl : ds = [] := by simpa [Write] using hwrite
    rw [List.append_nil, hread] at hlt ⊢
    rw [readDecimalFrom]
    exact if_pos hlt
  | cons b bs ih =>
    rw [readDecimalFrom]
    rcases write_cons hwrite with ⟨rfl, hrest⟩ | ⟨hne, d, ds, rfl, hd, hrest⟩
    · exact ih hread hrest hlt
    · have hstep := ofDigits_concat d hread
      have htotal : value * Nat.pow 10 (count + 1) + (chunk * 10 + d) < bound := by
        have hle := ofDigits_le_append (read ++ [d]) ds
        rw [hstep, List.append_assoc, List.singleton_append] at hle
        exact Nat.lt_of_le_of_lt hle hlt
      rw [List.append_cons] at hlt ⊢
      rw [if_neg (by simpa using hne), hd]
      simp only [if_pos htotal]
      split
      · exact ih hstep hrest hlt
      · exact ih (hstep.trans (Nat.mul_one _).symm) hrest hlt

theorem readFromRight_of_write {radix value weight : Nat} {bs : List UInt8} {ds : List Nat}
    (hwrite : Write radix bs ds) (hlt : value + weight * Nat.ofDigits radix ds < bound) :
    readFromRight radix value weight bs = .ok (value + weight * Nat.ofDigits radix ds) := by
  induction bs generalizing value weight ds with
  | nil =>
    obtain rfl : ds = [] := by simpa [Write] using hwrite
    rw [readFromRight, Nat.ofDigits_nil, Nat.mul_zero, Nat.add_zero]
  | cons b bs ih =>
    rw [readFromRight]
    rcases write_cons hwrite with ⟨rfl, hrest⟩ | ⟨hne, d, ds, rfl, hd, hrest⟩
    · exact ih hrest hlt
    · have hsplit : value + weight * Nat.ofDigits radix (d :: ds) =
          value + d * weight + weight * radix * Nat.ofDigits radix ds := by
        rw [Nat.ofDigits_cons]
        ring
      rw [hsplit] at hlt ⊢
      rw [if_neg (by simpa using hne), hd]
      simp only
      rw [if_pos (Nat.lt_of_le_of_lt (Nat.le_add_right _ _) hlt)]
      exact ih hrest hlt

end Wide

/-- A decimal number that was read is the one that the text writes. -/
theorem numeral?_of_readDecimal {s : String} {v : BitVec 256} (h : Wide.readDecimal s = .ok v) :
    numeral? 10 s = some v.toNat := by
  unfold Wide.readDecimal at h
  cases hread : Wide.readDecimalFrom 0 0 0 (Utf8.encode s) with
  | error e =>
    rw [hread] at h
    cases h
  | ok n =>
    rw [hread] at h
    obtain rfl : BitVec.ofNat 256 n = v := Except.ok.inj h
    have hstart : Nat.ofDigits 10 ([] : List Nat).reverse = 0 * Nat.pow 10 0 + 0 := rfl
    obtain ⟨hlt, ds, hds, hn⟩ := Wide.write_of_readDecimalFrom hstart hread
    rw [numeral?, digitsOf?_of_write hds, BitVec.toNat_ofNat, Nat.mod_eq_of_lt hlt, hn]
    rfl

/-- A hexadecimal number that was read is the one that the text writes. -/
theorem numeral?_of_readHexadecimal {s : String} {v : BitVec 256}
    (h : Wide.readHexadecimal s = .ok v) : numeral? 16 s = some v.toNat := by
  unfold Wide.readHexadecimal Wide.readBinaryRadix at h
  cases hread : Wide.readFromRight 16 0 1 (Utf8.encode s).reverse with
  | error e =>
    rw [hread] at h
    cases h
  | ok n =>
    rw [hread] at h
    obtain rfl : BitVec.ofNat 256 n = v := Except.ok.inj h
    obtain ⟨hlt, ds, hds, hn⟩ := Wide.write_of_readFromRight (by decide) hread
    rw [numeral?, digitsOf?_of_write (Wide.write_reverse hds), BitVec.toNat_ofNat,
      Nat.mod_eq_of_lt hlt, hn, Option.map_some, List.reverse_reverse, Nat.zero_add, Nat.one_mul]

theorem digits_of_numeral? {radix n : Nat} {s : String} (h : numeral? radix s = some n) :
    ∃ ds, Wide.Write radix (Utf8.encode s) ds ∧ n = Nat.ofDigits radix ds.reverse := by
  obtain ⟨ds, hds, rfl⟩ := Option.map_eq_some_iff.mp h
  exact ⟨ds, write_of_digitsOf? hds, rfl⟩

/-- A text is read as a decimal number of 256 bits exactly if it writes it. -/
theorem readDecimal_eq_ok_iff {s : String} {v : BitVec 256} :
    Wide.readDecimal s = .ok v ↔ numeral? 10 s = some v.toNat := by
  refine ⟨numeral?_of_readDecimal, fun h => ?_⟩
  obtain ⟨ds, hwrite, hn⟩ := digits_of_numeral? h
  have hstart : Nat.ofDigits 10 ([] : List Nat).reverse = 0 * Nat.pow 10 0 + 0 := rfl
  have hlt : Nat.ofDigits 10 ([] ++ ds).reverse < Wide.bound := by
    rw [List.nil_append, ← hn]
    exact v.isLt
  have hread := Wide.readDecimalFrom_of_write hstart hwrite hlt
  rw [Wide.readDecimal, hread, List.nil_append, ← hn]
  simp [Except.map]

theorem readHexadecimal_eq_ok_iff {s : String} {v : BitVec 256} :
    Wide.readHexadecimal s = .ok v ↔ numeral? 16 s = some v.toNat := by
  refine ⟨numeral?_of_readHexadecimal, fun h => ?_⟩
  obtain ⟨ds, hwrite, hn⟩ := digits_of_numeral? h
  have hrev : Wide.Write 16 (Utf8.encode s).reverse ds.reverse :=
    Wide.write_reverse (by rwa [List.reverse_reverse])
  have hlt : 0 + 1 * Nat.ofDigits 16 ds.reverse < Wide.bound := by
    rw [Nat.zero_add, Nat.one_mul, ← hn]
    exact v.isLt
  have hread := Wide.readFromRight_of_write hrev hlt
  rw [Wide.readHexadecimal, Wide.readBinaryRadix, hread, Nat.zero_add, Nat.one_mul, ← hn]
  simp [Except.map]

/-- A number below the bound is one of 256 bits. -/
theorem exists_toNat_eq {n : Nat} (h : n < Wide.bound) : ∃ v : BitVec 256, n = v.toNat :=
  ⟨BitVec.ofNat 256 n, by rw [BitVec.toNat_ofNat, Nat.mod_eq_of_lt h]⟩

/-! ## Written numbers -/

theorem exists_digits_toDigits {radix : Nat} (hr : 1 < radix) (hr' : radix ≤ 16) (n : Nat) :
    ∃ ds : List Nat, (Nat.toDigits radix n).map (digit? radix) = ds.map some ∧
      Nat.ofDigits radix ds.reverse = n := by
  induction n using Nat.strongRecOn with
  | ind n ih =>
    by_cases hn : n < radix
    · refine ⟨[n], ?_, Nat.ofDigits_singleton⟩
      rw [Nat.toDigits_of_lt_base hn, List.map_singleton, digit?_digitChar hr' hn,
        List.map_singleton]
    · obtain ⟨ds, hds, hvalue⟩ := ih (n / radix) (Nat.div_lt_self (by omega) hr)
      refine ⟨ds ++ [n % radix], ?_, ?_⟩
      · rw [Nat.toDigits_of_base_le hr (by omega), List.map_append, hds, List.map_singleton,
          digit?_digitChar hr' (Nat.mod_lt n (by omega)), List.map_append, List.map_singleton]
      · rw [List.reverse_append, List.reverse_singleton, List.singleton_append, Nat.ofDigits_cons,
          hvalue, Nat.mod_add_div]

/-- The hexadecimal digits of a number write it. -/
theorem numeral?_hexadecimal (n : Nat) : numeral? 16 (hexadecimal n) = some n := by
  obtain ⟨ds, hds, hvalue⟩ := exists_digits_toDigits (show 1 < 16 by decide) (by decide) n
  have hplain : ∀ c ∈ Nat.toDigits 16 n, (c != '_') = true :=
    forall_mem_toDigits (by decide) (by decide) n
  have hdigits : digitsOf? 16 (Nat.toDigits 16 n) = some ds := by
    rw [digitsOf?, List.filter_eq_self.mpr hplain, mapM_eq_some, hds]
  rw [numeral?, hexadecimal, String.toList_ofList, hdigits, Option.map_some, hvalue]

end LedgerGateway.Text

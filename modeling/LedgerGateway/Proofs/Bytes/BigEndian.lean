import LedgerGateway.Bytes.BigEndian
import Mathlib.Algebra.Group.Nat.Defs
import Mathlib.Data.List.Induction

/-!
# Big-endian numbers are read back

A number has one byte string without leading zeros: `toNat_ofNat` and `ofNat_toNat` take each of the
two to the other. Its length says how large the number can be. The inductions follow the last byte,
which is the remainder modulo 256.
-/

namespace LedgerGateway.Bytes

/-! ## Values -/

@[simp] theorem toNat_nil : toNat [] = 0 := rfl

theorem toNat_append (bytes : Bytes) (b : UInt8) :
    toNat (bytes ++ [b]) = toNat bytes * 256 + b.toNat := by
  simp [toNat]

theorem toNat_fixed (width n : Nat) : toNat (fixed width n) = n % 256 ^ width := by
  induction width generalizing n with
  | zero => simp [fixed, toNat, Nat.mod_one]
  | succ width ih =>
    have hsplit : n % 256 ^ (width + 1) = n % 256 + 256 * (n / 256 % 256 ^ width) := by
      rw [Nat.pow_succ, Nat.mul_comm (256 ^ width) 256, Nat.mod_mul]
    rw [fixed, toNat_append, ih, UInt8.toNat_ofNat', hsplit]
    omega

theorem toNat_lt_of_length_le {bytes : Bytes} {k : Nat} (h : bytes.length ≤ k) :
    toNat bytes < 256 ^ k := by
  induction bytes using List.reverseRecOn generalizing k with
  | nil => exact Nat.pow_pos (by decide)
  | append_singleton bytes b ih =>
    rw [List.length_append, List.length_singleton] at h
    obtain ⟨k, rfl⟩ : ∃ j, k = j + 1 := ⟨k - 1, by omega⟩
    have hfront : toNat bytes < 256 ^ k := ih (by omega)
    have hb := b.toNat_lt
    rw [toNat_append, Nat.pow_succ]
    omega

theorem head?_of_head?_append {bytes tail : Bytes} (h : (bytes ++ tail).head? ≠ some 0) :
    bytes.head? ≠ some 0 := by
  cases bytes with
  | nil => simp
  | cons b bytes => simpa using h

/-- Without a leading zero only the empty byte string writes zero. -/
theorem eq_nil_of_toNat_eq_zero {bytes : Bytes} (h : bytes.head? ≠ some 0)
    (hzero : toNat bytes = 0) : bytes = [] := by
  induction bytes using List.reverseRecOn with
  | nil => rfl
  | append_singleton bytes b ih =>
    rw [toNat_append] at hzero
    have hb : b = 0 := UInt8.toNat_inj.mp (by simp; omega)
    have hnil : bytes = [] := ih (head?_of_head?_append h) (by omega)
    subst hb hnil
    exact absurd rfl h

/-! ## Shortest byte strings -/

theorem ofNatUpTo_zero (fuel : Nat) : ofNatUpTo fuel 0 = [] := by
  cases fuel <;> simp [ofNatUpTo]

theorem toNat_ofNatUpTo {fuel n : Nat} (h : n < 256 ^ fuel) : toNat (ofNatUpTo fuel n) = n := by
  induction fuel generalizing n with
  | zero =>
    have hn : n = 0 := by simpa using h
    rw [hn, ofNatUpTo_zero, toNat_nil]
  | succ fuel ih =>
    have hdiv : n / 256 < 256 ^ fuel := by
      rw [Nat.pow_succ] at h
      omega
    by_cases hn : n = 0
    · rw [hn, ofNatUpTo_zero, toNat_nil]
    · rw [ofNatUpTo, if_neg hn, toNat_append, ih hdiv, UInt8.toNat_ofNat']
      omega

theorem ofNatUpTo_toNat {fuel : Nat} {bytes : Bytes} (h : bytes.head? ≠ some 0)
    (hlen : bytes.length ≤ fuel) : ofNatUpTo fuel (toNat bytes) = bytes := by
  induction bytes using List.reverseRecOn generalizing fuel with
  | nil => rw [toNat_nil, ofNatUpTo_zero]
  | append_singleton bytes b ih =>
    rw [List.length_append, List.length_singleton] at hlen
    obtain ⟨fuel, rfl⟩ : ∃ k, fuel = k + 1 := ⟨fuel - 1, by omega⟩
    have hne : toNat (bytes ++ [b]) ≠ 0 := by
      intro hzero
      have hnil := eq_nil_of_toNat_eq_zero h hzero
      simp at hnil
    have hb := b.toNat_lt
    have hdiv : toNat (bytes ++ [b]) / 256 = toNat bytes := by
      rw [toNat_append]
      omega
    have hlast : UInt8.ofNat (toNat (bytes ++ [b])) = b := by
      apply UInt8.toNat_inj.mp
      rw [toNat_append, UInt8.toNat_ofNat']
      omega
    rw [ofNatUpTo, if_neg hne, hdiv, hlast, ih (head?_of_head?_append h) (by omega)]

theorem length_ofNatUpTo_le {fuel n k : Nat} (h : n < 256 ^ k) : (ofNatUpTo fuel n).length ≤ k := by
  induction fuel generalizing n k with
  | zero => simp [ofNatUpTo]
  | succ fuel ih =>
    by_cases hn : n = 0
    · rw [hn, ofNatUpTo_zero]
      simp
    · obtain ⟨k, rfl⟩ : ∃ j, k = j + 1 := by
        cases k with
        | zero => exact absurd (by simpa using h) hn
        | succ j => exact ⟨j, rfl⟩
      have hdiv : n / 256 < 256 ^ k := by
        rw [Nat.pow_succ] at h
        omega
      have hlen := ih hdiv
      rw [ofNatUpTo, if_neg hn, List.length_append, List.length_singleton]
      omega

theorem head?_ofNatUpTo {fuel n : Nat} (h : n < 256 ^ fuel) :
    (ofNatUpTo fuel n).head? ≠ some 0 := by
  induction fuel generalizing n with
  | zero => simp [ofNatUpTo]
  | succ fuel ih =>
    have hdiv : n / 256 < 256 ^ fuel := by
      rw [Nat.pow_succ] at h
      omega
    by_cases hn : n = 0
    · rw [hn, ofNatUpTo_zero]
      simp
    · rw [ofNatUpTo, if_neg hn]
      cases hfront : ofNatUpTo fuel (n / 256) with
      | nil =>
        -- Nothing stands before the last byte, so it is the number itself.
        have hzero : n / 256 = 0 := by
          rw [← toNat_ofNatUpTo hdiv, hfront, toNat_nil]
        have hval : (UInt8.ofNat n).toNat = n := by
          rw [UInt8.toNat_ofNat']
          omega
        intro hhead
        have hlast : UInt8.ofNat n = 0 := by simpa using hhead
        rw [hlast] at hval
        exact hn hval.symm
      | cons b front =>
        have hhead := ih hdiv
        rw [hfront] at hhead
        simpa using hhead

theorem lt_pow_log2 (n : Nat) : n < 256 ^ (n.log2 / 8 + 1) := by
  have hlog : n < 2 ^ (n.log2 + 1) := Nat.lt_log2_self
  have hle : (2 : Nat) ^ (n.log2 + 1) ≤ 2 ^ (8 * (n.log2 / 8 + 1)) :=
    Nat.pow_le_pow_right (by decide) (by omega)
  rw [Nat.pow_mul] at hle
  exact Nat.lt_of_lt_of_le hlog hle

/-- The shortest bytes of a number write it. -/
@[simp] theorem toNat_ofNat (n : Nat) : toNat (ofNat n) = n := toNat_ofNatUpTo (lt_pow_log2 n)

theorem ofNat_injective {m n : Nat} (h : ofNat m = ofNat n) : m = n := by
  rw [← toNat_ofNat m, h, toNat_ofNat]

theorem head?_ofNat (n : Nat) : (ofNat n).head? ≠ some 0 := head?_ofNatUpTo (lt_pow_log2 n)

theorem length_ofNat_le {n k : Nat} (h : n < 256 ^ k) : (ofNat n).length ≤ k :=
  length_ofNatUpTo_le h

/-- Bytes without a leading zero are the shortest ones of the number they write. -/
theorem ofNat_toNat {bytes : Bytes} (h : bytes.head? ≠ some 0) : ofNat (toNat bytes) = bytes := by
  have hfuel : bytes.length ≤ (toNat bytes).log2 / 8 + 1 := by
    by_contra hlt
    have hbound := lt_pow_log2 (toNat bytes)
    have hshort : (ofNatUpTo bytes.length (toNat bytes)).length ≤ (toNat bytes).log2 / 8 + 1 :=
      length_ofNatUpTo_le hbound
    rw [ofNatUpTo_toNat h (Nat.le_refl _)] at hshort
    exact hlt hshort
  exact ofNatUpTo_toNat h hfuel

theorem length_ofNat_pos {n : Nat} (h : n ≠ 0) : 0 < (ofNat n).length := by
  rw [List.length_pos_iff]
  intro hnil
  apply h
  rw [← toNat_ofNat n, hnil, toNat_nil]

end LedgerGateway.Bytes

import LedgerGateway.Abi.Literal
import LedgerGateway.Proofs.Abi.Belonging

/-!
# What is read from text belongs to its type

Every reader of a value tests the bounds of its type, so that whatever comes out of a text is a value
of the type that the text was read as.
-/

namespace LedgerGateway.Abi

namespace Literal

variable {cs rest : List Char}

theorem readUInt_lt {bits n : Nat} (h : readUInt bits cs = some (n, rest)) : n < Nat.pow 2 bits := by
  unfold readUInt at h
  obtain ⟨⟨whole, rest₁⟩, -, h⟩ := Option.bind_eq_some_iff.mp h
  obtain ⟨⟨exponent, rest₂⟩, -, h⟩ := Option.bind_eq_some_iff.mp h
  obtain ⟨unit, -, h⟩ := Option.bind_eq_some_iff.mp h
  obtain ⟨value, -, h⟩ := Option.bind_eq_some_iff.mp h
  split at h
  · rename_i hlt
    cases h
    exact hlt
  · cases h

theorem readInt_bounds {bits : Nat} {i : Int} (h : readInt bits cs = some (i, rest)) :
    -(Nat.pow 2 (bits - 1) : Int) ≤ i ∧ i < Nat.pow 2 (bits - 1) := by
  unfold readInt at h
  generalize readSign cs = sign at h
  obtain ⟨minus, rest₁⟩ := sign
  obtain ⟨⟨n, rest₂⟩, -, h⟩ := Option.bind_eq_some_iff.mp h
  simp only at h
  generalize (if minus = true then -(n : Int) else n) = signed at h
  split at h
  · rename_i hbounds
    cases h
    simpa using hbounds
  · cases h

/-- An integer that fits its type fits a word. -/
theorem toInt_ofInt {bits : Nat} (hbits : 0 < bits ∧ bits ≤ 256) {i : Int}
    (hleast : -(Nat.pow 2 (bits - 1) : Int) ≤ i) (hgreatest : i < Nat.pow 2 (bits - 1)) :
    (BitVec.ofInt 256 i).toInt = i := by
  have hpow : Nat.pow 2 (bits - 1) ≤ 2 ^ 255 := Nat.pow_le_pow_right (by decide) (by omega)
  have hcast : ((Nat.pow 2 (bits - 1) : Nat) : Int) ≤ 2 ^ 255 := by exact_mod_cast hpow
  exact BitVec.toInt_ofInt_eq_self (by decide) (by omega) (by omega)

/-! ## Lists -/

section Lists

variable {step : Reader Value} {P : Value → Prop} {vs : List Value}

theorem forall_of_readItems (hstep : ∀ {cs rest v}, step cs = some (v, rest) → P v) {fuel : Nat}
    (h : readItems step fuel cs = some (vs, rest)) : ∀ v ∈ vs, P v := by
  induction fuel generalizing cs vs with
  | zero => cases h
  | succ fuel ih =>
    rw [readItems] at h
    obtain ⟨⟨item, rest₁⟩, hitem, h⟩ := Option.bind_eq_some_iff.mp h
    have hfirst := hstep hitem
    simp only at h
    split at h
    · split at h
      · cases h
        simpa using hfirst
      · obtain ⟨⟨items, rest₂⟩, hitems, h⟩ := Option.bind_eq_some_iff.mp h
        cases h
        simpa using ⟨hfirst, ih hitems⟩
    · split at h
      · cases h
        simpa using hfirst
      · cases h

theorem forall_of_readList (hstep : ∀ {cs rest v}, step cs = some (v, rest) → P v)
    (h : readList step cs = some (vs, rest)) : ∀ v ∈ vs, P v := by
  unfold readList at h
  split at h
  · split at h
    · cases h
      simp
    · exact forall_of_readItems hstep h
  · cases h

end Lists

mutual

theorem hasType_of_readValue : ∀ (t : Ty), t.isProper = true → ∀ {depth : Nat} {close : Char}
    {cs rest : List Char} {v : Value}, readValue t depth close cs = some (v, rest) → HasType v t
  | .bool, _, _, _, _, _, v, h => by
    rw [readValue] at h
    have hword : ∀ {word cs b rest}, readWord word (Value.bool b) cs = some (v, rest) →
        HasType v .bool := by
      intro word cs b rest hread
      obtain ⟨_, -, hpair⟩ := Option.map_eq_some_iff.mp hread
      cases hpair
      exact .bool b
    split at h
    · rename_i hread
      cases h
      exact hword hread
    · exact hword h
  | .int bits, ht, _, _, _, _, _, h => by
    rw [readValue] at h
    obtain ⟨⟨i, rest⟩, hread, hpair⟩ := Option.map_eq_some_iff.mp h
    cases hpair
    obtain ⟨hleast, hgreatest⟩ := readInt_bounds hread
    have hbits : 0 < bits ∧ bits ≤ 256 := by simpa [Ty.isProper] using ht
    have hint := toInt_ofInt hbits hleast hgreatest
    exact .int (by rwa [hint]) (by rwa [hint])
  | .uint bits, ht, _, _, _, _, _, h => by
    rw [readValue] at h
    obtain ⟨⟨n, rest⟩, hread, hpair⟩ := Option.map_eq_some_iff.mp h
    cases hpair
    have hbits : 0 < bits ∧ bits ≤ 256 := by simpa [Ty.isProper] using ht
    have hword : Nat.pow 2 bits ≤ 2 ^ 256 := Nat.pow_le_pow_right (by decide) hbits.2
    have hn := readUInt_lt hread
    refine .uint ?_
    rwa [BitVec.toNat_ofNat, Nat.mod_eq_of_lt (by omega)]
  | .fixedBytes length, _, _, _, _, _, _, h => by
    rw [readValue] at h
    obtain ⟨⟨⟨b, rfl⟩, rest⟩, -, hpair⟩ := Option.map_eq_some_iff.mp h
    cases hpair
    exact .fixedBytes b
  | .address, _, _, _, _, _, _, h => by
    rw [readValue] at h
    obtain ⟨⟨a, rest⟩, -, hpair⟩ := Option.map_eq_some_iff.mp h
    cases hpair
    exact .address a
  | .function, _, _, _, _, _, _, h => by
    rw [readValue] at h
    obtain ⟨⟨f, rest⟩, -, hpair⟩ := Option.map_eq_some_iff.mp h
    cases hpair
    exact .function f
  | .bytes, _, _, _, _, _, _, h => by
    rw [readValue] at h
    obtain ⟨⟨b, rest⟩, -, hpair⟩ := Option.map_eq_some_iff.mp h
    cases hpair
    exact .bytes b
  | .string, _, _, _, _, _, _, h => by
    rw [readValue] at h
    obtain ⟨⟨s, rest⟩, -, hpair⟩ := Option.map_eq_some_iff.mp h
    cases hpair
    exact .string s
  | .array item, ht, depth, _, _, _, _, h => by
    rw [readValue] at h
    obtain ⟨⟨items, rest⟩, hread, hpair⟩ := Option.map_eq_some_iff.mp h
    cases hpair
    have hitem : item.isProper = true := by simpa [Ty.isProper] using ht
    refine hasType_array_iff.mpr ⟨items, rfl, forall_of_readList ?_ hread⟩
    intro cs rest v hstep
    cases depth with
    | zero => cases hstep
    | succ depth => exact hasType_of_readValue item hitem hstep
  | .fixedArray item length, ht, depth, _, _, _, _, h => by
    rw [readValue] at h
    split at h
    · rename_i items rest hread
      split at h
      · rename_i hlength
        cases h
        obtain ⟨-, hitem⟩ := Ty.isProper_fixedArray.mp ht
        refine hasType_fixedArray_iff.mpr ⟨items, rfl, hlength, forall_of_readList ?_ hread⟩
        intro cs rest v hstep
        cases depth with
        | zero => cases hstep
        | succ depth => exact hasType_of_readValue item hitem hstep
      · cases h
    · cases h
  | .tuple items, ht, depth, _, _, _, _, h => by
    rw [readValue] at h
    split at h
    · obtain ⟨⟨values, rest⟩, hread, h⟩ := Option.bind_eq_some_iff.mp h
      simp only at h
      split at h
      · cases h
        refine hasType_tuple_iff.mpr ⟨values, rfl, ?_⟩
        exact forall₂_of_readPlaces items (by simpa [Ty.isProper] using ht) hread
      · cases h
    · cases h

theorem forall₂_of_readPlaces : ∀ (ts : List Ty), Ty.areProper ts = true → ∀ {depth : Nat}
    {cs rest : List Char} {vs : List Value}, readPlaces ts depth cs = some (vs, rest) →
    List.Forall₂ HasType vs ts
  | [], _, _, _, _, _, h => by
    rw [readPlaces] at h
    cases h
    exact .nil
  | [t], ht, _, _, _, _, h => by
    rw [readPlaces] at h
    obtain ⟨⟨v, rest⟩, hread, h⟩ := Option.bind_eq_some_iff.mp h
    cases h
    exact .cons (hasType_of_readValue t (Ty.areProper_cons.mp ht).1 hread) .nil
  | t :: u :: ts, ht, _, _, _, _, h => by
    obtain ⟨hhead, htail⟩ := Ty.areProper_cons.mp ht
    -- A comma follows every place but the last, which is why one place alone is another case.
    rw [readPlaces.eq_def] at h
    obtain ⟨⟨v, rest⟩, hread, h⟩ := Option.bind_eq_some_iff.mp h
    simp only at h
    split at h
    · obtain ⟨⟨vs, rest'⟩, hrest, h⟩ := Option.bind_eq_some_iff.mp h
      cases h
      exact .cons (hasType_of_readValue t hhead hread) (forall₂_of_readPlaces (u :: ts) htail hrest)
    · cases h

end

end Literal

/-- The value that a text stands for belongs to the type. -/
theorem Ty.hasType_of_read? {t : Ty} (ht : t.isProper = true) {s : String} {v : Value}
    (h : t.read? s = some v) : HasType v t := by
  unfold Ty.read? at h
  split at h
  · cases h
    exact .string s
  · split at h
    · rename_i hread
      cases h
      exact Literal.hasType_of_readValue t ht hread
    · cases h

end LedgerGateway.Abi

import LedgerGateway.Proofs.Abi.Layout
import Mathlib.Data.List.Forall2

/-!
# Values and their types

A type says of every value that belongs to it whether it stands behind an offset, and how many words
its encoding takes at least. Types whose tuples have places take one at least.
-/

namespace LedgerGateway.Abi

/-! ## Types and values -/

namespace Ty

mutual

/-- A type that a text can name: numbers of at most 256 bits, byte strings of at most a word, and
lists that have a place at least where they have a fixed length. -/
def isProper : Ty → Bool
  | int bits | uint bits => 0 < bits && bits ≤ 256
  | fixedBytes length => length ≤ 32
  | array item => item.isProper
  | fixedArray item length => 0 < length && item.isProper
  | tuple items => areProper items
  | bool | address | function | bytes | string => true

/-- All of the types can be named. -/
def areProper : List Ty → Bool
  | [] => true
  | item :: rest => item.isProper && areProper rest

end

mutual

/-- Every tuple in the type has a place at least. -/
def isFilled : Ty → Bool
  | array item => item.isFilled
  | fixedArray item _ => item.isFilled
  | tuple items => !items.isEmpty && areFilled items
  | bool | int _ | uint _ | fixedBytes _ | address | function | bytes | string => true

/-- Every tuple in the types has a place at least. -/
def areFilled : List Ty → Bool
  | [] => true
  | item :: rest => item.isFilled && areFilled rest

end

theorem areProper_cons {t : Ty} {ts : List Ty} :
    areProper (t :: ts) = true ↔ t.isProper = true ∧ areProper ts = true := by
  rw [areProper, Bool.and_eq_true]

theorem isProper_of_mem {ts : List Ty} (h : areProper ts = true) {t : Ty} (ht : t ∈ ts) :
    t.isProper = true := by
  induction ts with
  | nil => cases ht
  | cons first ts ih =>
    obtain ⟨hfirst, hothers⟩ := areProper_cons.mp h
    rcases List.mem_cons.mp ht with rfl | hrest
    · exact hfirst
    · exact ih hothers hrest

theorem isProper_fixedArray {item : Ty} {length : Nat} :
    (fixedArray item length).isProper = true ↔ 0 < length ∧ item.isProper = true := by
  rw [isProper, Bool.and_eq_true, decide_eq_true_iff]

theorem areFilled_cons {t : Ty} {ts : List Ty} :
    areFilled (t :: ts) = true ↔ t.isFilled = true ∧ areFilled ts = true := by
  rw [areFilled, Bool.and_eq_true]

theorem isFilled_tuple {ts : List Ty} :
    (tuple ts).isFilled = true ↔ ts ≠ [] ∧ areFilled ts = true := by
  simp [isFilled]

end Ty

namespace Value

mutual

/-- How many levels of frames a reader opens for a value. -/
def depth : Value → Nat
  | bool _ | int _ | uint _ | fixedBytes _ | address _ | function _ => 0
  | bytes _ | string _ | array [] => 1
  | array (item :: rest) => max item.depth (deepest rest) + 2
  | tuple items => deepest items + 1

/-- How many levels of frames a reader opens for the deepest of the values. -/
def deepest : List Value → Nat
  | [] => 0
  | item :: rest => max item.depth (deepest rest)

end

end Value

theorem haveTypes_iff {vs : List Value} {ts : List Ty} :
    HaveTypes vs ts ↔ List.Forall₂ HasType vs ts := by
  constructor
  · intro h
    induction vs generalizing ts with
    | nil =>
      cases h
      exact .nil
    | cons v vs ih =>
      cases h with
      | cons head tail => exact .cons head (ih tail)
  · intro h
    induction h with
    | nil => exact .nil
    | cons head _ ih => exact .cons head ih

theorem allHaveType_iff {vs : List Value} {t : Ty} :
    AllHaveType vs t ↔ ∀ v ∈ vs, HasType v t := by
  constructor
  · intro h
    induction vs with
    | nil => simp
    | cons v vs ih =>
      cases h with
      | cons head tail => simpa using ⟨head, ih tail⟩
  · intro h
    induction vs with
    | nil => exact .nil t
    | cons v vs ih =>
      exact .cons (h v List.mem_cons_self) (ih fun w hw => h w (List.mem_cons_of_mem v hw))

theorem hasType_fixedBytes_iff {v : Value} {length : Nat} :
    HasType v (.fixedBytes length) ↔ ∃ b, v = .fixedBytes b ∧ b.length = length := by
  constructor
  · intro h
    cases h with
    | fixedBytes b => exact ⟨b, rfl, rfl⟩
  · rintro ⟨b, rfl, rfl⟩
    exact .fixedBytes b

theorem hasType_bytes_iff {v : Value} : HasType v .bytes ↔ ∃ b, v = .bytes b := by
  constructor
  · intro h
    cases h with
    | bytes b => exact ⟨b, rfl⟩
  · rintro ⟨b, rfl⟩
    exact .bytes b

theorem hasType_string_iff {v : Value} : HasType v .string ↔ ∃ s, v = .string s := by
  constructor
  · intro h
    cases h with
    | string s => exact ⟨s, rfl⟩
  · rintro ⟨s, rfl⟩
    exact .string s

theorem forall_hasType_string_iff {items : List Value} :
    (∀ w ∈ items, HasType w .string) ↔ ∃ texts : List String, items = texts.map .string := by
  constructor
  · intro each
    induction items with
    | nil => exact ⟨[], rfl⟩
    | cons v items ih =>
      obtain ⟨hv, hitems⟩ := List.forall_mem_cons.mp each
      obtain ⟨s, rfl⟩ := hasType_string_iff.mp hv
      obtain ⟨texts, rfl⟩ := ih hitems
      exact ⟨s :: texts, rfl⟩
  · rintro ⟨texts, rfl⟩ w hw
    obtain ⟨s, -, rfl⟩ := List.mem_map.mp hw
    exact .string s

theorem hasType_array_iff {v : Value} {item : Ty} :
    HasType v (.array item) ↔ ∃ items, v = .array items ∧ ∀ w ∈ items, HasType w item := by
  constructor
  · intro h
    cases h with
    | array each => exact ⟨_, rfl, allHaveType_iff.mp each⟩
  · rintro ⟨items, rfl, each⟩
    exact .array (allHaveType_iff.mpr each)

theorem hasType_fixedArray_iff {v : Value} {item : Ty} {length : Nat} :
    HasType v (.fixedArray item length) ↔
      ∃ items, v = .tuple items ∧ items.length = length ∧ ∀ w ∈ items, HasType w item := by
  constructor
  · intro h
    cases h with
    | fixedArray each => exact ⟨_, rfl, rfl, allHaveType_iff.mp each⟩
  · rintro ⟨items, rfl, rfl, each⟩
    exact .fixedArray (allHaveType_iff.mpr each)

theorem hasType_tuple_iff {v : Value} {ts : List Ty} :
    HasType v (.tuple ts) ↔ ∃ items, v = .tuple items ∧ List.Forall₂ HasType items ts := by
  constructor
  · intro h
    cases h with
    | tuple each => exact ⟨_, rfl, haveTypes_iff.mp each⟩
  · rintro ⟨items, rfl, each⟩
    exact .tuple (haveTypes_iff.mpr each)

/-! ## What a type says of its values -/

theorem anyDynamic_of_forall {items : List Value} {dynamic : Bool} (hne : items ≠ [])
    (h : ∀ v ∈ items, v.isDynamic = dynamic) : Value.anyDynamic items = dynamic := by
  induction items with
  | nil => exact absurd rfl hne
  | cons v items ih =>
    rw [Value.anyDynamic, h v List.mem_cons_self]
    -- Of no values nothing is dynamic, so the last value is a case of its own.
    cases items with
    | nil => simp [Value.anyDynamic]
    | cons w items =>
      rw [ih (by simp) fun u hu => h u (List.mem_cons_of_mem v hu), Bool.or_self]

mutual

/-- The type tells which values stand behind an offset. -/
theorem isDynamic_of_hasType : ∀ (t : Ty), t.isProper = true → ∀ v, HasType v t →
    v.isDynamic = t.isDynamic
  | .bool, _, _, .bool _ | .int _, _, _, .int _ _ | .uint _, _, _, .uint _
  | .fixedBytes _, _, _, .fixedBytes _ | .address, _, _, .address _
  | .function, _, _, .function _ | .bytes, _, _, .bytes _ | .string, _, _, .string _
  | .array _, _, _, .array _ => by simp [Value.isDynamic, Ty.isDynamic]
  | .fixedArray item length, ht, v, h => by
    obtain ⟨items, rfl, hlength, each⟩ := hasType_fixedArray_iff.mp h
    obtain ⟨hplaces, hitem⟩ := Ty.isProper_fixedArray.mp ht
    rw [Value.isDynamic, Ty.isDynamic]
    -- There is a first value, and one is enough to tell.
    refine anyDynamic_of_forall (List.ne_nil_of_length_pos (by omega)) ?_
    intro w hw
    exact isDynamic_of_hasType item hitem w (each w hw)
  | .tuple ts, ht, v, h => by
    obtain ⟨items, rfl, each⟩ := hasType_tuple_iff.mp h
    rw [Value.isDynamic, Ty.isDynamic]
    exact anyDynamic_of_forall₂ ts (by simpa [Ty.isProper] using ht) items each

theorem anyDynamic_of_forall₂ : ∀ (ts : List Ty), Ty.areProper ts = true → ∀ vs,
    List.Forall₂ HasType vs ts → Value.anyDynamic vs = Ty.anyDynamic ts
  | [], _, _, .nil => by simp [Value.anyDynamic, Ty.anyDynamic]
  | t :: ts, ht, v :: vs, .cons head tail => by
    obtain ⟨hhead, htail⟩ := Ty.areProper_cons.mp ht
    rw [Value.anyDynamic, Ty.anyDynamic, isDynamic_of_hasType t hhead _ head,
      anyDynamic_of_forall₂ ts htail _ tail]

end

/-- What is laid out has room for each of the encodings. -/
theorem length_layOut_parts_cons (v : Value) (vs : List Value) :
    v.encode.length + (layOut (Value.parts vs)).length ≤
      (layOut (Value.parts (v :: vs))).length := by
  rw [length_layOut, length_layOut, Value.parts, headsLength, tails, Part.headLength]
  split <;> simp <;> omega

theorem minimumWords_mul_le {words : Nat} {items : List Value}
    (h : ∀ v ∈ items, 32 * words ≤ v.encode.length) :
    32 * (words * items.length) ≤ (layOut (Value.parts items)).length := by
  induction items with
  | nil => simp
  | cons v items ih =>
    have hv := h v List.mem_cons_self
    have hitems := ih fun w hw => h w (List.mem_cons_of_mem v hw)
    have hcons := length_layOut_parts_cons v items
    rw [List.length_cons, Nat.mul_succ]
    omega

mutual

/-- The encoding of a value has the words that its type asks for at least. -/
theorem minimumWords_le : ∀ (t : Ty), t.isProper = true → ∀ v, HasType v t →
    32 * t.minimumWords ≤ v.encode.length
  | .bool, _, _, .bool _ | .int _, _, _, .int _ _ | .uint _, _, _, .uint _
  | .bytes, _, _, .bytes _ | .string, _, _, .string _ | .array _, _, _, .array _ => by
    simp [Ty.minimumWords, Value.encode, encodeBytes]
  | .fixedBytes _, ht, v, h => by
    cases h with
    | fixedBytes b =>
      have hlength : b.length ≤ 32 := by simpa [Ty.isProper] using ht
      simp [Ty.minimumWords, Value.encode, Bytes.length_padRight hlength]
  | .address, _, _, .address a => by
    have hlength : a.1.length ≤ 32 := by simp [a.2]
    simp [Ty.minimumWords, Value.encode, Bytes.length_padLeft hlength]
  | .function, _, _, .function f => by
    have hlength : f.1.length ≤ 32 := by simp [f.2]
    simp [Ty.minimumWords, Value.encode, Bytes.length_padRight hlength]
  | .fixedArray item length, ht, v, h => by
    obtain ⟨items, rfl, rfl, each⟩ := hasType_fixedArray_iff.mp h
    obtain ⟨-, hitem⟩ := Ty.isProper_fixedArray.mp ht
    rw [Ty.minimumWords, Value.encode]
    exact minimumWords_mul_le fun w hw => minimumWords_le item hitem w (each w hw)
  | .tuple ts, ht, v, h => by
    obtain ⟨items, rfl, each⟩ := hasType_tuple_iff.mp h
    rw [Ty.minimumWords, Value.encode]
    exact minimumWordsOfAll_le ts (by simpa [Ty.isProper] using ht) items each

theorem minimumWordsOfAll_le : ∀ (ts : List Ty), Ty.areProper ts = true → ∀ vs,
    List.Forall₂ HasType vs ts →
    32 * Ty.minimumWordsOfAll ts ≤ (layOut (Value.parts vs)).length
  | [], _, _, .nil => by simp [Ty.minimumWordsOfAll]
  | t :: ts, ht, v :: vs, .cons head tail => by
    obtain ⟨hhead, htail⟩ := Ty.areProper_cons.mp ht
    have hv := minimumWords_le t hhead _ head
    have hvs := minimumWordsOfAll_le ts htail _ tail
    have hcons := length_layOut_parts_cons v vs
    rw [Ty.minimumWordsOfAll]
    omega

end

mutual

/-- Whatever belongs to a type without empty tuples takes a word at least. -/
theorem minimumWords_pos : ∀ t : Ty, t.isProper = true → t.isFilled = true → 0 < t.minimumWords
  | .bool, _, _ | .int _, _, _ | .uint _, _, _ | .fixedBytes _, _, _ | .address, _, _
  | .function, _, _ | .bytes, _, _ | .string, _, _ | .array _, _, _ => by simp [Ty.minimumWords]
  | .fixedArray item length, ht, hf => by
    obtain ⟨hplaces, hitem⟩ := Ty.isProper_fixedArray.mp ht
    rw [Ty.minimumWords]
    exact Nat.mul_pos (minimumWords_pos item hitem (by simpa [Ty.isFilled] using hf)) hplaces
  | .tuple ts, ht, hf => by
    obtain ⟨hne, hfilled⟩ := Ty.isFilled_tuple.mp hf
    rw [Ty.minimumWords]
    exact minimumWordsOfAll_pos ts (by simpa [Ty.isProper] using ht) hfilled hne

theorem minimumWordsOfAll_pos : ∀ ts : List Ty, Ty.areProper ts = true → Ty.areFilled ts = true →
    ts ≠ [] → 0 < Ty.minimumWordsOfAll ts
  | [], _, _, hne => absurd rfl hne
  | t :: ts, ht, hf, _ => by
    have hpos := minimumWords_pos t (Ty.areProper_cons.mp ht).1 (Ty.areFilled_cons.mp hf).1
    rw [Ty.minimumWordsOfAll]
    omega

end

mutual

theorem isHollow_of_isFilled : ∀ t : Ty, t.isFilled = true → t.isHollow = false
  | .bool, _ | .int _, _ | .uint _, _ | .fixedBytes _, _ | .address, _ | .function, _
  | .bytes, _ | .string, _ => by simp [Ty.isHollow]
  | .array item, hf => by
    rw [Ty.isHollow]
    exact isHollow_of_isFilled item (by simpa [Ty.isFilled] using hf)
  | .fixedArray item _, hf => by
    rw [Ty.isHollow]
    exact isHollow_of_isFilled item (by simpa [Ty.isFilled] using hf)
  | .tuple ts, hf => by
    obtain ⟨hne, hfilled⟩ := Ty.isFilled_tuple.mp hf
    rw [Ty.isHollow]
    exact allHollow_of_areFilled ts hfilled hne

theorem allHollow_of_areFilled : ∀ ts : List Ty, Ty.areFilled ts = true → ts ≠ [] →
    Ty.allHollow ts = false
  | [], _, hne => absurd rfl hne
  | t :: ts, hf, _ => by
    rw [Ty.allHollow, isHollow_of_isFilled t (Ty.areFilled_cons.mp hf).1, Bool.false_and]

end

end LedgerGateway.Abi

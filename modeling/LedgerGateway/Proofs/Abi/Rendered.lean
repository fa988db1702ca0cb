import LedgerGateway.Abi.Literal
import LedgerGateway.Proofs.Abi.Belonging
import LedgerGateway.Proofs.Bytes.Hex
import LedgerGateway.Proofs.Json.Verbatim

/-!
# Which reported values are read again

A value is reported in one format and read in another. The two agree on everything that is not a list.
A list is reported as JSON whose items are strings, and its items are read as their type is written,
so that only the items of a list of texts may be quoted. Among these a string comes back as it was if
JSON has nothing to escape in it, because the reader of quoted texts knows no escapes.
-/

namespace LedgerGateway.Abi

/-! ## Numbers -/

namespace Literal

theorem takeWhile_toDigits (n : Nat) :
    (Nat.toDigits 10 n).takeWhile Char.isDigit = Nat.toDigits 10 n :=
  List.takeWhile_eq_self_iff.mpr fun _ hc => Nat.isDigit_of_mem_toDigits (by decide) (by decide) hc

theorem dropWhile_toDigits (n : Nat) : (Nat.toDigits 10 n).dropWhile Char.isDigit = [] :=
  List.dropWhile_eq_nil_iff.mpr fun _ hc => Nat.isDigit_of_mem_toDigits (by decide) (by decide) hc

theorem decimalValue_toDigits (n : Nat) : decimalValue (Nat.toDigits 10 n) = n := by
  have hfold : decimalValue (Nat.toDigits 10 n) = Nat.ofDigitChars 10 (Nat.toDigits 10 n) 0 := by
    simp only [decimalValue, Nat.ofDigitChars, Nat.mul_comm 10]
  rw [hfold, Nat.ofDigitChars_ten_toDigits]

/-- The mark of a radix has a letter, and decimal digits have none. -/
theorem radix?_toDigits (n : Nat) : radix? (Nat.toDigits 10 n) = none := by
  have hdigit : ∀ c ∈ Nat.toDigits 10 n, c.isDigit = true :=
    fun c hc => Nat.isDigit_of_mem_toDigits (by decide) (by decide) hc
  unfold radix?
  split
  · rename_i m rest heq
    have hm : m.isDigit = true := hdigit m (by simp [heq])
    have hne : ∀ letter : Char, letter.isDigit = false → (m == letter) = false := by
      rintro letter hletter
      rw [beq_eq_false_iff_ne]
      rintro rfl
      rw [hm] at hletter
      cases hletter
    simp [hne 'x' (by decide), hne 'X' (by decide), hne 'o' (by decide), hne 'O' (by decide),
      hne 'b' (by decide), hne 'B' (by decide)]
  · rfl

theorem readMagnitude_toDigits {n : Nat} (h : n < Text.Wide.bound) :
    readMagnitude (Nat.toDigits 10 n) = some (n, []) := by
  have hsome : (Nat.toDigits 10 n).isEmpty = false := by simp
  simp only [readMagnitude, radix?_toDigits, takeWhile_toDigits, dropWhile_toDigits,
    decimalValue_toDigits, hsome]
  simp [h]

/-- A number without a fraction, an exponent and a unit is what its digits say. -/
theorem readUInt_toDigits {bits n : Nat} (hword : n < Text.Wide.bound) (hbits : n < Nat.pow 2 bits) :
    readUInt bits (Nat.toDigits 10 n) = some (n, []) := by
  have hunit : unit? [] = some 0 := by decide
  have hscale : scale? n [] 0 = some n := by
    simp [scale?, hword, decimalValue]
  simp only [readUInt, readMagnitude_toDigits hword, Option.bind_eq_bind, Option.bind_some,
    readFraction, readExponent, skipSpaces, List.dropWhile_nil, List.takeWhile_nil, hunit, Int.add_zero,
    hscale, hbits, if_true]

theorem readSign_toDigits (n : Nat) : readSign (Nat.toDigits 10 n) = (false, Nat.toDigits 10 n) := by
  have hdigit : ∀ c ∈ Nat.toDigits 10 n, c.isDigit = true :=
    fun c hc => Nat.isDigit_of_mem_toDigits (by decide) (by decide) hc
  unfold readSign
  split
  · rename_i rest heq
    exact absurd (hdigit '-' (by simp [heq])) (by decide)
  · rename_i rest heq
    exact absurd (hdigit '+' (by simp [heq])) (by decide)
  · rfl

theorem readInt_signedDecimal {bits : Nat} {i : Int} (hbits : 0 < bits ∧ bits ≤ 256)
    (hleast : -(Nat.pow 2 (bits - 1) : Int) ≤ i) (hgreatest : i < Nat.pow 2 (bits - 1)) :
    readInt bits (Text.signedDecimal i).toList = some (i, []) := by
  obtain ⟨half, rfl⟩ : ∃ half, bits = half + 1 := ⟨bits - 1, by omega⟩
  have hpow : Nat.pow 2 (half + 1) = Nat.pow 2 half * 2 := Nat.pow_succ ..
  have hword : Nat.pow 2 (half + 1) ≤ Text.Wide.bound := Nat.pow_le_pow_right (by decide) hbits.2
  rw [Nat.add_sub_cancel] at hleast hgreatest
  have hmagnitude : i.natAbs < Nat.pow 2 (half + 1) := by
    have hpos : 0 < Nat.pow 2 half := Nat.pow_pos (by decide)
    omega
  have hread := readUInt_toDigits (Nat.lt_of_lt_of_le hmagnitude hword) hmagnitude
  have hbounds : (decide (-(Nat.pow 2 half : Int) ≤ i) &&
      decide (i < (Nat.pow 2 half : Int))) = true := by
    rw [Bool.and_eq_true, decide_eq_true_iff, decide_eq_true_iff]
    exact ⟨hleast, hgreatest⟩
  by_cases hneg : i < 0
  · have htext : (Text.signedDecimal i).toList = '-' :: Nat.toDigits 10 i.natAbs := by
      simp [Text.signedDecimal, hneg, Text.decimal]
    have hvalue : -(i.natAbs : Int) = i := by omega
    rw [htext, readInt, readSign]
    simp only [hread, Option.bind_eq_bind, Option.bind_some, if_true, hvalue, Nat.add_sub_cancel,
      hbounds]
  · have htext : (Text.signedDecimal i).toList = Nat.toDigits 10 i.natAbs := by
      simp [Text.signedDecimal, hneg, Text.decimal]
    have hvalue : (i.natAbs : Int) = i := by omega
    rw [htext, readInt, readSign_toDigits]
    simp only [hread, Option.bind_eq_bind, Option.bind_some, Bool.false_eq_true, if_false, hvalue,
      Nat.add_sub_cancel, hbounds, if_true]

/-! ## Byte strings -/

theorem isHexDigit_of_mem_pair (b : UInt8) : ∀ c ∈ Hex.pair b, isHexDigit c = true := by
  have hdigit : ∀ d < 16, isHexDigit (Hex.digitChar d) = true := by decide
  have hb := b.toNat_lt
  intro c hc
  rw [Hex.pair, List.mem_cons, List.mem_singleton] at hc
  rcases hc with rfl | rfl
  · exact hdigit _ (by omega)
  · exact hdigit _ (by omega)

theorem readBytes_encode (b : Bytes) : readBytes (Hex.encode b).toList = some (b, []) := by
  have hdigits : ∀ c ∈ b.flatMap Hex.pair, isHexDigit c = true := by
    intro c hc
    obtain ⟨byte, -, hc⟩ := List.mem_flatMap.mp hc
    exact isHexDigit_of_mem_pair byte c hc
  have hdecode : Hex.decode (String.ofList (b.flatMap Hex.pair)) = .ok b := Hex.decode_digits b
  simp only [readBytes, Hex.afterLead?_encode, List.takeWhile_eq_self_iff.mpr hdigits,
    List.dropWhile_eq_nil_iff.mpr hdigits, hdecode, Bool.not_true, Bool.and_false, Bool.false_eq_true,
    if_false]

theorem readSized_encode {length : Nat} (b : SizedBytes length) :
    readSized length (Hex.encode b.1).toList = some (b, []) := by
  have hsized : SizedBytes.ofBytes? length b.1 = some b := dif_pos b.2
  simp only [readSized, readBytes_encode, Option.bind_eq_bind, Option.bind_some, hsized]
  rfl

/-! ## Lists of texts -/

/-- The reader of quoted texts cuts at the first quote. -/
theorem cut_at_quote {cs : List Char} (h : ∀ c ∈ cs, c ≠ '"') (rest : List Char) :
    (cs ++ '"' :: rest).takeWhile (· != '"') = cs ∧
      (cs ++ '"' :: rest).dropWhile (· != '"') = '"' :: rest := by
  have hplain : ∀ c ∈ cs, (c != '"') = true := fun c hc => bne_iff_ne.mpr (h c hc)
  rw [List.takeWhile_append_of_pos hplain, List.dropWhile_append_of_pos hplain]
  simp

theorem quoted_append (s : String) (rest : List Char) :
    Json.quoted s ++ rest = '"' :: (s.toList.flatMap Json.escape ++ '"' :: rest) := by
  simp [Json.quoted]

theorem readString_quoted {s : String} (h : Json.Verbatim s) (close : Char) (rest : List Char) :
    readString close (Json.quoted s ++ rest) = some (s, rest) := by
  obtain ⟨htake, hdrop⟩ := cut_at_quote (fun c hc => (h c hc).1) rest
  rw [quoted_append, Json.flatMap_escape_of_verbatim h, readString]
  simp only [beq_self_eq_true, Bool.true_or, if_true, htake, hdrop, String.ofList_toList]

/-- A string that is read as it was has no escapes: behind one of a quote the reader would stop, and
the others it would keep. -/
theorem verbatim_of_readString {s : String} {close : Char} {rest rest' : List Char}
    (h : readString close (Json.quoted s ++ rest) = some (s, rest')) :
    Json.Verbatim s ∧ rest' = rest := by
  rw [quoted_append, readString] at h
  simp only [beq_self_eq_true, Bool.true_or, if_true] at h
  split at h
  · rename_i tail hdrop
    obtain ⟨hs, rfl⟩ := Prod.mk.inj (Option.some.inj h)
    have hread := congrArg String.toList hs
    rw [String.toList_ofList] at hread
    have hquote : ∀ c ∈ s.toList, c ≠ '"' := by
      intro c hc
      rw [← hread] at hc
      simpa using List.mem_takeWhile_imp hc
    have hplain : ∀ c ∈ s.toList.flatMap Json.escape, c ≠ '"' := by
      intro c hc
      obtain ⟨d, hd, hc⟩ := List.mem_flatMap.mp hc
      exact Json.ne_quote_of_mem_escape (hquote d hd) hc
    obtain ⟨htake, hcut⟩ := cut_at_quote hplain rest
    rw [htake] at hread
    rw [hcut] at hdrop
    exact ⟨Json.verbatim_of_flatMap_escape hread, (List.cons.inj hdrop).2.symm⟩
  · cases h

section Lists

theorem readItems_last {step : Reader Value} {cs rest : List Char} {item : Value}
    (h : step cs = some (item, ']' :: rest)) (fuel : Nat) :
    readItems step (fuel + 1) cs = some ([item], rest) := by
  rw [readItems, h]
  rfl

theorem readItems_comma {step : Reader Value} {cs more : List Char} {item : Value}
    (h : step cs = some (item, ',' :: '"' :: more)) (fuel : Nat) :
    readItems step (fuel + 1) cs =
      (readItems step fuel ('"' :: more)).map fun (items, rest) => (item :: items, rest) := by
  rw [readItems, h]
  cases hmore : readItems step fuel ('"' :: more) with
  | none => simp [skipSpaces, hmore]
  | some read => simp [skipSpaces, hmore]

/-- The first item was read by the step. -/
theorem step_of_readItems {step : Reader Value} {fuel : Nat} {cs tail : List Char} {item : Value}
    {items : List Value} (h : readItems step (fuel + 1) cs = some (item :: items, tail)) :
    ∃ rest, step cs = some (item, rest) := by
  rw [readItems] at h
  obtain ⟨⟨first, rest⟩, hfirst, h⟩ := Option.bind_eq_some_iff.mp h
  refine ⟨rest, ?_⟩
  simp only at h
  split at h
  · split at h
    · cases h
      exact hfirst
    · obtain ⟨_, -, h⟩ := Option.bind_eq_some_iff.mp h
      cases h
      exact hfirst
  · split at h
    · cases h
      exact hfirst
    · cases h

variable {step : Reader Value} (hstep : ∀ cs, step cs =
  (readString ']' cs).map fun (s, rest) => (.string s, rest))
include hstep

theorem verbatim_of_step {s : String} {rest left : List Char}
    (h : step (Json.quoted s ++ rest) = some (.string s, left)) : Json.Verbatim s ∧ left = rest := by
  rw [hstep] at h
  obtain ⟨⟨read, _⟩, hread, hpair⟩ := Option.map_eq_some_iff.mp h
  cases hpair
  exact verbatim_of_readString hread

theorem readItems_texts {s : String} {rest : List String}
    (hverbatim : ∀ t ∈ s :: rest, Json.Verbatim t) {fuel : Nat} (hfuel : rest.length < fuel) :
    readItems step fuel (Json.quoted s ++ Json.behindFirst rest) =
      some ((s :: rest).map .string, []) := by
  induction rest generalizing s fuel with
  | nil =>
    obtain ⟨fuel, rfl⟩ : ∃ n, fuel = n + 1 := ⟨fuel - 1, by omega⟩
    refine readItems_last ?_ fuel
    rw [hstep, readString_quoted (hverbatim s List.mem_cons_self), Json.behindFirst]
    rfl
  | cons t rest ih =>
    obtain ⟨fuel, rfl⟩ : ∃ n, fuel = n + 1 := ⟨fuel - 1, by omega⟩
    have hrest : readItems step fuel (Json.quoted t ++ Json.behindFirst rest) =
        some ((t :: rest).map .string, []) :=
      ih (fun u hu => hverbatim u (List.mem_cons_of_mem s hu)) (by simpa using hfuel)
    rw [quoted_append] at hrest
    rw [readItems_comma, hrest]
    · rfl
    · rw [hstep, readString_quoted (hverbatim s List.mem_cons_self), Json.behindFirst, quoted_append]
      rfl

theorem verbatim_of_readItems {s : String} {rest : List String} {fuel : Nat} {tail : List Char}
    (h : readItems step fuel (Json.quoted s ++ Json.behindFirst rest) =
      some ((s :: rest).map .string, tail)) : ∀ t ∈ s :: rest, Json.Verbatim t := by
  induction rest generalizing s fuel with
  | nil =>
    cases fuel with
    | zero => cases h
    | succ fuel =>
      obtain ⟨left, hfirst⟩ := step_of_readItems h
      obtain ⟨hs, -⟩ := verbatim_of_step hstep hfirst
      simpa using hs
  | cons t rest ih =>
    cases fuel with
    | zero => cases h
    | succ fuel =>
      obtain ⟨left, hfirst⟩ := step_of_readItems h
      obtain ⟨hs, hleft⟩ := verbatim_of_step hstep hfirst
      rw [Json.behindFirst, quoted_append t] at hleft
      rw [hleft] at hfirst
      rw [readItems_comma hfirst, ← quoted_append] at h
      obtain ⟨⟨items, _⟩, hitems, hpair⟩ := Option.map_eq_some_iff.mp h
      cases hpair
      exact List.forall_mem_cons.mpr ⟨hs, ih hitems⟩

end Lists

/-! ## What a quote cannot start -/

theorem readBytes_quote (cs : List Char) : readBytes ('"' :: cs) = none := by
  have hmark : Text.afterLead? ['0', 'x'] ('"' :: cs) = none := rfl
  have hdigit : isHexDigit '"' = false := by decide
  simp [readBytes, hmark, hdigit]

theorem readUInt_quote (bits : Nat) (cs : List Char) : readUInt bits ('"' :: cs) = none := by
  have hmagnitude : readMagnitude ('"' :: cs) = none := by
    have hdigit : Char.isDigit '"' = false := by decide
    simp [readMagnitude, radix?, hdigit]
  rw [readUInt, hmagnitude]
  rfl

/-- Of all values inside a list only a text may be quoted. -/
theorem readValue_quote {t : Ty} (ht : t ≠ .string) (depth : Nat) (close : Char) (cs : List Char) :
    readValue t depth close ('"' :: cs) = none := by
  cases t with
  | string => exact absurd rfl ht
  | bool => rfl
  | int bits =>
    have hsign : readSign ('"' :: cs) = (false, '"' :: cs) := rfl
    rw [readValue, readInt, hsign]
    simp [readUInt_quote]
  | uint bits => rw [readValue, readUInt_quote, Option.map_none]
  | fixedBytes length | address | function =>
    rw [readValue, readSized, readBytes_quote]
    rfl
  | bytes => rw [readValue, readBytes_quote, Option.map_none]
  | array item | fixedArray item length | tuple items =>
    rw [readValue]
    rfl

end Literal

/-! ## Values -/

namespace Value

/-- The text in which the value of the type is reported is read as the value again: it is no list, or
a list that is not a tuple and has no items, or a list of texts without escapes. -/
def Rereadable : Value → Ty → Prop
  | .array items, .array item => items = [] ∨ item = .string ∧ ∀ s, .string s ∈ items → Json.Verbatim s
  | .tuple items, .fixedArray item _ => item = .string ∧ ∀ s, .string s ∈ items → Json.Verbatim s
  | _, .tuple _ | _, .function => False
  | _, _ => True

theorem renderAll_eq_map (vs : List Value) : renderAll vs = vs.map render := by
  induction vs with
  | nil => rfl
  | cons v vs ih => rw [renderAll, ih, List.map_cons]

theorem renderAll_texts (texts : List String) : renderAll (texts.map .string) = texts := by
  rw [renderAll_eq_map, List.map_map]
  exact List.map_id texts

end Value

namespace Literal

open Value

/-- A list in brackets that does not end at once starts with an item. -/
theorem readList_quoted (step : Reader Value) (s : String) (rest : List String) :
    readList step (Json.ofTexts (s :: rest)).render.toList =
      readItems step ((Json.quoted s ++ Json.behindFirst rest).length + 1)
        (Json.quoted s ++ Json.behindFirst rest) := by
  rw [Json.render_ofTexts_cons, quoted_append]
  rfl

/-- Reported items that are no texts are not read. -/
theorem readList_render_eq_none {item : Ty} (hitem : item ≠ .string) (depth : Nat)
    {items : List Value} (hitems : items ≠ []) :
    readList (readValue item depth ']') (Json.ofTexts (renderAll items)).render.toList = none := by
  obtain ⟨v, rest, rfl⟩ := List.exists_cons_of_ne_nil hitems
  rw [renderAll, readList_quoted, quoted_append, readItems, readValue_quote hitem]
  rfl

theorem readList_render_texts (depth : Nat) (texts : List String) :
    readList (readValue .string depth ']') (Json.ofTexts texts).render.toList =
        some (texts.map .string, []) ↔ ∀ s ∈ texts, Json.Verbatim s := by
  have hstep : ∀ cs, readValue .string depth ']' cs =
      (readString ']' cs).map fun (s, rest) => (.string s, rest) := fun cs => by rw [readValue]
  cases texts with
  | nil => simp [Json.render_ofTexts_nil, readList, skipSpaces]
  | cons s rest =>
    rw [readList_quoted]
    constructor
    · exact verbatim_of_readItems hstep
    · intro hverbatim
      refine readItems_texts hstep hverbatim ?_
      have hrest := Json.length_le_behindFirst rest
      rw [List.length_append]
      omega

/-- Reported items are read again if there are none, or if they are texts without escapes. -/
theorem readList_render_iff {item : Ty} (depth : Nat) {items : List Value}
    (each : ∀ w ∈ items, HasType w item) :
    readList (readValue item depth ']') (Json.ofTexts (renderAll items)).render.toList =
        some (items, []) ↔
      items = [] ∨ item = .string ∧ ∀ s, .string s ∈ items → Json.Verbatim s := by
  by_cases hitem : item = .string
  · subst hitem
    obtain ⟨texts, rfl⟩ := forall_hasType_string_iff.mp each
    rw [renderAll_texts, readList_render_texts]
    constructor
    · intro hverbatim
      exact .inr ⟨rfl, fun s hs => hverbatim s (by simpa using hs)⟩
    · rintro (hnone | ⟨-, hverbatim⟩)
      · simp [List.map_eq_nil_iff.mp hnone]
      · exact fun s hs => hverbatim s (List.mem_map_of_mem hs)
  · by_cases hitems : items = []
    · subst hitems
      simp [renderAll, Json.render_ofTexts_nil, readList, skipSpaces]
    · rw [readList_render_eq_none hitem depth hitems]
      simp [hitem, hitems]

end Literal

namespace Ty

open Literal Value

theorem read?_eq_some {t : Ty} (ht : t ≠ .string) {s : String} {v : Value} :
    t.read? s = some v ↔ readValue t listLimit ']' s.toList = some (v, []) := by
  unfold read?
  split
  · exact absurd rfl ht
  · split
    · rename_i w hread
      rw [hread]
      simp
    · rename_i hread
      constructor
      · intro h
        cases h
      · intro h
        exact absurd h (hread v)

theorem read?_eq_none {t : Ty} (ht : t ≠ .string) {s : String}
    (h : readValue t listLimit ']' s.toList = none) : t.read? s = none := by
  rw [Option.eq_none_iff_forall_ne_some]
  intro v hv
  rw [read?_eq_some ht, h] at hv
  cases hv

theorem readValue_array (item : Ty) (close : Char) (cs : List Char) :
    readValue (.array item) listLimit close cs =
      (readList (readValue item (listLimit - 1) ']') cs).map fun (items, rest) =>
        (.array items, rest) := by
  rw [readValue]
  rfl

theorem readValue_fixedArray (item : Ty) (length : Nat) (close : Char) (cs : List Char) :
    readValue (.fixedArray item length) listLimit close cs =
      match readList (readValue item (listLimit - 1) ']') cs with
      | some (items, rest) => if items.length = length then some (.tuple items, rest) else none
      | none => none := by
  rw [readValue]
  rfl

/-- A list that is reported starts with a bracket, and a tuple is read behind a parenthesis. -/
theorem readValue_tuple_render (ts : List Ty) (texts : List String) (depth : Nat) (close : Char) :
    readValue (.tuple ts) depth close (Json.ofTexts texts).render.toList = none := by
  cases texts with
  | nil =>
    rw [Json.render_ofTexts_nil, readValue]
    rfl
  | cons s rest =>
    rw [Json.render_ofTexts_cons, readValue]
    rfl

/-- The first letter of the word in front of a reported function is a digit, but one digit is no
byte. -/
theorem readBytes_function (cs : List Char) : readBytes ('F' :: 'u' :: cs) = none := by
  have hmark : Text.afterLead? ['0', 'x'] ('F' :: 'u' :: cs) = none := rfl
  have hdigits : ('F' :: 'u' :: cs).takeWhile isHexDigit = ['F'] := by
    have hfirst : isHexDigit 'F' = true := by decide
    have hsecond : isHexDigit 'u' = false := by decide
    rw [List.takeWhile_cons_of_pos hfirst, List.takeWhile_cons_of_neg (by simp [hsecond])]
  have hodd : Hex.decode (String.ofList ['F']) = .error .oddLength := by decide
  simp [readBytes, hmark, hdigits, hodd]

/-- A list of texts, whether its type fixes the length or not. -/
def listsTexts : Ty → Bool
  | array string | fixedArray string _ => true
  | _ => false

/-- What is not read again is refused, unless it is a list of texts. -/
theorem read?_render_eq_none {t : Ty} (ht : t.isProper = true) {v : Value} (h : HasType v t)
    (hnot : ¬ v.Rereadable t) (htexts : t.listsTexts = false) : t.read? v.render = none := by
  cases h with
  | string | bool | int | uint | fixedBytes | address | bytes => exact absurd trivial hnot
  | function f =>
    have htext : (Value.function f).render.toList =
        'F' :: 'u' :: ("nction(" ++ f.hex ++ ")").toList := by
      simp [render]
    refine read?_eq_none (by simp) ?_
    rw [htext, readValue, readSized, readBytes_function]
    rfl
  | array each =>
    rename_i items item
    have hitem : item ≠ .string := by
      rintro rfl
      cases htexts
    have hitems : items ≠ [] := fun hnone => hnot (.inl hnone)
    refine read?_eq_none (by simp) ?_
    rw [readValue_array, render, readList_render_eq_none hitem _ hitems]
    rfl
  | fixedArray each =>
    rename_i items item
    have hitem : item ≠ .string := by
      rintro rfl
      cases htexts
    have hitems : items ≠ [] := List.ne_nil_of_length_pos (isProper_fixedArray.mp ht).1
    refine read?_eq_none (by simp) ?_
    rw [readValue_fixedArray, render, readList_render_eq_none hitem _ hitems]
  | tuple each => exact read?_eq_none (by simp) (readValue_tuple_render ..)

/-- A value of a type is read again exactly if it is such a value. -/
theorem read?_render_iff {t : Ty} (ht : t.isProper = true) {v : Value} (h : HasType v t) :
    t.read? v.render = some v ↔ v.Rereadable t := by
  cases h with
  | string s => exact iff_of_true rfl trivial
  | bool b => cases b <;> exact iff_of_true rfl trivial
  | int least greatest =>
    rename_i bits w
    have hbits : 0 < bits ∧ bits ≤ 256 := by simpa [isProper] using ht
    refine iff_of_true ?_ trivial
    rw [read?_eq_some (by simp), readValue, render, readInt_signedDecimal hbits least greatest]
    simp
  | uint fits =>
    rename_i bits w
    refine iff_of_true ?_ trivial
    have hdigits : (Text.decimal w.toNat).toList = Nat.toDigits 10 w.toNat := String.toList_ofList
    rw [read?_eq_some (by simp), readValue, render, hdigits, readUInt_toDigits w.isLt fits]
    simp
  | fixedBytes b =>
    refine iff_of_true ?_ trivial
    have hread := readSized_encode (⟨b, rfl⟩ : SizedBytes b.length)
    rw [read?_eq_some (by simp), readValue, render, hread]
    rfl
  | address a =>
    refine iff_of_true ?_ trivial
    rw [read?_eq_some (by simp), readValue, render, SizedBytes.hex, readSized_encode]
    rfl
  | bytes b =>
    refine iff_of_true ?_ trivial
    rw [read?_eq_some (by simp), readValue, render, readBytes_encode]
    rfl
  | array each =>
    have hlist := readList_render_iff (listLimit - 1) (allHaveType_iff.mp each)
    rw [read?_eq_some (by simp), readValue_array, render, Rereadable, ← hlist]
    simp
  | fixedArray each =>
    rename_i items item
    have hlist := readList_render_iff (listLimit - 1) (allHaveType_iff.mp each)
    have hitems : items ≠ [] := List.ne_nil_of_length_pos (isProper_fixedArray.mp ht).1
    rw [or_iff_right hitems] at hlist
    rw [read?_eq_some (by simp), readValue_fixedArray, render, Rereadable, ← hlist]
    constructor
    · intro h
      split at h
      · rename_i hread
        split at h
        · cases h
          exact hread
        · cases h
      · cases h
    · intro hread
      rw [hread]
      exact if_pos rfl
  | function f =>
    have hnone := read?_render_eq_none ht (.function f) (fun h => h) rfl
    simp [hnone, Rereadable]
  | tuple each =>
    have hnone := read?_render_eq_none ht (.tuple each) (fun h => h) rfl
    simp [hnone, Rereadable]

end Ty

end LedgerGateway.Abi

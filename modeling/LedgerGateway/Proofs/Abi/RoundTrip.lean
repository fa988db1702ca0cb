import LedgerGateway.Proofs.Abi.Belonging
import LedgerGateway.Proofs.Text.Utf8

/-!
# Encoded values are read back

A value that belongs to a type is read back from its encoding, wherever that stands: in the first row
of a list, or in the second behind an offset. `Reads` says so of one value in any frame that holds
what its offset leads to; it goes over to lists part by part, and from the parts of a list to the
list. Three things stand in the way of a value, and each is a condition here: numbers of more than 64
bits, nesting beyond the limit, and tuples without places, which leave nothing to count items by.
-/

namespace LedgerGateway.Abi

open Text

/-! ## Rows that are read -/

/-- A frame from which values can be read, whose first row is followed by `rest`. -/
structure Frame.Holds (frame : Frame) (offset : Nat) (vs : List Value) (rest : Bytes) : Prop where
  /-- The second row stands where the first offset leads. -/
  reach : ∃ front back, frame.start = front ++ (tails (Value.parts vs) ++ back) ∧
    front.length = offset
  /-- Lengths and offsets have 64 bits. -/
  size : frame.start.length < UInt64.size
  /-- So have those of a frame that starts at the first row. -/
  cursor : (heads offset (Value.parts vs) ++ rest).length < UInt64.size
  /-- No value lies too deep. -/
  depth : frame.depth + Value.deepest vs ≤ nestingLimit

/-- The value is read back as one of the type, from every frame that holds it. -/
def Reads (v : Value) (t : Ty) : Prop :=
  ∀ (frame : Frame) (offset : Nat) (rest : Bytes), frame.Holds offset [v] rest →
    t.decode frame (heads offset (Value.parts [v]) ++ rest) = .ok (v, rest)

theorem parts_cons (v : Value) (vs : List Value) :
    Value.parts (v :: vs) = ⟨v.isDynamic, v.encode⟩ :: Value.parts vs := by rw [Value.parts]

theorem parts_singleton (v : Value) : Value.parts [v] = [⟨v.isDynamic, v.encode⟩] := by
  rw [parts_cons, Value.parts]

/-- How far the encoding of a value moves the offsets behind it. -/
def Value.reach (v : Value) : Nat := (tails (Value.parts [v])).length

theorem heads_parts_cons (offset : Nat) (v : Value) (vs : List Value) :
    heads offset (Value.parts (v :: vs)) =
      heads offset (Value.parts [v]) ++ heads (offset + v.reach) (Value.parts vs) := by
  rw [Value.reach, parts_singleton, parts_cons, heads_cons]

theorem tails_parts_cons (v : Value) (vs : List Value) :
    tails (Value.parts (v :: vs)) = tails (Value.parts [v]) ++ tails (Value.parts vs) := by
  rw [parts_singleton, parts_cons, tails_cons]

namespace Frame.Holds

variable {frame : Frame} {offset : Nat} {v : Value} {vs : List Value} {rest : Bytes}

theorem head (h : frame.Holds offset (v :: vs) rest) :
    frame.Holds offset [v] (heads (offset + v.reach) (Value.parts vs) ++ rest) := by
  obtain ⟨front, back, hstart, hfront⟩ := h.reach
  refine ⟨⟨front, tails (Value.parts vs) ++ back, ?_, hfront⟩, h.size, ?_, ?_⟩
  · rw [hstart, tails_parts_cons, List.append_assoc]
  · rw [← List.append_assoc, ← heads_parts_cons]
    exact h.cursor
  · have hdepth := h.depth
    simp only [Value.deepest] at hdepth ⊢
    omega

theorem tail (h : frame.Holds offset (v :: vs) rest) :
    frame.Holds (offset + v.reach) vs rest := by
  obtain ⟨front, back, hstart, hfront⟩ := h.reach
  refine ⟨⟨front ++ tails (Value.parts [v]), back, ?_, ?_⟩, h.size, ?_, ?_⟩
  · rw [hstart, tails_parts_cons, List.append_assoc, List.append_assoc]
  · rw [List.length_append, hfront, Value.reach]
  · have hcursor := h.cursor
    rw [heads_parts_cons, List.append_assoc, List.length_append] at hcursor
    omega
  · have hdepth := h.depth
    simp only [Value.deepest] at hdepth
    omega

/-- A list that is laid out at the start of a frame is held by it. -/
theorem of_layOut {depth : Nat} (hsize : (layOut (Value.parts vs) ++ rest).length < UInt64.size)
    (hdepth : depth + Value.deepest vs ≤ nestingLimit) :
    Frame.Holds ⟨layOut (Value.parts vs) ++ rest, depth⟩ (headsLength (Value.parts vs)) vs
      (tails (Value.parts vs) ++ rest) := by
  have hrows : layOut (Value.parts vs) ++ rest =
      heads (headsLength (Value.parts vs)) (Value.parts vs) ++ (tails (Value.parts vs) ++ rest) := by
    rw [layOut, List.append_assoc]
  refine ⟨⟨_, rest, hrows, length_heads _ _⟩, hsize, ?_, hdepth⟩
  rwa [← hrows]

/-- The offset of a value leads to its encoding, one level deeper. -/
theorem follow (h : frame.Holds offset [v] rest) (hdynamic : v.isDynamic = true)
    (hdepth : 0 < v.depth) :
    ∃ back, frame.follow (heads offset (Value.parts [v]) ++ rest) =
      .ok (⟨v.encode ++ back, frame.depth + 1⟩, rest) ∧
      (v.encode ++ back).length < UInt64.size := by
  obtain ⟨front, back, hstart, hfront⟩ := h.reach
  have hvalue : tails (Value.parts [v]) = v.encode := by
    simp [parts_singleton, tails, hdynamic]
  have hword : heads offset (Value.parts [v]) = wordBytes offset := by
    simp [parts_singleton, heads, hdynamic]
  rw [hvalue] at hstart
  have hdrop : frame.start.drop offset = v.encode ++ back := by
    rw [hstart]
    exact List.drop_left' hfront
  have hsize := h.size
  have hlength : frame.start.length = offset + (v.encode ++ back).length := by
    rw [hstart, List.length_append, hfront]
  have hlevel : frame.depth < nestingLimit := by
    have hlimit := h.depth
    simp only [Value.deepest] at hlimit
    omega
  refine ⟨back, ?_, by omega⟩
  rw [hword, follow_wordBytes hlevel hsize (by omega), hdrop]

/-- Behind the offset of a byte string stand its length and its bytes. -/
theorem follow_bytes {b : Bytes} (h : frame.Holds offset [v] rest) (hdynamic : v.isDynamic = true)
    (hdepth : 0 < v.depth) (hencode : v.encode = encodeBytes b) :
    ∃ child, frame.follow (heads offset (Value.parts [v]) ++ rest) = .ok (child, rest) ∧
      child.bytes = .ok b := by
  obtain ⟨back, hfollow, hsize⟩ := h.follow hdynamic hdepth
  rw [hencode] at hfollow hsize
  have hlength : b.length < UInt64.size := by
    rw [encodeBytes, padToWords, Bytes.padRight] at hsize
    simp only [List.length_append] at hsize
    omega
  exact ⟨_, hfollow, bytes_encodeBytes hlength rfl⟩

end Frame.Holds

/-- Values that can be read one by one are read from a row. -/
theorem decodeEach_of_reads {vs : List Value} {ts : List Ty} (h : List.Forall₂ Reads vs ts)
    {frame : Frame} {offset : Nat} {rest : Bytes} (hholds : frame.Holds offset vs rest) :
    Ty.decodeEach frame ts (heads offset (Value.parts vs) ++ rest) = .ok (vs, rest) := by
  -- The frame stays the same, while the offset moves on by what each value has in the second row.
  induction h generalizing offset with
  | nil => simp [Ty.decodeEach, Value.parts, heads]
  | @cons v t vs ts hhead _ ih =>
    have hv := hhead frame offset _ hholds.head
    have hvs := ih hholds.tail
    rw [heads_parts_cons, List.append_assoc, Ty.decodeEach]
    simp only [bind, Except.bind, hv, hvs]
    rfl

/-- Values that can be read one by one are read from the list that was laid out. -/
theorem decodeEach_layOut {vs : List Value} {ts : List Ty} (h : List.Forall₂ Reads vs ts)
    {depth : Nat} {rest : Bytes} (hsize : (layOut (Value.parts vs) ++ rest).length < UInt64.size)
    (hdepth : depth + Value.deepest vs ≤ nestingLimit) :
    Ty.decodeEach ⟨layOut (Value.parts vs) ++ rest, depth⟩ ts (layOut (Value.parts vs) ++ rest) =
      .ok (vs, tails (Value.parts vs) ++ rest) := by
  have hread := decodeEach_of_reads h (Frame.Holds.of_layOut hsize hdepth)
  rwa [← List.append_assoc, ← layOut] at hread

theorem takeMany_eq_decodeEach (frame : Frame) (item : Ty) (length : Nat) (rest : Bytes) :
    takeMany (item.decode frame) length rest =
      Ty.decodeEach frame (List.replicate length item) rest := by
  induction length generalizing rest with
  | zero => simp [takeMany, Ty.decodeEach]
  | succ length ih =>
    rw [takeMany, List.replicate_succ, Ty.decodeEach]
    simp only [ih]

theorem forall₂_replicate {vs : List Value} {item : Ty} (h : ∀ v ∈ vs, Reads v item) :
    List.Forall₂ Reads vs (List.replicate vs.length item) := by
  induction vs with
  | nil => exact .nil
  | cons v vs ih =>
    exact .cons (h v List.mem_cons_self) (ih fun w hw => h w (List.mem_cons_of_mem v hw))

/-! ## Values that are read -/

theorem heads_static {v : Value} (h : v.isDynamic = false) (offset : Nat) :
    heads offset (Value.parts [v]) = v.encode := by
  simp [parts_singleton, heads, h]

theorem tails_of_static {vs : List Value} (h : Value.anyDynamic vs = false) :
    tails (Value.parts vs) = [] := by
  induction vs with
  | nil => simp [Value.parts, tails]
  | cons v vs ih =>
    obtain ⟨hv, hvs⟩ : v.isDynamic = false ∧ Value.anyDynamic vs = false := by
      simpa [Value.anyDynamic] using h
    simp [parts_cons, tails, hv, ih hvs]

/-- A value of one word is read if its type takes a word and makes the value of it. -/
theorem Reads.of_word {v : Value} {t : Ty} {f : Bytes → Value} (hstatic : v.isDynamic = false)
    (hlength : v.encode.length = 32) (hvalue : f v.encode = v)
    (hdecode : ∀ frame rest, t.decode frame rest = do
      let (w, rest) ← takeWord rest
      pure (f w, rest)) : Reads v t := by
  intro frame offset rest _
  have hword : takeWord (v.encode ++ rest) = .ok (v.encode, rest) := takeWord_append hlength rest
  rw [heads_static hstatic, hdecode, hword]
  simp only [bind, Except.bind, hvalue]
  rfl

theorem reads_bool (b : Bool) : Reads (.bool b) .bool := by
  refine Reads.of_word (f := fun w => .bool (Bytes.toNat w != 0)) (by simp [Value.isDynamic])
    (by rw [Value.encode, length_wordBytes]) ?_ fun _ _ => by rw [Ty.decode]
  have hvalue : (Bytes.toNat (wordBytes b.toNat) != 0) = b := by
    rw [toNat_wordBytes (Nat.lt_of_le_of_lt b.toNat_le (by decide))]
    cases b <;> rfl
  rw [Value.encode, hvalue]

theorem reads_int (w : Word) (bits : Nat) : Reads (.int w) (.int bits) :=
  Reads.of_word (f := fun w => .int (Word.ofBytes w)) (by simp [Value.isDynamic])
    (by rw [Value.encode, Word.length_bytes]) (by rw [Value.encode, Word.ofBytes_bytes])
    fun _ _ => by rw [Ty.decode]

theorem reads_uint (w : Word) (bits : Nat) : Reads (.uint w) (.uint bits) :=
  Reads.of_word (f := fun w => .uint (Word.ofBytes w)) (by simp [Value.isDynamic])
    (by rw [Value.encode, Word.length_bytes]) (by rw [Value.encode, Word.ofBytes_bytes])
    fun _ _ => by rw [Ty.decode]

theorem reads_fixedBytes {b : Bytes} (h : b.length ≤ 32) :
    Reads (.fixedBytes b) (.fixedBytes b.length) := by
  have hvalue : (Bytes.padRight 32 b).take b.length = b := by simp [Bytes.padRight]
  exact Reads.of_word (f := fun w => .fixedBytes (w.take b.length)) (by simp [Value.isDynamic])
    (by rw [Value.encode, Bytes.length_padRight h]) (by rw [Value.encode, hvalue])
    fun _ _ => by rw [Ty.decode]

theorem reads_address (a : Address) : Reads (.address a) .address := by
  have hlength : a.1.length ≤ 32 := by simp [a.2]
  exact Reads.of_word (f := fun w => .address (SizedBytes.ofNat 20 (Bytes.toNat w)))
    (by simp [Value.isDynamic]) (by rw [Value.encode, Bytes.length_padLeft hlength])
    (by rw [Value.encode, Bytes.toNat_padLeft, SizedBytes.ofNat_toNat]) fun _ _ => by rw [Ty.decode]

theorem reads_function (f : SizedBytes 24) : Reads (.function f) .function := by
  have hlength : f.1.length ≤ 32 := by simp [f.2]
  have hvalue : (Bytes.padRight 32 f.1).take 24 = f.1 := by
    rw [Bytes.padRight]
    exact List.take_left' f.2
  exact Reads.of_word (f := fun w => .function (SizedBytes.ofNat 24 (Bytes.toNat (w.take 24))))
    (by simp [Value.isDynamic]) (by rw [Value.encode, Bytes.length_padRight hlength])
    (by rw [Value.encode, hvalue, SizedBytes.ofNat_toNat]) fun _ _ => by rw [Ty.decode]

theorem reads_bytes (b : Bytes) : Reads (.bytes b) .bytes := by
  intro frame offset rest h
  obtain ⟨child, hfollow, hbytes⟩ :=
    h.follow_bytes (by simp [Value.isDynamic]) (by simp [Value.depth]) (by rw [Value.encode])
  rw [Ty.decode, hfollow]
  simp only [bind, Except.bind, hbytes]
  rfl

theorem reads_string (s : String) : Reads (.string s) .string := by
  intro frame offset rest h
  obtain ⟨child, hfollow, hbytes⟩ :=
    h.follow_bytes (by simp [Value.isDynamic]) (by simp [Value.depth]) (by rw [Value.encode])
  rw [Ty.decode, hfollow]
  simp only [bind, Except.bind, hbytes, Text.Utf8.decodeLossy_encode]
  rfl

/-- A list of any length is counted first, and the words that its items take at least are there. -/
theorem reads_array {items : List Value} {item : Ty} (hwords : 0 < item.minimumWords)
    (hlengths : ∀ v ∈ items, 32 * item.minimumWords ≤ v.encode.length)
    (hreads : ∀ v ∈ items, Reads v item) : Reads (.array items) (.array item) := by
  intro frame offset rest h
  have hlevels : 0 < (Value.array items).depth := by
    cases items <;> simp [Value.depth]
  obtain ⟨back, hfollow, hsize⟩ := h.follow (by simp [Value.isDynamic]) hlevels
  rw [Value.encode, List.append_assoc] at hfollow hsize
  rw [List.length_append, length_wordBytes, List.length_append] at hsize
  have hroom := minimumWords_mul_le hlengths
  have hmany : items.length ≤ item.minimumWords * items.length := Nat.le_mul_of_pos_left _ hwords
  rw [Ty.decode, hfollow]
  simp only [bind, Except.bind, takeSize_wordBytes (show items.length < UInt64.size by omega)]
  -- An empty list ends with its length: no further frame is opened for it.
  cases items with
  | nil => rfl
  | cons v vs =>
    have hdepth := h.depth
    simp only [Value.deepest, Value.depth] at hdepth
    have hlevel : frame.depth + 1 + 1 + Value.deepest (v :: vs) ≤ nestingLimit := by
      rw [Value.deepest]
      omega
    have heach := decodeEach_layOut (forall₂_replicate hreads)
      (show (layOut (Value.parts (v :: vs)) ++ back).length < UInt64.size by
        rw [List.length_append]; omega) hlevel
    rw [if_neg (by simp; omega), if_neg (by rw [List.length_append]; omega),
      inner_eq_ok (by simp only; omega)]
    simp only [takeMany_eq_decodeEach, heach]
    rfl

/-- A tuple is read by one row reader: behind an offset if one of its values is dynamic, and in place
otherwise. -/
theorem decode_tuple_of_forall₂ {vs : List Value} {ts : List Ty} (h : List.Forall₂ Reads vs ts)
    {frame : Frame} {offset : Nat} {rest : Bytes} (hholds : frame.Holds offset [.tuple vs] rest) :
    (if Value.anyDynamic vs then do
        let (child, rest) ← frame.follow (heads offset (Value.parts [.tuple vs]) ++ rest)
        let (values, _) ← Ty.decodeEach child ts child.start
        pure (Value.tuple values, rest)
      else do
        let child ← frame.inner (heads offset (Value.parts [.tuple vs]) ++ rest)
        let (values, rest) ← Ty.decodeEach child ts (heads offset (Value.parts [.tuple vs]) ++ rest)
        pure (Value.tuple values, rest)) = .ok (.tuple vs, rest) := by
  have hlevel : frame.depth + 1 + Value.deepest vs ≤ nestingLimit := by
    have hdepth := hholds.depth
    simp only [Value.deepest, Value.depth] at hdepth
    omega
  cases hdynamic : Value.anyDynamic vs with
  | true =>
    obtain ⟨back, hfollow, hsize⟩ :=
      hholds.follow (by rw [Value.isDynamic, hdynamic]) (by simp [Value.depth])
    rw [Value.encode] at hfollow hsize
    have heach := decodeEach_layOut h hsize hlevel
    rw [if_pos rfl, hfollow]
    simp only [bind, Except.bind, heach]
    rfl
  | false =>
    have hstatic : (Value.tuple vs).isDynamic = false := by rw [Value.isDynamic, hdynamic]
    -- In place the second row is empty, so the rest of the frame follows the values at once.
    have hcursor := hholds.cursor
    have htails := tails_of_static hdynamic
    rw [heads_static hstatic, Value.encode] at hcursor ⊢
    have heach := decodeEach_layOut h hcursor hlevel
    rw [htails, List.nil_append] at heach
    rw [if_neg Bool.false_ne_true, inner_eq_ok (by omega)]
    simp only [bind, Except.bind, heach]
    rfl

mutual

/-- A value that belongs to a type is read back. -/
theorem reads_of_hasType : ∀ t : Ty, t.isProper = true → t.isFilled = true →
    ∀ v, HasType v t → Reads v t
  | .bool, _, _, _, .bool b => reads_bool b
  | .int bits, _, _, _, .int _ _ => reads_int _ bits
  | .uint bits, _, _, _, .uint _ => reads_uint _ bits
  | .fixedBytes _, ht, _, v, h => by
    cases h with
    | fixedBytes b => exact reads_fixedBytes (by simpa [Ty.isProper] using ht)
  | .address, _, _, _, .address a => reads_address a
  | .function, _, _, _, .function f => reads_function f
  | .bytes, _, _, _, .bytes b => reads_bytes b
  | .string, _, _, _, .string s => reads_string s
  | .array item, ht, hf, v, h => by
    obtain ⟨items, rfl, each⟩ := hasType_array_iff.mp h
    have hitem : item.isProper = true := by simpa [Ty.isProper] using ht
    have hfilled : item.isFilled = true := by simpa [Ty.isFilled] using hf
    refine reads_array (minimumWords_pos item hitem hfilled) ?_ ?_
    · intro w hw
      exact minimumWords_le item hitem w (each w hw)
    · intro w hw
      exact reads_of_hasType item hitem hfilled w (each w hw)
  | .fixedArray item length, ht, hf, v, h => by
    obtain ⟨items, rfl, rfl, each⟩ := hasType_fixedArray_iff.mp h
    obtain ⟨hplaces, hitem⟩ := Ty.isProper_fixedArray.mp ht
    have hfilled : item.isFilled = true := by simpa [Ty.isFilled] using hf
    intro frame offset rest hholds
    -- The type asks its item, the value all of its items; there is one at least, so they agree.
    have hdynamic : item.isDynamic = Value.anyDynamic items := by
      refine (anyDynamic_of_forall (List.ne_nil_of_length_pos hplaces) ?_).symm
      intro w hw
      exact isDynamic_of_hasType item hitem w (each w hw)
    have hreads := forall₂_replicate fun w hw => reads_of_hasType item hitem hfilled w (each w hw)
    have hdecode := decode_tuple_of_forall₂ hreads hholds
    rw [Ty.decode, hdynamic]
    simp only [takeMany_eq_decodeEach]
    exact hdecode
  | .tuple ts, ht, hf, v, h => by
    obtain ⟨items, rfl, each⟩ := hasType_tuple_iff.mp h
    have hproper : Ty.areProper ts = true := by simpa [Ty.isProper] using ht
    obtain ⟨-, hfilled⟩ := Ty.isFilled_tuple.mp hf
    intro frame offset rest hholds
    rw [Ty.decode, ← anyDynamic_of_forall₂ ts hproper items each]
    exact decode_tuple_of_forall₂ (forall₂_reads ts hproper hfilled items each) hholds

theorem forall₂_reads : ∀ ts : List Ty, Ty.areProper ts = true → Ty.areFilled ts = true →
    ∀ vs, List.Forall₂ HasType vs ts → List.Forall₂ Reads vs ts
  | [], _, _, _, .nil => .nil
  | t :: ts, ht, hf, v :: vs, .cons head tail => by
    obtain ⟨hhead, htail⟩ := Ty.areProper_cons.mp ht
    obtain ⟨hfirst, hothers⟩ := Ty.areFilled_cons.mp hf
    exact .cons (reads_of_hasType t hhead hfirst v head) (forall₂_reads ts htail hothers vs tail)

end

/-- A list of values whose types have places takes room. -/
theorem encodeAll_ne_nil {vs : List Value} {ts : List Ty} (htypes : List.Forall₂ HasType vs ts)
    (hproper : Ty.areProper ts = true) (hfilled : Ty.areFilled ts = true) (hne : ts ≠ []) :
    Value.encodeAll vs ≠ [] := by
  have hwords := minimumWordsOfAll_le ts hproper vs htypes
  have hpos := minimumWordsOfAll_pos ts hproper hfilled hne
  intro hnil
  rw [Value.encodeAll] at hnil
  rw [hnil, List.length_nil] at hwords
  omega

/-- What is encoded is read back: the values that a function is called with, and those that it
returns. -/
theorem decodeAll_encodeAll {vs : List Value} {ts : List Ty} (htypes : List.Forall₂ HasType vs ts)
    (hproper : Ty.areProper ts = true) (hfilled : Ty.areFilled ts = true)
    (hdepth : Value.deepest vs ≤ nestingLimit)
    (hsize : (Value.encodeAll vs).length < UInt64.size) :
    Ty.decodeAll ts (Value.encodeAll vs) = .ok vs := by
  cases htypes with
  | nil => simp [Ty.decodeAll, Ty.allHollow]
  | @cons v t vs ts head tail =>
    have hall := List.Forall₂.cons head tail
    have hwords := minimumWordsOfAll_le (t :: ts) hproper (v :: vs) hall
    rw [← List.append_nil (Value.encodeAll (v :: vs)), Value.encodeAll] at hsize
    have heach := decodeEach_layOut (forall₂_reads (t :: ts) hproper hfilled (v :: vs) hall) hsize
      (show 0 + Value.deepest (v :: vs) ≤ nestingLimit by omega)
    rw [List.append_nil, List.append_nil, ← Value.encodeAll] at heach
    rw [Ty.decodeAll, allHollow_of_areFilled (t :: ts) hfilled (by simp), if_neg Bool.false_ne_true,
      if_neg (by rw [Value.encodeAll]; omega), Frame.whole, heach]
    rfl

end LedgerGateway.Abi

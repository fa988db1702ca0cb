import LedgerGateway.Json.Decoder
import LedgerGateway.Proofs.Json.Numbers

/-!
# Written values are read back

`node` is what a reader finds in the text of a value. The text is taken apart along the value: a
list is its first item and a tail of items behind commas, and so is an object. `readsBack` is proved
by induction on the fuel; the length of the text is fuel enough, because every level of nesting and
every item has a byte of its own.
-/

namespace LedgerGateway.Json

open Text

/-! ## What a reader finds -/

mutual

/-- What a reader finds in the text of a value. -/
def node : Json → Node
  | .null => .null
  | .bool b => .bool b
  | .number n => .number n.numeral
  | .text s => .text (some s)
  | .array items => .array (nodes items)
  | .object members => .object (memberNodes members)

/-- What a reader finds in the text of each item. -/
def nodes : List Json → List Node
  | [] => []
  | item :: rest => node item :: nodes rest

/-- What a reader finds in the text of each member. -/
def memberNodes : List (String × Json) → List (Option String × Node)
  | [] => []
  | (key, value) :: rest => (some key, node value) :: memberNodes rest

end

mutual

/-- No number in the value is a binary fraction. -/
def isWhole : Json → Bool
  | .null | .bool _ | .text _ => true
  | .number n => n.isWhole
  | .array items => areWhole items
  | .object members => membersAreWhole members

/-- No number in the items is a binary fraction. -/
def areWhole : List Json → Bool
  | [] => true
  | item :: rest => isWhole item && areWhole rest

/-- No number in the values of the members is a binary fraction. -/
def membersAreWhole : List (String × Json) → Bool
  | [] => true
  | (_, value) :: rest => isWhole value && membersAreWhole rest

end

attribute [simp] node nodes memberNodes isWhole areWhole membersAreWhole

/-! ## The text taken apart -/

theorem bytes_eq (j : Json) : j.bytes = (chars j).flatMap String.utf8EncodeChar := by
  simp [bytes, render, Utf8.encode]

/-- The bytes of a string between its quotes, and the closing quote. -/
def textTail (s : String) : Bytes := s.toList.flatMap escapeBytes ++ [0x22]

/-- The bytes behind the first item of a list: the others behind commas, and the bracket. -/
def itemTail : List Json → Bytes
  | [] => [0x5d]
  | item :: rest => 0x2c :: (item.bytes ++ itemTail rest)

def memberBytes (member : String × Json) : Bytes :=
  0x22 :: (textTail member.1 ++ 0x3a :: member.2.bytes)

/-- The bytes behind the first member of an object: the others behind commas, and the brace. -/
def memberTail : List (String × Json) → Bytes
  | [] => [0x7d]
  | member :: rest => 0x2c :: (memberBytes member ++ memberTail rest)

theorem flatMap_quoted (s : String) :
    (quoted s).flatMap String.utf8EncodeChar = 0x22 :: textTail s := by
  simp only [quoted, textTail, List.flatMap_cons, List.flatMap_append, List.flatMap_assoc]
  rfl

theorem bytes_text (s : String) : (Json.text s).bytes = 0x22 :: textTail s := by
  rw [bytes_eq, chars, flatMap_quoted]

theorem bytes_number (n : Number) : (Json.number n).bytes = n.bytes := by
  rw [bytes_eq, chars, Number.bytes]

theorem bytes_array_nil : (Json.array []).bytes = [0x5b, 0x5d] := by
  rw [bytes_eq]
  rfl

theorem bytes_object_nil : (Json.object []).bytes = [0x7b, 0x7d] := by
  rw [bytes_eq]
  rfl

/-- Items between brackets, the first of them and the tail. -/
theorem flatMap_intercalate_itemChars (j : Json) (js : List Json) :
    (List.intercalate [','] (itemChars (j :: js)) ++ [']']).flatMap String.utf8EncodeChar =
      j.bytes ++ itemTail js := by
  induction js generalizing j with
  | nil =>
    simp only [itemChars, List.intercalate_singleton, List.flatMap_append, bytes_eq, itemTail]
    rfl
  | cons i js ih =>
    rw [itemChars, itemChars, List.intercalate_cons_cons, List.append_assoc, List.append_assoc,
      List.flatMap_append, List.flatMap_append, ← itemChars, ih, itemTail, bytes_eq j]
    rfl

theorem memberChars_cons (m : String × Json) (ms : List (String × Json)) :
    memberChars (m :: ms) = (quoted m.1 ++ ':' :: chars m.2) :: memberChars ms := by
  rw [memberChars]

theorem flatMap_member (m : String × Json) :
    (quoted m.1 ++ ':' :: chars m.2).flatMap String.utf8EncodeChar = memberBytes m := by
  rw [List.flatMap_append, flatMap_quoted, List.flatMap_cons, ← bytes_eq]
  rfl

/-- Members between braces, the first of them and the tail. -/
theorem flatMap_intercalate_memberChars (m : String × Json) (ms : List (String × Json)) :
    (List.intercalate [','] (memberChars (m :: ms)) ++ ['\x7d']).flatMap String.utf8EncodeChar =
      memberBytes m ++ memberTail ms := by
  induction ms generalizing m with
  | nil =>
    rw [memberChars_cons, memberChars, List.intercalate_singleton, List.flatMap_append,
      flatMap_member, memberTail]
    rfl
  | cons i ms ih =>
    rw [memberChars_cons, memberChars_cons, List.intercalate_cons_cons, List.append_assoc,
      List.append_assoc, List.flatMap_append, flatMap_member, ← memberChars_cons,
      List.flatMap_append, ih, memberTail]
    rfl

theorem bytes_array_cons (j : Json) (js : List Json) :
    (Json.array (j :: js)).bytes = 0x5b :: (j.bytes ++ itemTail js) := by
  rw [bytes_eq, chars, listed, List.flatMap_cons, flatMap_intercalate_itemChars]
  rfl

theorem bytes_object_cons (m : String × Json) (ms : List (String × Json)) :
    (Json.object (m :: ms)).bytes = 0x7b :: (memberBytes m ++ memberTail ms) := by
  rw [bytes_eq, chars, listed, List.flatMap_cons, flatMap_intercalate_memberChars]
  rfl

/-! ## First bytes -/

/-- Neither a blank nor the end of a list: a byte that a value may start with. -/
def StartsValue (b : UInt8) : Prop := isBlankByte b = false ∧ b ≠ 0x5d

theorem number_bytes_eq_cons {n : Number} (hw : n.isWhole = true) :
    ∃ b bs, n.bytes = b :: bs ∧ (isDigitByte b = true ∨ b = 0x2d) := by
  have hdigits : ∀ n, ∃ b bs, digitBytes n = b :: bs ∧ (isDigitByte b = true ∨ b = 0x2d) := by
    intro n
    obtain ⟨b, bs, hbs⟩ := List.exists_cons_of_ne_nil (digitBytes_ne_nil n)
    exact ⟨b, bs, hbs, .inl (isDigitByte_of_mem_digitBytes n b (by simp [hbs]))⟩
  cases n with
  | natural n => exact Number.bytes_natural n ▸ hdigits _
  | negative i =>
    rw [Number.bytes_negative]
    split
    · exact ⟨_, _, rfl, .inr rfl⟩
    · exact hdigits _
  | binary f => cases hw

theorem startsValue_of_number {b : UInt8} (h : isDigitByte b = true ∨ b = 0x2d) :
    StartsValue b := by
  rcases h with h | rfl
  · have hrange : 0x30 ≤ b.toNat ∧ b.toNat ≤ 0x39 := by
      simpa [isDigitByte, UInt8.le_iff_toNat_le] using h
    have hne : ∀ c : UInt8, c.toNat < 0x30 ∨ 0x39 < c.toNat → b ≠ c := by
      rintro c hc rfl
      omega
    refine ⟨?_, hne _ (by decide)⟩
    simp [isBlankByte, hne 0x20 (by decide), hne 0x0a (by decide), hne 0x0d (by decide),
      hne 0x09 (by decide)]
  · exact ⟨by decide, by decide⟩

/-- Every value has a first byte. -/
theorem bytes_eq_cons {j : Json} (hw : j.isWhole = true) :
    ∃ b bs, j.bytes = b :: bs ∧ StartsValue b := by
  cases j with
  | null => exact ⟨_, _, rfl, by decide, by decide⟩
  | bool b => cases b <;> exact ⟨_, _, rfl, by decide, by decide⟩
  | number n =>
    obtain ⟨b, bs, hbs, hb⟩ := number_bytes_eq_cons (by simpa using hw)
    exact ⟨b, bs, by rw [bytes_number, hbs], startsValue_of_number hb⟩
  | text s => exact ⟨_, _, bytes_text s, by decide, by decide⟩
  | array items =>
    cases items with
    | nil => exact ⟨_, _, bytes_array_nil, by decide, by decide⟩
    | cons item rest => exact ⟨_, _, bytes_array_cons item rest, by decide, by decide⟩
  | object members =>
    cases members with
    | nil => exact ⟨_, _, bytes_object_nil, by decide, by decide⟩
    | cons member rest => exact ⟨_, _, bytes_object_cons member rest, by decide, by decide⟩

theorem length_bytes_pos {j : Json} (hw : j.isWhole = true) : 0 < j.bytes.length := by
  obtain ⟨b, bs, hbs, -⟩ := bytes_eq_cons hw
  simp [hbs]

theorem length_itemTail_pos (items : List Json) : 0 < (itemTail items).length := by
  cases items <;> simp [itemTail]

theorem length_memberTail_pos (members : List (String × Json)) :
    0 < (memberTail members).length := by
  cases members <;> simp [memberTail]

theorem endsNumber_cons {b : UInt8} {rest : Bytes}
    (h : isDigitByte b = false ∧ b ≠ 0x2e ∧ b ≠ 0x65 ∧ b ≠ 0x45) : EndsNumber (b :: rest) := by
  intro c hc
  rw [List.head?_cons, Option.mem_def, Option.some.injEq] at hc
  exact hc ▸ h

theorem endsNumber_itemTail (items : List Json) (rest : Bytes) :
    EndsNumber (itemTail items ++ rest) := by
  cases items <;> exact endsNumber_cons (by decide)

theorem endsNumber_memberTail (members : List (String × Json)) (rest : Bytes) :
    EndsNumber (memberTail members ++ rest) := by
  cases members <;> exact endsNumber_cons (by decide)

theorem skipBlanks_cons {b : UInt8} (h : isBlankByte b = false) (rest : Bytes) :
    skipBlanks (b :: rest) = b :: rest := by
  simp [skipBlanks, h]

theorem readText_textTail (s : String) (rest : Bytes) :
    readText (textTail s ++ rest) = .ok (some s, rest) := by
  rw [textTail, List.append_assoc, List.singleton_append, readText_escaped]

/-! ## One level of the reader -/

theorem readValue_number {n : Number} (hw : n.isWhole = true) (fuel : Nat) {rest : Bytes}
    (hrest : EndsNumber rest) :
    readValue (fuel + 1) (n.bytes ++ rest) = .ok (.number n.numeral, rest) := by
  have hread := readNumeral_number hw hrest
  obtain ⟨b, bs, hbs, hb⟩ := number_bytes_eq_cons hw
  rw [hbs, List.cons_append] at hread ⊢
  rw [readValue, skipBlanks_cons (startsValue_of_number hb).1]
  -- A digit or a minus sign opens no other kind of value.
  split <;> rename_i heq <;> first
    | exact absurd heq (List.cons_ne_nil _ _)
    | exact absurd ((List.cons.inj heq).1 ▸ hb) (by decide)
    | simp [hread, Except.map]

theorem readValue_text (fuel : Nat) (s : String) (rest : Bytes) :
    readValue (fuel + 1) (0x22 :: (textTail s ++ rest)) = .ok (.text (some s), rest) := by
  rw [readValue, skipBlanks_cons (by decide)]
  show (readText (textTail s ++ rest)).map _ = _
  rw [readText_textTail]
  rfl

theorem readValue_array {b : UInt8} (hb : StartsValue b) {fuel : Nat} {bs rest : Bytes}
    {items : List Node} (h : readItems fuel (b :: bs) = .ok (items, rest)) :
    readValue (fuel + 1) (0x5b :: b :: bs) = .ok (.array items, rest) := by
  rw [readValue, skipBlanks_cons (by decide)]
  simp only [skipBlanks_cons hb.1]
  split
  · rename_i heq
    exact absurd (List.cons.inj heq).1 hb.2
  · rw [h]
    rfl

theorem readValue_object {fuel : Nat} {bs rest : Bytes} {members : List (Option String × Node)}
    (h : readMembers fuel (0x22 :: bs) = .ok (members, rest)) :
    readValue (fuel + 1) (0x7b :: 0x22 :: bs) = .ok (.object members, rest) := by
  rw [readValue, skipBlanks_cons (by decide)]
  simp only [skipBlanks_cons (show isBlankByte 0x22 = false by decide)]
  show (readMembers fuel (0x22 :: bs)).map _ = _
  rw [h]
  rfl

theorem readItems_last {fuel : Nat} {bs rest : Bytes} {item : Node}
    (h : readValue fuel bs = .ok (item, 0x5d :: rest)) :
    readItems (fuel + 1) bs = .ok ([item], rest) := by
  rw [readItems, h]
  simp only [skipBlanks_cons (show isBlankByte 0x5d = false by decide)]

theorem readItems_comma {fuel : Nat} {bs more rest : Bytes} {item : Node} {items : List Node}
    (h : readValue fuel bs = .ok (item, 0x2c :: more))
    (hmore : readItems fuel more = .ok (items, rest)) :
    readItems (fuel + 1) bs = .ok (item :: items, rest) := by
  rw [readItems, h]
  simp only [skipBlanks_cons (show isBlankByte 0x2c = false by decide), hmore]
  rfl

theorem readMembers_last {fuel : Nat} {key : String} {bs rest : Bytes} {value : Node}
    (h : readValue fuel bs = .ok (value, 0x7d :: rest)) :
    readMembers (fuel + 1) (0x22 :: (textTail key ++ 0x3a :: bs)) =
      .ok ([(some key, value)], rest) := by
  rw [readMembers, skipBlanks_cons (by decide)]
  simp only [readText_textTail, skipBlanks_cons (show isBlankByte 0x3a = false by decide), h,
    skipBlanks_cons (show isBlankByte 0x7d = false by decide)]

theorem readMembers_comma {fuel : Nat} {key : String} {bs more rest : Bytes} {value : Node}
    {members : List (Option String × Node)} (h : readValue fuel bs = .ok (value, 0x2c :: more))
    (hmore : readMembers fuel more = .ok (members, rest)) :
    readMembers (fuel + 1) (0x22 :: (textTail key ++ 0x3a :: bs)) =
      .ok ((some key, value) :: members, rest) := by
  rw [readMembers, skipBlanks_cons (by decide)]
  simp only [readText_textTail, skipBlanks_cons (show isBlankByte 0x3a = false by decide), h,
    skipBlanks_cons (show isBlankByte 0x2c = false by decide), hmore]
  rfl

/-! ## All levels -/

/-- The reader takes values, items and members back from their texts with this fuel. -/
structure ReadsBack (fuel : Nat) : Prop where
  /-- A value, whatever follows that cannot prolong a number. -/
  value : ∀ (j : Json) (rest : Bytes), j.isWhole = true → j.bytes.length ≤ fuel →
    EndsNumber rest → readValue fuel (j.bytes ++ rest) = .ok (j.node, rest)
  items : ∀ (j : Json) (js : List Json) (rest : Bytes), j.isWhole = true → areWhole js = true →
    j.bytes.length + (itemTail js).length ≤ fuel →
    readItems fuel (j.bytes ++ (itemTail js ++ rest)) = .ok (j.node :: nodes js, rest)
  members : ∀ (m : String × Json) (ms : List (String × Json)) (rest : Bytes),
    m.2.isWhole = true → membersAreWhole ms = true →
    (memberBytes m).length + (memberTail ms).length ≤ fuel →
    readMembers fuel (memberBytes m ++ (memberTail ms ++ rest)) =
      .ok ((some m.1, m.2.node) :: memberNodes ms, rest)

variable {fuel : Nat}

theorem ReadsBack.value_succ (ih : ReadsBack fuel) (j : Json) (rest : Bytes)
    (hw : j.isWhole = true) (hfuel : j.bytes.length ≤ fuel + 1) (hrest : EndsNumber rest) :
    readValue (fuel + 1) (j.bytes ++ rest) = .ok (j.node, rest) := by
  cases j with
  | null => rfl
  | bool b => cases b <;> rfl
  | number n =>
    rw [bytes_number]
    exact readValue_number (by simpa using hw) fuel hrest
  | text s =>
    rw [bytes_text]
    exact readValue_text fuel s rest
  | array js =>
    cases js with
    | nil => rfl
    | cons j js =>
      have hws : j.isWhole = true ∧ areWhole js = true := by simpa using hw
      rw [bytes_array_cons] at hfuel ⊢
      rw [List.length_cons, List.length_append] at hfuel
      have hitems := ih.items j js rest hws.1 hws.2 (by omega)
      obtain ⟨b, bs, hbs, hb⟩ := bytes_eq_cons hws.1
      rw [List.cons_append, List.append_assoc]
      rw [hbs, List.cons_append] at hitems ⊢
      exact readValue_array hb hitems
  | object ms =>
    cases ms with
    | nil => rfl
    | cons m ms =>
      have hws : m.2.isWhole = true ∧ membersAreWhole ms = true := by simpa using hw
      rw [bytes_object_cons] at hfuel ⊢
      rw [List.length_cons, List.length_append] at hfuel
      have hmembers := ih.members m ms rest hws.1 hws.2 (by omega)
      rw [List.cons_append, List.append_assoc]
      exact readValue_object hmembers

theorem ReadsBack.items_succ (ih : ReadsBack fuel) (j : Json) (js : List Json) (rest : Bytes)
    (hw : j.isWhole = true) (hws : areWhole js = true)
    (hfuel : j.bytes.length + (itemTail js).length ≤ fuel + 1) :
    readItems (fuel + 1) (j.bytes ++ (itemTail js ++ rest)) = .ok (j.node :: nodes js, rest) := by
  have hpos := length_bytes_pos hw
  have htail := length_itemTail_pos js
  have hitem := ih.value j (itemTail js ++ rest) hw (by omega) (endsNumber_itemTail js rest)
  cases js with
  | nil => exact readItems_last hitem
  | cons next js =>
    have hws' : next.isWhole = true ∧ areWhole js = true := by simpa using hws
    rw [itemTail, List.length_cons, List.length_append] at hfuel
    rw [itemTail, List.cons_append, List.append_assoc] at hitem ⊢
    exact readItems_comma hitem (ih.items next js rest hws'.1 hws'.2 (by omega))

theorem ReadsBack.members_succ (ih : ReadsBack fuel) (m : String × Json)
    (ms : List (String × Json)) (rest : Bytes) (hw : m.2.isWhole = true)
    (hws : membersAreWhole ms = true)
    (hfuel : (memberBytes m).length + (memberTail ms).length ≤ fuel + 1) :
    readMembers (fuel + 1) (memberBytes m ++ (memberTail ms ++ rest)) =
      .ok ((some m.1, m.2.node) :: memberNodes ms, rest) := by
  have htail := length_memberTail_pos ms
  have hlen : (memberBytes m).length = 2 + (textTail m.1).length + m.2.bytes.length := by
    simp [memberBytes]
    omega
  have hvalue := ih.value m.2 (memberTail ms ++ rest) hw (by omega) (endsNumber_memberTail ms rest)
  rw [memberBytes, List.cons_append, List.append_assoc, List.cons_append]
  cases ms with
  | nil => exact readMembers_last hvalue
  | cons next ms =>
    have hws' : next.2.isWhole = true ∧ membersAreWhole ms = true := by simpa using hws
    rw [memberTail, List.length_cons, List.length_append] at hfuel
    rw [memberTail, List.cons_append, List.append_assoc] at hvalue ⊢
    exact readMembers_comma hvalue (ih.members next ms rest hws'.1 hws'.2 (by omega))

theorem readsBack (fuel : Nat) : ReadsBack fuel := by
  induction fuel with
  | zero =>
    -- Without fuel there is no text left to read.
    constructor
    · intro j rest hw hfuel
      have := length_bytes_pos hw
      omega
    · intro j js rest hw hws hfuel
      have := length_bytes_pos hw
      omega
    · intro m ms rest hw hws hfuel
      have := length_memberTail_pos ms
      omega
  | succ fuel ih => exact ⟨ih.value_succ, ih.items_succ, ih.members_succ⟩

/-! ## Whole inputs -/

/-- The text of a value is read back. -/
theorem readNode_bytes {j : Json} (hw : j.isWhole = true) : readNode j.bytes = .ok j.node := by
  have hread := (readsBack (j.bytes.length + 1)).value j [] hw (by omega) endsNumber_nil
  rw [List.append_nil] at hread
  simp [readNode, hread, skipBlanks]

/-- What was written is decoded as it was found. -/
theorem decodeBytes_bytes {α : Type} {j : Json} (hw : j.isWhole = true) {decode : Decoder α} {a : α}
    (h : decode j.node = .ok a) : decodeBytes decode j.bytes = .ok a := by
  simp [decodeBytes, readNode_bytes hw, h]

end LedgerGateway.Json

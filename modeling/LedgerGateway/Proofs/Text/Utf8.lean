import LedgerGateway.Text.Utf8

/-!
# UTF-8: the bytes of a text spell it

Each character is cut off the front of its bytes as one piece, so that decoding is the inverse of
encoding: `decode_encode`, and `eq_encode_of_decode` for the bytes that can be decoded at all. The
three lemmas about `lead` say which second bytes the first byte admits; they are split by the width
that the first byte announces.
-/

namespace LedgerGateway.Text.Utf8

/-! ## First bytes -/

theorem beq_iff_toNat (a b : UInt8) : (a == b) = decide (a.toNat = b.toNat) := by
  rw [Bool.eq_iff_iff]
  simp [UInt8.toNat_inj]

theorem lead_of_two {a : UInt8} (hl : 0xc2 ≤ a.toNat) (hu : a.toNat < 0xe0) :
    lead a = some (2, 0x80, 0xbf) := by
  have h₁ : ¬ a < 0xc2 := by simp [UInt8.lt_iff_toNat_lt]; omega
  have h₂ : a < 0xe0 := by simp [UInt8.lt_iff_toNat_lt]; omega
  simp [lead, h₁, h₂]

theorem lead_of_three {a : UInt8} (hl : 0xe0 ≤ a.toNat) (hu : a.toNat < 0xf0) :
    lead a = some (3, if a.toNat = 0xe0 then 0xa0 else 0x80,
      if a.toNat = 0xed then 0x9f else 0xbf) := by
  have h₁ : ¬ a < 0xc2 := by simp [UInt8.lt_iff_toNat_lt]; omega
  have h₂ : ¬ a < 0xe0 := by simp [UInt8.lt_iff_toNat_lt]; omega
  have h₃ : a < 0xf0 := by simp [UInt8.lt_iff_toNat_lt]; omega
  have he : (a == 0xe0) = decide (a.toNat = 0xe0) := beq_iff_toNat a _
  have hd : (a == 0xed) = decide (a.toNat = 0xed) := beq_iff_toNat a _
  simp only [lead, h₁, h₂, h₃, he, hd, if_false, if_true]
  by_cases ce : a.toNat = 0xe0
  · simp [ce]
  · by_cases cd : a.toNat = 0xed <;> simp [ce, cd]

theorem lead_of_four {a : UInt8} (hl : 0xf0 ≤ a.toNat) (hu : a.toNat ≤ 0xf4) :
    lead a = some (4, if a.toNat = 0xf0 then 0x90 else 0x80,
      if a.toNat = 0xf4 then 0x8f else 0xbf) := by
  have h₁ : ¬ a < 0xc2 := by simp [UInt8.lt_iff_toNat_lt]; omega
  have h₂ : ¬ a < 0xe0 := by simp [UInt8.lt_iff_toNat_lt]; omega
  have h₃ : ¬ a < 0xf0 := by simp [UInt8.lt_iff_toNat_lt]; omega
  have h₄ : (a < 0xf4) = (a.toNat < 0xf4) := by simp [UInt8.lt_iff_toNat_lt]
  have he : (a == 0xe0) = false := by simp [← UInt8.toNat_inj]; omega
  have hd : (a == 0xed) = false := by simp [← UInt8.toNat_inj]; omega
  have hf : (a == 0xf0) = decide (a.toNat = 0xf0) := beq_iff_toNat a _
  have hg : (a == 0xf4) = decide (a.toNat = 0xf4) := beq_iff_toNat a _
  simp only [lead, h₁, h₂, h₃, h₄, he, hd, hf, hg, if_false]
  by_cases cf : a.toNat = 0xf0
  · simp [cf]
  · by_cases cg : a.toNat = 0xf4
    · simp [cg]
    · have h₅ : a.toNat < 0xf4 := by omega
      simp [cf, cg, h₅]

theorem isContinuation_of_toNat {b : UInt8} (hl : 0x80 ≤ b.toNat) (hu : b.toNat < 0xc0) :
    isContinuation b = true := by
  simp [isContinuation, UInt8.le_iff_toNat_le]
  omega

/-! ## Characters -/

/-- A byte below `0x80` is a character of its own. -/
theorem pieces_cons_of_lt {a : UInt8} (h : a.toNat < 0x80) (rest : List UInt8) :
    pieces (a :: rest) = .char (Char.ofNat a.toNat) :: pieces rest := by
  have h' : a < 0x80 := by simpa [UInt8.lt_iff_toNat_lt] using h
  rw [pieces, if_pos h']

theorem not_lt_of_toNat {a : UInt8} (h : 0x80 ≤ a.toNat) : ¬ a < 0x80 := by
  simp [UInt8.lt_iff_toNat_lt]
  omega

theorem pieces_two {a b : UInt8} (rest : List UInt8) (hl : 0xc2 ≤ a.toNat) (hu : a.toNat < 0xe0)
    (hb : 0x80 ≤ b.toNat ∧ b.toNat < 0xc0) :
    pieces (a :: b :: rest) =
      .char (Char.ofNat (a.toNat % 32 * 64 + b.toNat % 64)) :: pieces rest := by
  have hrange : ((0x80 : UInt8) ≤ b && b ≤ 0xbf) = true :=
    isContinuation_of_toNat hb.1 hb.2
  rw [pieces, if_neg (not_lt_of_toNat (by omega)), lead_of_two hl hu]
  simp [hrange, low6]

theorem pieces_three {a b c : UInt8} (rest : List UInt8) (hl : 0xe0 ≤ a.toNat)
    (hu : a.toNat < 0xf0) (hb : 0x80 ≤ b.toNat ∧ b.toNat < 0xc0)
    (hc : 0x80 ≤ c.toNat ∧ c.toNat < 0xc0) (he : a.toNat = 0xe0 → 0xa0 ≤ b.toNat)
    (hd : a.toNat = 0xed → b.toNat < 0xa0) :
    pieces (a :: b :: c :: rest) =
      .char (Char.ofNat (a.toNat % 16 * 4096 + b.toNat % 64 * 64 + c.toNat % 64)) ::
        pieces rest := by
  have hlo : (if a.toNat = 0xe0 then (0xa0 : UInt8) else 0x80) ≤ b := by
    split <;> simp [UInt8.le_iff_toNat_le] <;> omega
  have hhi : b ≤ (if a.toNat = 0xed then (0x9f : UInt8) else 0xbf) := by
    split <;> simp [UInt8.le_iff_toNat_le] <;> omega
  rw [pieces, if_neg (not_lt_of_toNat (by omega)), lead_of_three hl hu]
  simp [hlo, hhi, isContinuation_of_toNat hc.1 hc.2, low6]

theorem pieces_four {a b c d : UInt8} (rest : List UInt8) (hl : 0xf0 ≤ a.toNat)
    (hu : a.toNat ≤ 0xf4) (hb : 0x80 ≤ b.toNat ∧ b.toNat < 0xc0)
    (hc : 0x80 ≤ c.toNat ∧ c.toNat < 0xc0) (hd : 0x80 ≤ d.toNat ∧ d.toNat < 0xc0)
    (he : a.toNat = 0xf0 → 0x90 ≤ b.toNat) (hf : a.toNat = 0xf4 → b.toNat < 0x90) :
    pieces (a :: b :: c :: d :: rest) =
      .char (Char.ofNat (a.toNat % 8 * 262144 + b.toNat % 64 * 4096 + c.toNat % 64 * 64 +
        d.toNat % 64)) :: pieces rest := by
  have hlo : (if a.toNat = 0xf0 then (0x90 : UInt8) else 0x80) ≤ b := by
    split <;> simp [UInt8.le_iff_toNat_le] <;> omega
  have hhi : b ≤ (if a.toNat = 0xf4 then (0x8f : UInt8) else 0xbf) := by
    split <;> simp [UInt8.le_iff_toNat_le] <;> omega
  rw [pieces, if_neg (not_lt_of_toNat (by omega)), lead_of_four hl hu]
  simp [hlo, hhi, isContinuation_of_toNat hc.1 hc.2, isContinuation_of_toNat hd.1 hd.2, low6]

theorem toNat_ofNat_of_lt {n : Nat} (h : n < 256) : (UInt8.ofNat n).toNat = n := by
  simp
  omega

/-- The number of a character is below `0x110000` and names no half of a pair. -/
theorem toNat_range (c : Char) :
    c.toNat < 0x110000 ∧ (c.toNat < 0xd800 ∨ 0xdfff < c.toNat) := by
  have h := c.valid
  simp only [UInt32.isValidChar, Nat.isValidChar] at h
  have hval : c.val.toNat = c.toNat := rfl
  omega

/-- The bytes of a character are cut off the front as that character. -/
theorem pieces_utf8EncodeChar_append (c : Char) (rest : List UInt8) :
    pieces (String.utf8EncodeChar c ++ rest) = .char c :: pieces rest := by
  obtain ⟨hmax, hsurrogate⟩ := toNat_range c
  have hc : Char.ofNat c.toNat = c := Char.ofNat_toNat c
  simp only [String.utf8EncodeChar, show c.val.toNat = c.toNat from rfl]
  split
  · next h₁ =>
    have ha := toNat_ofNat_of_lt (n := c.toNat) (by omega)
    rw [List.singleton_append, pieces_cons_of_lt (by omega), ha, hc]
  split
  · next h₁ h₂ =>
    have ha := toNat_ofNat_of_lt (n := c.toNat / 64 % 0x20 + 0xc0) (by omega)
    have hb := toNat_ofNat_of_lt (n := c.toNat % 0x40 + 0x80) (by omega)
    simp only [List.cons_append, List.nil_append]
    rw [pieces_two rest (by omega) (by omega) (by omega), ha, hb]
    rw [show (c.toNat / 64 % 0x20 + 0xc0) % 32 * 64 + (c.toNat % 0x40 + 0x80) % 64 = c.toNat by
      omega, hc]
  split
  · next h₁ h₂ h₃ =>
    have ha := toNat_ofNat_of_lt (n := c.toNat / 4096 % 0x10 + 0xe0) (by omega)
    have hb := toNat_ofNat_of_lt (n := c.toNat / 64 % 0x40 + 0x80) (by omega)
    have hd := toNat_ofNat_of_lt (n := c.toNat % 0x40 + 0x80) (by omega)
    simp only [List.cons_append, List.nil_append]
    rw [pieces_three rest (by omega) (by omega) (by omega) (by omega) (by omega) (by omega),
      ha, hb, hd]
    rw [show (c.toNat / 4096 % 0x10 + 0xe0) % 16 * 4096 + (c.toNat / 64 % 0x40 + 0x80) % 64 * 64 +
      (c.toNat % 0x40 + 0x80) % 64 = c.toNat by omega, hc]
  · next h₁ h₂ h₃ =>
    have ha := toNat_ofNat_of_lt (n := c.toNat / 262144 % 0x08 + 0xf0) (by omega)
    have hb := toNat_ofNat_of_lt (n := c.toNat / 4096 % 0x40 + 0x80) (by omega)
    have hd := toNat_ofNat_of_lt (n := c.toNat / 64 % 0x40 + 0x80) (by omega)
    have he := toNat_ofNat_of_lt (n := c.toNat % 0x40 + 0x80) (by omega)
    simp only [List.cons_append, List.nil_append]
    rw [pieces_four rest (by omega) (by omega) (by omega) (by omega) (by omega) (by omega)
      (by omega), ha, hb, hd, he]
    rw [show (c.toNat / 262144 % 0x08 + 0xf0) % 8 * 262144 +
      (c.toNat / 4096 % 0x40 + 0x80) % 64 * 4096 + (c.toNat / 64 % 0x40 + 0x80) % 64 * 64 +
      (c.toNat % 0x40 + 0x80) % 64 = c.toNat by omega, hc]

/-! ## Bytes of a character -/

theorem utf8EncodeChar_of_lt {c : Char} (h : c.toNat < 0x80) :
    String.utf8EncodeChar c = [UInt8.ofNat c.toNat] := by
  simp only [String.utf8EncodeChar, show c.val.toNat = c.toNat from rfl]
  rw [if_pos (by omega)]

theorem toNat_of_mem_utf8EncodeChar {c : Char} (h : 0x80 ≤ c.toNat) :
    ∀ b ∈ String.utf8EncodeChar c, 0x80 ≤ b.toNat := by
  have hmax := (toNat_range c).1
  simp only [String.utf8EncodeChar, show c.val.toNat = c.toNat from rfl]
  rw [if_neg (by omega)]
  intro b hb
  split at hb
  · simp at hb
    rcases hb with rfl | rfl <;> simp <;> omega
  split at hb
  · simp at hb
    rcases hb with rfl | rfl | rfl <;> simp <;> omega
  · simp at hb
    rcases hb with rfl | rfl | rfl | rfl <;> simp <;> omega

/-! ## Texts -/

theorem pieces_flatMap_utf8EncodeChar (cs : List Char) :
    pieces (cs.flatMap String.utf8EncodeChar) = cs.map .char := by
  induction cs with
  | nil => rfl
  | cons c cs ih => rw [List.flatMap_cons, pieces_utf8EncodeChar_append, ih, List.map_cons]

theorem characters_map_char (cs : List Char) (index : Nat) :
    characters index (cs.map .char) = .ok cs := by
  induction cs generalizing index with
  | nil => rfl
  | cons c cs ih => rw [List.map_cons, characters, ih]; rfl

/-- The bytes of a text spell that text. -/
@[simp] theorem decode_encode (s : String) : decode (encode s) = .ok s := by
  rw [decode, encode, pieces_flatMap_utf8EncodeChar, characters_map_char]
  simp [Except.map]

/-- The bytes of a text have no faults to put a replacement for. -/
theorem encode_injective : Function.Injective encode := by
  intro s t h
  have hread : decode (encode s) = decode (encode t) := congrArg decode h
  rw [decode_encode, decode_encode] at hread
  exact Except.ok.inj hread

@[simp] theorem decodeLossy_encode (s : String) : decodeLossy (encode s) = s := by
  rw [decodeLossy, encode, pieces_flatMap_utf8EncodeChar, List.map_map]
  exact (congrArg String.ofList (List.map_id s.toList)).trans String.ofList_toList

/-! ## Only the bytes of a text spell it -/

theorem toNat_ofNat_of_valid {n : Nat} (h : n.isValidChar) : (Char.ofNat n).toNat = n := by
  rw [Char.ofNat, dif_pos h]
  rfl

theorem toNat_latin1 (b : UInt8) : (latin1 b).toNat = b.toNat := by
  have hb := b.toNat_lt
  exact toNat_ofNat_of_valid (.inl (by omega))

theorem latin1_ofNat {c : Char} (h : c.toNat < 0x80) : latin1 (UInt8.ofNat c.toNat) = c := by
  rw [latin1, toNat_ofNat_of_lt (by omega), Char.ofNat_toNat]

/-- What the first byte announces, by its range. -/
theorem lead_eq_some {a lo hi : UInt8} {width : Nat} (h : lead a = some (width, lo, hi)) :
    (width = 2 ∧ 0xc2 ≤ a.toNat ∧ a.toNat < 0xe0 ∧ lo.toNat = 0x80 ∧ hi.toNat = 0xbf) ∨
    (width = 3 ∧ 0xe0 ≤ a.toNat ∧ a.toNat < 0xf0 ∧ 0x80 ≤ lo.toNat ∧ hi.toNat < 0xc0 ∧
      (a.toNat = 0xe0 → 0xa0 ≤ lo.toNat) ∧ (a.toNat = 0xed → hi.toNat < 0xa0)) ∨
    (width = 4 ∧ 0xf0 ≤ a.toNat ∧ a.toNat ≤ 0xf4 ∧ 0x80 ≤ lo.toNat ∧ hi.toNat < 0xc0 ∧
      (a.toNat = 0xf0 → 0x90 ≤ lo.toNat) ∧ (a.toNat = 0xf4 → hi.toNat < 0x90)) := by
  by_cases h₂ : a.toNat < 0xc2
  · have hnone : lead a = none := by
      rw [lead, if_pos (by simpa [UInt8.lt_iff_toNat_lt] using h₂)]
    rw [hnone] at h
    cases h
  by_cases h₃ : a.toNat < 0xe0
  · rw [lead_of_two (by omega) h₃] at h
    cases h
    exact .inl ⟨rfl, by omega, h₃, rfl, rfl⟩
  by_cases h₄ : a.toNat < 0xf0
  · rw [lead_of_three (by omega) h₄] at h
    cases h
    refine .inr (.inl ⟨rfl, by omega, h₄, ?_, ?_, ?_, ?_⟩)
    · split <;> decide
    · split <;> decide
    · intro he
      rw [if_pos he]
      decide
    · intro hd
      rw [if_pos hd]
      decide
  by_cases h₅ : a.toNat ≤ 0xf4
  · rw [lead_of_four (by omega) h₅] at h
    cases h
    refine .inr (.inr ⟨rfl, by omega, h₅, ?_, ?_, ?_, ?_⟩)
    · split <;> decide
    · split <;> decide
    · intro he
      rw [if_pos he]
      decide
    · intro hf
      rw [if_pos hf]
      decide
  · have hnone : lead a = none := by
      have hne : ∀ b : UInt8, b.toNat ≤ 0xf4 → a ≠ b := by
        rintro b hb rfl
        exact h₅ hb
      have hlt : ∀ b : UInt8, b.toNat ≤ 0xf4 → ¬ a < b := by
        intro b hb
        simp [UInt8.lt_iff_toNat_lt]
        omega
      simp [lead, hne, hlt]
    rw [hnone] at h
    cases h

theorem toNat_of_isContinuation {b : UInt8} (h : isContinuation b = true) :
    0x80 ≤ b.toNat ∧ b.toNat < 0xc0 := by
  simp [isContinuation, UInt8.le_iff_toNat_le] at h
  omega

theorem ofNat_eq_of_toNat {n : Nat} {b : UInt8} (h : n = b.toNat) : UInt8.ofNat n = b := by
  rw [h, UInt8.ofNat_toNat]

theorem utf8EncodeChar_two {a b : UInt8} (hl : 0xc2 ≤ a.toNat) (hu : a.toNat < 0xe0)
    (hb : 0x80 ≤ b.toNat ∧ b.toNat < 0xc0) :
    String.utf8EncodeChar (Char.ofNat (a.toNat % 32 * 64 + b.toNat % 64)) = [a, b] := by
  have hval := toNat_ofNat_of_valid (n := a.toNat % 32 * 64 + b.toNat % 64)
    (.inl (by omega))
  simp only [String.utf8EncodeChar, Char.toNat_val]
  rw [hval, if_neg (by omega), if_pos (by omega), ofNat_eq_of_toNat (b := a) (by omega),
    ofNat_eq_of_toNat (b := b) (by omega)]

theorem utf8EncodeChar_three {a b c : UInt8} (hl : 0xe0 ≤ a.toNat) (hu : a.toNat < 0xf0)
    (hb : 0x80 ≤ b.toNat ∧ b.toNat < 0xc0) (hc : 0x80 ≤ c.toNat ∧ c.toNat < 0xc0)
    (he : a.toNat = 0xe0 → 0xa0 ≤ b.toNat) (hd : a.toNat = 0xed → b.toNat < 0xa0) :
    String.utf8EncodeChar (Char.ofNat (a.toNat % 16 * 4096 + b.toNat % 64 * 64 + c.toNat % 64)) =
      [a, b, c] := by
  have hval := toNat_ofNat_of_valid (n := a.toNat % 16 * 4096 + b.toNat % 64 * 64 + c.toNat % 64)
    (by simp only [Nat.isValidChar]; omega)
  simp only [String.utf8EncodeChar, Char.toNat_val]
  rw [hval, if_neg (by omega), if_neg (by omega), if_pos (by omega),
    ofNat_eq_of_toNat (b := a) (by omega), ofNat_eq_of_toNat (b := b) (by omega),
    ofNat_eq_of_toNat (b := c) (by omega)]

theorem utf8EncodeChar_four {a b c d : UInt8} (hl : 0xf0 ≤ a.toNat) (hu : a.toNat ≤ 0xf4)
    (hb : 0x80 ≤ b.toNat ∧ b.toNat < 0xc0) (hc : 0x80 ≤ c.toNat ∧ c.toNat < 0xc0)
    (hd : 0x80 ≤ d.toNat ∧ d.toNat < 0xc0) (he : a.toNat = 0xf0 → 0x90 ≤ b.toNat)
    (hf : a.toNat = 0xf4 → b.toNat < 0x90) :
    String.utf8EncodeChar (Char.ofNat (a.toNat % 8 * 262144 + b.toNat % 64 * 4096 +
      c.toNat % 64 * 64 + d.toNat % 64)) = [a, b, c, d] := by
  have hval := toNat_ofNat_of_valid (n := a.toNat % 8 * 262144 + b.toNat % 64 * 4096 +
    c.toNat % 64 * 64 + d.toNat % 64) (by simp only [Nat.isValidChar]; omega)
  simp only [String.utf8EncodeChar, Char.toNat_val]
  rw [hval, if_neg (by omega), if_neg (by omega), if_neg (by omega),
    ofNat_eq_of_toNat (b := a) (by omega), ofNat_eq_of_toNat (b := b) (by omega),
    ofNat_eq_of_toNat (b := c) (by omega), ofNat_eq_of_toNat (b := d) (by omega)]

/-! The reader takes one byte after another and stops at the width that the first one announces. -/

section Shapes

variable {a lo hi : UInt8} {c : Char} {tail : List UInt8} {ps : List Piece}

theorem shape_of_pieces_two (ha : ¬ a < 0x80) (hlead : lead a = some (2, lo, hi))
    (h : pieces (a :: tail) = .char c :: ps) :
    ∃ b rest, tail = b :: rest ∧ (lo.toNat ≤ b.toNat ∧ b.toNat ≤ hi.toNat) ∧
      Char.ofNat (a.toNat % 32 * 64 + b.toNat % 64) = c ∧ pieces rest = ps := by
  rw [pieces.eq_def] at h
  simp only [if_neg ha, hlead] at h
  match tail with
  | [] => cases h
  | b :: rest =>
    simp only at h
    split at h
    · cases h
    · rename_i hb
      cases h
      exact ⟨b, rest, rfl, by simpa [UInt8.le_iff_toNat_le] using hb, rfl, rfl⟩

theorem shape_of_pieces_three (ha : ¬ a < 0x80) (hlead : lead a = some (3, lo, hi))
    (h : pieces (a :: tail) = .char c :: ps) :
    ∃ b d rest, tail = b :: d :: rest ∧ (lo.toNat ≤ b.toNat ∧ b.toNat ≤ hi.toNat) ∧
      (0x80 ≤ d.toNat ∧ d.toNat < 0xc0) ∧
      Char.ofNat (a.toNat % 16 * 4096 + b.toNat % 64 * 64 + d.toNat % 64) = c ∧
      pieces rest = ps := by
  rw [pieces.eq_def] at h
  simp only [if_neg ha, hlead] at h
  match tail with
  | [] => cases h
  | [b] =>
    simp only at h
    split at h <;> cases h
  | b :: d :: rest =>
    simp only at h
    split at h
    · cases h
    rename_i hb
    rw [if_neg (by decide)] at h
    split at h
    · cases h
    · rename_i hd
      cases h
      exact ⟨b, d, rest, rfl, by simpa [UInt8.le_iff_toNat_le] using hb,
        toNat_of_isContinuation (by simpa using hd), rfl, rfl⟩

theorem shape_of_pieces_four (ha : ¬ a < 0x80) (hlead : lead a = some (4, lo, hi))
    (h : pieces (a :: tail) = .char c :: ps) :
    ∃ b d e rest, tail = b :: d :: e :: rest ∧ (lo.toNat ≤ b.toNat ∧ b.toNat ≤ hi.toNat) ∧
      (0x80 ≤ d.toNat ∧ d.toNat < 0xc0) ∧ (0x80 ≤ e.toNat ∧ e.toNat < 0xc0) ∧
      Char.ofNat (a.toNat % 8 * 262144 + b.toNat % 64 * 4096 + d.toNat % 64 * 64 +
        e.toNat % 64) = c ∧ pieces rest = ps := by
  rw [pieces.eq_def] at h
  simp only [if_neg ha, hlead] at h
  match tail with
  | [] => cases h
  | [b] =>
    simp only at h
    split at h <;> cases h
  | [b, d] =>
    simp only at h
    split at h
    · cases h
    rw [if_neg (by decide)] at h
    split at h <;> cases h
  | b :: d :: e :: rest =>
    simp only at h
    split at h
    · cases h
    rename_i hb
    rw [if_neg (by decide)] at h
    split at h
    · cases h
    rename_i hd
    rw [if_neg (by decide)] at h
    split at h
    · cases h
    · rename_i he
      cases h
      exact ⟨b, d, e, rest, rfl, by simpa [UInt8.le_iff_toNat_le] using hb,
        toNat_of_isContinuation (by simpa using hd), toNat_of_isContinuation (by simpa using he),
        rfl, rfl⟩

end Shapes

/-- A character that is cut off the front stands there in its bytes. -/
theorem eq_append_of_pieces {bytes : List UInt8} {c : Char} {ps : List Piece}
    (h : pieces bytes = .char c :: ps) :
    ∃ rest, bytes = String.utf8EncodeChar c ++ rest ∧ ps = pieces rest := by
  cases bytes with
  | nil =>
    rw [pieces] at h
    cases h
  | cons a tail =>
    by_cases ha : a.toNat < 0x80
    · rw [pieces_cons_of_lt ha] at h
      cases h
      have hval := toNat_ofNat_of_valid (n := a.toNat) (.inl (by omega))
      rw [utf8EncodeChar_of_lt (by omega), hval, UInt8.ofNat_toNat]
      exact ⟨tail, rfl, rfl⟩
    have hsmall : ¬ a < 0x80 := not_lt_of_toNat (by omega)
    cases hlead : lead a with
    | none =>
      rw [pieces.eq_def] at h
      simp [if_neg hsmall, hlead] at h
    | some announced =>
      obtain ⟨width, lo, hi⟩ := announced
      rcases lead_eq_some hlead with ⟨rfl, hl, hu, hlo, hhi⟩ | ⟨rfl, hl, hu, hlo, hhi, hlow, hhigh⟩ |
        ⟨rfl, hl, hu, hlo, hhi, hlow, hhigh⟩
      · obtain ⟨b, rest, rfl, hb, rfl, rfl⟩ := shape_of_pieces_two hsmall hlead h
        refine ⟨rest, ?_, rfl⟩
        rw [utf8EncodeChar_two hl hu (by omega)]
        rfl
      · obtain ⟨b, d, rest, rfl, hb, hd, rfl, rfl⟩ := shape_of_pieces_three hsmall hlead h
        refine ⟨rest, ?_, rfl⟩
        rw [utf8EncodeChar_three hl hu (by omega) hd (by omega) (by omega)]
        rfl
      · obtain ⟨b, d, e, rest, rfl, hb, hd, he, rfl, rfl⟩ := shape_of_pieces_four hsmall hlead h
        refine ⟨rest, ?_, rfl⟩
        rw [utf8EncodeChar_four hl hu (by omega) hd he (by omega) (by omega)]
        rfl

theorem eq_nil_of_pieces {bytes : List UInt8} (h : pieces bytes = []) : bytes = [] := by
  match bytes with
  | [] => rfl
  | a :: r₁ =>
    rw [pieces.eq_def] at h
    simp only at h
    repeat' split at h
    all_goals cases h

theorem eq_map_char_of_characters {index : Nat} {ps : List Piece} {cs : List Char}
    (h : characters index ps = .ok cs) : ps = cs.map .char := by
  induction ps generalizing index cs with
  | nil =>
    cases h
    rfl
  | cons p ps ih =>
    cases p with
    | char c =>
      rw [characters] at h
      match hrest : characters (index + c.utf8Size) ps with
      | .ok cs' =>
        rw [hrest] at h
        cases h
        rw [ih hrest, List.map_cons]
      | .error e =>
        rw [hrest] at h
        cases h
    | broken width => cases h
    | cut => cases h

theorem eq_flatMap_of_pieces {bytes : List UInt8} {cs : List Char}
    (h : pieces bytes = cs.map .char) : bytes = cs.flatMap String.utf8EncodeChar := by
  induction cs generalizing bytes with
  | nil => exact eq_nil_of_pieces h
  | cons c cs ih =>
    obtain ⟨rest, rfl, hrest⟩ := eq_append_of_pieces h
    rw [List.flatMap_cons, ← ih hrest.symm]

/-- Bytes that spell a text are the bytes of that text. -/
theorem eq_encode_of_decode {bytes : List UInt8} {s : String} (h : decode bytes = .ok s) :
    bytes = encode s := by
  unfold decode at h
  match hcs : characters 0 (pieces bytes) with
  | .ok cs =>
    rw [hcs] at h
    cases h
    rw [encode, String.toList_ofList]
    exact eq_flatMap_of_pieces (eq_map_char_of_characters hcs)
  | .error e =>
    rw [hcs] at h
    cases h

end LedgerGateway.Text.Utf8

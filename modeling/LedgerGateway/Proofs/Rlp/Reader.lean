import LedgerGateway.Proofs.Bytes.BigEndian
import LedgerGateway.Proofs.Except
import LedgerGateway.Rlp.Reader

/-!
# Byte strings and numbers have one spelling

What was written is read back, with whatever follows it left over: `readBytes_encodeBytes`,
`readWord_encodeNat` and `readUInt64_encodeNat`. Conversely `eq_encodeBytes_of_readBytes`,
`eq_encodeNat_of_readWord` and `eq_encodeNat_of_readUInt64` say that nothing else is read. Both
directions go over the five ranges of the first byte, for each of which one lemma says what the
reader does. A length must fit into eight bytes to be written at all.
-/

namespace LedgerGateway.Rlp

/-! ## Headers -/

namespace Header

theorem within_eq_ok {h h' : Header} {rest rest' : Bytes} :
    h.within rest = .ok (h', rest') ↔ h.length ≤ rest.length ∧ h' = h ∧ rest' = rest := by
  unfold within
  by_cases hlt : rest.length < h.length
  · rw [if_pos hlt]
    constructor
    · intro heq
      cases heq
    · rintro ⟨hle, -⟩
      omega
  · rw [if_neg hlt, Except.ok.injEq, Prod.mk.injEq]
    constructor
    · rintro ⟨rfl, rfl⟩
      exact ⟨by omega, rfl, rfl⟩
    · rintro ⟨-, rfl, rfl⟩
      exact ⟨rfl, rfl⟩

theorem within_of_le {h : Header} {rest : Bytes} (hle : h.length ≤ rest.length) :
    h.within rest = .ok (h, rest) := within_eq_ok.mpr ⟨hle, rfl, rfl⟩

end Header

section Tags

variable {b : UInt8} (rest : Bytes)

/-- The ranges of the first byte, the mark of a single byte apart. -/
theorem readHeader_cons (hne : b.toNat ≠ 0x81) :
    readHeader (b :: rest) =
      if b.toNat < 0x80 then Header.within ⟨false, 1⟩ (b :: rest)
      else if b.toNat ≤ 0xb7 then Header.within ⟨false, b.toNat - 0x80⟩ rest
      else if b.toNat ≤ 0xbf then readLongHeader false (b.toNat - 0xb7) rest
      else if b.toNat ≤ 0xf7 then Header.within ⟨true, b.toNat - 0xc0⟩ rest
      else readLongHeader true (b.toNat - 0xf7) rest := by
  have hne' : b ≠ 0x81 := fun heq => hne (by rw [heq]; rfl)
  rw [readHeader.eq_def]
  simp only [UInt8.lt_iff_toNat_lt, UInt8.le_iff_toNat_le, if_neg hne']
  rfl

theorem readHeader_single (h : b.toNat < 0x80) :
    readHeader (b :: rest) = Header.within ⟨false, 1⟩ (b :: rest) := by
  rw [readHeader_cons rest (by omega), if_pos h]

theorem readHeader_marked {x : UInt8} (h : 0x80 ≤ x.toNat) :
    readHeader (0x81 :: x :: rest) = Header.within ⟨false, 1⟩ (x :: rest) := by
  have h₁ : ¬ x < 0x80 := by
    simp [UInt8.lt_iff_toNat_lt]
    omega
  simp [readHeader, h₁]

theorem readHeader_string (hl : 0x80 ≤ b.toNat) (hu : b.toNat ≤ 0xb7) (hne : b.toNat ≠ 0x81) :
    readHeader (b :: rest) = Header.within ⟨false, b.toNat - 0x80⟩ rest := by
  rw [readHeader_cons rest hne, if_neg (by omega), if_pos hu]

theorem readHeader_longString (hl : 0xb8 ≤ b.toNat) (hu : b.toNat ≤ 0xbf) :
    readHeader (b :: rest) = readLongHeader false (b.toNat - 0xb7) rest := by
  rw [readHeader_cons rest (by omega), if_neg (by omega), if_neg (by omega), if_pos hu]

theorem readHeader_list (hl : 0xc0 ≤ b.toNat) (hu : b.toNat ≤ 0xf7) :
    readHeader (b :: rest) = Header.within ⟨true, b.toNat - 0xc0⟩ rest := by
  rw [readHeader_cons rest (by omega), if_neg (by omega), if_neg (by omega), if_neg (by omega),
    if_pos hu]

theorem readHeader_longList (hl : 0xf8 ≤ b.toNat) :
    readHeader (b :: rest) = readLongHeader true (b.toNat - 0xf7) rest := by
  rw [readHeader_cons rest (by omega), if_neg (by omega), if_neg (by omega), if_neg (by omega),
    if_neg (by omega)]

end Tags

/-! ## Written headers -/

def emptyTag (isList : Bool) : UInt8 := if isList then 0xc0 else 0x80

theorem toNat_emptyTag (isList : Bool) :
    (emptyTag isList).toNat = if isList then 0xc0 else 0x80 := by
  cases isList <;> rfl

theorem toNat_add_ofNat {tag : UInt8} {n : Nat} (h : tag.toNat + n < 256) :
    (tag + UInt8.ofNat n).toNat = tag.toNat + n := by
  rw [UInt8.toNat_add, UInt8.toNat_ofNat']
  omega

theorem toNat_longTag (isList : Bool) {count : Nat} (h : count ≤ 8) :
    (emptyTag isList + 55 + UInt8.ofNat count).toNat = (emptyTag isList).toNat + 55 + count := by
  have htag := toNat_emptyTag isList
  have hbase : (emptyTag isList + 55).toNat = (emptyTag isList).toNat + 55 :=
    toNat_add_ofNat (n := 55) (by rw [htag]; split <;> omega)
  rw [toNat_add_ofNat (by rw [hbase, htag]; split <;> omega), hbase]

theorem length_headerBytes_pos (tag : UInt8) (n : Nat) : 0 < (headerBytes tag n).length := by
  unfold headerBytes
  split <;> simp

/-- The length bytes of a long payload are at most eight, as the length is a 64-bit number. -/
theorem length_ofNat_le_eight {n : Nat} (h : n < UInt64.size) : (Bytes.ofNat n).length ≤ 8 :=
  Bytes.length_ofNat_le (by simpa [UInt64.size] using h)

theorem readLongHeader_ofNat (isList : Bool) {n : Nat} (h : 56 ≤ n) (rest : Bytes) :
    readLongHeader isList (Bytes.ofNat n).length (Bytes.ofNat n ++ rest) =
      Header.within ⟨isList, n⟩ rest := by
  have hlen : ¬ (Bytes.ofNat n ++ rest).length < (Bytes.ofNat n).length := by
    rw [List.length_append]
    omega
  rw [readLongHeader, if_neg hlen]
  simp only [List.take_left, List.drop_left, Bytes.toNat_ofNat]
  rw [if_neg (Bytes.head?_ofNat n), if_neg (by omega)]

/-- A written header is read back. That of a string of one byte is left out here, because the reader
looks at that byte. -/
theorem readHeader_headerBytes (isList : Bool) {n : Nat} (hsize : n < UInt64.size)
    (hn : isList = false → n ≠ 1) (rest : Bytes) :
    readHeader (headerBytes (emptyTag isList) n ++ rest) = Header.within ⟨isList, n⟩ rest := by
  have htag := toNat_emptyTag isList
  by_cases hshort : n < 56
  · rw [headerBytes, if_pos hshort, List.singleton_append]
    have hval : (emptyTag isList + UInt8.ofNat n).toNat = (emptyTag isList).toNat + n :=
      toNat_add_ofNat (by rw [htag]; split <;> omega)
    cases isList with
    | false =>
      have hne := hn rfl
      simp only [Bool.false_eq_true, if_false] at htag
      rw [readHeader_string _ (by omega) (by omega) (by omega), hval, htag, Nat.add_sub_cancel_left]
    | true =>
      simp only [if_true] at htag
      rw [readHeader_list _ (by omega) (by omega), hval, htag, Nat.add_sub_cancel_left]
  · rw [headerBytes, if_neg hshort, List.cons_append]
    have hcount := length_ofNat_le_eight hsize
    have hpos : 0 < (Bytes.ofNat n).length := Bytes.length_ofNat_pos (by omega)
    have hval := toNat_longTag isList hcount
    cases isList with
    | false =>
      simp only [Bool.false_eq_true, if_false] at htag
      rw [readHeader_longString _ (by omega) (by omega), hval, htag, Nat.add_sub_cancel_left,
        readLongHeader_ofNat false (by omega)]
    | true =>
      simp only [if_true] at htag
      rw [readHeader_longList _ (by omega), hval, htag, Nat.add_sub_cancel_left,
        readLongHeader_ofNat true (by omega)]

/-! ## Written byte strings -/

theorem encodeBytes_of_length_ne_one {b : Bytes} (h : b.length ≠ 1) :
    encodeBytes b = headerBytes 0x80 b.length ++ b := by
  unfold encodeBytes
  split
  · exact absurd rfl h
  · rfl

theorem encodeBytes_singleton_of_lt {x : UInt8} (h : x.toNat < 0x80) : encodeBytes [x] = [x] := by
  have hx : x < 0x80 := by simpa [UInt8.lt_iff_toNat_lt] using h
  rw [encodeBytes, if_pos hx]

theorem encodeBytes_singleton_of_le {x : UInt8} (h : 0x80 ≤ x.toNat) :
    encodeBytes [x] = [0x81, x] := by
  have hx : ¬ x < 0x80 := by
    simp [UInt8.lt_iff_toNat_lt]
    omega
  rw [encodeBytes, if_neg hx]
  rfl

theorem length_encodeBytes (b : Bytes) : b.length ≤ (encodeBytes b).length := by
  by_cases hone : b.length = 1
  · obtain ⟨x, rfl⟩ := List.length_eq_one_iff.mp hone
    by_cases hx : x.toNat < 0x80
    · simp [encodeBytes_singleton_of_lt hx]
    · simp [encodeBytes_singleton_of_le (show 0x80 ≤ x.toNat by omega)]
  · rw [encodeBytes_of_length_ne_one hone, List.length_append]
    omega

theorem length_encodeBytes_pos (b : Bytes) : 0 < (encodeBytes b).length := by
  cases b with
  | nil => decide
  | cons x b =>
    have hlen := length_encodeBytes (x :: b)
    rw [List.length_cons] at hlen
    omega

/-- The header of a byte string that was written. -/
theorem readHeader_encodeBytes {b : Bytes} (h : b.length < UInt64.size) (rest : Bytes) :
    readHeader (encodeBytes b ++ rest) = .ok (⟨false, b.length⟩, b ++ rest) := by
  have hle : b.length ≤ (b ++ rest).length := by
    rw [List.length_append]
    omega
  by_cases hone : b.length = 1
  · obtain ⟨x, rfl⟩ := List.length_eq_one_iff.mp hone
    by_cases hx : x.toNat < 0x80
    · rw [encodeBytes_singleton_of_lt hx, List.singleton_append, readHeader_single _ hx]
      exact Header.within_of_le hle
    · rw [encodeBytes_singleton_of_le (by omega), List.cons_append, List.singleton_append,
        readHeader_marked _ (by omega)]
      exact Header.within_of_le hle
  · rw [encodeBytes_of_length_ne_one hone, List.append_assoc]
    have hread := readHeader_headerBytes false h (fun _ => hone) (b ++ rest)
    rw [Header.within_of_le hle] at hread
    exact hread

/-- A byte string that was written is read back, and what follows it is left over. -/
theorem readBytes_encodeBytes {b : Bytes} (h : b.length < UInt64.size) (rest : Bytes) :
    readBytes (encodeBytes b ++ rest) = .ok (b, rest) := by
  rw [readBytes, readHeader_encodeBytes h]
  simp [bind, Except.bind]

/-! ## Written numbers -/

theorem readBytes_encodeNat {n : Nat} (h : n < 256 ^ 32) (rest : Bytes) :
    readBytes (encodeNat n ++ rest) = .ok (Bytes.ofNat n, rest) := by
  have hlen : (Bytes.ofNat n).length ≤ 32 := Bytes.length_ofNat_le h
  have hsize : (Bytes.ofNat n).length < UInt64.size := Nat.lt_of_le_of_lt hlen (by decide)
  exact readBytes_encodeBytes hsize rest

theorem lt_of_word (w : Word) : w.toNat < 256 ^ 32 := by
  have h := w.isLt
  rwa [show (2 : Nat) ^ 256 = 256 ^ 32 by decide] at h

theorem lt_of_uint64 (v : UInt64) : v.toNat < 256 ^ 8 := by
  simpa using v.toNat_lt

/-- A number of 256 bits is read back. -/
theorem readWord_encodeNat (w : Word) (rest : Bytes) :
    readWord (encodeNat w.toNat ++ rest) = .ok (w, rest) := by
  have hlen : (Bytes.ofNat w.toNat).length ≤ 32 := Bytes.length_ofNat_le (lt_of_word w)
  have hval : Word.ofBytes (Bytes.ofNat w.toNat) = w := by
    rw [Word.ofBytes, Bytes.toNat_ofNat, BitVec.ofNat_toNat, BitVec.setWidth_eq]
  rw [readWord, readBytes_encodeNat (lt_of_word w)]
  simp only [bind, Except.bind]
  rw [if_neg (Bytes.head?_ofNat _), if_neg (by omega), hval]

/-- A number of 64 bits is read back. -/
theorem readUInt64_encodeNat (v : UInt64) (rest : Bytes) :
    readUInt64 (encodeNat v.toNat ++ rest) = .ok (v, rest) := by
  have hlen : (Bytes.ofNat v.toNat).length ≤ 8 := Bytes.length_ofNat_le (lt_of_uint64 v)
  have hwide : v.toNat < 256 ^ 32 :=
    Nat.lt_of_lt_of_le (lt_of_uint64 v) (Nat.pow_le_pow_right (by decide) (by decide))
  rw [readUInt64, readBytes_encodeNat hwide]
  simp only [bind, Except.bind]
  rw [if_neg (by omega), if_neg (Bytes.head?_ofNat _), Bytes.toNat_ofNat]
  simp

/-- A number of 64 bits ends where what follows it begins. -/
theorem encodeNat_append_inj {v v' : UInt64} {rest rest' : Bytes}
    (h : encodeNat v.toNat ++ rest = encodeNat v'.toNat ++ rest') : v = v' ∧ rest = rest' := by
  have hread := readUInt64_encodeNat v rest
  rw [h, readUInt64_encodeNat, Except.ok.injEq, Prod.mk.injEq] at hread
  exact ⟨hread.1.symm, hread.2.symm⟩

/-! ## Only what was written is read -/

theorem headerBytes_of_short (tag : UInt8) {b : UInt8} (hl : tag.toNat ≤ b.toNat)
    (hu : b.toNat < tag.toNat + 56) : headerBytes tag (b.toNat - tag.toNat) = [b] := by
  have hb := b.toNat_lt
  have hval : (tag + UInt8.ofNat (b.toNat - tag.toNat)).toNat = b.toNat := by
    rw [toNat_add_ofNat (by omega)]
    omega
  rw [headerBytes, if_pos (by omega), UInt8.toNat_inj.mp hval]

theorem headerBytes_of_long (isList : Bool) {b : UInt8} {n : Nat} (h : 56 ≤ n)
    (hl : (emptyTag isList).toNat + 55 ≤ b.toNat) (hu : b.toNat ≤ (emptyTag isList).toNat + 63)
    (hcount : (Bytes.ofNat n).length = b.toNat - ((emptyTag isList).toNat + 55)) :
    headerBytes (emptyTag isList) n = b :: Bytes.ofNat n := by
  have hval : (emptyTag isList + 55 + UInt8.ofNat (Bytes.ofNat n).length).toNat = b.toNat := by
    rw [toNat_longTag isList (by omega)]
    omega
  have hb := UInt8.toNat_inj.mp hval
  rw [headerBytes, if_neg (by omega)]
  simp only [hb]

theorem eq_ofNat_of_readLongHeader {isList : Bool} {count : Nat} {input rest : Bytes} {h : Header}
    (hread : readLongHeader isList count input = .ok (h, rest)) :
    h.isList = isList ∧ h.length ≤ rest.length ∧ 56 ≤ h.length ∧
      (Bytes.ofNat h.length).length = count ∧ input = Bytes.ofNat h.length ++ rest := by
  unfold readLongHeader at hread
  split at hread
  · cases hread
  · rename_i hlen
    simp only at hread
    split at hread
    · cases hread
    · rename_i hhead
      split at hread
      · cases hread
      · rename_i hlarge
        obtain ⟨hle, rfl, rfl⟩ := Header.within_eq_ok.mp hread
        have hdigits : Bytes.ofNat (Bytes.toNat (input.take count)) = input.take count :=
          Bytes.ofNat_toNat hhead
        refine ⟨rfl, hle, Nat.le_of_not_lt hlarge, ?_, ?_⟩
        · rw [hdigits, List.length_take]
          omega
        · rw [hdigits, List.take_append_drop]

/-- The input starts with the header; in front of a byte string of one byte it may be left out. -/
def Header.Spelled (h : Header) (input rest : Bytes) : Prop :=
  h.length ≤ rest.length ∧
    (h.isList = true → input = headerBytes 0xc0 h.length ++ rest) ∧
    (h.isList = false → input = encodeBytes (rest.take h.length) ++ rest.drop h.length)

theorem Header.spelled_single {x : UInt8} {tail input : Bytes} (h : input = encodeBytes [x] ++ tail) :
    Header.Spelled ⟨false, 1⟩ input (x :: tail) :=
  ⟨by simp, by simp, fun _ => by simpa using h⟩

theorem Header.spelled_headerBytes {isList : Bool} {n : Nat} {rest : Bytes}
    (hn : isList = false → n ≠ 1) (hle : n ≤ rest.length) :
    Header.Spelled ⟨isList, n⟩ (headerBytes (emptyTag isList) n ++ rest) rest := by
  cases isList with
  | true => exact ⟨hle, fun _ => rfl, by simp⟩
  | false =>
    have hlen : (rest.take n).length = n := by
      rw [List.length_take]
      exact Nat.min_eq_left hle
    have hone : (rest.take n).length ≠ 1 := by
      rw [hlen]
      exact hn rfl
    refine ⟨hle, by simp, fun _ => ?_⟩
    change headerBytes 0x80 n ++ rest = encodeBytes (rest.take n) ++ rest.drop n
    rw [encodeBytes_of_length_ne_one hone, hlen, List.append_assoc, List.take_append_drop]

theorem Header.spelled_short (isList : Bool) {b : UInt8} {rest : Bytes}
    (hl : (emptyTag isList).toNat ≤ b.toNat) (hu : b.toNat < (emptyTag isList).toNat + 56)
    (hn : isList = false → b.toNat - (emptyTag isList).toNat ≠ 1)
    (hle : b.toNat - (emptyTag isList).toNat ≤ rest.length) :
    Header.Spelled ⟨isList, b.toNat - (emptyTag isList).toNat⟩ (b :: rest) rest := by
  have hspelled := spelled_headerBytes hn hle
  rwa [headerBytes_of_short _ hl hu, List.singleton_append] at hspelled

theorem Header.spelled_long {isList : Bool} {b : UInt8} {h : Header} {input rest : Bytes}
    (hl : (emptyTag isList).toNat + 56 ≤ b.toNat) (hu : b.toNat ≤ (emptyTag isList).toNat + 63)
    (hread : readLongHeader isList (b.toNat - ((emptyTag isList).toNat + 55)) input =
      .ok (h, rest)) :
    h.Spelled (b :: input) rest := by
  obtain ⟨rfl, hle, hlarge, hcount, rfl⟩ := eq_ofNat_of_readLongHeader hread
  have hspelled := spelled_headerBytes (fun _ => by omega : h.isList = false → h.length ≠ 1) hle
  rwa [headerBytes_of_long _ hlarge (by omega) hu hcount, List.cons_append] at hspelled

/-- A header is read from its own spelling only. -/
theorem spelled_of_readHeader {input rest : Bytes} {h : Header}
    (hread : readHeader input = .ok (h, rest)) : h.Spelled input rest := by
  cases input with
  | nil => cases hread
  | cons b tail =>
    have hb := b.toNat_lt
    by_cases hsingle : b.toNat < 0x80
    · rw [readHeader_single _ hsingle] at hread
      obtain ⟨-, rfl, rfl⟩ := Header.within_eq_ok.mp hread
      exact Header.spelled_single
        (by rw [encodeBytes_singleton_of_lt hsingle, List.singleton_append])
    by_cases hmarked : b.toNat = 0x81
    · obtain rfl : b = 0x81 := UInt8.toNat_inj.mp hmarked
      cases tail with
      | nil => cases hread
      | cons x tail =>
        by_cases hx : x.toNat < 0x80
        · have hx' : x < 0x80 := by simpa [UInt8.lt_iff_toNat_lt] using hx
          simp [readHeader, hx'] at hread
        · rw [readHeader_marked _ (by omega)] at hread
          obtain ⟨-, rfl, rfl⟩ := Header.within_eq_ok.mp hread
          exact Header.spelled_single (by rw [encodeBytes_singleton_of_le (by omega)]; rfl)
    have hstringTag := toNat_emptyTag false
    have hlistTag := toNat_emptyTag true
    simp only [if_true, Bool.false_eq_true, if_false] at hstringTag hlistTag
    by_cases hstring : b.toNat ≤ 0xb7
    · rw [readHeader_string _ (by omega) hstring hmarked] at hread
      obtain ⟨hle, rfl, rfl⟩ := Header.within_eq_ok.mp hread
      exact Header.spelled_short false (by omega) (by omega) (by omega) hle
    by_cases hlong : b.toNat ≤ 0xbf
    · rw [readHeader_longString _ (by omega) hlong] at hread
      exact Header.spelled_long (by omega) (by omega) hread
    by_cases hlist : b.toNat ≤ 0xf7
    · rw [readHeader_list _ (by omega) hlist] at hread
      obtain ⟨hle, rfl, rfl⟩ := Header.within_eq_ok.mp hread
      exact Header.spelled_short true (by omega) (by omega) (by simp) hle
    · rw [readHeader_longList _ (by omega)] at hread
      exact Header.spelled_long (by omega) (by omega) hread

/-- A byte string is read from its own spelling only. -/
theorem eq_encodeBytes_of_readBytes {input b rest : Bytes}
    (h : readBytes input = .ok (b, rest)) : input = encodeBytes b ++ rest := by
  obtain ⟨⟨header, tail⟩, hread, hkind⟩ := except_bind_eq_ok.mp h
  obtain ⟨-, -, hinput⟩ := spelled_of_readHeader hread
  simp only at hkind
  split at hkind
  · cases hkind
  · rename_i hstring
    rw [Except.ok.injEq, Prod.mk.injEq] at hkind
    obtain ⟨rfl, rfl⟩ := hkind
    exact hinput (by simpa using hstring)

/-- A number of 256 bits is read from its own spelling only. -/
theorem eq_encodeNat_of_readWord {input rest : Bytes} {w : Word}
    (h : readWord input = .ok (w, rest)) : input = encodeNat w.toNat ++ rest := by
  obtain ⟨⟨digits, tail⟩, hread, hdigits⟩ := except_bind_eq_ok.mp h
  simp only at hdigits
  split at hdigits
  · cases hdigits
  rename_i hhead
  split at hdigits
  · cases hdigits
  rename_i hwidth
  cases hdigits
  have hlt : Bytes.toNat digits < 2 ^ 256 := by
    have hbytes := Bytes.toNat_lt_of_length_le (Nat.le_of_not_lt hwidth)
    rwa [show (256 : Nat) ^ 32 = 2 ^ 256 by decide] at hbytes
  have hval : (Word.ofBytes digits).toNat = Bytes.toNat digits := by
    rw [Word.ofBytes, BitVec.toNat_ofNat, Nat.mod_eq_of_lt hlt]
  rw [hval, encodeNat, Bytes.ofNat_toNat hhead]
  exact eq_encodeBytes_of_readBytes hread

/-- A number of 64 bits is read from its own spelling only. -/
theorem eq_encodeNat_of_readUInt64 {input rest : Bytes} {v : UInt64}
    (h : readUInt64 input = .ok (v, rest)) : input = encodeNat v.toNat ++ rest := by
  obtain ⟨⟨digits, tail⟩, hread, hdigits⟩ := except_bind_eq_ok.mp h
  simp only at hdigits
  split at hdigits
  · cases hdigits
  rename_i hwidth
  split at hdigits
  · cases hdigits
  rename_i hhead
  cases hdigits
  have hlt : Bytes.toNat digits < UInt64.size := by
    have hbytes := Bytes.toNat_lt_of_length_le (Nat.le_of_not_lt hwidth)
    rwa [show (256 : Nat) ^ 8 = UInt64.size by decide] at hbytes
  rw [Nat.toUInt64_eq, UInt64.toNat_ofNat_of_lt' hlt, encodeNat, Bytes.ofNat_toNat hhead]
  exact eq_encodeBytes_of_readBytes hread

end LedgerGateway.Rlp

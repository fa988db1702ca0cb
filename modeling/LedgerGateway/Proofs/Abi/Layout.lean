import LedgerGateway.Abi.Decoding
import LedgerGateway.Abi.Encoding
import LedgerGateway.Proofs.Bytes.BigEndian

/-!
# The two rows of a list

Words and byte strings are read back from the front of what was laid out. The first row of a list has
the length that offsets count on, so the second row stands where the first offset leads.
-/

namespace LedgerGateway

/-! ## Words -/

namespace Bytes

theorem length_padRight {width : Nat} {bytes : Bytes} (h : bytes.length ≤ width) :
    (padRight width bytes).length = width := by
  simp [padRight]
  omega

theorem length_padLeft {width : Nat} {bytes : Bytes} (h : bytes.length ≤ width) :
    (padLeft width bytes).length = width := by
  simp [padLeft]
  omega

/-- Zeros in front do not change a number. -/
theorem toNat_padLeft (width : Nat) (bytes : Bytes) :
    toNat (padLeft width bytes) = toNat bytes := by
  have hzeros : ∀ k, (List.replicate k (0 : UInt8)).foldl (fun n b => n * 256 + b.toNat) 0 = 0 := by
    intro k
    induction k with
    | zero => rfl
    | succ k ih => simpa [List.replicate_succ] using ih
  rw [padLeft, toNat, List.foldl_append, hzeros, toNat]

theorem fixed_toNat (bytes : Bytes) : fixed bytes.length (toNat bytes) = bytes := by
  induction bytes using List.reverseRecOn with
  | nil => rfl
  | append_singleton bytes b ih =>
    have hb := b.toNat_lt
    have hfront : (toNat bytes * 256 + b.toNat) / 256 = toNat bytes := by omega
    have hlast : UInt8.ofNat (toNat bytes * 256 + b.toNat) = b := UInt8.toNat_inj.mp (by simp)
    rw [List.length_append, List.length_singleton, fixed, toNat_append, hfront, ih, hlast]

end Bytes

theorem SizedBytes.ofNat_toNat {n : Nat} (b : SizedBytes n) :
    SizedBytes.ofNat n (Bytes.toNat b.1) = b := by
  obtain ⟨bytes, rfl⟩ := b
  exact Subtype.ext (Bytes.fixed_toNat bytes)

@[simp] theorem Word.length_bytes (w : Word) : w.bytes.length = 32 := Bytes.length_fixed 32 w.toNat

@[simp] theorem Word.ofBytes_bytes (w : Word) : Word.ofBytes w.bytes = w := by
  have hvalue : Bytes.toNat w.bytes = w.toNat := by
    rw [Word.bytes, Bytes.toNat_fixed]
    exact Nat.mod_eq_of_lt w.isLt
  rw [Word.ofBytes, hvalue, BitVec.ofNat_toNat, BitVec.setWidth_eq]

namespace Abi

@[simp] theorem length_wordBytes (n : Nat) : (wordBytes n).length = 32 := Bytes.length_fixed 32 n

/-- Whatever a reader takes for a length or an offset fits a word. -/
theorem toNat_wordBytes {n : Nat} (h : n < UInt64.size) : Bytes.toNat (wordBytes n) = n := by
  rw [wordBytes, Bytes.toNat_fixed]
  exact Nat.mod_eq_of_lt (Nat.lt_trans h (by decide))

/-! ## Taking from the front -/

theorem takeBytes_append {count : Nat} {front : Bytes} (h : front.length = count) (rest : Bytes) :
    takeBytes count (front ++ rest) = .ok (front, rest) := by
  subst h
  simp [takeBytes]

theorem takeWord_append {w : Bytes} (h : w.length = 32) (rest : Bytes) :
    takeWord (w ++ rest) = .ok (w, rest) := takeBytes_append h rest

theorem takeSize_wordBytes {n : Nat} (h : n < UInt64.size) (rest : Bytes) :
    takeSize (wordBytes n ++ rest) = .ok (n, rest) := by
  rw [takeSize, takeWord_append (length_wordBytes n)]
  simp only [bind, Except.bind, toNat_wordBytes h, if_pos h]
  rfl

/-- A byte string behind its length is taken without the padding. -/
theorem bytes_encodeBytes {b : Bytes} (h : b.length < UInt64.size) {frame : Frame} {rest : Bytes}
    (hstart : frame.start = encodeBytes b ++ rest) : frame.bytes = .ok b := by
  rw [Frame.bytes, hstart, encodeBytes, List.append_assoc, takeSize_wordBytes h]
  simp only [bind, Except.bind, padToWords, Bytes.padRight, List.append_assoc]
  rw [takeBytes_append rfl]
  rfl

/-- An offset leads to what stands there, one level deeper. -/
theorem follow_wordBytes {frame : Frame} {offset : Nat} (hdepth : frame.depth < nestingLimit)
    (hsize : frame.start.length < UInt64.size) (hreach : offset ≤ frame.start.length)
    (rest : Bytes) :
    frame.follow (wordBytes offset ++ rest) =
      .ok (⟨frame.start.drop offset, frame.depth + 1⟩, rest) := by
  have hchild : frame.child offset = .ok ⟨frame.start.drop offset, frame.depth + 1⟩ := by
    rw [Frame.child, if_neg (by omega), if_neg (by omega)]
  rw [Frame.follow, takeSize_wordBytes (by omega)]
  simp only [bind, Except.bind, hchild]
  rfl

theorem inner_eq_ok {frame : Frame} (hdepth : frame.depth < nestingLimit) (rest : Bytes) :
    frame.inner rest = .ok ⟨rest, frame.depth + 1⟩ := by
  rw [Frame.inner, if_neg (by omega)]

/-! ## Rows -/

/-- The rows of a list go on where those of its first part end. -/
theorem heads_cons (offset : Nat) (p : Part) (ps : List Part) :
    heads offset (p :: ps) = heads offset [p] ++ heads (offset + (tails [p]).length) ps := by
  cases hp : p.isDynamic <;> simp [heads, tails, hp]

theorem tails_cons (p : Part) (ps : List Part) : tails (p :: ps) = tails [p] ++ tails ps := by
  cases hp : p.isDynamic <;> simp [tails, hp]

/-- The first row has the length that it is given in the first offset. -/
theorem length_heads (offset : Nat) (ps : List Part) : (heads offset ps).length = headsLength ps := by
  induction ps generalizing offset with
  | nil => rfl
  | cons p ps ih =>
    rw [heads_cons, List.length_append, ih]
    cases hp : p.isDynamic <;> simp [heads, headsLength, Part.headLength, hp]

theorem length_layOut (ps : List Part) : (layOut ps).length = headsLength ps + (tails ps).length := by
  rw [layOut, List.length_append, length_heads]

end Abi

end LedgerGateway

import LedgerGateway.Rlp.Basic

/-!
# Reading length prefixes

Every reader takes an item off the front of the input and returns the rest. Only one spelling of an
item is read: the header must be the shortest one, and numbers have no leading zeros.
-/

namespace LedgerGateway.Rlp

/-- Why bytes are not the spelling of an item. -/
inductive Error where
  /-- A number is wider than its type. -/
  | overflow
  /-- A number or a length starts with a zero. -/
  | leadingZero
  /-- The input ends before the item does. -/
  | inputTooShort
  | nonCanonicalSingleByte
  /-- A small length has a long header. -/
  | nonCanonicalSize
  /-- There is a byte string where a list should be. -/
  | unexpectedString
  /-- There is a list where a byte string should be. -/
  | unexpectedList
  deriving DecidableEq, Repr

/-- The wording of a refused item. -/
def Error.message : Error → String
  | .overflow => "overflow"
  | .leadingZero => "leading zero"
  | .inputTooShort => "input too short"
  | .nonCanonicalSingleByte => "non-canonical single byte"
  | .nonCanonicalSize => "non-canonical size"
  | .unexpectedString => "unexpected string"
  | .unexpectedList => "unexpected list"

/-- What stands in front of a payload. -/
structure Header where
  isList : Bool
  length : Nat
  deriving DecidableEq, Repr

/-- The header, if the payload is there as a whole. -/
def Header.within (h : Header) (rest : Bytes) : Except Error (Header × Bytes) :=
  if rest.length < h.length then .error .inputTooShort else .ok (h, rest)

def readLongHeader (isList : Bool) (count : Nat) (rest : Bytes) : Except Error (Header × Bytes) :=
  if rest.length < count then .error .inputTooShort
  else
    let digits := rest.take count
    if digits.head? = some 0 then .error .leadingZero
    else
      let length := Bytes.toNat digits
      if length < 56 then .error .nonCanonicalSize
      else Header.within ⟨isList, length⟩ (rest.drop count)

/-- Reads a header. A byte that stands for itself has the header of a string of one byte and stays in
the input. -/
def readHeader : Bytes → Except Error (Header × Bytes)
  | [] => .error .inputTooShort
  | b :: rest =>
    if b < 0x80 then Header.within ⟨false, 1⟩ (b :: rest)
    else if b ≤ 0xb7 then
      if b = 0x81 then
        match rest with
        | [] => .error .inputTooShort
        | x :: _ =>
          if x < 0x80 then .error .nonCanonicalSingleByte else Header.within ⟨false, 1⟩ rest
      else Header.within ⟨false, b.toNat - 0x80⟩ rest
    else if b ≤ 0xbf then readLongHeader false (b.toNat - 0xb7) rest
    else if b ≤ 0xf7 then Header.within ⟨true, b.toNat - 0xc0⟩ rest
    else readLongHeader true (b.toNat - 0xf7) rest

/-- Reads a byte string. -/
def readBytes (input : Bytes) : Except Error (Bytes × Bytes) := do
  let (header, rest) ← readHeader input
  if header.isList then .error .unexpectedList
  else .ok (rest.take header.length, rest.drop header.length)

/-- Reads a number of 64 bits. The width is tested before the leading zero. -/
def readUInt64 (input : Bytes) : Except Error (UInt64 × Bytes) := do
  let (digits, rest) ← readBytes input
  if 8 < digits.length then .error .overflow
  else if digits.head? = some 0 then .error .leadingZero
  else .ok ((Bytes.toNat digits).toUInt64, rest)

/-- Reads a number of 256 bits. The leading zero is tested before the width. -/
def readWord (input : Bytes) : Except Error (Word × Bytes) := do
  let (digits, rest) ← readBytes input
  if digits.head? = some 0 then .error .leadingZero
  else if 32 < digits.length then .error .overflow
  else .ok (Word.ofBytes digits, rest)

end LedgerGateway.Rlp

import LedgerGateway.Bytes.Hex

/-!
# Byte strings of a fixed length

Digests, addresses, selectors and public keys are byte strings whose length is part of the type.
-/

namespace LedgerGateway

/-- The byte strings of one length. -/
abbrev SizedBytes (n : Nat) := { bytes : Bytes // bytes.length = n }

/-- The output of a hash function. -/
abbrev Digest := SizedBytes 32

/-- The address of an account or a contract. -/
abbrev Address := SizedBytes 20

/-- The first four bytes of the hash of a function's signature. -/
abbrev Selector := SizedBytes 4

/-- A number of 256 bits. -/
abbrev Word := BitVec 256

namespace SizedBytes

/-- The last `n` bytes of a number. -/
def ofNat (n value : Nat) : SizedBytes n := ⟨Bytes.fixed n value, by simp⟩

/-- The bytes, if there are as many as the length asks for. -/
def ofBytes? (n : Nat) (bytes : Bytes) : Option (SizedBytes n) :=
  if h : bytes.length = n then some ⟨bytes, h⟩ else none

def suffix {n : Nat} (k : Nat) (h : k ≤ n) (b : SizedBytes n) : SizedBytes k :=
  ⟨b.1.drop (n - k), by have := b.2; simp; omega⟩

def initial {n : Nat} (k : Nat) (h : k ≤ n) (b : SizedBytes n) : SizedBytes k :=
  ⟨b.1.take k, by have := b.2; simp; omega⟩

def toNat {n : Nat} (b : SizedBytes n) : Nat := Bytes.toNat b.1

/-- The bytes as digits behind `0x`. -/
def hex {n : Nat} (b : SizedBytes n) : String := Hex.encode b.1

end SizedBytes

def Word.bytes (w : Word) : Bytes := Bytes.fixed 32 w.toNat

/-- The word that the bytes write, of which the lowest 256 bits count. -/
def Word.ofBytes (b : Bytes) : Word := BitVec.ofNat 256 (Bytes.toNat b)

namespace Address

/-- Why a text is no address. -/
inductive Error where
  /-- The text has an odd number of bytes. -/
  | oddLength
  /-- The text has not forty digits. -/
  | wrongLength
  | invalidCharacter (byte : UInt8) (position : Nat)
  deriving DecidableEq, Repr

/-- The wording of a refused address. -/
def Error.message : Error → String
  | .oddLength => "odd number of digits"
  | .wrongLength => "invalid string length"
  | .invalidCharacter b position =>
    "invalid character '" ++ String.singleton (Text.Utf8.latin1 b) ++ "' at position " ++
      Text.decimal position

def zero : Address := SizedBytes.ofNat 20 0

/-- Reads an address: forty digits behind an optional mark. Parity comes first, then the length,
then the digits. -/
def read (s : String) : Except Error Address :=
  let text := Text.Utf8.encode (Hex.stripMark s)
  if text.length % 2 = 1 then .error .oddLength
  else if text.length ≠ 40 then .error .wrongLength
  else match Hex.readPairs 0 text with
    | .error (.invalidCharacter b position) => .error (.invalidCharacter b position)
    | .error .oddLength => .error .oddLength
    | .ok bytes =>
      match SizedBytes.ofBytes? 20 bytes with
      | some address => .ok address
      | none => .error .wrongLength

end Address

end LedgerGateway

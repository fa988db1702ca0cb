import LedgerGateway.Bytes.BigEndian
import LedgerGateway.Text.Blank
import LedgerGateway.Text.Numeral

/-!
# Hexadecimal bytes

Bytes are written as two lower-case digits each, behind `0x` where a text carries the mark. A reader
takes digits of either case. It counts the bytes of the text before it looks at them, and it names
the first byte that is no digit.
-/

namespace LedgerGateway.Hex

open Text

/-- The digit of a number below sixteen. -/
def digitChar (n : Nat) : Char := Nat.digitChar n

/-- The two digits of a byte. -/
def pair (b : UInt8) : List Char := [digitChar (b.toNat / 16), digitChar (b.toNat % 16)]

/-- The digits of a byte string, without a mark. -/
def digits (bytes : Bytes) : String := String.ofList (bytes.flatMap pair)

/-- The digits of a byte string behind `0x`. -/
def encode (bytes : Bytes) : String := "0x" ++ digits bytes

/-- Why a text is not a byte string. -/
inductive Error where
  /-- The text has an odd number of bytes. -/
  | oddLength
  | invalidCharacter (byte : UInt8) (position : Nat)
  deriving DecidableEq, Repr

/-- The wording of a refused text. -/
def Error.message : Error → String
  | .oddLength => "Odd number of digits"
  | .invalidCharacter b position =>
    "Invalid character '" ++ String.singleton (Utf8.latin1 b) ++ "' at position " ++
      decimal position

/-- The value of a byte read as a hexadecimal digit. -/
def nibble? (b : UInt8) : Option Nat := digit? 16 (Utf8.latin1 b)

/-- Reads pairs of digits, of which the first stands at `position`. -/
def readPairs (position : Nat) : Bytes → Except Error Bytes
  | [] => .ok []
  | [_] => .error .oddLength
  | a :: b :: rest =>
    match nibble? a, nibble? b with
    | none, _ => .error (.invalidCharacter a position)
    | some _, none => .error (.invalidCharacter b (position + 1))
    | some high, some low =>
      (readPairs (position + 2) rest).map (UInt8.ofNat (high * 16 + low) :: ·)

/-- Reads digits given as bytes. The parity of their number is tested first. -/
def decodeBytes (text : Bytes) : Except Error Bytes :=
  if text.length % 2 = 1 then .error .oddLength else readPairs 0 text

/-- Reads a text of digits without a mark. -/
def decode (s : String) : Except Error Bytes := decodeBytes (Utf8.encode s)

/-- The text behind one mark `0x` or `0X`, or the text itself where there is none. -/
def stripMark (s : String) : String :=
  match afterLead? ['0', 'x'] s.toList with
  | some rest => String.ofList rest
  | none => match afterLead? ['0', 'X'] s.toList with
    | some rest => String.ofList rest
    | none => s

/-- The text behind one mark `0x`, or the text itself where there is none. -/
def stripLowerMark (s : String) : String :=
  match afterLead? ['0', 'x'] s.toList with
  | some rest => String.ofList rest
  | none => s

/-- The characters behind every `0x` that repeats at the front. -/
def dropMarks : List Char → List Char
  | '0' :: 'x' :: rest => dropMarks rest
  | cs => cs

/-- The text behind every `0x` that repeats at its front. -/
def stripMarks (s : String) : String := String.ofList (dropMarks s.toList)

end LedgerGateway.Hex

import LedgerGateway.Abi.Value

/-!
# Encoded values

A list of values is laid out in two rows. The first has for each value its encoding in place, or, if
the value is dynamic, the offset of its encoding in the second row, counted from the start of the
first. Everything is padded to words of 32 bytes.
-/

namespace LedgerGateway.Abi

def wordBytes (n : Nat) : Bytes := Bytes.fixed 32 n

/-- A byte string before as many zeros as fill its last word. -/
def padToWords (b : Bytes) : Bytes := Bytes.padRight ((b.length + 31) / 32 * 32) b

/-- An encoding with the place where it goes. -/
structure Part where
  /-- It stands in the second row, behind an offset. -/
  isDynamic : Bool
  bytes : Bytes

/-- How many bytes a part takes in the first row. -/
def Part.headLength (p : Part) : Nat := if p.isDynamic then 32 else p.bytes.length

/-- The first row, when the encodings of the dynamic parts start at `offset`. -/
def heads (offset : Nat) : List Part → Bytes
  | [] => []
  | p :: rest =>
    if p.isDynamic then wordBytes offset ++ heads (offset + p.bytes.length) rest
    else p.bytes ++ heads offset rest

/-- The second row. -/
def tails : List Part → Bytes
  | [] => []
  | p :: rest => if p.isDynamic then p.bytes ++ tails rest else tails rest

/-- How many bytes the first row takes. -/
def headsLength : List Part → Nat
  | [] => 0
  | p :: rest => p.headLength + headsLength rest

/-- The two rows of a list. -/
def layOut (parts : List Part) : Bytes := heads (headsLength parts) parts ++ tails parts

/-- A byte string behind its length. -/
def encodeBytes (b : Bytes) : Bytes := wordBytes b.length ++ padToWords b

namespace Value

mutual

/-- The encoding of a value where it stands. -/
def encode : Value → Bytes
  | bool b => wordBytes b.toNat
  | int w | uint w => w.bytes
  | fixedBytes b => Bytes.padRight 32 b
  | address a => Bytes.padLeft 32 a.1
  | function f => Bytes.padRight 32 f.1
  | bytes b => encodeBytes b
  | string s => encodeBytes (Text.Utf8.encode s)
  | array items => wordBytes items.length ++ layOut (parts items)
  | tuple items => layOut (parts items)

/-- The encodings of values with their places. -/
def parts : List Value → List Part
  | [] => []
  | item :: rest => ⟨item.isDynamic, item.encode⟩ :: parts rest

end

/-- The encoding of the values that a function is called with, or that it returns. -/
def encodeAll (values : List Value) : Bytes := layOut (parts values)

end Value

end LedgerGateway.Abi

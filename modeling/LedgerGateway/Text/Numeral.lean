import LedgerGateway.Text.Utf8

/-!
# Numerals

Readers and writers of unsigned numbers. `readNat` is the plain reader: an optional plus sign and at
least one digit, with a bound that the value must stay below. `Wide` reads 256-bit numbers, whose
texts may hold underscores anywhere and no sign.
-/

namespace LedgerGateway.Text

/-- The value of a digit in a radix up to 36, in either case. -/
def digit? (radix : Nat) (c : Char) : Option Nat :=
  let value :=
    if '0' ≤ c && c ≤ '9' then some (c.toNat - '0'.toNat)
    else if 'a' ≤ c && c ≤ 'z' then some (c.toNat - 'a'.toNat + 10)
    else if 'A' ≤ c && c ≤ 'Z' then some (c.toNat - 'A'.toNat + 10)
    else none
  value.filter (· < radix)

/-- The decimal digits of a number. -/
def decimal (n : Nat) : String := String.ofList (Nat.toDigits 10 n)

/-- The hexadecimal digits of a number, in lower case. -/
def hexadecimal (n : Nat) : String := String.ofList (Nat.toDigits 16 n)

/-- The decimal digits of an integer, behind a minus sign if it is negative. -/
def signedDecimal (i : Int) : String :=
  if i < 0 then "-" ++ decimal i.natAbs else decimal i.natAbs

/-- Why a text is not a number. -/
inductive NumeralError where
  | empty
  /-- A character is no digit of the radix. -/
  | invalidDigit
  /-- The value reaches the bound. -/
  | tooLarge
  deriving DecidableEq, Repr

/-- The wording of a refused number. -/
def NumeralError.message : NumeralError → String
  | .empty => "cannot parse integer from empty string"
  | .invalidDigit => "invalid digit found in string"
  | .tooLarge => "number too large to fit in target type"

/-- Reads digits behind a value already read; each step first asks for a digit, then for the
bound. -/
def readDigits (radix bound : Nat) : Nat → List Char → Except NumeralError Nat
  | value, [] => .ok value
  | value, c :: cs =>
    match digit? radix c with
    | none => .error .invalidDigit
    | some d =>
      if value * radix + d < bound then readDigits radix bound (value * radix + d) cs
      else .error .tooLarge

/-- Reads an unsigned number below the bound: an optional plus sign, then digits. A sign alone is a
bad digit. -/
def readNat (radix bound : Nat) : List Char → Except NumeralError Nat
  | [] => .error .empty
  | ['+'] => .error .invalidDigit
  | '+' :: cs => readDigits radix bound 0 cs
  | cs => readDigits radix bound 0 cs

/-- Reads a decimal number of 32 bits. -/
def readUInt32 (s : String) : Except NumeralError UInt32 :=
  (readNat 10 UInt32.size s.toList).map (·.toUInt32)

/-- Reads a number of 64 bits in a radix. -/
def readUInt64 (radix : Nat) (s : List Char) : Except NumeralError UInt64 :=
  (readNat radix UInt64.size s).map (·.toUInt64)

/-! ## Numbers of 256 bits -/

namespace Wide

/-- Why a text is not a number of 256 bits. -/
inductive Error where
  /-- The byte is neither a digit nor an underscore. -/
  | invalidDigit (byte : UInt8)
  /-- The value does not fit. -/
  | tooLarge
  deriving DecidableEq, Repr

/-- The wording of a refused number. The byte is shown as the character of the same number. -/
def Error.message : Error → String
  | .invalidDigit b => "invalid digit: " ++ String.singleton (Utf8.latin1 b)
  | .tooLarge => "the value is too large to fit the target type"

/-- The numbers of 256 bits are those below this one. -/
abbrev bound : Nat := Nat.pow 2 256

/-- How many decimal digits are gathered before the value is tested against the bound. -/
def chunkSize : Nat := 19

/-- Reads decimal digits from the left. `chunk` holds the `count` digits read since the value was
last tested. -/
def readDecimalFrom (value chunk count : Nat) : List UInt8 → Except Error Nat
  | [] =>
    let total := value * Nat.pow 10 count + chunk
    if total < bound then .ok total else .error .tooLarge
  | b :: bs =>
    if b == 0x5f then readDecimalFrom value chunk count bs
    else match digit? 10 (Utf8.latin1 b) with
      | none => .error (.invalidDigit b)
      | some d =>
        if count + 1 < chunkSize then readDecimalFrom value (chunk * 10 + d) (count + 1) bs
        else
          let total := value * Nat.pow 10 (count + 1) + (chunk * 10 + d)
          if total < bound then readDecimalFrom total 0 0 bs else .error .tooLarge

/-- Reads digits of a radix that is a power of two, the last digit first. `weight` is the weight of
the next digit. -/
def readFromRight (radix value weight : Nat) : List UInt8 → Except Error Nat
  | [] => .ok value
  | b :: bs =>
    if b == 0x5f then readFromRight radix value weight bs
    else match digit? radix (Utf8.latin1 b) with
      | none => .error (.invalidDigit b)
      | some d =>
        let total := value + d * weight
        if total < bound then readFromRight radix total (weight * radix) bs else .error .tooLarge

/-- Reads a decimal number of 256 bits; no digits at all are zero. -/
def readDecimal (s : String) : Except Error (BitVec 256) :=
  (readDecimalFrom 0 0 0 (Utf8.encode s)).map (BitVec.ofNat 256)

/-- Reads a number of 256 bits in radix 2, 8 or 16; no digits at all are zero. -/
def readBinaryRadix (radix : Nat) (s : String) : Except Error (BitVec 256) :=
  (readFromRight radix 0 1 (Utf8.encode s).reverse).map (BitVec.ofNat 256)

/-- Reads a hexadecimal number of 256 bits; no digits at all are zero. -/
def readHexadecimal (s : String) : Except Error (BitVec 256) := readBinaryRadix 16 s

end Wide

end LedgerGateway.Text

import LedgerGateway.Abi.TypeText
import LedgerGateway.Abi.Value

/-!
# Values in text

Arguments arrive as texts. How a text is read depends on the type that it is read as; a reader takes a
value from the front of a text and returns the rest. A text on its own is taken as it stands, and
inside a list it may be quoted.
-/

namespace LedgerGateway.Abi

namespace Literal

/-- Takes a value from the front of a text and returns the rest. -/
abbrev Reader (α : Type) := List Char → Option (α × List Char)

/-! ## Numbers -/

def isHexDigit (c : Char) : Bool := (Text.digit? 16 c).isSome

/-- The radix that a mark in front of a number names. -/
def radix? : List Char → Option (Nat × List Char)
  | '0' :: m :: rest =>
    if m == 'x' || m == 'X' then some (16, rest)
    else if m == 'o' || m == 'O' then some (8, rest)
    else if m == 'b' || m == 'B' then some (2, rest)
    else none
  | _ => none

/-- The digits at the front of a text, of which there must be one, as a number below `2^256`. With a
mark in front the digits go as far as hexadecimal ones do, whatever the radix. -/
def readMagnitude (cs : List Char) : Option (Nat × List Char) :=
  match radix? cs with
  | some (radix, rest) =>
    let digits := rest.takeWhile isHexDigit
    if digits.isEmpty then none
    else match Text.readDigits radix Text.Wide.bound 0 digits with
      | .ok n => some (n, rest.dropWhile isHexDigit)
      | .error _ => none
  | none =>
    let digits := cs.takeWhile Char.isDigit
    let n := decimalValue digits
    if digits.isEmpty || Text.Wide.bound ≤ n then none else some (n, cs.dropWhile Char.isDigit)

/-- The digits behind a point, if there are any. -/
def readFraction (cs : List Char) : List Char × List Char :=
  match cs with
  | '.' :: rest =>
    let digits := rest.takeWhile Char.isDigit
    if digits.isEmpty then ([], cs) else (digits, rest.dropWhile Char.isDigit)
  | _ => ([], cs)

/-- The sign at the front of a text: whether it is a minus, and the rest. -/
def readSign : List Char → Bool × List Char
  | '-' :: rest => (true, rest)
  | '+' :: rest => (false, rest)
  | cs => (false, cs)

/-- An integer without leading zeros; a zero stands alone. -/
def readExponentDigits (cs : List Char) : Option (Nat × List Char) :=
  match cs with
  | '0' :: rest => some (0, rest)
  | _ =>
    let digits := cs.takeWhile Char.isDigit
    if digits.isEmpty then none else some (decimalValue digits, cs.dropWhile Char.isDigit)

/-- The exponent, if there is one. It has to fit 64 bits. -/
def readExponent (cs : List Char) : Option (Int × List Char) :=
  match cs with
  | e :: rest =>
    if e == 'e' || e == 'E' then
      let (minus, rest) := readSign rest
      match readExponentDigits rest with
      | some (n, rest) =>
        let power : Int := if minus then -n else n
        if Int64.minValue.toInt ≤ power && power ≤ Int64.maxValue.toInt then some (power, rest)
        else none
      | none => some (0, cs)
    else some (0, cs)
  | [] => some (0, cs)

/-- The power of ten that a unit stands for. -/
def unit? (name : List Char) : Option Int :=
  match String.ofList name with
  | "" | "wei" => some 0
  | "gwei" | "nano" | "nanoether" => some 9
  | "ether" => some 18
  | _ => none

/-- The largest power of ten below `2^256`. -/
def powerLimit : Nat := 77

/-- The value of a number with a fraction that is scaled by a power of ten. It is whole: the fraction
has no more digits than the power takes away. Neither those digits nor the power that is left may take
more than 256 bits. -/
def scale? (whole : Nat) (fraction : List Char) (power : Int) : Option Nat :=
  let shift := fraction.length
  if power < shift || powerLimit < shift || powerLimit + shift < power then none
  else
    let value := (whole * Nat.pow 10 shift + decimalValue fraction) * Nat.pow 10 (power.toNat - shift)
    if value < Text.Wide.bound then some value else none

/-- A natural number of so many bits, with a fraction, an exponent and a unit if these are there. -/
def readUInt (bits : Nat) (cs : List Char) : Option (Nat × List Char) := do
  let (whole, rest) ← readMagnitude cs
  let (fraction, rest) := readFraction rest
  let (exponent, rest) ← readExponent rest
  let rest := skipSpaces rest
  let unit ← unit? (rest.takeWhile Char.isAlpha)
  let value ← scale? whole fraction (unit + exponent)
  if value < Nat.pow 2 bits then some (value, rest.dropWhile Char.isAlpha) else none

/-- An integer of so many bits. -/
def readInt (bits : Nat) (cs : List Char) : Option (Int × List Char) := do
  let (minus, rest) := readSign cs
  let (n, rest) ← readUInt bits rest
  let i : Int := if minus then -n else n
  let bound : Int := Nat.pow 2 (bits - 1)
  if -bound ≤ i && i < bound then some (i, rest) else none

/-! ## Byte strings -/

/-- A word at the front of a text. -/
def readWord {α : Type} (word : List Char) (a : α) (cs : List Char) : Option (α × List Char) :=
  (Text.afterLead? word cs).map fun rest => (a, rest)

/-- Pairs of digits behind an optional mark, as far as digits go. Without the mark there must be
one. -/
def readBytes (cs : List Char) : Option (Bytes × List Char) := do
  let (marked, body) := match Text.afterLead? ['0', 'x'] cs with
    | some rest => (true, rest)
    | none => (false, cs)
  let digits := body.takeWhile isHexDigit
  if digits.isEmpty && !marked then none
  else match Hex.decode (String.ofList digits) with
    | .ok b => some (b, body.dropWhile isHexDigit)
    | .error _ => none

/-- So many bytes. -/
def readSized (length : Nat) (cs : List Char) : Option (SizedBytes length × List Char) := do
  let (b, rest) ← readBytes cs
  pure (← SizedBytes.ofBytes? length b, rest)

/-! ## Texts inside lists -/

/-- A text inside a list that ends with the character `close`: quoted, or up to the next comma or the
end of the list and without the blanks before that. -/
def readString (close : Char) (cs : List Char) : Option (String × List Char) :=
  match cs with
  | q :: body =>
    if q == '"' || q == '\'' then
      match body.dropWhile (· != q) with
      | _ :: rest => some (String.ofList (body.takeWhile (· != q)), rest)
      | [] => none
    else
      let goesOn (c : Char) : Bool := c != ',' && c != close
      if goesOn q then
        some (String.ofList (Text.trimEnd (cs.takeWhile goesOn)), cs.dropWhile goesOn)
      else none
  | [] => none

/-! ## Lists -/

/-- How many lists in brackets may stand around a value. -/
def listLimit : Nat := 79

/-- The items of a list behind its opening bracket, of which there is one at least, up to the closing
one. The last may have a comma behind it. -/
def readItems (step : Reader Value) : Nat → Reader (List Value)
  | 0, _ => none
  | fuel + 1, cs => do
    let (item, rest) ← step cs
    match rest with
    | ',' :: rest => match skipSpaces rest with
      | ']' :: rest => pure ([item], rest)
      | rest => do
        let (items, rest) ← readItems step fuel rest
        pure (item :: items, rest)
    | rest => match skipSpaces rest with
      | ']' :: rest => pure ([item], rest)
      | _ => none

def readList (step : Reader Value) : Reader (List Value)
  | '[' :: cs => match skipSpaces cs with
    | ']' :: rest => some ([], rest)
    | rest => readItems step (rest.length + 1) rest
  | _ => none

mutual

/-- A value inside a list that ends with the character `close`, around which `depth` more lists in
brackets may stand. -/
def readValue : Ty → Nat → Char → List Char → Option (Value × List Char)
  | .bool, _, _, cs =>
    match readWord ['t', 'r', 'u', 'e'] (Value.bool true) cs with
    | some step => some step
    | none => readWord ['f', 'a', 'l', 's', 'e'] (Value.bool false) cs
  | .int bits, _, _, cs => (readInt bits cs).map fun (i, rest) => (.int (BitVec.ofInt 256 i), rest)
  | .uint bits, _, _, cs =>
    (readUInt bits cs).map fun (n, rest) => (.uint (BitVec.ofNat 256 n), rest)
  | .fixedBytes length, _, _, cs =>
    (readSized length cs).map fun (b, rest) => (.fixedBytes b.1, rest)
  | .address, _, _, cs => (readSized 20 cs).map fun (a, rest) => (.address a, rest)
  | .function, _, _, cs => (readSized 24 cs).map fun (f, rest) => (.function f, rest)
  | .bytes, _, _, cs => (readBytes cs).map fun (b, rest) => (.bytes b, rest)
  | .string, _, close, cs => (readString close cs).map fun (s, rest) => (.string s, rest)
  | .array item, depth, _, cs =>
    let step (cs : List Char) := match depth with
      | 0 => none
      | depth + 1 => readValue item depth ']' cs
    (readList step cs).map fun (items, rest) => (.array items, rest)
  | .fixedArray item length, depth, _, cs =>
    let step (cs : List Char) := match depth with
      | 0 => none
      | depth + 1 => readValue item depth ']' cs
    match readList step cs with
    | some (items, rest) => if items.length = length then some (.tuple items, rest) else none
    | none => none
  | .tuple items, depth, _, cs =>
    match skipSpaces cs with
    | '(' :: rest => do
      let (values, rest) ← readPlaces items depth (skipSpaces rest)
      match skipSpaces rest with
      | ')' :: rest => some (.tuple values, rest)
      | _ => none
    | _ => none

/-- A value for each place of a list in parentheses. -/
def readPlaces : List Ty → Nat → List Char → Option (List Value × List Char)
  | [], _, cs => some ([], cs)
  | [item], depth, cs => do
    let (value, rest) ← readValue item depth ')' cs
    pure ([value], rest)
  | item :: items, depth, cs => do
    let (value, rest) ← readValue item depth ')' cs
    match skipSpaces rest with
    | ',' :: rest => do
      let (values, rest) ← readPlaces items depth (skipSpaces rest)
      pure (value :: values, rest)
    | _ => none

end

end Literal

namespace Ty

/-- The value of the type that a text stands for. A text read as a text is taken as it is. -/
def read? (s : String) : Ty → Option Value
  | string => some (.string s)
  | t => match Literal.readValue t Literal.listLimit ']' s.toList with
    | some (v, []) => some v
    | _ => none

end Ty

end LedgerGateway.Abi

import LedgerGateway.Json.Basic
import LedgerGateway.Text.Utf8

/-!
# Reading JSON

One value with blanks around it. The functions return the value and the bytes behind it, or, where
the grammar is broken, the bytes that are left at that point. Nesting is bounded by the length of the
input, which also bounds every list: that is the fuel.
-/

namespace LedgerGateway.Json

/-- A reader's step: a value and the rest of the input, or the place where the grammar is broken. -/
abbrev Step (α : Type) := Except Bytes (α × Bytes)

/-- Space, tab and the two line ends. -/
def isBlankByte (b : UInt8) : Bool := b == 0x20 || b == 0x0a || b == 0x0d || b == 0x09

/-- The input without the blanks at the front. -/
def skipBlanks (bs : Bytes) : Bytes := bs.dropWhile isBlankByte

/-! ## Numbers -/

def isDigitByte (b : UInt8) : Bool := 0x30 ≤ b && b ≤ 0x39

/-- The number that decimal digits write. -/
def digitsValue (ds : Bytes) : Nat := ds.foldl (fun n d => n * 10 + (d.toNat - 0x30)) 0

/-- The digits at the front, of which there must be one. -/
def readSomeDigits (bs : Bytes) : Step Bytes :=
  match bs.takeWhile isDigitByte with
  | [] => .error bs
  | ds => .ok (ds, bs.dropWhile isDigitByte)

/-- The digits before the point: a zero, or digits that do not start with one. -/
def readWhole (bs : Bytes) : Step Bytes :=
  match bs with
  | 0x30 :: rest =>
    match rest with
    | d :: _ => if isDigitByte d then .error rest else .ok ([0x30], rest)
    | [] => .ok ([0x30], rest)
  | _ => readSomeDigits bs

/-- The digits behind a point, if there is one. -/
def readFraction (bs : Bytes) : Step (Option Bytes) :=
  match bs with
  | 0x2e :: rest => (readSomeDigits rest).map fun (ds, rest) => (some ds, rest)
  | _ => .ok (none, bs)

def readExponent (bs : Bytes) : Step (Option Int) :=
  match bs with
  | e :: rest =>
    if e == 0x65 || e == 0x45 then
      let (minus, rest) := match rest with
        | 0x2d :: rest => (true, rest)
        | 0x2b :: rest => (false, rest)
        | _ => (false, rest)
      (readSomeDigits rest).map fun (ds, rest) =>
        (some (if minus then -(digitsValue ds : Int) else digitsValue ds), rest)
    else .ok (none, bs)
  | [] => .ok (none, bs)

def readNumeral (bs : Bytes) : Except Bytes (Numeral × Bytes) := do
  let (minus, bs) := match bs with
    | 0x2d :: rest => (true, rest)
    | _ => (false, bs)
  let (whole, bs) ← readWhole bs
  let (fraction, bs) ← readFraction bs
  let (exponent, bs) ← readExponent bs
  let part := fraction.getD []
  pure (⟨minus, digitsValue (whole ++ part), exponent.getD 0 - part.length,
    fraction.isNone && exponent.isNone⟩, bs)

/-! ## Strings -/

/-- The number that four hexadecimal digits write. -/
def unit? (a b c d : UInt8) : Option Nat := do
  let digit (x : UInt8) : Option Nat := Text.digit? 16 (Text.Utf8.latin1 x)
  pure ((((← digit a) * 16 + (← digit b)) * 16 + (← digit c)) * 16 + (← digit d))

/-- The first half of a pair of units. -/
def isHighUnit (u : Nat) : Bool := 0xd800 ≤ u && u < 0xdc00

/-- The second half of a pair of units. -/
def isLowUnit (u : Nat) : Bool := 0xdc00 ≤ u && u < 0xe000

/-- The byte that a backslash and a letter stand for. -/
def escaped? (letter : UInt8) : Option UInt8 :=
  if letter == 0x22 || letter == 0x5c || letter == 0x2f then some letter
  else if letter == 0x62 then some 0x08
  else if letter == 0x66 then some 0x0c
  else if letter == 0x6e then some 0x0a
  else if letter == 0x72 then some 0x0d
  else if letter == 0x74 then some 0x09
  else none

/-- A part of a string: a byte, or a unit of 16 bits that was written by its number. -/
inductive TextPart where
  /-- A byte of the input, or the byte that a letter behind a backslash stands for. -/
  | byte (b : UInt8)
  /-- A unit written with four digits. -/
  | unit (u : Nat)

/-- Puts a part in front of the others. -/
def TextPart.before (part : TextPart) (step : Step (List TextPart)) : Step (List TextPart) :=
  step.map fun (parts, rest) => (part :: parts, rest)

/-- The parts of a string, up to its closing quote. -/
def readTextParts : Bytes → Step (List TextPart)
  | [] => .error []
  | 0x22 :: rest => .ok ([], rest)
  | 0x5c :: 0x75 :: a :: b :: c :: d :: rest =>
    match unit? a b c d with
    | none => .error rest
    | some u => (TextPart.unit u).before (readTextParts rest)
  | 0x5c :: letter :: rest =>
    match escaped? letter with
    | none => .error rest
    | some b => (TextPart.byte b).before (readTextParts rest)
  | b :: rest =>
    if b < 0x20 || b == 0x5c then .error (b :: rest) else (TextPart.byte b).before (readTextParts rest)

/-- The bytes that the parts spell; none if half of a pair of units stands alone. -/
def spell : List TextPart → Option Bytes
  | [] => some []
  | .byte b :: parts => (spell parts).map (b :: ·)
  | .unit u :: .unit l :: parts =>
    if isHighUnit u then
      if isLowUnit l then
        let c := Char.ofNat (0x10000 + (u - 0xd800) * 0x400 + (l - 0xdc00))
        (spell parts).map (String.utf8EncodeChar c ++ ·)
      else none
    else if isLowUnit u then none
    else (spell (.unit l :: parts)).map (String.utf8EncodeChar (Char.ofNat u) ++ ·)
  | .unit u :: parts =>
    if isHighUnit u || isLowUnit u then none
    else (spell parts).map (String.utf8EncodeChar (Char.ofNat u) ++ ·)

/-- A string behind its opening quote. -/
def readText (bs : Bytes) : Step (Option String) :=
  (readTextParts bs).map fun (parts, rest) =>
    ((spell parts).bind fun bytes => (Text.Utf8.decode bytes).toOption, rest)

/-! ## Values -/

/-- The input behind a word that it must start with. -/
def readWord (word : Bytes) (node : Node) (bs : Bytes) : Step Node :=
  if word.isPrefixOf bs then .ok (node, bs.drop word.length) else .error bs

mutual

/-- A value behind blanks. -/
def readValue : Nat → Bytes → Step Node
  | 0, bs => .error bs
  | fuel + 1, bs =>
    match skipBlanks bs with
    | [] => .error []
    | 0x7b :: rest =>
      match skipBlanks rest with
      | 0x7d :: rest => .ok (.object [], rest)
      | rest => (readMembers fuel rest).map fun (members, rest) => (.object members, rest)
    | 0x5b :: rest =>
      match skipBlanks rest with
      | 0x5d :: rest => .ok (.array [], rest)
      | rest => (readItems fuel rest).map fun (items, rest) => (.array items, rest)
    | 0x22 :: rest => (readText rest).map fun (s, rest) => (.text s, rest)
    | 0x6e :: rest => readWord [0x75, 0x6c, 0x6c] .null rest
    | 0x74 :: rest => readWord [0x72, 0x75, 0x65] (.bool true) rest
    | 0x66 :: rest => readWord [0x61, 0x6c, 0x73, 0x65] (.bool false) rest
    | bs => (readNumeral bs).map fun (n, rest) => (.number n, rest)

/-- The items of a list, of which there is one at least, up to the closing bracket. -/
def readItems : Nat → Bytes → Step (List Node)
  | 0, bs => .error bs
  | fuel + 1, bs =>
    match readValue fuel bs with
    | .error e => .error e
    | .ok (item, rest) =>
      match skipBlanks rest with
      | 0x2c :: rest => (readItems fuel rest).map fun (items, rest) => (item :: items, rest)
      | 0x5d :: rest => .ok ([item], rest)
      | rest => .error rest

/-- The members of an object, of which there is one at least, up to the closing brace. -/
def readMembers : Nat → Bytes → Step (List (Option String × Node))
  | 0, bs => .error bs
  | fuel + 1, bs =>
    match skipBlanks bs with
    | 0x22 :: rest =>
      match readText rest with
      | .error e => .error e
      | .ok (key, rest) =>
        match skipBlanks rest with
        | 0x3a :: rest =>
          match readValue fuel rest with
          | .error e => .error e
          | .ok (value, rest) =>
            match skipBlanks rest with
            | 0x2c :: rest =>
              (readMembers fuel rest).map fun (members, rest) => ((key, value) :: members, rest)
            | 0x7d :: rest => .ok ([(key, value)], rest)
            | rest => .error rest
        | rest => .error rest
    | rest => .error rest

end

/-- The one value of an input, or what is left where the grammar is broken. -/
def readNode (bs : Bytes) : Except Bytes Node :=
  match readValue (bs.length + 1) bs with
  | .error rest => .error rest
  | .ok (node, rest) =>
    match skipBlanks rest with
    | [] => .ok node
    | rest => .error rest

end LedgerGateway.Json

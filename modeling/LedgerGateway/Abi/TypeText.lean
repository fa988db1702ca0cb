import LedgerGateway.Abi.Ty
import LedgerGateway.Text.Blank

/-!
# Types in text

A type is written as a name or a list of types in parentheses, with a pair of brackets behind it for
each level of lists around it. Reading goes in two steps, because an interface may name a type that
nobody knows as long as nobody uses it: `TypeText.parse` reads the grammar, and `TypeText.resolve?`
says which type is meant.
-/

namespace LedgerGateway.Abi

/-- A type as it is written. -/
inductive TypeText where
  | named (name : List Char)
  | tuple (items : List TypeText)
  /-- A list, with its length between the brackets if the type fixes it. -/
  | list (item : TypeText) (length : Option Nat)

/-! ## Identifiers -/

/-- A character that an identifier may start with. -/
def isIdentifierStart (c : Char) : Bool := c.isAlpha || c == '_' || c == '$'

/-- A character that an identifier may hold. -/
def isIdentifierChar (c : Char) : Bool := isIdentifierStart c || c.isDigit

/-- The identifier at the front of a text and the rest. -/
def readIdentifier? : List Char → Option (List Char × List Char)
  | c :: cs =>
    if isIdentifierStart c then
      some (c :: cs.takeWhile isIdentifierChar, cs.dropWhile isIdentifierChar)
    else none
  | [] => none

/-- The whole text is one identifier. -/
def isIdentifier (s : String) : Bool :=
  match readIdentifier? s.toList with
  | some (_, []) => true
  | _ => false

/-! ## The grammar -/

/-- The characters behind spaces and tabs. -/
def skipSpaces (cs : List Char) : List Char := cs.dropWhile fun c => c == ' ' || c == '\t'

/-- The number that decimal digits write. -/
def decimalValue (ds : List Char) : Nat := ds.foldl (fun n d => n * 10 + (d.toNat - '0'.toNat)) 0

namespace TypeText

/-- How many lists in parentheses may stand around a type. -/
def tupleLimit : Nat := 79

/-- The brackets behind a type, each with the length between them; `fuel` bounds their number. -/
def readBrackets : Nat → List Char → Option (List (Option Nat) × List Char)
  | fuel + 1, '[' :: cs =>
    let digits := cs.takeWhile Char.isDigit
    let length := decimalValue digits
    match cs.dropWhile Char.isDigit with
    | ']' :: rest =>
      if digits.isEmpty then (readBrackets fuel rest).map fun (ls, rest) => (none :: ls, rest)
      else if length = 0 || UInt64.size ≤ length then none
      else (readBrackets fuel rest).map fun (ls, rest) => (some length :: ls, rest)
    | _ => none
  | _, cs => some ([], cs)

/-- The type with brackets behind it. -/
def wrap (stem : TypeText) (lengths : List (Option Nat)) : TypeText := lengths.foldl list stem

/-- A name. A point behind it makes it an enumeration, whose values are small numbers; the name of a
member may follow the point. -/
def readName (cs : List Char) : Option (TypeText × List Char) := do
  let (name, rest) ← readIdentifier? cs
  match rest with
  | '.' :: rest => pure (named ['u', 'i', 'n', 't', '8'], ((readIdentifier? rest).map (·.2)).getD rest)
  | _ => pure (named name, rest)

/-- What follows the opening parenthesis of a list of types, with or without the word that may stand
in front of it. -/
def openTuple? (cs : List Char) : Option (List Char) :=
  match Text.afterLead? ['('] cs with
  | some rest => some rest
  | none => Text.afterLead? ['t', 'u', 'p', 'l', 'e', '('] cs

mutual

/-- A type inside lists of which `depth` more may be opened. -/
def readType : Nat → Nat → List Char → Option (TypeText × List Char)
  | 0, _, _ => none
  | fuel + 1, depth, cs => do
    let (stem, rest) ← match openTuple? cs with
      | some rest => do
        let (items, rest) ← match skipSpaces rest with
          | ')' :: rest => some ([], rest)
          | rest => match depth with
            | 0 => none
            | depth + 1 => readItems fuel depth rest
        pure (tuple items, rest)
      | none => readName cs
    let (lengths, rest) ← readBrackets rest.length rest
    pure (stem.wrap lengths, rest)

/-- The types of a list, of which there is one at least, up to the closing parenthesis. The last may
have a comma behind it. -/
def readItems : Nat → Nat → List Char → Option (List TypeText × List Char)
  | 0, _, _ => none
  | fuel + 1, depth, cs => do
    let (item, rest) ← readType fuel depth cs
    match rest with
    | ',' :: rest => match skipSpaces rest with
      | ')' :: rest => pure ([item], rest)
      | rest => do
        let (items, rest) ← readItems fuel depth rest
        pure (item :: items, rest)
    | rest => match skipSpaces rest with
      | ')' :: rest => pure ([item], rest)
      | _ => none

end

/-- Reads a text that holds a type and nothing else. -/
def parse (s : String) : Option TypeText :=
  match readType (2 * s.length + 2) tupleLimit s.toList with
  | some (t, []) => some t
  | _ => none

/-! ## What is meant -/

/-- The number of bits behind the name of a number type; without one it is 256. -/
def bits? (digits : List Char) : Option Nat :=
  if digits.isEmpty then some 256
  else if digits.all Char.isDigit then
    let n := decimalValue digits
    if 0 < n && n ≤ 256 && n % 8 = 0 then some n else none
  else none

/-- The length behind the name of a byte string type. -/
def byteCount? (digits : List Char) : Option Nat :=
  if digits.isEmpty || !digits.all Char.isDigit then none
  else
    let n := decimalValue digits
    if 0 < n && n ≤ 32 then some n else none

/-- The type that a name stands for. -/
def ofName? (name : List Char) : Option Ty :=
  match String.ofList name with
  | "address" => some .address
  | "function" => some .function
  | "bool" => some .bool
  | "string" => some .string
  | "bytes" => some .bytes
  | _ => match Text.afterLead? ['b', 'y', 't', 'e', 's'] name with
    | some digits => (byteCount? digits).map .fixedBytes
    | none => match Text.afterLead? ['u', 'i', 'n', 't'] name with
      | some digits => (bits? digits).map .uint
      | none => match Text.afterLead? ['i', 'n', 't'] name with
        | some digits => (bits? digits).map .int
        | none => none

def listOf (item : Ty) : Option Nat → Ty
  | some length => .fixedArray item length
  | none => .array item

mutual

/-- The type that is meant, if all its names are known. -/
def resolve? : TypeText → Option Ty
  | named name => ofName? name
  | tuple items => (resolveAll? items).map .tuple
  | list item length => (resolve? item).map (listOf · length)

/-- The types that are meant. -/
def resolveAll? : List TypeText → Option (List Ty)
  | [] => some []
  | item :: rest => do
    let t ← resolve? item
    let ts ← resolveAll? rest
    pure (t :: ts)

end

/-- The lengths between the brackets around a type, the inner ones first. -/
def lengths : TypeText → List (Option Nat)
  | list item length => item.lengths ++ [length]
  | named _ | tuple _ => []

end TypeText

end LedgerGateway.Abi

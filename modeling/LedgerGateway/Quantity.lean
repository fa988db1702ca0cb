import LedgerGateway.Json.Decoder
import LedgerGateway.Text.Blank

/-!
# Quantities

Block numbers, indexes and statuses reach the ledger as JSON numbers, as hexadecimal texts behind
`0x`, or as decimal texts, depending on the node. All three are read; the hexadecimal form without
leading zeros is written.
-/

namespace LedgerGateway.Quantity

open Text

/-- A text that is no quantity. -/
inductive Error where
  /-- The digits behind a mark are no number. -/
  | hexadecimal (text : String) (reason : NumeralError)
  /-- A text without a mark is no number. -/
  | decimal (text : String) (reason : NumeralError)
  deriving DecidableEq, Repr

/-- The wording of a refused quantity. -/
def Error.message : Error → String
  | .hexadecimal text reason => "Invalid hex quantity '" ++ text ++ "': " ++ reason.message
  | .decimal text reason => "Invalid decimal quantity '" ++ text ++ "': " ++ reason.message

/-- The digits behind a mark `0x` or `0X`. -/
def afterMark? : List Char → Option (List Char)
  | '0' :: 'x' :: digits => some digits
  | '0' :: 'X' :: digits => some digits
  | _ => none

/-- Reads a quantity. The empty text and a mark alone are zero. -/
def parse (s : String) : Except Error UInt64 :=
  let text := trim s
  match afterMark? text.toList with
  | some [] => .ok 0
  | some digits => match readUInt64 16 digits with
    | .ok v => .ok v
    | .error reason => .error (.hexadecimal text reason)
  | none =>
    if text = "" then .ok 0
    else match readUInt64 10 text.toList with
      | .ok v => .ok v
      | .error reason => .error (.decimal text reason)

/-- The text of a quantity. -/
def format (v : UInt64) : String := "0x" ++ hexadecimal v.toNat

def json (v : UInt64) : Json := .text (format v)

/-- Reads a quantity from a number or a text. -/
def decoder : Json.Decoder UInt64
  | .text (some s) => match parse s with
    | .ok v => .ok v
    | .error e => .error (.refused e.message)
  | node => Json.asUInt64 node

/-- Reads a quantity that may be missing: `null` or a blank text. -/
def optionDecoder : Json.Decoder (Option UInt64)
  | .null => .ok none
  | .text (some s) =>
    if isAllBlank s then .ok none else (decoder (.text (some s))).map some
  | node => (decoder node).map some

end LedgerGateway.Quantity

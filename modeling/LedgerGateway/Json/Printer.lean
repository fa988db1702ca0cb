import LedgerGateway.Json.Basic
import LedgerGateway.Text.Utf8

/-!
# Written JSON

Values are written without blanks. In strings the quote, the backslash and the control characters are
escaped and everything else stands for itself.
-/

namespace LedgerGateway.Json

/-- The digits of a number below 256, two of them. -/
def twoDigits (n : Nat) : List Char := [Nat.digitChar (n / 16), Nat.digitChar (n % 16)]

/-- A character inside a string. -/
def escape (c : Char) : List Char :=
  if c = '"' then ['\\', '"']
  else if c = '\\' then ['\\', '\\']
  else if c.toNat < 0x20 then
    if c = '\x08' then ['\\', 'b']
    else if c = '\t' then ['\\', 't']
    else if c = '\n' then ['\\', 'n']
    else if c = '\x0c' then ['\\', 'f']
    else if c = '\r' then ['\\', 'r']
    else ['\\', 'u', '0', '0'] ++ twoDigits c.toNat
  else [c]

def quoted (s : String) : List Char := '"' :: (s.toList.flatMap escape ++ ['"'])

def Number.render : Number → String
  | .natural n => Text.decimal n.toNat
  | .negative i => Text.signedDecimal i.toInt
  | .binary f => f.render

/-- Texts between brackets with commas between them. -/
def listed (left right : Char) (texts : List (List Char)) : List Char :=
  left :: (List.intercalate [','] texts ++ [right])

mutual

/-- The characters of a value. -/
def chars : Json → List Char
  | .null => ['n', 'u', 'l', 'l']
  | .bool true => ['t', 'r', 'u', 'e']
  | .bool false => ['f', 'a', 'l', 's', 'e']
  | .number n => n.render.toList
  | .text s => quoted s
  | .array items => listed '[' ']' (itemChars items)
  | .object members => listed '\x7b' '\x7d' (memberChars members)

/-- The characters of each item. -/
def itemChars : List Json → List (List Char)
  | [] => []
  | item :: rest => chars item :: itemChars rest

/-- The characters of each member. -/
def memberChars : List (String × Json) → List (List Char)
  | [] => []
  | (key, value) :: rest => (quoted key ++ ':' :: chars value) :: memberChars rest

end

/-- The text of a value. -/
def render (j : Json) : String := String.ofList (chars j)

/-- The bytes of a value's text. -/
def bytes (j : Json) : Bytes := Text.Utf8.encode j.render

end LedgerGateway.Json

import LedgerGateway.Text.Numeral

/-!
# Strings in configuration texts

A string stands between quotes or between apostrophes, one of them or three. Between quotes a
backslash starts an escape; between apostrophes everything stands for itself. With three of them a
string may go over lines: a line end right behind the opening ones does not count.
-/

namespace LedgerGateway.Toml

/-- A character that may stand in strings and comments: no control character but the tab. -/
def isPlain (c : Char) : Bool := c == '\t' || (0x20 ≤ c.toNat && c.toNat != 0x7f)

def isSpace (c : Char) : Bool := c == ' ' || c == '\t'

/-- The character whose number hexadecimal digits write. -/
def charOf? (digits : List Char) : Option Char :=
  match Text.readDigits 16 UInt32.size 0 digits with
  | .ok n => if n.isValidChar then some (Char.ofNat n) else none
  | .error _ => none

/-- The character that a backslash and a letter stand for. -/
def escaped? (letter : Char) : Option Char :=
  if letter == '"' || letter == '\\' then some letter
  else if letter == 'b' then some '\x08'
  else if letter == 't' then some '\t'
  else if letter == 'n' then some '\n'
  else if letter == 'f' then some '\x0c'
  else if letter == 'r' then some '\r'
  else if letter == 'e' then some '\x1b'
  else none

/-- A reader's result with more characters in front. -/
def before (cs : List Char) (step : Option (List Char × List Char)) :
    Option (List Char × List Char) :=
  step.map fun (s, rest) => (cs ++ s, rest)

/-- Only spaces and tabs stand before the next line end. -/
def endsLine (cs : List Char) : Bool :=
  match cs.dropWhile isSpace with
  | '\n' :: _ | '\r' :: '\n' :: _ => true
  | _ => false

/-- What three closing marks leave behind: up to two more of them are part of the string. -/
def closing? (mark : Char) : List Char → Option (List Char × List Char)
  | a :: b :: c :: d :: rest =>
    if a == mark && b == mark then
      if c == mark then
        if d == mark then some ([mark, mark], rest) else some ([mark], d :: rest)
      else some ([], c :: d :: rest)
    else none
  | [a, b, c] =>
    if a == mark && b == mark then
      if c == mark then some ([mark], []) else some ([], [c])
    else none
  | [a, b] => if a == mark && b == mark then some ([], []) else none
  | _ => none

/-- A string between quotes, behind the opening ones. One that goes over lines is `folding` behind a
backslash at the end of a line, until the next character that is no blank. -/
def readEscaped (lines folding : Bool) : List Char → Option (List Char × List Char)
  | [] => none
  | '"' :: rest =>
    if lines then
      match closing? '"' rest with
      | some step => some step
      | none => before ['"'] (readEscaped lines false rest)
    else some ([], rest)
  | '\\' :: 'u' :: a :: b :: c :: d :: rest => do
    before [← charOf? [a, b, c, d]] (readEscaped lines false rest)
  | '\\' :: 'U' :: a :: b :: c :: d :: e :: f :: g :: h :: rest => do
    before [← charOf? [a, b, c, d, e, f, g, h]] (readEscaped lines false rest)
  | '\\' :: 'x' :: a :: b :: rest => do
    before [← charOf? [a, b]] (readEscaped lines false rest)
  | '\\' :: letter :: rest =>
    if lines && endsLine (letter :: rest) then readEscaped lines true (letter :: rest)
    else do before [← escaped? letter] (readEscaped lines false rest)
  | '\r' :: '\n' :: rest =>
    if !lines then none
    else if folding then readEscaped lines true rest
    else before ['\r', '\n'] (readEscaped lines false rest)
  | c :: rest =>
    if folding && (isSpace c || c == '\n') then readEscaped lines true rest
    else if (isPlain c && c != '\\') || (lines && c == '\n') then
      before [c] (readEscaped lines false rest)
    else none

/-- A string between apostrophes, behind the opening ones. -/
def readVerbatim (lines : Bool) : List Char → Option (List Char × List Char)
  | [] => none
  | '\'' :: rest =>
    if lines then
      match closing? '\'' rest with
      | some step => some step
      | none => before ['\''] (readVerbatim lines rest)
    else some ([], rest)
  | '\r' :: '\n' :: rest => if lines then before ['\r', '\n'] (readVerbatim lines rest) else none
  | c :: rest =>
    if isPlain c || (lines && c == '\n') then before [c] (readVerbatim lines rest) else none

/-- The characters without a line end at the front. -/
def dropLineEnd : List Char → List Char
  | '\n' :: rest | '\r' :: '\n' :: rest => rest
  | cs => cs

/-- A string of any kind, with its quotes. -/
def readString (cs : List Char) : Option (List Char × List Char) :=
  match cs with
  | '"' :: '"' :: '"' :: rest => readEscaped true false (dropLineEnd rest)
  | '"' :: rest => readEscaped false false rest
  | '\'' :: '\'' :: '\'' :: rest => readVerbatim true (dropLineEnd rest)
  | '\'' :: rest => readVerbatim false rest
  | _ => none

end LedgerGateway.Toml

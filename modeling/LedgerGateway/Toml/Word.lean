import LedgerGateway.Text.Segments
import LedgerGateway.Toml.Value

/-!
# Words in configuration texts

A value that is neither quoted nor bracketed is a word: a truth value, a number in one of four radices
with underscores between its digits, a number with a fraction or an exponent, or a moment. Some words
are numbers by their shape and still no reader takes them, because they are too large or hold other
characters; that matters only where the value is read.
-/

namespace LedgerGateway.Toml

def isDigitOf (radix : Nat) (c : Char) : Bool := (Text.digit? radix c).isSome

/-- The number that digits write. -/
def valueOf (radix : Nat) (ds : List Char) : Nat :=
  ds.foldl (fun n d => n * radix + (Text.digit? radix d).getD 0) 0

/-- The sign of a word: whether it is a minus, and what follows. -/
def splitSign : List Char → Bool × List Char
  | '-' :: rest => (true, rest)
  | '+' :: rest => (false, rest)
  | cs => (false, cs)

/-! ## Underscores -/

def isUnderscore (c : Char) : Bool := c == '_'

/-- What underscores part is nowhere empty, and they have digits on both sides. A single character in
front of the first of them is not looked at. -/
def underscoresFit (isDigit : Char → Bool) (cs : List Char) : Bool :=
  let groups := Text.segments isUnderscore cs
  groups.all (fun g => !g.isEmpty) &&
    (groups.drop 1).all (fun g => g.head?.any isDigit) &&
    groups.dropLast.all fun g => g.length ≤ 1 || g.getLast?.any isDigit

/-- The characters of a number without its underscores. -/
def dropUnderscores (cs : List Char) : List Char := cs.filter fun c => !isUnderscore c

/-! ## Integers -/

/-- An integer, which a reader takes if it has at most 128 bits. -/
def integer (negative : Bool) (n : Nat) : Value :=
  let fits := if negative then n ≤ Nat.pow 2 127 else n < Nat.pow 2 128
  if fits then .number ⟨negative, n, 0, true⟩ else .unreadable

/-- The integer behind the mark of a radix. The mark alone is a word, but no number. -/
def marked? (radix : Nat) (ds : List Char) : Option Value :=
  if ds.isEmpty then some .unreadable
  else if underscoresFit (isDigitOf radix) ds && (dropUnderscores ds).all (isDigitOf radix) then
    some (integer false (valueOf radix (dropUnderscores ds)))
  else none

/-- A decimal integer, whose only zero at the front may be all there is. Once an underscore has been
seen the word is a number, and what else it holds comes out when the number is read. -/
def decimal? (cs : List Char) : Option Value :=
  let (negative, ds) := splitSign cs
  let rest := ds.dropWhile Char.isDigit
  let isNumber := match rest with
    | [] => !ds.isEmpty
    | c :: _ => isUnderscore c && !rest.any fun c => c == '.' || c == 'e' || c == 'E'
  if !isNumber || (ds.head? == some '0' && 1 < ds.length) || !underscoresFit (isDigitOf 16) cs then none
  else
    let ds := dropUnderscores ds
    some (if ds.all Char.isDigit then integer negative (valueOf 10 ds) else .unreadable)

def integer? : List Char → Option Value
  | '0' :: 'x' :: ds => marked? 16 ds
  | '0' :: 'o' :: ds => marked? 8 ds
  | '0' :: 'b' :: ds => marked? 2 ds
  | cs => decimal? cs

/-! ## Fractions -/

/-- What stands behind a mark, if the mark is there. -/
def behind (isMark : Char → Bool) (cs : List Char) : Option (List Char) :=
  match cs.dropWhile fun c => !isMark c with
  | _ :: rest => some rest
  | [] => none

/-- The digits among digits and underscores, of which there is one at least. -/
def someDigits? (cs : List Char) : Option (List Char) :=
  let ds := dropUnderscores cs
  if ds.isEmpty || !ds.all Char.isDigit then none else some ds

/-- A word as a number with a fraction or an exponent, which a reader takes if it is not too large. -/
def fractional? (cs : List Char) : Option Value := do
  let (negative, unsigned) := splitSign cs
  let isE (c : Char) : Bool := c == 'e' || c == 'E'
  let mantissa := unsigned.takeWhile fun c => !isE c
  let whole := mantissa.takeWhile (· != '.')
  let wholeDigits ← someDigits? whole
  let fraction ← match behind (· == '.') mantissa with
    | some part => (someDigits? part).map some
    | none => some none
  let exponent ← match behind isE unsigned with
    | some part => do
      let (minus, ds) := splitSign part
      let n := valueOf 10 (← someDigits? ds)
      pure (some (if minus then -(n : Int) else n))
    | none => some none
  if fraction.isNone && exponent.isNone then none
  else if whole.head? == some '0' && 1 < wholeDigits.length then none
  else if !underscoresFit Char.isDigit cs then none
  else
    let ds := wholeDigits ++ fraction.getD []
    let scale := exponent.getD 0 - (fraction.getD []).length
    pure (match Json.Binary64.ofDecimal negative (valueOf 10 ds) scale with
      | some _ => .number ⟨negative, valueOf 10 ds, scale, false⟩
      | none => .unreadable)

/-! ## Moments -/

/-- The number that exactly so many digits at the front write, and the rest. -/
def take? (count : Nat) (cs : List Char) : Option (Nat × List Char) :=
  let ds := cs.take count
  if ds.length = count && ds.all Char.isDigit then some (valueOf 10 ds, cs.drop count) else none

/-- The rest behind a character that must come next. -/
def skip? (c : Char) : List Char → Option (List Char)
  | d :: rest => if d == c then some rest else none
  | [] => none

/-- How many days a month has. -/
def daysIn (year month : Nat) : Nat :=
  if month == 2 then
    if (year % 4 == 0 && year % 100 != 0) || year % 400 == 0 then 29 else 28
  else if [4, 6, 9, 11].contains month then 30
  else 31

def afterDate? (cs : List Char) : Option (List Char) := do
  let (year, cs) ← take? 4 cs
  let (month, cs) ← take? 2 (← skip? '-' cs)
  let (day, cs) ← take? 2 (← skip? '-' cs)
  if 1 ≤ month && month ≤ 12 && 1 ≤ day && day ≤ daysIn year month then pure cs else none

/-- What follows a time, whose seconds may be left out. -/
def afterTime? (cs : List Char) : Option (List Char) := do
  let (hour, cs) ← take? 2 cs
  let (minute, cs) ← take? 2 (← skip? ':' cs)
  if 23 < hour || 59 < minute then none
  else match cs with
    | ':' :: cs => do
      let (second, cs) ← take? 2 cs
      if 60 < second then none
      else match cs with
        | '.' :: cs =>
          let ds := cs.takeWhile Char.isDigit
          if ds.isEmpty then none else pure (cs.drop ds.length)
        | cs => pure cs
    | cs => pure cs

/-- Nothing or a distance from the time at the meridian. -/
def isOffset (cs : List Char) : Bool :=
  match cs with
  | [] | ['Z'] | ['z'] => true
  | sign :: cs =>
    let rest := do
      let (hour, cs) ← take? 2 cs
      let (minute, cs) ← take? 2 (← skip? ':' cs)
      if hour ≤ 23 && minute ≤ 59 then some cs else none
    (sign == '+' || sign == '-') && rest == some []

/-- The word is a date, a time, or a date and a time. -/
def isMoment (cs : List Char) : Bool :=
  match afterDate? cs with
  | some [] => true
  | some (c :: rest) =>
    (c == 'T' || c == 't' || c == ' ') && ((afterTime? rest).map isOffset).getD false
  | none => afterTime? cs == some []

/-! ## Words -/

/-- The words for an infinite number and for no number, behind a sign or not. -/
def isSpecial (cs : List Char) : Bool :=
  let cs := (splitSign cs).2
  cs == ['i', 'n', 'f'] || cs == ['n', 'a', 'n']

def ofWord? (cs : List Char) : Option Value :=
  if cs == ['t', 'r', 'u', 'e'] then some (.bool true)
  else if cs == ['f', 'a', 'l', 's', 'e'] then some (.bool false)
  else if isSpecial cs || isMoment cs then some (.word (String.ofList cs))
  else (integer? cs).orElse fun _ => fractional? cs

def endsWord (c : Char) : Bool :=
  [' ', '\t', '\n', '\r', ',', '=', '[', ']', '\x7b', '\x7d', '#'].contains c

/-- The word at the front and the rest. Between a date and a time a space may stand. -/
def readWord (cs : List Char) : Option (Value × List Char) := do
  let word := cs.takeWhile fun c => !endsWord c
  let rest := cs.dropWhile fun c => !endsWord c
  match rest with
  | ' ' :: rest =>
    let time := rest.takeWhile fun c => !endsWord c
    if afterDate? word == some [] && (take? 2 time).isSome then
      pure (← ofWord? (word ++ ' ' :: time), rest.dropWhile fun c => !endsWord c)
    else pure (← ofWord? word, ' ' :: rest)
  | rest => pure (← ofWord? word, rest)

end LedgerGateway.Toml

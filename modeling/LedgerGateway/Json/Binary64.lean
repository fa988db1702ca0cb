import LedgerGateway.Text.Numeral

/-!
# Binary floating-point numbers as text

Numbers `m · 2^e` with `m` below `2^53` and `e` at least `-1074`. `ofDecimal` gives the nearest of them
to a decimal fraction, ties to even, and `approximate` one that takes less work to find. `shortest`
finds the fewest decimal digits that still round to the number; of two candidates of that length it
takes the nearer one. All arithmetic is exact.
-/

namespace LedgerGateway.Json

/-- The number `(-1)^negative · mantissa · 2^exponent`. -/
structure Binary64 where
  /-- The sign, also of zero. -/
  negative : Bool
  mantissa : Nat
  exponent : Int
  deriving DecidableEq, Repr

namespace Binary64

/-- A power with an integer exponent, as a numerator and a denominator. -/
def power (base : Nat) (e : Int) : Nat × Nat :=
  if 0 ≤ e then (Nat.pow base e.toNat, 1) else (1, Nat.pow base (-e).toNat)

/-- The quotient rounded to the nearest integer, ties to even. -/
def roundDiv (num den : Nat) : Nat :=
  let q := num / den
  let r := num % den
  if 2 * r < den then q else if 2 * r = den then q + q % 2 else q + 1

def mantissaAt (num den : Nat) (e : Int) : Nat :=
  let (up, down) := power 2 e
  roundDiv (num * down) (den * up)

/-- The least mantissa of a number that has all its digits. -/
def mantissaLeast : Nat := Nat.pow 2 52

/-- The nearest number to `num / den`, unless it is too large. -/
def ofRatio (negative : Bool) (num den : Nat) : Option Binary64 :=
  if num = 0 then some ⟨negative, 0, -1074⟩
  else
    let e : Int := max (num.log2 - den.log2 - 52) (-1074)
    let (up, down) := power 2 e
    let e := if num * down < mantissaLeast * (den * up) ∧ -1074 < e then e - 1 else e
    let m := mantissaAt num den e
    let (m, e) := if m = 2 * mantissaLeast then (mantissaLeast, e + 1) else (m, e)
    if 971 < e then none else some ⟨negative, m, e⟩

/-- The nearest number to `digits · 10^scale`, unless it is too large. -/
def ofDecimal (negative : Bool) (digits : Nat) (scale : Int) : Option Binary64 :=
  let magnitude : Int := (Nat.toDigits 10 digits).length + scale
  if digits = 0 ∨ magnitude < -400 then some ⟨negative, 0, -1074⟩
  else if 400 < magnitude then none
  else
    let (up, down) := power 10 scale
    ofRatio negative (digits * up) down

/-! ## Approximate reading -/

/-- The digits without as many at the end as are too many for 64 bits, and how many those are; `fuel`
bounds their number. -/
def leadingDigits : Nat → Nat → Nat × Nat
  | 0, digits => (digits, 0)
  | fuel + 1, digits =>
    if digits < UInt64.size then (digits, 0)
    else
      let (front, dropped) := leadingDigits fuel (digits / 10)
      (front, dropped + 1)

/-- The largest exponent of a power of ten that is a number. -/
def powerLimit : Nat := 308

/-- The number times or over the nearest number to a power of ten, rounded. -/
def shift (f : Binary64) (scale : Int) : Option Binary64 := do
  let p ← ofRatio false (Nat.pow 10 scale.natAbs) 1
  let (fUp, fDown) := power 2 f.exponent
  let (pUp, pDown) := power 2 p.exponent
  if 0 ≤ scale then ofRatio f.negative (f.mantissa * fUp * (p.mantissa * pUp)) (fDown * pDown)
  else ofRatio f.negative (f.mantissa * fUp * pDown) (fDown * (p.mantissa * pUp))

/-- The number times `10^scale`, in steps of powers that are numbers. A number that `fuel` steps leave
to be divided further is zero. -/
def scaled : Nat → Binary64 → Int → Option Binary64
  | fuel, f, scale =>
    if scale.natAbs ≤ powerLimit then f.shift scale
    else if f.mantissa = 0 then some f
    else if 0 ≤ scale then none
    else match fuel with
      | 0 => some ⟨f.negative, 0, -1074⟩
      | fuel + 1 => do scaled fuel (← f.shift (-powerLimit)) (scale + powerLimit)

/-- A number close to `digits · 10^scale`, unless it is too large. The digits are cut to 64 bits, and
they, the power of ten and the result are rounded in turn, so that the nearest number may lie beside
it. With at most 15 digits and a power up to `10^22` it is the nearest. -/
def approximate (negative : Bool) (digits : Nat) (scale : Int) : Option Binary64 := do
  let (front, dropped) := leadingDigits (digits.log2 + 1) digits
  scaled 4 (← ofRatio negative front 1) (scale + dropped)

/-! ## Shortest digits -/

/-- The decimal `digits · 10^scale` rounds to the number of mantissa `m` and exponent `e`: it lies
between the halfway points to its neighbours, ends included when `m` is even. -/
def roundsTo (m : Nat) (e : Int) (digits : Nat) (scale : Int) : Bool :=
  let (dUp, dDown) := power 10 scale
  let (bUp, bDown) := power 2 (e - 2)
  let value := digits * dUp * bDown
  let unit := bUp * dDown
  let low := (if m = mantissaLeast ∧ -1074 < e then 4 * m - 1 else 4 * m - 2) * unit
  let high := (4 * m + 2) * unit
  if m % 2 = 0 then low ≤ value && value ≤ high else low < value && value < high

/-- The nearer of the two neighbours of the number on the grid of `10^scale` that round to it. -/
def onGrid? (m : Nat) (e scale : Int) : Option Nat :=
  let (dUp, dDown) := power 10 scale
  let (bUp, bDown) := power 2 e
  let num := m * bUp * dDown
  let den := bDown * dUp
  let below := num / den
  let nearest := roundDiv num den
  let other := if nearest = below then below + 1 else below
  if roundsTo m e nearest scale then some nearest
  else if roundsTo m e other scale then some other
  else none

/-- The first grid, from coarse to fine, with a decimal that rounds to the number. -/
def search (m : Nat) (e : Int) : Nat → Int → Nat × Int
  | 0, scale => (m, scale)
  | fuel + 1, scale =>
    match onGrid? m e scale with
    | some digits => if digits = 0 then search m e fuel (scale - 1) else (digits, scale)
    | none => search m e fuel (scale - 1)

/-- Drops the zeros at the end of the digits, `fuel` of them at most. -/
def dropZeros : Nat → Nat × Int → Nat × Int
  | 0, d => d
  | fuel + 1, (digits, scale) =>
    if digits ≠ 0 ∧ digits % 10 = 0 then dropZeros fuel (digits / 10, scale + 1) else (digits, scale)

/-- The fewest digits, with their scale, that round to the number; it is not zero. -/
def shortest (f : Binary64) : Nat × Int :=
  let (up, down) := power 2 f.exponent
  let size : Int := (Nat.toDigits 10 (f.mantissa * up / down)).length
  let start : Int := if f.mantissa * up < down then 0 else size
  dropZeros 400 (search f.mantissa f.exponent 400 start)

/-- The text of a number: positional for decimal exponents from -5 to 15, with a point always. -/
def render (f : Binary64) : String :=
  let sign := if f.negative then "-" else ""
  if f.mantissa = 0 then sign ++ "0.0"
  else
    let (digits, scale) := f.shortest
    let cs := Nat.toDigits 10 digits
    let point : Int := cs.length + scale
    let body :=
      if 0 ≤ scale ∧ point ≤ 16 then cs ++ List.replicate scale.toNat '0' ++ ['.', '0']
      else if 0 < point ∧ point ≤ 16 then cs.take point.toNat ++ '.' :: cs.drop point.toNat
      else if -5 < point ∧ point ≤ 0 then ['0', '.'] ++ List.replicate (-point).toNat '0' ++ cs
      else
        let tail := if cs.length = 1 then [] else '.' :: cs.drop 1
        cs.take 1 ++ tail ++ 'e' :: (Text.signedDecimal (point - 1)).toList
    sign ++ String.ofList body

end Binary64

end LedgerGateway.Json

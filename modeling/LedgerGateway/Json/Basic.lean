import LedgerGateway.Bytes.BigEndian
import LedgerGateway.Json.Binary64

/-!
# JSON values

`Json` is a value that is kept or written. `Json.Node` is what a reader finds: it still has members
given twice, numbers of any size, and strings that spell no text, because a reader of records skips
the members that it does not know whatever they hold.
-/

namespace LedgerGateway

namespace Json

/-- A number that is kept: a natural number of 64 bits, a negative one, or a binary fraction. -/
inductive Number where
  /-- A number from zero to `2^64 - 1`. -/
  | natural (n : UInt64)
  | negative (i : Int64)
  /-- Any other number. -/
  | binary (f : Binary64)
  deriving DecidableEq, Repr

/-- A number as it was written: `digits · 10^scale`. -/
structure Numeral where
  /-- A minus sign stands in front. -/
  negative : Bool
  /-- The digits without the point. -/
  digits : Nat
  /-- The power of ten that they count. -/
  scale : Int
  /-- Neither a fraction nor an exponent was written. -/
  integral : Bool
  deriving DecidableEq, Repr

/-- The natural number of 64 bits that the numeral writes as an integer. -/
def Numeral.natural? (n : Numeral) : Option UInt64 :=
  if n.integral && !n.negative && n.digits < UInt64.size then some n.digits.toUInt64 else none

/-- The integer of 64 bits that the numeral writes as an integer; minus zero is none. -/
def Numeral.integer? (n : Numeral) : Option Int :=
  if !n.integral then none
  else if n.negative then
    if 0 < n.digits && n.digits ≤ Nat.pow 2 63 then some (-(n.digits : Int)) else none
  else if n.digits < UInt64.size then some n.digits else none

/-- The number that is kept for a numeral, unless it is too large. -/
def Numeral.number? (n : Numeral) : Option Number :=
  match n.integer? with
  | some i => some (if i < 0 then .negative (Int64.ofInt i) else .natural i.toNat.toUInt64)
  | none => (Binary64.approximate n.negative n.digits n.scale).map .binary

/-- A value as it was written. -/
inductive Node where
  | null
  | bool (b : Bool)
  | number (n : Numeral)
  | text (s : Option String)
  | array (items : List Node)
  /-- Members in the order in which they were written, with their keys if these spell texts. -/
  | object (members : List (Option String × Node))

namespace Node

mutual

/-- Every string that is a value or in one spells a text. -/
def spellsTexts : Node → Bool
  | null | bool _ | number _ => true
  | text s => s.isSome
  | array items => allSpellTexts items
  | object members => membersSpellTexts members

/-- Every string in the values spells a text. -/
def allSpellTexts : List Node → Bool
  | [] => true
  | item :: rest => item.spellsTexts && allSpellTexts rest

/-- Every string in the values of the members spells a text. -/
def membersSpellTexts : List (Option String × Node) → Bool
  | [] => true
  | (_, value) :: rest => value.spellsTexts && membersSpellTexts rest

end

end Node

end Json

/-- A value that is kept or written. -/
inductive Json where
  | null
  | bool (b : Bool)
  | number (n : Json.Number)
  | text (s : String)
  | array (items : List Json)
  /-- Members in the order in which they are written. -/
  | object (members : List (String × Json))

namespace Json

/-- A natural number of 64 bits as a value. -/
def ofUInt64 (n : UInt64) : Json := .number (.natural n)

/-- An integer of 32 bits as a value. -/
def ofInt32 (i : Int32) : Json :=
  .number (if i < 0 then .negative i.toInt64 else .natural i.toInt.toNat.toUInt64)

/-- Bytes as a list of numbers. -/
def ofBytes (bytes : Bytes) : Json := .array (bytes.map fun b => ofUInt64 b.toUInt64)

def ofTexts (texts : List String) : Json := .array (texts.map .text)

/-- The value, or `null` where there is none. -/
def ofOption {α : Type} (f : α → Json) : Option α → Json
  | some a => f a
  | none => .null

/-- A member for a value that is there, and nothing where there is none. -/
def member? {α : Type} (key : String) (f : α → Json) : Option α → List (String × Json)
  | some a => [(key, f a)]
  | none => []

/-- The members with one more in the order of keys, in place of one with the same key. -/
def insertMember (key : String) (value : Json) : List (String × Json) → List (String × Json)
  | [] => [(key, value)]
  | (k, v) :: rest =>
    if key < k then (key, value) :: (k, v) :: rest
    else if key = k then (key, value) :: rest
    else (k, v) :: insertMember key value rest

/-- The value of a key in an object. -/
def get? (key : String) : Json → Option Json
  | .object members => (members.find? (·.1 == key)).map (·.2)
  | _ => none

end Json

end LedgerGateway

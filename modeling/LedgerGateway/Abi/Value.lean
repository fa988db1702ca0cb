import LedgerGateway.Abi.Ty
import LedgerGateway.Json.Printer

/-!
# Contract values

Values that functions of contracts take and return, and the texts in which they are reported. Lists
are reported as JSON whose items are strings, so that every value inside is written the same way as
outside. `HasType` says which values belong to a type.
-/

namespace LedgerGateway.Abi

inductive Value where
  | bool (b : Bool)
  /-- An integer in two's complement. -/
  | int (w : Word)
  | uint (w : Word)
  /-- A byte string of a length that its type fixes. -/
  | fixedBytes (b : Bytes)
  | address (a : Address)
  /-- An address with a selector. -/
  | function (f : SizedBytes 24)
  | bytes (b : Bytes)
  | string (s : String)
  /-- A list whose length its type leaves open. -/
  | array (items : List Value)
  /-- A list whose length its type fixes, with one type for all places or one for each. -/
  | tuple (items : List Value)
  deriving Inhabited

namespace Value

mutual

/-- The text in which a value is reported. -/
def render : Value → String
  | bool true => "true"
  | bool false => "false"
  | int w => Text.signedDecimal w.toInt
  | uint w => Text.decimal w.toNat
  | fixedBytes b => Hex.encode b
  | address a => a.hex
  | function f => "Function(" ++ f.hex ++ ")"
  | bytes b => Hex.encode b
  | string s => s
  | array items | tuple items => (Json.ofTexts (renderAll items)).render

/-- The texts of values. -/
def renderAll : List Value → List String
  | [] => []
  | item :: rest => item.render :: renderAll rest

end

mutual

/-- The encoding of the value stands behind an offset. -/
def isDynamic : Value → Bool
  | bytes _ | string _ | array _ => true
  | tuple items => anyDynamic items
  | bool _ | int _ | uint _ | fixedBytes _ | address _ | function _ => false

def anyDynamic : List Value → Bool
  | [] => false
  | item :: rest => item.isDynamic || anyDynamic rest

end

end Value

mutual

/-- A value belongs to a type. -/
inductive HasType : Value → Ty → Prop where
  | bool (b : Bool) : HasType (.bool b) .bool
  | int {bits : Nat} {w : Word} (least : -(Nat.pow 2 (bits - 1) : Int) ≤ w.toInt)
      (greatest : w.toInt < Nat.pow 2 (bits - 1)) :
      HasType (.int w) (.int bits)
  /-- A natural number that fits. -/
  | uint {bits : Nat} {w : Word} (fits : w.toNat < Nat.pow 2 bits) : HasType (.uint w) (.uint bits)
  /-- A byte string of the length. -/
  | fixedBytes (b : Bytes) : HasType (.fixedBytes b) (.fixedBytes b.length)
  | address (a : Address) : HasType (.address a) .address
  /-- An address with a selector. -/
  | function (f : SizedBytes 24) : HasType (.function f) .function
  | bytes (b : Bytes) : HasType (.bytes b) .bytes
  | string (s : String) : HasType (.string s) .string
  /-- A list of values of the item's type. -/
  | array {items : List Value} {t : Ty} (each : AllHaveType items t) :
      HasType (.array items) (.array t)
  /-- As many values of the item's type as there are places. -/
  | fixedArray {items : List Value} {t : Ty} (each : AllHaveType items t) :
      HasType (.tuple items) (.fixedArray t items.length)
  /-- A value of each place's type. -/
  | tuple {items : List Value} {ts : List Ty} (each : HaveTypes items ts) :
      HasType (.tuple items) (.tuple ts)

/-- Values belong to one type. -/
inductive AllHaveType : List Value → Ty → Prop where
  | nil (t : Ty) : AllHaveType [] t
  | cons {v : Value} {vs : List Value} {t : Ty} (head : HasType v t) (tail : AllHaveType vs t) :
      AllHaveType (v :: vs) t

/-- Values belong to types, one to one. -/
inductive HaveTypes : List Value → List Ty → Prop where
  | nil : HaveTypes [] []
  | cons {v : Value} {vs : List Value} {t : Ty} {ts : List Ty} (head : HasType v t)
      (tail : HaveTypes vs ts) : HaveTypes (v :: vs) (t :: ts)

end

end LedgerGateway.Abi

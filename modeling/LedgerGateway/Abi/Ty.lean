import LedgerGateway.Bytes.Sized

/-!
# Types of contract values

The types that functions of contracts take and return. A type is dynamic when the length of its
encoding depends on the value; such a value stands behind an offset.
-/

namespace LedgerGateway.Abi

/-- The type of a value. -/
inductive Ty where
  | bool
  /-- Integers of so many bits. -/
  | int (bits : Nat)
  /-- Natural numbers of so many bits. -/
  | uint (bits : Nat)
  /-- Byte strings of one length. -/
  | fixedBytes (length : Nat)
  | address
  | function
  | bytes
  | string
  /-- Lists of any length. -/
  | array (item : Ty)
  | fixedArray (item : Ty) (length : Nat)
  /-- Lists with a type for each place. -/
  | tuple (items : List Ty)
  deriving Repr, Inhabited

namespace Ty

mutual

/-- The text of a type. A list of one place keeps a comma. -/
def display : Ty → String
  | bool => "bool"
  | int bits => "int" ++ Text.decimal bits
  | uint bits => "uint" ++ Text.decimal bits
  | fixedBytes length => "bytes" ++ Text.decimal length
  | address => "address"
  | function => "function"
  | bytes => "bytes"
  | string => "string"
  | array item => item.display ++ "[]"
  | fixedArray item length => item.display ++ "[" ++ Text.decimal length ++ "]"
  | tuple [item] => "(" ++ item.display ++ ",)"
  | tuple items => "(" ++ ",".intercalate (displayAll items) ++ ")"

/-- The texts of types. -/
def displayAll : List Ty → List String
  | [] => []
  | item :: rest => item.display :: displayAll rest

end

mutual

/-- The length of the encoding depends on the value. -/
def isDynamic : Ty → Bool
  | bytes | string | array _ => true
  | fixedArray item _ => item.isDynamic
  | tuple items => anyDynamic items
  | bool | int _ | uint _ | fixedBytes _ | address | function => false

def anyDynamic : List Ty → Bool
  | [] => false
  | item :: rest => item.isDynamic || anyDynamic rest

end

mutual

/-- How many words any value takes at least, where an offset is a word and so is a length. What a
dynamic tuple holds counts as if it stood in place. -/
def minimumWords : Ty → Nat
  | fixedArray item length => item.minimumWords * length
  | tuple items => minimumWordsOfAll items
  | bool | int _ | uint _ | fixedBytes _ | address | function | bytes | string | array _ => 1

/-- How many words values of the types take at least. -/
def minimumWordsOfAll : List Ty → Nat
  | [] => 0
  | item :: rest => item.minimumWords + minimumWordsOfAll rest

end

mutual

/-- Nothing but empty tuples, and lists of such. -/
def isHollow : Ty → Bool
  | array item => item.isHollow
  | fixedArray item _ => item.isHollow
  | tuple items => allHollow items
  | bool | int _ | uint _ | fixedBytes _ | address | function | bytes | string => false

def allHollow : List Ty → Bool
  | [] => true
  | item :: rest => item.isHollow && allHollow rest

end

end Ty

end LedgerGateway.Abi

import LedgerGateway.Bytes.Sized

/-!
# Recursive length prefixes

An item is a byte string or a list of items. A byte string of one byte below `0x80` stands for
itself; all else has a header with its length, in one byte below 56 and behind a count of length bytes
from there on. Numbers are byte strings without leading zeros.
-/

namespace LedgerGateway.Rlp

/-- A byte string or a list of items. -/
inductive Item where
  | bytes (b : Bytes)
  | list (items : List Item)

/-- The header of a payload: `short` is the tag of an empty one, and `short + 55` that from which the
tags of long ones count. -/
def headerBytes (short : UInt8) (length : Nat) : Bytes :=
  if length < 56 then [short + UInt8.ofNat length]
  else
    let digits := Bytes.ofNat length
    (short + 55 + UInt8.ofNat digits.length) :: digits

/-- A byte string with its header. -/
def encodeBytes (b : Bytes) : Bytes :=
  match b with
  | [x] => if x < 0x80 then [x] else headerBytes 0x80 1 ++ [x]
  | _ => headerBytes 0x80 b.length ++ b

def encodeNat (n : Nat) : Bytes := encodeBytes (Bytes.ofNat n)

/-- A list, given the bytes of its items. -/
def encodeList (payload : Bytes) : Bytes := headerBytes 0xc0 payload.length ++ payload

namespace Item

def ofNat (n : Nat) : Item := .bytes (Bytes.ofNat n)

mutual

def encode : Item → Bytes
  | .bytes b => encodeBytes b
  | .list items => encodeList (encodeAll items)

def encodeAll : List Item → Bytes
  | [] => []
  | item :: items => encode item ++ encodeAll items

end

end Item

end LedgerGateway.Rlp

import LedgerGateway.Rlp.Reader

/-!
# The grammar of items

`Item.decode?` reads a byte string that spells one item and nothing else. Lists may nest to any
depth; every header is read by `readHeader`, so that only the shortest one is taken.
-/

namespace LedgerGateway.Rlp

/-- Reads items until the input ends, of which there are at most `fuel`. -/
def readRow (read : Bytes → Option (Item × Bytes)) : Nat → Bytes → Option (List Item)
  | _, [] => some []
  | 0, _ :: _ => none
  | fuel + 1, b :: input => do
    let (item, rest) ← read (b :: input)
    let items ← readRow read fuel rest
    some (item :: items)

/-- Reads an item with lists that nest less than `depth` deep, and what follows it. A list takes its
payload as a whole. -/
def readItem : Nat → Bytes → Option (Item × Bytes)
  | 0, _ => none
  | depth + 1, input => do
    let (header, rest) ← (readHeader input).toOption
    let payload := rest.take header.length
    if header.isList then
      let items ← readRow (readItem depth) payload.length payload
      some (.list items, rest.drop header.length)
    else some (.bytes payload, rest.drop header.length)

/-- The item that the bytes spell. Every list takes a byte for its header, so that no item nests
deeper than its bytes are many. -/
def Item.decode? (input : Bytes) : Option Item :=
  match readItem input.length input with
  | some (item, []) => some item
  | _ => none

end LedgerGateway.Rlp

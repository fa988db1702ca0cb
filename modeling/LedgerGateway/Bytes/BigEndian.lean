/-!
# Big-endian numbers

Numbers as bytes, the most significant first: `ofNat` without leading zeros, `fixed` in a given
width, `toNat` back.
-/

namespace LedgerGateway

/-- A byte string. -/
abbrev Bytes := List UInt8

namespace Bytes

/-- The number that the bytes write in base 256. -/
def toNat (bytes : Bytes) : Nat := bytes.foldl (fun n b => n * 256 + b.toNat) 0

/-- The last `width` bytes of a number. -/
def fixed : Nat → Nat → Bytes
  | 0, _ => []
  | width + 1, n => fixed width (n / 256) ++ [UInt8.ofNat n]

/-- The bytes of a number that has at most `fuel` of them, without leading zeros. -/
def ofNatUpTo : Nat → Nat → Bytes
  | 0, _ => []
  | fuel + 1, n => if n = 0 then [] else ofNatUpTo fuel (n / 256) ++ [UInt8.ofNat n]

/-- The bytes of a number without leading zeros; zero has none. -/
def ofNat (n : Nat) : Bytes := ofNatUpTo (n.log2 / 8 + 1) n

/-- The bytes behind as many zeros as fill the width. -/
def padLeft (width : Nat) (bytes : Bytes) : Bytes :=
  List.replicate (width - bytes.length) 0 ++ bytes

/-- The bytes before as many zeros as fill the width. -/
def padRight (width : Nat) (bytes : Bytes) : Bytes :=
  bytes ++ List.replicate (width - bytes.length) 0

@[simp] theorem length_fixed (width n : Nat) : (fixed width n).length = width := by
  induction width generalizing n with
  | zero => rfl
  | succ width ih => simp [fixed, ih]

end Bytes

end LedgerGateway

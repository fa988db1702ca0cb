import LedgerGateway.Bytes.Sized

/-!
# Keccak-256

The sponge over Keccak-f[1600] with a rate of 136 bytes and the padding `0x01 … 0x80`. The state is
a row of twenty-five lanes; the lane of column `x` and row `y` stands at `x + 5 * y`.
-/

namespace LedgerGateway.Keccak

/-- Twenty-five lanes of 64 bits. -/
abbrev State := Vector UInt64 25

/-- How many bytes a block has. -/
def rate : Nat := 136

/-- The lane of column `x` and row `y`, both counted modulo five. -/
def lane (s : State) (x y : Nat) : UInt64 :=
  have : x % 5 + 5 * (y % 5) < 25 := by omega
  s[x % 5 + 5 * (y % 5)]

/-- The lanes that a function of column and row gives. -/
def tabulate (f : Nat → Nat → UInt64) : State := Vector.ofFn fun i => f (i.val % 5) (i.val / 5)

/-- A word turned to the left. -/
def rotate (w : UInt64) (n : Nat) : UInt64 :=
  if n % 64 = 0 then w else (w <<< (n % 64).toUInt64) ||| (w >>> (64 - n % 64).toUInt64)

/-- By how much the lane of column `x` and row `y` is turned, at `x + 5 * y`. -/
def offsets : List Nat :=
  [0, 1, 62, 28, 27, 36, 44, 6, 55, 20, 3, 10, 43, 25, 39, 41, 45, 15, 21, 8, 18, 2, 61, 56, 14]

def roundConstants : List UInt64 :=
  [0x0000000000000001, 0x0000000000008082, 0x800000000000808a, 0x8000000080008000,
   0x000000000000808b, 0x0000000080000001, 0x8000000080008081, 0x8000000000008009,
   0x000000000000008a, 0x0000000000000088, 0x0000000080008009, 0x000000008000000a,
   0x000000008000808b, 0x800000000000008b, 0x8000000000008089, 0x8000000000008003,
   0x8000000000008002, 0x8000000000000080, 0x000000000000800a, 0x800000008000000a,
   0x8000000080008081, 0x8000000000008080, 0x0000000080000001, 0x8000000080008008]

/-- Adds to each lane the parities of two columns beside it. -/
def theta (s : State) : State :=
  let parity : Vector UInt64 5 := Vector.ofFn fun x =>
    lane s x.val 0 ^^^ lane s x.val 1 ^^^ lane s x.val 2 ^^^ lane s x.val 3 ^^^ lane s x.val 4
  let column (x : Nat) : UInt64 :=
    have : x % 5 < 5 := by omega
    parity[x % 5]
  tabulate fun x y => lane s x y ^^^ column (x + 4) ^^^ rotate (column (x + 1)) 1

/-- Turns the lanes and moves the lane of column `x`, row `y` to column `y`, row `2x + 3y`. -/
def rhoPi (s : State) : State :=
  tabulate fun x y =>
    let source := (x + 3 * y) % 5
    rotate (lane s source x) ((offsets[source + 5 * x]?).getD 0)

/-- Combines each lane with the two to its right. -/
def chi (s : State) : State :=
  tabulate fun x y => lane s x y ^^^ ((~~~ lane s (x + 1) y) &&& lane s (x + 2) y)

def round (s : State) (constant : UInt64) : State :=
  let t := chi (rhoPi (theta s))
  t.set 0 (t[0] ^^^ constant)

/-- The permutation of twenty-four rounds. -/
def permute (s : State) : State := roundConstants.foldl round s

/-- The number that eight bytes write, the least significant first. -/
def wordOfBytes (bytes : Bytes) : UInt64 :=
  bytes.foldr (fun b w => (w <<< 8) ||| b.toUInt64) 0

/-- The eight bytes of a word, the least significant first. -/
def bytesOfWord (w : UInt64) : Bytes :=
  [w.toUInt8, (w >>> 8).toUInt8, (w >>> 16).toUInt8, (w >>> 24).toUInt8, (w >>> 32).toUInt8,
   (w >>> 40).toUInt8, (w >>> 48).toUInt8, (w >>> 56).toUInt8]

/-- Adds a block to the front of the state and permutes. -/
def absorb (s : State) (block : Bytes) : State :=
  permute <| tabulate fun x y =>
    lane s x y ^^^ wordOfBytes ((block.drop (8 * (x + 5 * y))).take 8)

/-- Absorbs whole blocks, of which there are at most `fuel`. -/
def absorbAll : Nat → State → Bytes → State
  | 0, s, _ => s
  | fuel + 1, s, bytes =>
    if bytes.isEmpty then s else absorbAll fuel (absorb s (bytes.take rate)) (bytes.drop rate)

/-- The bytes filled up to whole blocks. -/
def pad (bytes : Bytes) : Bytes :=
  let missing := rate - bytes.length % rate
  if missing = 1 then bytes ++ [0x81]
  else bytes ++ 0x01 :: (List.replicate (missing - 2) 0 ++ [0x80])

def hash (bytes : Bytes) : Digest :=
  let padded := pad bytes
  let s := absorbAll (padded.length / rate) (Vector.replicate 25 0) padded
  ⟨bytesOfWord s[0] ++ bytesOfWord s[1] ++ bytesOfWord s[2] ++ bytesOfWord s[3], by
    simp [bytesOfWord]⟩

end LedgerGateway.Keccak

import LedgerGateway.Bytes.Sized

/-!
# Hashes built from blocks of 64 bytes

What SHA-256 and SM3 share: the padding with the length in bits, the cut into blocks, and words of
32 bits read and written with the most significant byte first.
-/

namespace LedgerGateway.Blocks

/-- How many bytes a block has. -/
def size : Nat := 64

/-- A word of 32 bits turned to the left. -/
def rotate (w : UInt32) (n : Nat) : UInt32 :=
  if n % 32 = 0 then w else (w <<< (n % 32).toUInt32) ||| (w >>> (32 - n % 32).toUInt32)

/-- The bytes followed by a one bit, zeros, and their length in bits, in whole blocks. -/
def pad (bytes : Bytes) : Bytes :=
  let zeros := (size - (bytes.length + 9) % size) % size
  bytes ++ 0x80 :: (List.replicate zeros 0 ++ Bytes.fixed 8 (bytes.length * 8))

/-- The words of at most `fuel` groups of four bytes. -/
def words : Nat → Bytes → List UInt32
  | 0, _ => []
  | fuel + 1, bytes =>
    if bytes.isEmpty then []
    else (Bytes.toNat (bytes.take 4)).toUInt32 :: words fuel (bytes.drop 4)

/-- Feeds whole blocks, of which there are at most `fuel`, as sixteen words each. -/
def fold {σ : Type} (step : σ → List UInt32 → σ) : Nat → σ → Bytes → σ
  | 0, s, _ => s
  | fuel + 1, s, bytes =>
    if bytes.isEmpty then s
    else fold step fuel (step s (words 16 (bytes.take size))) (bytes.drop size)

/-- The state between two blocks: eight words. -/
structure State where
  a : UInt32
  b : UInt32
  c : UInt32
  d : UInt32
  e : UInt32
  f : UInt32
  g : UInt32
  h : UInt32
  deriving DecidableEq, Repr

namespace State

/-- The words of two states, combined one by one. -/
def combine (op : UInt32 → UInt32 → UInt32) (s t : State) : State :=
  ⟨op s.a t.a, op s.b t.b, op s.c t.c, op s.d t.d, op s.e t.e, op s.f t.f, op s.g t.g, op s.h t.h⟩

/-- The bytes of the words. -/
def digest (s : State) : Digest :=
  let b (x : UInt32) : Bytes := Bytes.fixed 4 x.toNat
  ⟨b s.a ++ b s.b ++ b s.c ++ b s.d ++ b s.e ++ b s.f ++ b s.g ++ b s.h, by simp [b]⟩

end State

/-- Runs a compression function over the padded bytes. -/
def run (step : State → List UInt32 → State) (start : State) (bytes : Bytes) : Digest :=
  let padded := pad bytes
  (fold step (padded.length / size) start padded).digest

/-- The keyed hash HMAC over a hash with blocks of 64 bytes. -/
def hmac (hash : Bytes → Digest) (key message : Bytes) : Bytes :=
  let short := if key.length > size then (hash key).1 else key
  let padded := Bytes.padRight size short
  let inner := (hash (padded.map (· ^^^ 0x36) ++ message)).1
  (hash (padded.map (· ^^^ 0x5c) ++ inner)).1

end LedgerGateway.Blocks

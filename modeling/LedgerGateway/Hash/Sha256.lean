import LedgerGateway.Hash.Blocks

/-!
# SHA-256

The compression function over a schedule of 64 words, run over padded blocks.
-/

namespace LedgerGateway.Sha256

def roundConstants : List UInt32 :=
  [0x428a2f98, 0x71374491, 0xb5c0fbcf, 0xe9b5dba5, 0x3956c25b, 0x59f111f1, 0x923f82a4, 0xab1c5ed5,
   0xd807aa98, 0x12835b01, 0x243185be, 0x550c7dc3, 0x72be5d74, 0x80deb1fe, 0x9bdc06a7, 0xc19bf174,
   0xe49b69c1, 0xefbe4786, 0x0fc19dc6, 0x240ca1cc, 0x2de92c6f, 0x4a7484aa, 0x5cb0a9dc, 0x76f988da,
   0x983e5152, 0xa831c66d, 0xb00327c8, 0xbf597fc7, 0xc6e00bf3, 0xd5a79147, 0x06ca6351, 0x14292967,
   0x27b70a85, 0x2e1b2138, 0x4d2c6dfc, 0x53380d13, 0x650a7354, 0x766a0abb, 0x81c2c92e, 0x92722c85,
   0xa2bfe8a1, 0xa81a664b, 0xc24b8b70, 0xc76c51a3, 0xd192e819, 0xd6990624, 0xf40e3585, 0x106aa070,
   0x19a4c116, 0x1e376c08, 0x2748774c, 0x34b0bcb5, 0x391c0cb3, 0x4ed8aa4a, 0x5b9cca4f, 0x682e6ff3,
   0x748f82ee, 0x78a5636f, 0x84c87814, 0x8cc70208, 0x90befffa, 0xa4506ceb, 0xbef9a3f7, 0xc67178f2]

/-- The state before the first block. -/
def start : Blocks.State :=
  ⟨0x6a09e667, 0xbb67ae85, 0x3c6ef372, 0xa54ff53a, 0x510e527f, 0x9b05688c, 0x1f83d9ab, 0x5be0cd19⟩

/-- Appends one word to a schedule. -/
def extend (w : Array UInt32) : Array UInt32 :=
  let back (k : Nat) : UInt32 := w.getD (w.size - k) 0
  let x := back 15
  let y := back 2
  let s0 := Blocks.rotate x 25 ^^^ Blocks.rotate x 14 ^^^ (x >>> 3)
  let s1 := Blocks.rotate y 15 ^^^ Blocks.rotate y 13 ^^^ (y >>> 10)
  w.push (back 16 + s0 + back 7 + s1)

/-- The schedule of a block: its sixteen words and forty-eight more. -/
def schedule (block : List UInt32) : List UInt32 :=
  ((List.range 48).foldl (fun w _ => extend w) block.toArray).toList

/-- One round, given its constant and its word. -/
def round (s : Blocks.State) (kw : UInt32 × UInt32) : Blocks.State :=
  let s1 := Blocks.rotate s.e 26 ^^^ Blocks.rotate s.e 21 ^^^ Blocks.rotate s.e 7
  let choice := (s.e &&& s.f) ^^^ ((~~~ s.e) &&& s.g)
  let t1 := s.h + s1 + choice + kw.1 + kw.2
  let s0 := Blocks.rotate s.a 30 ^^^ Blocks.rotate s.a 19 ^^^ Blocks.rotate s.a 10
  let majority := (s.a &&& s.b) ^^^ (s.a &&& s.c) ^^^ (s.b &&& s.c)
  ⟨t1 + (s0 + majority), s.a, s.b, s.c, s.d + t1, s.e, s.f, s.g⟩

def compress (s : Blocks.State) (block : List UInt32) : Blocks.State :=
  s.combine (· + ·) ((roundConstants.zip (schedule block)).foldl round s)

def hash (bytes : Bytes) : Digest := Blocks.run compress start bytes

end LedgerGateway.Sha256

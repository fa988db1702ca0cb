import LedgerGateway.Account.Basic
import LedgerGateway.Curve.Weierstrass
import LedgerGateway.Hash.Blocks

/-!
# Secrets and the numbers drawn for signatures

A secret is a number between one and the order of a curve. `nonce?` draws the number that a
signature needs from the secret and the hash alone, by the generator of RFC 6979, so that the same
hash is always signed the same way.
-/

namespace LedgerGateway.Secret

open Curve

/-- The secret that 24 to 32 bytes write, if it is between one and the order. -/
def ofBytes? (c : Params) (bytes : Bytes) : Option Nat :=
  let value := Bytes.toNat bytes
  if 24 ≤ bytes.length && bytes.length ≤ 32 && c.isScalar value then some value else none

/-- The two coordinates of a point in 32 bytes each. -/
def publicBytes (q : Affine) : SizedBytes 64 :=
  ⟨Bytes.fixed 32 q.x ++ Bytes.fixed 32 q.y, by simp⟩

/-- The state of the generator: a key and a value. -/
structure Generator where
  key : Bytes
  value : Bytes

namespace Generator

variable (hash : Bytes → Digest)

def mix (g : Generator) (tag : UInt8) (data : Bytes) : Generator :=
  let key := Blocks.hmac hash g.key (g.value ++ tag :: data)
  ⟨key, Blocks.hmac hash key g.value⟩

/-- The state before the first draw. -/
def seed (secret digest : Nat) : Generator :=
  let data := Bytes.fixed 32 secret ++ Bytes.fixed 32 digest
  let g : Generator := ⟨List.replicate 32 0, List.replicate 32 1⟩
  mix hash (mix hash g 0 data) 1 data

/-- Draws until a number is between one and the order, `fuel` times at most. -/
def draw (c : Params) : Nat → Generator → Option Nat
  | 0, _ => none
  | fuel + 1, g =>
    let value := Blocks.hmac hash g.key g.value
    let k := Bytes.toNat value
    if c.isScalar k then some k
    else
      let key := Blocks.hmac hash g.key (value ++ [0])
      draw c fuel ⟨key, Blocks.hmac hash key value⟩

end Generator

/-- How often a number is drawn at most. One draw in four thousand million fails. -/
def drawLimit : Nat := 64

/-- The number for a signature under a secret over a digest of 32 bytes. -/
def nonce? (hash : Bytes → Digest) (c : Params) (secret digest : Nat) : Option Nat :=
  (Generator.seed hash secret digest).draw hash c drawLimit

end LedgerGateway.Secret

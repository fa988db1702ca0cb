/-!
# Curves in short Weierstrass form

Points of `y² = x³ + a x + b` over the integers modulo a prime. Sums are computed on triples
`(X, Y, Z)` that stand for the point `(X / Z², Y / Z³)`, so that a product of a point by a number
needs one division.
-/

namespace LedgerGateway.Curve

/-- A power modulo `m`, by squaring along the bits of the exponent from the highest. -/
def powMod (m base exponent : Nat) : Nat :=
  (List.range (exponent.log2 + 1)).foldr
    (fun i acc =>
      let square := acc * acc % m
      if exponent.testBit i then square * base % m else square)
    (1 % m)

/-- The inverse modulo a prime; zero has the inverse zero. -/
def inverse (p x : Nat) : Nat := powMod p (x % p) (p - 2)

/-- A difference modulo `m` of two numbers below `m`. -/
def subMod (m x y : Nat) : Nat := (x + (m - y)) % m

/-- A point with its two coordinates. -/
structure Affine where
  x : Nat
  y : Nat
  deriving DecidableEq, Repr

/-- The numbers that fix a curve and its generator. -/
structure Params where
  /-- The prime of the coordinates. -/
  p : Nat
  a : Nat
  b : Nat
  /-- The order of the generator, a prime. -/
  n : Nat
  g : Affine

/-- A point as a triple; those with `Z = 0` are the point at infinity. -/
structure Jacobian where
  /-- The first coordinate times `Z²`. -/
  X : Nat
  /-- The second coordinate times `Z³`. -/
  Y : Nat
  Z : Nat

namespace Jacobian

def infinity : Jacobian := ⟨1, 1, 0⟩

/-- A point of the plane as a triple. -/
def ofAffine (q : Affine) : Jacobian := ⟨q.x, q.y, 1⟩

/-- The coordinates of a triple, unless it is the point at infinity. -/
def toAffine? (c : Params) (q : Jacobian) : Option Affine :=
  if q.Z % c.p = 0 then none
  else
    let zi := inverse c.p q.Z
    let zi2 := zi * zi % c.p
    some ⟨q.X * zi2 % c.p, q.Y * (zi2 * zi % c.p) % c.p⟩

/-- Twice a point. -/
def double (c : Params) (q : Jacobian) : Jacobian :=
  let p := c.p
  if q.Z = 0 || q.Y = 0 then infinity
  else
    let yy := q.Y * q.Y % p
    let s := 4 * (q.X * yy) % p
    let zz := q.Z * q.Z % p
    let m := (3 * (q.X * q.X) + c.a * (zz * zz % p)) % p
    let x := subMod p (m * m % p) (2 * s % p)
    let y := subMod p (m * subMod p s x % p) (8 * (yy * yy) % p)
    ⟨x, y, 2 * (q.Y * q.Z) % p⟩

/-- The sum of two points. -/
def add (c : Params) (q r : Jacobian) : Jacobian :=
  let p := c.p
  if q.Z = 0 then r
  else if r.Z = 0 then q
  else
    let zq := q.Z * q.Z % p
    let zr := r.Z * r.Z % p
    let u1 := q.X * zr % p
    let u2 := r.X * zq % p
    let s1 := q.Y * (zr * r.Z % p) % p
    let s2 := r.Y * (zq * q.Z % p) % p
    let h := subMod p u2 u1
    let d := subMod p s2 s1
    if h = 0 then (if d = 0 then double c q else infinity)
    else
      let hh := h * h % p
      let hhh := h * hh % p
      let v := u1 * hh % p
      let x := subMod p (subMod p (d * d % p) hhh) (2 * v % p)
      let y := subMod p (d * subMod p v x % p) (s1 * hhh % p)
      ⟨x, y, h * (q.Z * r.Z % p) % p⟩

/-- The product of a point by a number, by doubling along its bits from the highest. -/
def mul (c : Params) (k : Nat) (q : Jacobian) : Jacobian :=
  (List.range (k.log2 + 1)).foldr
    (fun i acc =>
      let twice := double c acc
      if k.testBit i then add c twice q else twice)
    infinity

end Jacobian

namespace Params

/-- The sum `k G + l Q` of multiples of the generator and of a point, unless it is infinite. -/
def combine? (c : Params) (k l : Nat) (q : Affine) : Option Affine :=
  (Jacobian.add c (Jacobian.mul c k (.ofAffine c.g)) (Jacobian.mul c l (.ofAffine q))).toAffine? c

/-- A multiple of the generator, unless it is infinite. -/
def generate? (c : Params) (k : Nat) : Option Affine :=
  (Jacobian.mul c k (.ofAffine c.g)).toAffine? c

/-- The right side of the equation of the curve. -/
def cubic (c : Params) (x : Nat) : Nat := (x * x % c.p * x + c.a * x + c.b) % c.p

/-- Reduced coordinates that satisfy the equation. -/
def contains (c : Params) (q : Affine) : Bool :=
  q.x < c.p && q.y < c.p && q.y * q.y % c.p == c.cubic q.x

/-- The point with the given first coordinate and parity of the second; the prime is three modulo
four. -/
def lift? (c : Params) (x : Nat) (odd : Bool) : Option Affine :=
  let square := c.cubic x
  let root := powMod c.p square ((c.p + 1) / 4)
  if x < c.p && root * root % c.p == square then
    some ⟨x, if (root % 2 == 1) == odd then root else (c.p - root) % c.p⟩
  else none

/-- The number is a secret or a half of a signature: between one and the order. -/
def isScalar (c : Params) (k : Nat) : Bool := 0 < k && k < c.n

end Params

def secp256k1 : Params where
  p := 0xfffffffffffffffffffffffffffffffffffffffffffffffffffffffefffffc2f
  a := 0
  b := 7
  n := 0xfffffffffffffffffffffffffffffffebaaedce6af48a03bbfd25e8cd0364141
  g := ⟨0x79be667ef9dcbbac55a06295ce870b07029bfcdb2dce28d959f2815b16f81798,
    0x483ada7726a3c4655da4fbfc0e1108a8fd17b448a68554199c47d08ffb10d4b8⟩

def sm2p256v1 : Params where
  p := 0xfffffffeffffffffffffffffffffffffffffffff00000000ffffffffffffffff
  a := 0xfffffffeffffffffffffffffffffffffffffffff00000000fffffffffffffffc
  b := 0x28e9fa9e9d9f5e344d5a9e4bcf6509a7f39789f515ab8f92ddbcbd414d940e93
  n := 0xfffffffeffffffffffffffffffffffff7203df6b21c6052b53bbf40939d54123
  g := ⟨0x32c4ae2c1f1981195f9904466a39c9948fe30bbff2660be1715a4589334c74c7,
    0xbc3736a2f4f6779c59bdcee36b692153d0a9877cc62a474002df32e52139f0a0⟩

end LedgerGateway.Curve

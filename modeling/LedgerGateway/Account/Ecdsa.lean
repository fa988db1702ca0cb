import LedgerGateway.Account.Secret
import LedgerGateway.Hash.Keccak
import LedgerGateway.Hash.Sha256

/-!
# The standard profile

secp256k1 signatures over Keccak-256 hashes. A signature carries the lower of its two possible second
halves, and `v` says which of the two points with the first half as abscissa was drawn, so that the
public key can be computed back from it.
-/

namespace LedgerGateway.Ecdsa

open Curve

/-- The curve of the profile. -/
abbrev curve : Params := secp256k1

/-- The hash as a number below the order. -/
def scalarOf (hash : Digest) : Nat := hash.toNat % curve.n

/-- The second half is above half the order. -/
def isHigh (s : Nat) : Bool := curve.n / 2 < s

/-- Signs a hash. The number of the signature is drawn from the hash as it is, not reduced. -/
def sign? (secret : Nat) (hash : Digest) : Option Signature := do
  let z := scalarOf hash
  let k ← Secret.nonce? Sha256.hash curve secret hash.toNat
  let point ← curve.generate? k
  let r := point.x % curve.n
  let s := inverse curve.n k * (z + r * secret) % curve.n
  if r = 0 || s = 0 then none
  else
    let odd := (point.y % 2 == 1) != isHigh s
    let low := if isHigh s then curve.n - s else s
    some (.ecdsa (if odd then 28 else 27) (BitVec.ofNat 256 r) (BitVec.ofNat 256 low))

/-- The public key under which the two halves sign the hash, if there is one. -/
def recover? (hash : Digest) (odd : Bool) (r s : Nat) : Option Affine :=
  if !(curve.isScalar r && curve.isScalar s) then none
  else do
    let odd := odd != isHigh s
    let s := if isHigh s then curve.n - s else s
    let point ← curve.lift? r odd
    let w := inverse curve.n r
    let u := subMod curve.n 0 (scalarOf hash * w % curve.n)
    curve.combine? u (s * w % curve.n) point

def keyPair? (secret : Nat) : Option KeyPair := do
  let point ← curve.generate? secret
  pure {
    kind := .ecdsa
    address := CryptoProfile.addressOf Keccak.hash (Secret.publicBytes point)
    secret := SizedBytes.ofNat 32 secret
    signHash := fun hash =>
      match sign? secret hash with
      | some signature => .ok signature
      | none => .error (.signingFailed "Failed to sign hash: signature error") }

def recoverSigner (hash : Digest) : Signature → Except AccountError Address
  | .sm2 .. => .error (.profileMismatch .ecdsa .gm)
  | .ecdsa v r s =>
    match (if v == 0 || v == 27 then some false else if v == 1 || v == 28 then some true else none) with
    | none => .error (.invalidSignature ("Invalid recovery id " ++ Text.decimal v.toNat))
    | some odd =>
      match recover? hash odd r.toNat s.toNat with
      | some point => .ok (CryptoProfile.addressOf Keccak.hash (Secret.publicBytes point))
      | none => .error (.invalidSignature "signature error")

/-- secp256k1 with Keccak-256. -/
def profile : CryptoProfile where
  kind := .ecdsa
  hash := Keccak.hash
  loadKeyPair := fun bytes =>
    match (Secret.ofBytes? curve bytes).bind keyPair? with
    | some keyPair => .ok keyPair
    | none => .error (.invalidKey "Invalid secp256k1 key: signature error")
  recoverSigner := recoverSigner

end LedgerGateway.Ecdsa

import LedgerGateway.Account.Secret
import LedgerGateway.Hash.Sm3

/-!
# The national profile

SM2 signatures over SM3 hashes. The public key cannot be computed from a signature, so it travels
with it and the signature is checked under it. What is signed is the hash behind a prefix that
depends on the signer's identifier and key.
-/

namespace LedgerGateway.Gm

open Curve

/-- The curve of the profile. -/
abbrev curve : Params := sm2p256v1

/-- The identifier that every signer is given. -/
def identifier : String := "1234567812345678"

/-- The hash that stands for the signer: of the identifier, the curve and the public key. -/
def signerDigest (publicKey : SizedBytes 64) : Digest :=
  let id := Text.Utf8.encode identifier
  Sm3.hash <| Bytes.fixed 2 (id.length * 8) ++ id ++ Bytes.fixed 32 curve.a ++ Bytes.fixed 32 curve.b ++
    Bytes.fixed 32 curve.g.x ++ Bytes.fixed 32 curve.g.y ++ publicKey.1

/-- The number that is signed for a hash. -/
def scalarOf (publicKey : SizedBytes 64) (hash : Digest) : Nat :=
  (Sm3.hash ((signerDigest publicKey).1 ++ hash.1)).toNat % curve.n

/-- Signs a hash. The secret `n - 1` cannot sign. -/
def sign? (secret : Nat) (publicKey : SizedBytes 64) (hash : Digest) : Option Signature := do
  let n := curve.n
  let e := scalarOf publicKey hash
  let k ← Secret.nonce? Sm3.hash curve secret e
  let point ← curve.generate? k
  let r := (e + point.x) % n
  let d := (1 + secret) % n
  let s := inverse n d * subMod n k (r * secret % n) % n
  if d = 0 || r = 0 || (r + k) % n = 0 || s = 0 then none
  else some (.sm2 publicKey (BitVec.ofNat 256 r) (BitVec.ofNat 256 s))

/-- The two halves sign the hash under the public key. -/
def verify (publicKey : SizedBytes 64) (point : Affine) (hash : Digest) (r s : Nat) : Bool :=
  let n := curve.n
  let t := (r + s) % n
  t != 0 && match curve.combine? s t point with
    | none => false
    | some q => (scalarOf publicKey hash + q.x) % n == r

def keyPair? (secret : Nat) : Option KeyPair := do
  let point ← curve.generate? secret
  let publicKey := Secret.publicBytes point
  pure {
    kind := .gm
    address := CryptoProfile.addressOf Sm3.hash publicKey
    secret := SizedBytes.ofNat 32 secret
    signHash := fun hash =>
      match sign? secret publicKey hash with
      | some signature => .ok signature
      | none => .error (.signingFailed "SM2 signing failed: signature error") }

/-- The point that a public key writes, if it is on the curve. -/
def pointOf? (publicKey : SizedBytes 64) : Option Affine :=
  let point : Affine :=
    ⟨Bytes.toNat (publicKey.1.take 32), Bytes.toNat (publicKey.1.drop 32)⟩
  if curve.contains point then some point else none

def recoverSigner (hash : Digest) : Signature → Except AccountError Address
  | .ecdsa .. => .error (.profileMismatch .gm .ecdsa)
  | .sm2 publicKey r s =>
    match pointOf? publicKey with
    | none => .error (.invalidSignature "Invalid public key: signature error")
    | some point =>
      if curve.isScalar r.toNat && curve.isScalar s.toNat && verify publicKey point hash r.toNat s.toNat
      then .ok (CryptoProfile.addressOf Sm3.hash publicKey)
      else .error (.invalidSignature "signature error")

/-- SM2 with SM3. -/
def profile : CryptoProfile where
  kind := .gm
  hash := Sm3.hash
  loadKeyPair := fun bytes =>
    match (Secret.ofBytes? curve bytes).bind keyPair? with
    | some keyPair => .ok keyPair
    | none => .error (.invalidKey "Invalid SM2 key: crypto error")
  recoverSigner := recoverSigner

end LedgerGateway.Gm

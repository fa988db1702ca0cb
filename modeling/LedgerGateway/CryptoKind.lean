import LedgerGateway.Json.Decoder

/-!
# Families of cryptography

A chain signs either with secp256k1 over Keccak-256 or, under the national profile, with SM2 over
SM3. Everything above the accounts asks only which of the two it is.
-/

namespace LedgerGateway

/-- The family of hashes and signatures that a chain uses. -/
inductive CryptoKind where
  /-- secp256k1 over Keccak-256. -/
  | ecdsa
  /-- SM2 over SM3. -/
  | gm
  deriving DecidableEq, Repr, Inhabited

namespace CryptoKind

def name : CryptoKind → String
  | .ecdsa => "ECDSA"
  | .gm => "GM"

/-- The name of the curve, as key files and chain metadata have it. -/
def curveName : CryptoKind → String
  | .ecdsa => "secp256k1"
  | .gm => "sm2p256v1"

def ofName? : String → Option CryptoKind
  | "ECDSA" | "ecdsa" | "secp256k1" => some .ecdsa
  | "GM" | "gm" | "sm2p256v1" => some .gm
  | _ => none

def decoder : Json.Decoder CryptoKind := Json.asName ofName?

def json (kind : CryptoKind) : Json := .text kind.name

theorem ofName?_name (kind : CryptoKind) : ofName? kind.name = some kind := by cases kind <;> rfl

theorem ofName?_curveName (kind : CryptoKind) : ofName? kind.curveName = some kind := by
  cases kind <;> rfl

end CryptoKind

end LedgerGateway

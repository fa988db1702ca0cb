import LedgerGateway.Bytes.Sized
import LedgerGateway.CryptoKind

/-!
# Accounts and crypto profiles

A `CryptoProfile` is what a family of cryptography has to offer: a hash, key pairs, and the address
behind a signature. It is a record of functions, so that a law about transactions or proofs can be
stated for every profile. An `Account` is a named key pair.
-/

namespace LedgerGateway

/-- A signature in the form that travels with a transaction. -/
inductive Signature where
  /-- `v` is 27 or 28 and tells which of two points was meant. -/
  | ecdsa (v : UInt8) (r s : Word)
  /-- The signer's public key goes along with the two halves. -/
  | sm2 (publicKey : SizedBytes 64) (r s : Word)
  deriving DecidableEq

/-- The family that a signature belongs to. -/
def Signature.kind : Signature → CryptoKind
  | .ecdsa .. => .ecdsa
  | .sm2 .. => .gm

/-- What can go wrong with keys and signatures. -/
inductive AccountError where
  /-- No signature could be made. -/
  | signingFailed (reason : String)
  /-- The secret is no key of the family. -/
  | invalidKey (reason : String)
  /-- The signature does not hold. -/
  | invalidSignature (reason : String)
  /-- A profile was asked about the other family. -/
  | profileMismatch (expected actual : CryptoKind)
  deriving DecidableEq, Repr

/-- The wording of an error about keys and signatures. -/
def AccountError.message : AccountError → String
  | .signingFailed reason => "Signing failed: " ++ reason
  | .invalidKey reason => "Invalid key: " ++ reason
  | .invalidSignature reason => "Invalid signature: " ++ reason
  | .profileMismatch expected actual =>
    "Signature of kind " ++ actual.name ++ " cannot be checked by the " ++ expected.name ++ " profile"

/-- A secret together with what follows from it. -/
structure KeyPair where
  kind : CryptoKind
  /-- The address of the public key. -/
  address : Address
  secret : SizedBytes 32
  signHash : Digest → Except AccountError Signature

/-- The text that stands for a key pair where its secret must not be shown. -/
def KeyPair.redacted (k : KeyPair) : String :=
  let name := match k.kind with
    | .ecdsa => "EcdsaKeyPair"
    | .gm => "SmKeyPair"
  name ++ " \x7b address: " ++ k.address.hex ++ ", .. \x7d"

/-- What a family of cryptography has to offer. -/
structure CryptoProfile where
  kind : CryptoKind
  hash : Bytes → Digest
  loadKeyPair : Bytes → Except AccountError KeyPair
  /-- The address of the account that signed the hash. -/
  recoverSigner : Digest → Signature → Except AccountError Address

namespace CryptoProfile

/-- The selector of a function's signature such as `set(string)`. -/
def selector (p : CryptoProfile) (signature : String) : Selector :=
  (p.hash (Text.Utf8.encode signature)).initial 4 (by decide)

/-- The address of a public key: the end of its hash. -/
def addressOf (hash : Bytes → Digest) (publicKey : SizedBytes 64) : Address :=
  (hash publicKey.1).suffix 20 (by decide)

/-- The key pair of a secret in digits, behind an optional mark. -/
def loadKeyPairHex (p : CryptoProfile) (secret : String) : Except AccountError KeyPair :=
  match Hex.decode (Hex.stripLowerMark (Text.trim secret)) with
  | .error e => .error (.invalidKey ("Invalid hex secret: " ++ e.message))
  | .ok bytes => p.loadKeyPair bytes

/-- The key pair of the first of some random draws that is a secret. -/
def generateKeyPair? (p : CryptoProfile) (draws : List Bytes) : Option KeyPair :=
  draws.findSome? fun draw => (p.loadKeyPair draw).toOption

end CryptoProfile

/-- A named identity that signs transactions. -/
structure Account where
  name : String
  keyPair : KeyPair

namespace Account

/-- The family of the account's key. -/
def kind (a : Account) : CryptoKind := a.keyPair.kind

def address (a : Account) : Address := a.keyPair.address

/-- The address as the ledger reports it in `from`. -/
def identity (a : Account) : String := a.address.hex

end Account

end LedgerGateway

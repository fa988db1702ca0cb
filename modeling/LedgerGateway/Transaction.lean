import LedgerGateway.Account.Basic
import LedgerGateway.Rlp.Reader

/-!
# Transactions

A transaction is a list of ten fields; a signed one has the three fields of its signature behind
them. Either is hashed as its bytes: the unsigned list is what is signed, and the signed list gives
the hash of the transaction. Only one spelling of a signed transaction is read.
-/

namespace LedgerGateway

/-- An unsigned transaction. -/
structure Transaction where
  /-- A number that tells equal transactions apart. -/
  nonce : Word
  gasPrice : Word
  /-- The most gas that may be used. -/
  gasLimit : Word
  /-- The last height at which the transaction may be included. -/
  blockLimit : UInt64
  /-- The contract that is called; none creates one from the data. -/
  destination : Option Address
  /-- The amount that is sent along. -/
  value : Word
  /-- The call data, or the code of a new contract with its arguments. -/
  data : Bytes
  chainId : String
  groupId : String
  extraData : Bytes
  deriving DecidableEq

/-- What can go wrong with a transaction. -/
inductive TransactionError where
  | invalidBlockLimit (limit : UInt64)
  /-- The key could not sign, or the signature does not hold. -/
  | signing (cause : AccountError)
  /-- The bytes are no signed transaction. -/
  | decode (reason : String)
  deriving DecidableEq, Repr

/-- The wording of an error about a transaction. -/
def TransactionError.message : TransactionError → String
  | .invalidBlockLimit limit =>
    "Invalid block limit " ++ Text.decimal limit.toNat ++ ": must be greater than zero"
  | .signing cause => "Signing failed: " ++ cause.message
  | .decode reason => "Decode failed: " ++ reason

namespace Transaction

/-! ## Writing -/

def items (tx : Transaction) : List Rlp.Item :=
  [.ofNat tx.nonce.toNat, .ofNat tx.gasPrice.toNat, .ofNat tx.gasLimit.toNat,
   .ofNat tx.blockLimit.toNat, .bytes ((tx.destination.map (·.1)).getD []), .ofNat tx.value.toNat,
   .bytes tx.data, .bytes (Text.Utf8.encode tx.chainId), .bytes (Text.Utf8.encode tx.groupId),
   .bytes tx.extraData]

def signatureItems : Signature → List Rlp.Item
  | .ecdsa v r s => [.ofNat v.toNat, .ofNat r.toNat, .ofNat s.toNat]
  | .sm2 publicKey r s => [.bytes publicKey.1, .ofNat r.toNat, .ofNat s.toNat]

def encodeUnsigned (tx : Transaction) : Bytes := (Rlp.Item.list tx.items).encode

def encodeSigned (tx : Transaction) (signature : Signature) : Bytes :=
  (Rlp.Item.list (tx.items ++ signatureItems signature)).encode

/-! ## Reading -/

/-- A signed transaction that was read. -/
structure Decoded where
  transaction : Transaction
  signature : Signature
  deriving DecidableEq

/-- A step of reading, with the library's errors as errors about the transaction. -/
def field {α : Type} (step : Except Rlp.Error α) : Except TransactionError α :=
  step.mapError fun e => .decode e.message

def readDestination (input : Bytes) : Except TransactionError (Option Address × Bytes) := do
  let (bytes, rest) ← field (Rlp.readBytes input)
  if bytes.isEmpty then .ok (none, rest)
  else match SizedBytes.ofBytes? 20 bytes with
    | some address => .ok (some address, rest)
    | none => .error (.decode ("Invalid destination of " ++ Text.decimal bytes.length ++ " bytes"))

def readText (input : Bytes) : Except TransactionError (String × Bytes) := do
  let (bytes, rest) ← field (Rlp.readBytes input)
  match Text.Utf8.decode bytes with
  | .ok s => .ok (s, rest)
  | .error fault => .error (.decode ("Invalid UTF-8 identifier: " ++ fault.message))

/-- Reads a signature; a first field of 64 bytes is a public key. -/
def readSignature (input : Bytes) : Except TransactionError (Signature × Bytes) := do
  let (first, rest) ← field (Rlp.readBytes input)
  match SizedBytes.ofBytes? 64 first with
  | some publicKey =>
    let (r, rest) ← field (Rlp.readWord rest)
    let (s, rest) ← field (Rlp.readWord rest)
    .ok (.sm2 publicKey r s, rest)
  | none =>
    match first with
    | [v] =>
      let (r, rest) ← field (Rlp.readWord rest)
      let (s, rest) ← field (Rlp.readWord rest)
      .ok (.ecdsa v r s, rest)
    | _ => .error (.decode ("Invalid recovery id of " ++ Text.decimal first.length ++ " bytes"))

/-- Reads the fields of a signed transaction, which end with the input. -/
def readFields (body : Bytes) : Except TransactionError Decoded := do
  let (nonce, body) ← field (Rlp.readWord body)
  let (gasPrice, body) ← field (Rlp.readWord body)
  let (gasLimit, body) ← field (Rlp.readWord body)
  let (blockLimit, body) ← field (Rlp.readUInt64 body)
  let (destination, body) ← readDestination body
  let (value, body) ← field (Rlp.readWord body)
  let (data, body) ← field (Rlp.readBytes body)
  let (chainId, body) ← readText body
  let (groupId, body) ← readText body
  let (extraData, body) ← field (Rlp.readBytes body)
  let (signature, body) ← readSignature body
  if body.isEmpty then
    .ok {
      transaction := {
        nonce, gasPrice, gasLimit, blockLimit, destination, value, data, chainId, groupId, extraData }
      signature }
  else .error (.decode (Text.decimal body.length ++ " trailing bytes after signature"))

def decode (raw : Bytes) : Except TransactionError Decoded := do
  let (header, body) ← field (Rlp.readHeader raw)
  if !header.isList then .error (.decode "Transaction is not an RLP list")
  else if body.length ≠ header.length then
    .error (.decode ("Expected " ++ Text.decimal header.length ++ " payload bytes, found " ++
      Text.decimal body.length))
  else readFields body

/-- A signed transaction that was read, with the hash under which it is known. -/
structure Received extends Decoded where
  hash : Digest
  deriving DecidableEq

/-- Reads a signed transaction and hashes it as it came. -/
def receive (p : CryptoProfile) (raw : Bytes) : Except TransactionError Received := do
  let decoded ← decode raw
  .ok ⟨decoded, p.hash raw⟩

/-! ## Building and signing -/

/-- The gas price of every transaction that is built. -/
def defaultGasPrice : Word := 3000000000

/-- The gas limit of every transaction that is built. -/
def defaultGasLimit : Word := 3000000000

/-- Builds a transaction; the nonce is drawn by the caller. A block limit of zero is refused. -/
def build (nonce : Word) (destination : Option Address) (groupId chainId : String)
    (blockLimit : UInt64) (data : Bytes) : Except TransactionError Transaction :=
  if blockLimit = 0 then .error (.invalidBlockLimit blockLimit)
  else .ok {
    nonce, gasPrice := defaultGasPrice, gasLimit := defaultGasLimit, blockLimit, destination,
    value := 0, data, chainId, groupId, extraData := [] }

/-- Builds the transaction that creates a contract from its code and arguments. -/
def buildDeploy (nonce : Word) (initCode constructorArgs : Bytes) (groupId chainId : String)
    (blockLimit : UInt64) : Except TransactionError Transaction :=
  build nonce none groupId chainId blockLimit (initCode ++ constructorArgs)

def signingHash (p : CryptoProfile) (tx : Transaction) : Digest := p.hash tx.encodeUnsigned

/-- A signed transaction that can be submitted. -/
structure Signed where
  raw : Bytes
  hash : Digest
  deriving DecidableEq

/-- Signs a transaction with a key of the profile's family. -/
def sign (p : CryptoProfile) (tx : Transaction) (k : KeyPair) : Except TransactionError Signed :=
  if k.kind ≠ p.kind then .error (.signing (.profileMismatch p.kind k.kind))
  else match k.signHash (signingHash p tx) with
    | .error cause => .error (.signing cause)
    | .ok signature =>
      let raw := tx.encodeSigned signature
      .ok ⟨raw, p.hash raw⟩

/-- The address of the account that signed a transaction. -/
def recoverSender (p : CryptoProfile) (raw : Bytes) : Except TransactionError Address := do
  let decoded ← decode raw
  match p.recoverSigner (signingHash p decoded.transaction) decoded.signature with
  | .ok address => .ok address
  | .error cause => .error (.signing cause)

end Transaction

end LedgerGateway

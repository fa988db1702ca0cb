import LedgerGateway.Account.Profile
import LedgerGateway.Proofs.Transaction.Spelling

/-!
# Signing and recovering

What a key signs is the hash of the unsigned transaction, and the signer is recovered from the hash
of what is read in the signed bytes. The two hashes are one, because reading gives the transaction
back: a profile that recovers the signer of a signature recovers the sender of a transaction.
-/

namespace LedgerGateway

/-- A key makes signatures of its own family that can be read, and fails with a reason. -/
structure KeyPair.Regular (k : KeyPair) : Prop where
  kind : ∀ hash signature, k.signHash hash = .ok signature → signature.kind = k.kind
  spellable : ∀ hash signature, k.signHash hash = .ok signature → Transaction.Spellable signature
  failed : ∀ hash cause, k.signHash hash = .error cause → ∃ reason, cause = .signingFailed reason

/-- The profile gives back the key that signed the hash. -/
def CryptoProfile.Recovers (p : CryptoProfile) (k : KeyPair) (hash : Digest) : Prop :=
  k.kind = p.kind → ∀ signature, k.signHash hash = .ok signature →
    p.recoverSigner hash signature = .ok k.address

namespace Transaction

/-! ## Keys of the families -/

/-- Both families sign by one attempt, and give one reason when it fails. -/
theorem regular_of_attempt {kind : CryptoKind} {address : Address} {secret : SizedBytes 32}
    {signHash : Digest → Except AccountError Signature} (attempt : Digest → Option Signature)
    (reason : String)
    (hsign : ∀ hash, signHash hash = (attempt hash).elim (.error (.signingFailed reason)) .ok)
    (hattempt : ∀ hash signature, attempt hash = some signature →
      signature.kind = kind ∧ Spellable signature) :
    KeyPair.Regular ⟨kind, address, secret, signHash⟩ := by
  have houtcome : ∀ hash, (∃ made, attempt hash = some made ∧ signHash hash = .ok made) ∨
      signHash hash = .error (.signingFailed reason) := by
    intro hash
    have h := hsign hash
    cases hresult : attempt hash with
    | none =>
      rw [hresult] at h
      exact .inr h
    | some made =>
      rw [hresult] at h
      exact .inl ⟨made, rfl, h⟩
  have hmade : ∀ hash signature, signHash hash = .ok signature →
      signature.kind = kind ∧ Spellable signature := by
    intro hash signature h
    rcases houtcome hash with ⟨made, hattempted, hok⟩ | hfailed
    · cases hok.symm.trans h
      exact hattempt hash signature hattempted
    · cases hfailed.symm.trans h
  refine ⟨?_, ?_, ?_⟩
  · intro hash signature h
    exact (hmade hash signature h).1
  · intro hash signature h
    exact (hmade hash signature h).2
  · intro hash cause h
    rcases houtcome hash with ⟨made, -, hok⟩ | hfailed
    · cases hok.symm.trans h
    · exact ⟨reason, (Except.error.inj (hfailed.symm.trans h)).symm⟩

/-- A key that signs every hash is regular if all of its signatures are. -/
theorem regular_of_signs {k : KeyPair} (make : Digest → Signature)
    (hsign : ∀ hash, k.signHash hash = .ok (make hash))
    (hmade : ∀ hash, (make hash).kind = k.kind ∧ Spellable (make hash)) : k.Regular := by
  refine regular_of_attempt (fun hash => some (make hash)) "" hsign ?_
  intro hash signature h
  cases h
  exact hmade hash

theorem ecdsa_of_sign? {secret : Nat} {hash : Digest} {signature : Signature}
    (h : Ecdsa.sign? secret hash = some signature) :
    signature.kind = .ecdsa ∧ Spellable signature := by
  rw [Ecdsa.sign?] at h
  simp only [Option.bind_eq_bind, Option.bind_eq_some_iff] at h
  obtain ⟨k, -, point, -, h⟩ := h
  split at h
  · cases h
  · cases h
    refine ⟨rfl, ?_⟩
    rw [Spellable]
    split <;> decide

theorem sm2_of_sign? {secret : Nat} {publicKey : SizedBytes 64} {hash : Digest}
    {signature : Signature} (h : Gm.sign? secret publicKey hash = some signature) :
    signature.kind = .gm ∧ Spellable signature := by
  rw [Gm.sign?] at h
  simp only [Option.bind_eq_bind, Option.bind_eq_some_iff] at h
  obtain ⟨k, -, point, -, h⟩ := h
  split at h
  · cases h
  · cases h
    exact ⟨rfl, trivial⟩

theorem regular_of_ecdsaKeyPair? {secret : Nat} {k : KeyPair}
    (h : Ecdsa.keyPair? secret = some k) : k.kind = .ecdsa ∧ k.Regular := by
  rw [Ecdsa.keyPair?, Option.bind_eq_bind, Option.bind_eq_some_iff] at h
  obtain ⟨point, -, hpoint⟩ := h
  rw [Option.pure_def, Option.some.injEq] at hpoint
  subst hpoint
  refine ⟨rfl, regular_of_attempt (Ecdsa.sign? secret) "Failed to sign hash: signature error" ?_
    fun _ _ => ecdsa_of_sign?⟩
  intro hash
  cases Ecdsa.sign? secret hash <;> rfl

theorem regular_of_gmKeyPair? {secret : Nat} {k : KeyPair} (h : Gm.keyPair? secret = some k) :
    k.kind = .gm ∧ k.Regular := by
  rw [Gm.keyPair?, Option.bind_eq_bind, Option.bind_eq_some_iff] at h
  obtain ⟨point, -, hpoint⟩ := h
  rw [Option.pure_def, Option.some.injEq] at hpoint
  subst hpoint
  refine ⟨rfl, regular_of_attempt (Gm.sign? secret (Secret.publicBytes point))
    "SM2 signing failed: signature error" ?_ fun _ _ => sm2_of_sign?⟩
  intro hash
  cases Gm.sign? secret (Secret.publicBytes point) hash <;> rfl

/-- Every key that a family loads signs for that family. -/
theorem regular_of_loadKeyPair {kind : CryptoKind} {secret : Bytes} {k : KeyPair}
    (h : kind.profile.loadKeyPair secret = .ok k) : k.kind = kind ∧ k.Regular := by
  cases kind with
  | ecdsa =>
    simp only [CryptoKind.profile, Ecdsa.profile] at h
    split at h
    · rename_i hload
      cases h
      obtain ⟨number, -, hkey⟩ := Option.bind_eq_some_iff.mp hload
      exact regular_of_ecdsaKeyPair? hkey
    · cases h
  | gm =>
    simp only [CryptoKind.profile, Gm.profile] at h
    split at h
    · rename_i hload
      cases h
      obtain ⟨number, -, hkey⟩ := Option.bind_eq_some_iff.mp hload
      exact regular_of_gmKeyPair? hkey
    · cases h

/-! ## Signing -/

section Signing

variable {p : CryptoProfile} {tx : Transaction} {k : KeyPair} {signed : Signed}

/-- Nothing but a block limit of zero is refused, and what is built says what it was built of. -/
theorem build_eq_ok {nonce : Word} {destination : Option Address} {groupId chainId : String}
    {limit : UInt64} {data : Bytes} :
    build nonce destination groupId chainId limit data = .ok tx ↔
      limit ≠ 0 ∧ tx =
        { nonce, gasPrice := defaultGasPrice, gasLimit := defaultGasLimit, blockLimit := limit,
          destination, value := 0, data, chainId, groupId, extraData := [] } := by
  unfold build
  split
  · rename_i hzero
    simp [hzero]
  · rename_i hzero
    simp [hzero, eq_comm]

theorem sign_of_kind_ne (h : k.kind ≠ p.kind) :
    sign p tx k = .error (.signing (.profileMismatch p.kind k.kind)) := by
  rw [sign, if_pos h]

/-- A signed transaction comes from a signature of its hash. -/
theorem sign_eq_ok :
    sign p tx k = .ok signed ↔
      k.kind = p.kind ∧ ∃ signature, k.signHash (signingHash p tx) = .ok signature ∧
        signed = ⟨tx.encodeSigned signature, p.hash (tx.encodeSigned signature)⟩ := by
  by_cases hkind : k.kind = p.kind
  · rw [sign, if_neg (not_not.mpr hkind)]
    cases k.signHash (signingHash p tx) with
    | error cause => simp
    | ok signature => simp [hkind, eq_comm]
  · simp [sign_of_kind_ne hkind, hkind]

/-- A key that makes signatures does not fail for want of the right family. -/
theorem kind_ne_of_mismatch (hk : k.Regular) {expected actual : CryptoKind}
    (h : sign p tx k = .error (.signing (.profileMismatch expected actual))) : k.kind ≠ p.kind := by
  intro hkind
  rw [sign, if_neg (not_not.mpr hkind)] at h
  split at h
  · rename_i cause hsign
    obtain ⟨reason, rfl⟩ := hk.failed _ _ hsign
    cases h
  · cases h

theorem receive_of_sign (hk : k.Regular) (h : sign p tx k = .ok signed)
    (hsize : signed.raw.length < UInt64.size) :
    ∃ signature, k.signHash (signingHash p tx) = .ok signature ∧
      receive p signed.raw = .ok ⟨⟨tx, signature⟩, signed.hash⟩ := by
  obtain ⟨-, signature, hsign, rfl⟩ := sign_eq_ok.mp h
  refine ⟨signature, hsign, ?_⟩
  exact receive_eq_ok.mpr ⟨decode_encodeSigned (hk.spellable _ _ hsign) hsize, rfl⟩

/-- The hash that was signed is that of the transaction in the signed bytes. -/
theorem recoverSender_of_sign (hk : k.Regular) (hrecover : p.Recovers k (signingHash p tx))
    (h : sign p tx k = .ok signed) (hsize : signed.raw.length < UInt64.size) :
    recoverSender p signed.raw = .ok k.address := by
  obtain ⟨hkind, -⟩ := sign_eq_ok.mp h
  obtain ⟨signature, hsign, hreceive⟩ := receive_of_sign hk h hsize
  have hsigner := hrecover hkind signature hsign
  obtain ⟨hdecode, -⟩ := receive_eq_ok.mp hreceive
  rw [recoverSender, hdecode]
  simp only [bind, Except.bind]
  rw [hsigner]

end Signing

/-- What comes of signing a transaction with a key. -/
structure SignedBack (p : CryptoProfile) (tx : Transaction) (k : KeyPair) : Prop where
  /-- It fails for want of the right family exactly if the families differ. -/
  mismatch : (∃ expected actual,
    sign p tx k = .error (.signing (.profileMismatch expected actual))) ↔ k.kind ≠ p.kind
  /-- Then no signature is made: whatever the key would sign does not matter. -/
  unsigned : k.kind ≠ p.kind → ∀ signHash,
    sign p tx { k with signHash } = .error (.signing (.profileMismatch p.kind k.kind))
  /-- A key of the family signs as soon as it makes a signature of the hash. -/
  signed : k.kind = p.kind → ∀ signature, k.signHash (signingHash p tx) = .ok signature →
    sign p tx k = .ok ⟨tx.encodeSigned signature, p.hash (tx.encodeSigned signature)⟩
  /-- The sender of the signed bytes is the owner of the key. -/
  sender : ∀ signed, sign p tx k = .ok signed → signed.raw.length < UInt64.size →
    recoverSender p signed.raw = .ok k.address
  /-- The signed bytes hold the transaction and a signature of the family, and have the hash that
  was given for them. -/
  content : ∀ signed, sign p tx k = .ok signed → signed.raw.length < UInt64.size →
    ∃ r, receive p signed.raw = .ok r ∧ r.transaction = tx ∧ r.signature.kind = p.kind ∧
      r.hash = signed.hash

/-- The keys of both families are regular, and whatever a regular key signs under a profile that
recovers it is read back with its sender. -/
theorem sign_readBack (p : CryptoProfile) (tx : Transaction) :
    (∀ (kind : CryptoKind) (secret : Bytes) (k : KeyPair),
      kind.profile.loadKeyPair secret = .ok k → k.kind = kind ∧ k.Regular) ∧
    ∀ k : KeyPair, k.Regular → p.Recovers k (signingHash p tx) → SignedBack p tx k := by
  refine ⟨fun kind secret k => regular_of_loadKeyPair, ?_⟩
  intro k hk hrecover
  refine ⟨⟨?_, ?_⟩, ?_, ?_, ?_, ?_⟩
  · rintro ⟨expected, actual, h⟩
    exact kind_ne_of_mismatch hk h
  · intro hkind
    exact ⟨p.kind, k.kind, sign_of_kind_ne hkind⟩
  · intro hkind signHash
    exact sign_of_kind_ne hkind
  · intro hkind signature hsign
    exact sign_eq_ok.mpr ⟨hkind, signature, hsign, rfl⟩
  · intro signed h hsize
    exact recoverSender_of_sign hk hrecover h hsize
  · intro signed h hsize
    obtain ⟨hkind, -⟩ := sign_eq_ok.mp h
    obtain ⟨signature, hsign, hreceive⟩ := receive_of_sign hk h hsize
    refine ⟨_, hreceive, rfl, ?_, rfl⟩
    rw [← hkind]
    exact hk.kind _ _ hsign

/-! ## A key that draws the number one -/

/-- The standard family over the length of the bytes. -/
def lengthProfile : CryptoProfile :=
  { Ecdsa.profile with hash := fun bytes => SizedBytes.ofNat 32 bytes.length }

/-- The first half of every signature: the abscissa of the generator. -/
def unitR : Word := BitVec.ofNat 256 Ecdsa.curve.g.x

/-- The second half of the signature on a hash. -/
def unitS (hash : Digest) : Word :=
  BitVec.ofNat 256 ((Ecdsa.scalarOf hash + Ecdsa.curve.g.x) % Ecdsa.curve.n)

/-- The key of the secret one. Every signature is made with the generator itself as its point. -/
def unitKey : KeyPair where
  kind := .ecdsa
  address := CryptoProfile.addressOf Keccak.hash (Secret.publicBytes Ecdsa.curve.g)
  secret := SizedBytes.ofNat 32 1
  signHash := fun hash => .ok (.ecdsa 27 unitR (unitS hash))

def unitSignature : Signature := .ecdsa 27 unitR (unitS (signingHash lengthProfile deployment))

theorem regular_unitKey : unitKey.Regular := by
  refine regular_of_signs (fun hash => .ecdsa 27 unitR (unitS hash)) (fun _ => rfl) ?_
  intro hash
  refine ⟨rfl, ?_⟩
  rw [Spellable]
  decide

theorem recoverSigner_even {hash : Digest} {r s : Word} {point : Curve.Affine}
    (h : Ecdsa.recover? hash false r.toNat s.toNat = some point) :
    Ecdsa.recoverSigner hash (.ecdsa 27 r s) =
      .ok (CryptoProfile.addressOf Keccak.hash (Secret.publicBytes point)) := by
  rw [Ecdsa.recoverSigner]
  simp [h]

theorem recovers_unitKey :
    lengthProfile.Recovers unitKey (signingHash lengthProfile deployment) := by
  intro _ signature h
  obtain rfl : unitSignature = signature := Except.ok.inj h
  have hpoint : Ecdsa.recover? (signingHash lengthProfile deployment) false unitR.toNat
      (unitS (signingHash lengthProfile deployment)).toNat = some Ecdsa.curve.g := by
    decide +kernel
  rw [show lengthProfile.recoverSigner = Ecdsa.recoverSigner from rfl, unitSignature,
    recoverSigner_even hpoint, unitKey]

/-- The key signs the deployment, and its account is the sender of the signed bytes. -/
theorem sign_readBack_unitKey :
    unitKey.Regular ∧ lengthProfile.Recovers unitKey (signingHash lengthProfile deployment) ∧
    sign lengthProfile deployment unitKey = .ok ⟨deployment.encodeSigned unitSignature,
      lengthProfile.hash (deployment.encodeSigned unitSignature)⟩ ∧
    (deployment.encodeSigned unitSignature).length < UInt64.size ∧
    SignedBack lengthProfile deployment unitKey := by
  have hsignedBack := (sign_readBack lengthProfile deployment).2 unitKey regular_unitKey
    recovers_unitKey
  have hsize : (deployment.encodeSigned unitSignature).length < UInt64.size := by decide +kernel
  exact ⟨regular_unitKey, recovers_unitKey, hsignedBack.signed rfl unitSignature rfl, hsize,
    hsignedBack⟩

end Transaction

end LedgerGateway

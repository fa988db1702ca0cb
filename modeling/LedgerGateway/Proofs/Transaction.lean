import LedgerGateway.Account.Ecdsa
import LedgerGateway.Proofs.Rlp.Grammar
import LedgerGateway.Proofs.Text.Utf8
import LedgerGateway.Transaction

/-!
# Signed transactions are read back

Every field of a transaction has a step that reads it off the front of the payload and leaves the
rest alone. The steps follow each other in the order in which the fields are written, so
`receive_encodeSigned` gives back the transaction and its signature. Lengths are numbers of 64 bits,
and a recovery id of zero is written like a missing one.
-/

namespace LedgerGateway.Transaction

open Text

/-! ## Fields -/

@[simp] theorem field_ok {α : Type} (a : α) : field (.ok a) = .ok a := rfl

theorem readDestination_encodeBytes (destination : Option Address) (rest : Bytes) :
    readDestination (Rlp.encodeBytes ((destination.map (·.1)).getD []) ++ rest) =
      .ok (destination, rest) := by
  cases destination with
  | none =>
    have hread := Rlp.readBytes_encodeBytes (b := []) (by decide) rest
    rw [Option.map_none, Option.getD_none, readDestination, hread]
    rfl
  | some address =>
    have hlen : address.1.length < UInt64.size := by
      rw [address.2]
      decide
    have hne : address.1.isEmpty = false := by
      rw [List.isEmpty_eq_false_iff_exists_mem]
      exact List.exists_mem_of_length_pos (by rw [address.2]; decide)
    rw [Option.map_some, Option.getD_some, readDestination, Rlp.readBytes_encodeBytes hlen]
    simp [bind, Except.bind, hne, SizedBytes.ofBytes?, address.2]

theorem readText_encodeBytes {s : String} (h : (Utf8.encode s).length < UInt64.size) (rest : Bytes) :
    readText (Rlp.encodeBytes (Utf8.encode s) ++ rest) = .ok (s, rest) := by
  rw [readText, Rlp.readBytes_encodeBytes h]
  simp [bind, Except.bind]

/-! ## Signatures -/

/-- A signature whose spelling can be read: a recovery id of zero has no bytes. -/
def Spellable : Signature → Prop
  | .ecdsa v _ _ => v ≠ 0
  | .sm2 .. => True

theorem ofNat_recoveryId {v : UInt8} (hv : v ≠ 0) : Bytes.ofNat v.toNat = [v] := by
  have hlt := v.toNat_lt
  have hle : (Bytes.ofNat v.toNat).length ≤ 1 := Bytes.length_ofNat_le (by omega)
  have hval := Bytes.toNat_ofNat v.toNat
  match hbytes : Bytes.ofNat v.toNat with
  | [] =>
    rw [hbytes, Bytes.toNat_nil] at hval
    exact absurd (UInt8.toNat_inj.mp hval.symm) hv
  | [x] =>
    rw [hbytes] at hval
    have hx : x.toNat = v.toNat := by simpa [Bytes.toNat] using hval
    rw [UInt8.toNat_inj.mp hx]
  | _ :: _ :: _ =>
    rw [hbytes] at hle
    simp at hle

/-- The fields of a signature in the spelling that is read: the recovery id is one byte, whatever it
is. -/
def spelledItems : Signature → List Rlp.Item
  | .ecdsa v r s => [.bytes [v], .ofNat r.toNat, .ofNat s.toNat]
  | .sm2 publicKey r s => [.bytes publicKey.1, .ofNat r.toNat, .ofNat s.toNat]

theorem spelledItems_eq {signature : Signature} (h : Spellable signature) :
    spelledItems signature = signatureItems signature := by
  cases signature with
  | ecdsa v r s =>
    have hbyte : Rlp.Item.ofNat v.toNat = .bytes [v] := by rw [Rlp.Item.ofNat, ofNat_recoveryId h]
    rw [spelledItems, signatureItems, hbyte]
  | sm2 publicKey r s => rfl

theorem encodeAll_threeItems (first : Bytes) (r s : Word) (rest : Bytes) :
    Rlp.Item.encodeAll [.bytes first, .ofNat r.toNat, .ofNat s.toNat] ++ rest =
      Rlp.encodeBytes first ++ (Rlp.encodeNat r.toNat ++ (Rlp.encodeNat s.toNat ++ rest)) := by
  simp [Rlp.Item.encodeAll, Rlp.Item.ofNat, Rlp.Item.encode, Rlp.encodeNat]

theorem readSignature_spelledItems (signature : Signature) (rest : Bytes) :
    readSignature (Rlp.Item.encodeAll (spelledItems signature) ++ rest) = .ok (signature, rest) := by
  cases signature with
  | ecdsa v r s =>
    have hlen : [v].length < UInt64.size := by
      rw [List.length_singleton]
      decide
    rw [spelledItems, encodeAll_threeItems, readSignature, Rlp.readBytes_encodeBytes hlen]
    simp [bind, Except.bind, SizedBytes.ofBytes?, Rlp.readWord_encodeNat]
  | sm2 publicKey r s =>
    have hlen : publicKey.1.length < UInt64.size := by
      rw [publicKey.2]
      decide
    rw [spelledItems, encodeAll_threeItems, readSignature, Rlp.readBytes_encodeBytes hlen]
    simp [bind, Except.bind, SizedBytes.ofBytes?, publicKey.2, Rlp.readWord_encodeNat]

/-! ## Transactions -/

/-- The fields of a signed transaction in the spelling that is read. -/
def payload (d : Decoded) : Bytes :=
  Rlp.Item.encodeAll (d.transaction.items ++ spelledItems d.signature)

/-- The spelling in which a signed transaction is read. -/
def spelling (d : Decoded) : Bytes := Rlp.encodeList (payload d)

theorem spelling_eq_encodeSigned {tx : Transaction} {signature : Signature}
    (h : Spellable signature) : spelling ⟨tx, signature⟩ = tx.encodeSigned signature := by
  rw [spelling, payload, encodeSigned, Rlp.Item.encode, spelledItems_eq h]

theorem length_payload_lt (d : Decoded) : (payload d).length < (spelling d).length := by
  have hlt := Rlp.length_encodeAll_lt (d.transaction.items ++ spelledItems d.signature)
  rwa [Rlp.Item.encode] at hlt

/-- The byte strings among the fields have lengths of 64 bits. -/
structure Sized (tx : Transaction) : Prop where
  data : tx.data.length < UInt64.size
  chainId : (Utf8.encode tx.chainId).length < UInt64.size
  groupId : (Utf8.encode tx.groupId).length < UInt64.size
  extraData : tx.extraData.length < UInt64.size

/-- No field is longer than the payload. -/
theorem sized_of_payload {d : Decoded} (h : (payload d).length < UInt64.size) :
    Sized d.transaction := by
  have hfield : ∀ b, Rlp.Item.bytes b ∈ d.transaction.items → b.length < UInt64.size := by
    intro b hb
    have hitem := Rlp.length_encode_le_of_mem
      (List.mem_append_left (spelledItems d.signature) hb)
    have hbytes : b.length ≤ (Rlp.Item.bytes b).encode.length := by
      rw [Rlp.Item.encode]
      exact Rlp.length_encodeBytes b
    rw [payload] at h
    omega
  exact ⟨hfield _ (by simp [items]), hfield _ (by simp [items]), hfield _ (by simp [items]),
    hfield _ (by simp [items])⟩

/-- The fields one after another. -/
theorem payload_eq (d : Decoded) :
    payload d =
      Rlp.encodeNat d.transaction.nonce.toNat ++ (Rlp.encodeNat d.transaction.gasPrice.toNat ++
      (Rlp.encodeNat d.transaction.gasLimit.toNat ++
      (Rlp.encodeNat d.transaction.blockLimit.toNat ++
      (Rlp.encodeBytes ((d.transaction.destination.map (·.1)).getD []) ++
      (Rlp.encodeNat d.transaction.value.toNat ++ (Rlp.encodeBytes d.transaction.data ++
      (Rlp.encodeBytes (Utf8.encode d.transaction.chainId) ++
      (Rlp.encodeBytes (Utf8.encode d.transaction.groupId) ++
      (Rlp.encodeBytes d.transaction.extraData ++
        Rlp.Item.encodeAll (spelledItems d.signature)))))))))) := by
  simp [payload, items, Rlp.Item.encodeAll, Rlp.Item.ofNat, Rlp.Item.encode, Rlp.encodeNat]

theorem readFields_payload {d : Decoded} (h : (payload d).length < UInt64.size) :
    readFields (payload d) = .ok d := by
  have hsize := sized_of_payload h
  have hsignature := readSignature_spelledItems d.signature []
  rw [List.append_nil] at hsignature
  rw [payload_eq, readFields]
  simp only [Rlp.readWord_encodeNat, Rlp.readUInt64_encodeNat, readDestination_encodeBytes,
    Rlp.readBytes_encodeBytes hsize.data, readText_encodeBytes hsize.chainId,
    readText_encodeBytes hsize.groupId, Rlp.readBytes_encodeBytes hsize.extraData, hsignature,
    field_ok, bind, Except.bind, List.isEmpty_nil, if_true]

/-- A signed transaction is read from its spelling. -/
theorem decode_spelling {d : Decoded} (h : (payload d).length < UInt64.size) :
    decode (spelling d) = .ok d := by
  have hread := Rlp.readHeader_headerBytes true h (by simp) (payload d)
  rw [Rlp.Header.within_of_le (Nat.le_refl _)] at hread
  have hfields := readFields_payload h
  rw [spelling, Rlp.encodeList, decode, show (0xc0 : UInt8) = Rlp.emptyTag true from rfl, hread]
  simpa [bind, Except.bind] using hfields

/-- A signed transaction is read back from its bytes. -/
theorem decode_encodeSigned {tx : Transaction} {signature : Signature} (h : Spellable signature)
    (hsize : (tx.encodeSigned signature).length < UInt64.size) :
    decode (tx.encodeSigned signature) = .ok ⟨tx, signature⟩ := by
  rw [← spelling_eq_encodeSigned h] at hsize ⊢
  exact decode_spelling (Nat.lt_trans (length_payload_lt _) hsize)

theorem sized_of_encodeSigned {tx : Transaction} {signature : Signature} (h : Spellable signature)
    (hsize : (tx.encodeSigned signature).length < UInt64.size) : Sized tx := by
  rw [← spelling_eq_encodeSigned h] at hsize
  exact sized_of_payload (Nat.lt_trans (length_payload_lt _) hsize)

/-- What is read from the bytes of a signed transaction is the transaction, its signature and the
hash of the bytes. -/
theorem receive_encodeSigned (p : CryptoProfile) (tx : Transaction) {signature : Signature}
    (h : Spellable signature) (hsize : (tx.encodeSigned signature).length < UInt64.size) :
    receive p (tx.encodeSigned signature) =
      .ok ⟨⟨tx, signature⟩, p.hash (tx.encodeSigned signature)⟩ := by
  have hdecode := decode_encodeSigned h hsize
  rw [receive, hdecode]
  rfl

/-- A deployment with empty fields, fields of one byte and a long one. -/
def deployment : Transaction where
  nonce := 0
  gasPrice := 128
  gasLimit := defaultGasLimit
  blockLimit := 600
  destination := none
  value := 0
  data := List.replicate 60 0xfe
  chainId := "c"
  groupId := "é"
  extraData := [0]

/-- The deployment under a signature of the standard family. -/
theorem receive_encodeSigned_deployment :
    Spellable (.ecdsa 27 1 0) ∧
    (deployment.encodeSigned (.ecdsa 27 1 0)).length < UInt64.size ∧
    receive Ecdsa.profile (deployment.encodeSigned (.ecdsa 27 1 0)) =
      .ok ⟨⟨deployment, .ecdsa 27 1 0⟩,
        Ecdsa.profile.hash (deployment.encodeSigned (.ecdsa 27 1 0))⟩ := by
  have hspellable : Spellable (.ecdsa 27 1 0) := by
    rw [Spellable]
    decide
  have hsize : (deployment.encodeSigned (.ecdsa 27 1 0)).length < UInt64.size := by decide
  exact ⟨hspellable, hsize, receive_encodeSigned Ecdsa.profile deployment hspellable hsize⟩

end LedgerGateway.Transaction

import LedgerGateway.Proofs.Transaction

/-!
# One spelling of a signed transaction

Every field of a transaction is read from its own spelling only, and so is the list of them: what was
read determines the bytes, and with them the hash. They are the bytes that are written, except for a
recovery id of zero, which is written like a missing number and read from a zero byte.
-/

namespace LedgerGateway.Transaction

open Text

/-! ## Fields -/

theorem eq_val_of_ofBytes? {n : Nat} {bytes : Bytes} {sized : SizedBytes n}
    (h : SizedBytes.ofBytes? n bytes = some sized) : bytes = sized.1 := by
  unfold SizedBytes.ofBytes? at h
  split at h
  · cases h
    rfl
  · cases h

theorem field_eq_ok {α : Type} {step : Except Rlp.Error α} {a : α} :
    field step = .ok a ↔ step = .ok a := mapError_eq_ok

theorem eq_encodeBytes_of_readDestination {input rest : Bytes} {destination : Option Address}
    (h : readDestination input = .ok (destination, rest)) :
    input = Rlp.encodeBytes ((destination.map (·.1)).getD []) ++ rest := by
  obtain ⟨⟨bytes, tail⟩, hread, hkind⟩ := except_bind_eq_ok.mp h
  have hinput := Rlp.eq_encodeBytes_of_readBytes (field_eq_ok.mp hread)
  simp only at hkind
  split at hkind
  · rename_i hempty
    cases hkind
    rwa [List.isEmpty_iff.mp hempty] at hinput
  · split at hkind
    · rename_i hsize
      cases hkind
      rwa [eq_val_of_ofBytes? hsize] at hinput
    · cases hkind

theorem eq_encodeBytes_of_readText {input rest : Bytes} {s : String}
    (h : readText input = .ok (s, rest)) : input = Rlp.encodeBytes (Utf8.encode s) ++ rest := by
  obtain ⟨⟨bytes, tail⟩, hread, hkind⟩ := except_bind_eq_ok.mp h
  have hinput := Rlp.eq_encodeBytes_of_readBytes (field_eq_ok.mp hread)
  simp only at hkind
  split at hkind
  · rename_i hdecode
    cases hkind
    rwa [Utf8.eq_encode_of_decode hdecode] at hinput
  · cases hkind

/-- The first field of a signature is a public key or one byte, and two numbers follow it. -/
theorem eq_encodeAll_of_readSignature {input rest : Bytes} {signature : Signature}
    (h : readSignature input = .ok (signature, rest)) :
    input = Rlp.Item.encodeAll (spelledItems signature) ++ rest := by
  have hnumbers : ∀ {body tail tail' : Bytes} {r s : Word} (first : Bytes),
      input = Rlp.encodeBytes first ++ body → field (Rlp.readWord body) = .ok (r, tail) →
      field (Rlp.readWord tail) = .ok (s, tail') →
        input = Rlp.Item.encodeAll [.bytes first, .ofNat r.toNat, .ofNat s.toNat] ++ tail' := by
    intro body tail tail' r s first hfirst hr hs
    rw [hfirst, Rlp.eq_encodeNat_of_readWord (field_eq_ok.mp hr),
      Rlp.eq_encodeNat_of_readWord (field_eq_ok.mp hs), encodeAll_threeItems]
  obtain ⟨⟨first, body⟩, hread, h⟩ := except_bind_eq_ok.mp h
  have hfirst := Rlp.eq_encodeBytes_of_readBytes (field_eq_ok.mp hread)
  simp only at h
  split at h
  · rename_i publicKey hsize
    obtain ⟨⟨r, tail⟩, hr, h⟩ := except_bind_eq_ok.mp h
    obtain ⟨⟨s, tail'⟩, hs, h⟩ := except_bind_eq_ok.mp h
    cases h
    rw [eq_val_of_ofBytes? hsize] at hfirst
    exact hnumbers publicKey.1 hfirst hr hs
  · split at h
    · rename_i v _
      obtain ⟨⟨r, tail⟩, hr, h⟩ := except_bind_eq_ok.mp h
      obtain ⟨⟨s, tail'⟩, hs, h⟩ := except_bind_eq_ok.mp h
      cases h
      exact hnumbers [v] hfirst hr hs
    · cases h

/-! ## Transactions -/

/-- The fields are read from their own spelling only. -/
theorem eq_payload_of_readFields {body : Bytes} {d : Decoded} (h : readFields body = .ok d) :
    body = payload d := by
  obtain ⟨⟨nonce, rest⟩, hnonce, h⟩ := except_bind_eq_ok.mp h
  obtain ⟨⟨gasPrice, rest⟩, hgasPrice, h⟩ := except_bind_eq_ok.mp h
  obtain ⟨⟨gasLimit, rest⟩, hgasLimit, h⟩ := except_bind_eq_ok.mp h
  obtain ⟨⟨blockLimit, rest⟩, hblockLimit, h⟩ := except_bind_eq_ok.mp h
  obtain ⟨⟨destination, rest⟩, hdestination, h⟩ := except_bind_eq_ok.mp h
  obtain ⟨⟨value, rest⟩, hvalue, h⟩ := except_bind_eq_ok.mp h
  obtain ⟨⟨data, rest⟩, hdata, h⟩ := except_bind_eq_ok.mp h
  obtain ⟨⟨chainId, rest⟩, hchainId, h⟩ := except_bind_eq_ok.mp h
  obtain ⟨⟨groupId, rest⟩, hgroupId, h⟩ := except_bind_eq_ok.mp h
  obtain ⟨⟨extraData, rest⟩, hextraData, h⟩ := except_bind_eq_ok.mp h
  obtain ⟨⟨signature, rest⟩, hsignature, h⟩ := except_bind_eq_ok.mp h
  simp only at h
  split at h
  · rename_i hempty
    cases h
    rw [Rlp.eq_encodeNat_of_readWord (field_eq_ok.mp hnonce),
      Rlp.eq_encodeNat_of_readWord (field_eq_ok.mp hgasPrice),
      Rlp.eq_encodeNat_of_readWord (field_eq_ok.mp hgasLimit),
      Rlp.eq_encodeNat_of_readUInt64 (field_eq_ok.mp hblockLimit),
      eq_encodeBytes_of_readDestination hdestination,
      Rlp.eq_encodeNat_of_readWord (field_eq_ok.mp hvalue),
      Rlp.eq_encodeBytes_of_readBytes (field_eq_ok.mp hdata), eq_encodeBytes_of_readText hchainId,
      eq_encodeBytes_of_readText hgroupId,
      Rlp.eq_encodeBytes_of_readBytes (field_eq_ok.mp hextraData),
      eq_encodeAll_of_readSignature hsignature, List.isEmpty_iff.mp hempty, List.append_nil,
      payload_eq]
  · cases h

/-- A signed transaction is read from its own spelling only. -/
theorem eq_spelling_of_decode {raw : Bytes} {d : Decoded} (h : decode raw = .ok d) :
    raw = spelling d := by
  obtain ⟨⟨header, body⟩, hread, h⟩ := except_bind_eq_ok.mp h
  obtain ⟨-, hlist, -⟩ := Rlp.spelled_of_readHeader (field_eq_ok.mp hread)
  simp only at h
  split at h
  · cases h
  rename_i hkind
  split at h
  · cases h
  rename_i hlength
  have hinput := hlist (by simpa using hkind)
  rw [spelling, Rlp.encodeList, ← eq_payload_of_readFields h, not_not.mp hlength]
  exact hinput

theorem receive_eq_ok {p : CryptoProfile} {raw : Bytes} {r : Received} :
    receive p raw = .ok r ↔ decode raw = .ok r.toDecoded ∧ r.hash = p.hash raw := by
  rw [receive, except_bind_eq_ok]
  constructor
  · rintro ⟨d, hdecode, h⟩
    cases h
    exact ⟨hdecode, rfl⟩
  · rintro ⟨hdecode, hhash⟩
    refine ⟨r.toDecoded, hdecode, ?_⟩
    rw [← hhash]

theorem receive_spelling (p : CryptoProfile) {d : Decoded} (h : (payload d).length < UInt64.size) :
    receive p (spelling d) = .ok ⟨d, p.hash (spelling d)⟩ :=
  receive_eq_ok.mpr ⟨decode_spelling h, rfl⟩

/-! ## The bytes that are written -/

/-- A recovery id of zero is written as an empty string, not as the byte that is read. -/
theorem encodeSigned_ne_spelling (tx : Transaction) (r s : Word) :
    tx.encodeSigned (.ecdsa 0 r s) ≠ spelling ⟨tx, .ecdsa 0 r s⟩ := by
  -- Either spelling of the recovery id is one byte, so the headers are equal and the payloads differ
  -- behind the fields of the transaction.
  intro h
  have hlength : (Rlp.Item.encodeAll (tx.items ++ signatureItems (.ecdsa 0 r s))).length =
      (payload ⟨tx, .ecdsa 0 r s⟩).length := by
    rw [payload, Rlp.encodeAll_append, Rlp.encodeAll_append, List.length_append, List.length_append]
    rfl
  rw [spelling, encodeSigned, Rlp.Item.encode, Rlp.encodeList, Rlp.encodeList, hlength] at h
  have hpayload := List.append_cancel_left h
  rw [payload, Rlp.encodeAll_append, Rlp.encodeAll_append] at hpayload
  have hsignature := List.append_cancel_left hpayload
  cases hsignature

/-- The bytes that are written are those that are read, except for a recovery id of zero. -/
theorem encodeSigned_eq_spelling_iff (d : Decoded) :
    d.transaction.encodeSigned d.signature = spelling d ↔ Spellable d.signature := by
  constructor
  · intro h
    cases hsignature : d.signature with
    | ecdsa v r s =>
      rintro rfl
      have hne := encodeSigned_ne_spelling d.transaction r s
      rw [← hsignature] at hne
      exact hne h
    | sm2 publicKey r s => trivial
  · intro h
    exact (spelling_eq_encodeSigned h).symm

/-- A signed transaction that is read is written with the bytes it was read from exactly if its
recovery id is not zero. Whatever it is, no other bytes hold the same transaction and signature, and
the hash is fixed by them. -/
theorem receive_canonical (p : CryptoProfile) {raw : Bytes} {r : Received}
    (h : receive p raw = .ok r) :
    (r.transaction.encodeSigned r.signature = raw ↔ Spellable r.signature) ∧
      ∀ raw' r', receive p raw' = .ok r' → r'.toDecoded = r.toDecoded →
        raw' = raw ∧ r'.hash = r.hash := by
  obtain ⟨hdecode, hhash⟩ := receive_eq_ok.mp h
  have hraw := eq_spelling_of_decode hdecode
  refine ⟨?_, ?_⟩
  · rw [hraw]
    exact encodeSigned_eq_spelling_iff r.toDecoded
  · intro raw' r' h' hsame
    obtain ⟨hdecode', hhash'⟩ := receive_eq_ok.mp h'
    have hbytes : raw' = raw := by rw [eq_spelling_of_decode hdecode', hsame, ← hraw]
    exact ⟨hbytes, by rw [hhash', hhash, hbytes]⟩

/-- The deployment under a signature of the standard family. -/
def received : Received :=
  ⟨⟨deployment, .ecdsa 27 1 0⟩, Ecdsa.profile.hash (spelling ⟨deployment, .ecdsa 27 1 0⟩)⟩

theorem receive_canonical_deployment :
    receive Ecdsa.profile (spelling received.toDecoded) = .ok received ∧
    (received.transaction.encodeSigned received.signature = spelling received.toDecoded ↔
      Spellable received.signature) ∧
    ∀ raw' r', receive Ecdsa.profile raw' = .ok r' → r'.toDecoded = received.toDecoded →
      raw' = spelling received.toDecoded ∧ r'.hash = received.hash := by
  have hsize : (payload received.toDecoded).length < UInt64.size := by decide
  have hreceive := receive_spelling Ecdsa.profile hsize
  exact ⟨hreceive, receive_canonical Ecdsa.profile hreceive⟩

/-- The deployment under a recovery id of zero is read from bytes that are not written for it. -/
theorem receive_rewritten :
    ¬ ∀ (p : CryptoProfile) (raw : Bytes) (r : Received), receive p raw = .ok r →
      r.transaction.encodeSigned r.signature = raw := by
  intro h
  have hsize : (payload ⟨deployment, .ecdsa 0 1 0⟩).length < UInt64.size := by decide
  have hwritten := h Ecdsa.profile _ _ (receive_spelling Ecdsa.profile hsize)
  exact encodeSigned_ne_spelling deployment 1 0 hwritten

end LedgerGateway.Transaction

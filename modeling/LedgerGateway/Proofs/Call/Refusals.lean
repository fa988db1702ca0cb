import LedgerGateway.Abi.TypeText
import LedgerGateway.Proofs.Abi.Decoded
import LedgerGateway.Proofs.Abi.Signature
import LedgerGateway.Proofs.Call.Proxy

/-!
# Why data of the proxy is refused

Behind the selector of a method stand values of the types in its signature. What is read as values of
these types belongs to them, so that every field finds what it expects. That leaves four reasons to
refuse a call of the proxy and one to refuse its output, and all of them show in the data.
-/

namespace LedgerGateway

open Abi

/-- One parameter whose parts have the types. -/
def Abi.Parameter.ofTypes (ts : List Ty) : Parameter :=
  ⟨"tuple", ts.map fun t => ⟨t.display, []⟩⟩

namespace ProxyMethod

theorem mem_all (m : ProxyMethod) : m ∈ all := by
  cases m <;> decide

theorem areWide_types (m : ProxyMethod) : Ty.areWide m.types = true := by
  cases m <;> simp [types, Ty.areWide, Ty.isWide]

/-- The list of types in the signature. -/
def typesText (m : ProxyMethod) : String :=
  String.ofList (m.signature.toList.dropWhile (· != '('))

theorem type?_ofTypes (m : ProxyMethod) :
    (Parameter.ofTypes m.types).type? = some (.tuple m.types) := by
  cases m <;> rfl

/-- The signature names the types that are read. -/
theorem resolve?_typesText (m : ProxyMethod) :
    (TypeText.parse m.typesText).bind TypeText.resolve? = some (.tuple m.types) := by
  have hchecked : (Parameter.ofTypes m.types).isChecked = true := by cases m <;> decide +kernel
  have hchars : m.typesText.toList = (Parameter.ofTypes m.types).chars := by
    cases m <;> decide +kernel
  have hparse : (TypeText.parse m.typesText).isSome = true := by cases m <;> decide +kernel
  exact Parameter.resolve?_of_parse hchecked m.type?_ofTypes hchars hparse

end ProxyMethod

/-! ## Calls -/

namespace ProxyCall

/-- The method whose values the data is read as. -/
structure Selects (p : CryptoProfile) (data : Bytes) (m : ProxyMethod) : Prop where
  long : selectorLength ≤ data.length
  call : p.isCallOf m.signature data = true
  /-- Should selectors agree, the method that is compared first is meant. -/
  first : ∃ before after, ProxyMethod.all = before ++ m :: after ∧
    ∀ n ∈ before, p.isCallOf n.signature data = false

/-- Why data is refused as a call of the proxy. -/
inductive Refused (p : CryptoProfile) (data : Bytes) : CallError → Prop where
  | short (hshort : data.length < selectorLength) : Refused p data .noProxySelector
  | unknown (hlong : selectorLength ≤ data.length)
      (hnone : ∀ m : ProxyMethod, p.isCallOf m.signature data = false) :
      Refused p data (.noProxyMethod (data.take selectorLength))
  /-- What stands behind the selector cannot be read as values of the method's types. -/
  | unreadable {m : ProxyMethod} {cause : DecodingError} (hm : Selects p data m)
      (hread : Ty.decodeAll m.types (data.drop selectorLength) = .error cause) :
      Refused p data (.invalidProxyPayload cause)
  /-- The third value, the place in a distributed transaction, has more than 64 bits. -/
  | tooLarge {values : List Value} {seq : Word} (hm : Selects p data .sendTransaction)
      (hread : Ty.decodeAll ProxyMethod.sendTransaction.types (data.drop selectorLength) =
        .ok values)
      (hthird : values[2]? = some (.uint seq)) (hlarge : UInt64.size ≤ seq.toNat) :
      Refused p data (.sequenceTooLarge seq)

variable {p : CryptoProfile} {data : Bytes} {m : ProxyMethod} {values : List Value} {e : CallError}

theorem find?_of_selects (h : Selects p data m) :
    ProxyMethod.all.find? (p.isCallOf ·.signature data) = some m := by
  obtain ⟨before, after, hall, hbefore⟩ := h.first
  rw [List.find?_eq_some_iff_append]
  exact ⟨h.call, before, after, hall, fun n hn => by rw [hbefore n hn, Bool.not_false]⟩

theorem selects_of_find? (hlong : selectorLength ≤ data.length)
    (h : ProxyMethod.all.find? (p.isCallOf ·.signature data) = some m) : Selects p data m := by
  obtain ⟨hcall, before, after, hall, hbefore⟩ := List.find?_eq_some_iff_append.mp h
  exact ⟨hlong, hcall, before, after, hall, fun n hn => by simpa using hbefore n hn⟩

theorem decode_of_unreadable {cause : DecodingError} (h : Selects p data m)
    (hread : Ty.decodeAll m.types (data.drop selectorLength) = .error cause) :
    decode p data = .error (.invalidProxyPayload cause) := by
  rw [decode, if_neg (Nat.not_lt.mpr h.long), find?_of_selects h]
  simp only [hread]

theorem decode_of_read (h : Selects p data m)
    (hread : Ty.decodeAll m.types (data.drop selectorLength) = .ok values) :
    decode p data = ofValues m values := by
  rw [decode, if_neg (Nat.not_lt.mpr h.long), find?_of_selects h]
  simp only [hread]

/-- Values of a method's types fill its fields, unless the number among them is too large. -/
theorem ofValues_eq_error_iff (h : List.Forall₂ HasType values m.types) :
    ofValues m values = .error e ↔
      m = .sendTransaction ∧ ∃ seq, values[2]? = some (.uint seq) ∧ UInt64.size ≤ seq.toNat ∧
        e = .sequenceTooLarge seq := by
  cases m <;> simp only [ProxyMethod.types, List.forall₂_cons_right_iff,
    List.forall₂_nil_right_iff, hasType_string_iff, hasType_bytes_iff] at h
  case sendTransaction =>
    obtain ⟨_, _, ⟨uid, rfl⟩, ⟨_, _, ⟨id, rfl⟩, ⟨_, _, hseq, ⟨_, _, ⟨path, rfl⟩, ⟨_, _,
      ⟨signature, rfl⟩, ⟨_, _, ⟨arguments, rfl⟩, rfl, rfl⟩, rfl⟩, rfl⟩, rfl⟩, rfl⟩, rfl⟩ := h
    cases hseq with
    | @uint _ seq _ =>
      rw [ofValues]
      split
      · rename_i hsmall
        constructor
        · intro h
          cases h
        · rintro ⟨-, _, ⟨⟩, hlarge, -⟩
          exact absurd hsmall (Nat.not_lt.mpr hlarge)
      · rename_i hlarge
        constructor
        · intro h
          cases h
          exact ⟨rfl, seq, rfl, Nat.not_lt.mp hlarge, rfl⟩
        · rintro ⟨-, _, ⟨⟩, -, rfl⟩
          rfl
  case constantCall =>
    obtain ⟨_, _, ⟨id, rfl⟩, ⟨_, _, ⟨path, rfl⟩, ⟨_, _, ⟨signature, rfl⟩, ⟨_, _, ⟨arguments, rfl⟩,
      rfl, rfl⟩, rfl⟩, rfl⟩, rfl⟩ := h
    simp [ofValues]
  case sendTransactionWithoutXa =>
    obtain ⟨_, _, ⟨uid, rfl⟩, ⟨_, _, ⟨name, rfl⟩, ⟨_, _, ⟨payload, rfl⟩, rfl, rfl⟩, rfl⟩, rfl⟩ := h
    simp [ofValues]
  case constantCallWithoutXa =>
    obtain ⟨_, _, ⟨name, rfl⟩, ⟨_, _, ⟨payload, rfl⟩, rfl, rfl⟩, rfl⟩ := h
    simp [ofValues]

theorem decode_eq_error_iff : decode p data = .error e ↔ Refused p data e := by
  constructor
  · intro h
    by_cases hshort : data.length < selectorLength
    · rw [decode, if_pos hshort] at h
      cases h
      exact .short hshort
    · have hlong := Nat.not_lt.mp hshort
      cases hfind : ProxyMethod.all.find? (p.isCallOf ·.signature data) with
      | none =>
        rw [decode, if_neg hshort, hfind] at h
        cases h
        exact .unknown hlong fun m => by simpa using List.find?_eq_none.mp hfind m m.mem_all
      | some m =>
        have hm := selects_of_find? hlong hfind
        cases hread : Ty.decodeAll m.types (data.drop selectorLength) with
        | error cause =>
          rw [decode_of_unreadable hm hread] at h
          cases h
          exact .unreadable hm hread
        | ok values =>
          rw [decode_of_read hm hread] at h
          have htypes := Ty.forall₂_of_decodeAll m.areWide_types m.areFilled_types hread
          obtain ⟨rfl, seq, hthird, hlarge, rfl⟩ := (ofValues_eq_error_iff htypes).mp h
          exact .tooLarge hm hread hthird hlarge
  · intro h
    cases h with
    | short hshort => rw [decode, if_pos hshort]
    | unknown hlong hnone =>
      have hfind : ProxyMethod.all.find? (p.isCallOf ·.signature data) = none :=
        List.find?_eq_none.mpr fun m _ => by simp [hnone m]
      rw [decode, if_neg (Nat.not_lt.mpr hlong), hfind]
    | unreadable hm hread => exact decode_of_unreadable hm hread
    | tooLarge hm hread hthird hlarge =>
      have htypes := Ty.forall₂_of_decodeAll (ProxyMethod.areWide_types _)
        (ProxyMethod.areFilled_types _) hread
      rw [decode_of_read hm hread]
      exact (ofValues_eq_error_iff htypes).mpr ⟨rfl, _, hthird, hlarge, rfl⟩

end ProxyCall

/-! ## Outputs -/

namespace ProxyOutput

theorem resolve?_bytes :
    (TypeText.parse "(bytes)").bind TypeText.resolve? = some (.tuple [.bytes]) := by
  have htype : (Parameter.ofTypes [.bytes]).type? = some (.tuple [.bytes]) := rfl
  exact Parameter.resolve?_of_parse (by decide +kernel) htype (by decide +kernel)
    (by decide +kernel)

/-- What is read as one byte string is one. -/
theorem eq_bytes_of_decodeAll {output : Bytes} {values : List Value}
    (h : Ty.decodeAll [.bytes] output = .ok values) : ∃ b, values = [.bytes b] := by
  have htypes := Ty.forall₂_of_decodeAll (by simp [Ty.areWide, Ty.isWide])
    (by simp [Ty.areFilled, Ty.isFilled]) h
  obtain ⟨v, vs, hv, hnil, rfl⟩ := List.forall₂_cons_right_iff.mp htypes
  obtain rfl := List.forall₂_nil_right_iff.mp hnil
  obtain ⟨b, rfl⟩ := hasType_bytes_iff.mp hv
  exact ⟨b, rfl⟩

theorem decode_eq_error_iff {output : Bytes} {e : CallError} :
    decode output = .error e ↔
      output ≠ [] ∧ ∃ cause, Ty.decodeAll [.bytes] output = .error cause ∧
        e = .invalidProxyPayload cause := by
  rw [decode]
  split
  · rename_i hempty
    simp [List.isEmpty_iff.mp hempty]
  · rename_i hsome
    cases hread : Ty.decodeAll [.bytes] output with
    | error cause => simp [eq_comm, mt List.isEmpty_iff.mpr hsome]
    | ok values =>
      obtain ⟨b, rfl⟩ := eq_bytes_of_decodeAll hread
      simp

end ProxyOutput

/-- Data of the proxy is refused only for what shows in it. The types that are read are those in the
signatures, and values other than those are never met, in a call, in an output or in a list of
texts. -/
theorem proxyData_refused_iff (p : CryptoProfile) :
    (∀ data e, ProxyCall.decode p data = .error e ↔ ProxyCall.Refused p data e) ∧
    (∀ output e, ProxyOutput.decode output = .error e ↔
      output ≠ [] ∧ ∃ cause, Ty.decodeAll [.bytes] output = .error cause ∧
        e = .invalidProxyPayload cause) ∧
    (∀ data e, TextList.decode data = .error e ↔
      ∃ cause, Ty.decodeAll [.array .string] data = .error cause ∧ e = .invalidTexts cause) ∧
    (∀ data, ProxyCall.decode p data ≠ .error .unexpectedValues ∧
      ProxyOutput.decode data ≠ .error .unexpectedValues ∧
      TextList.decode data ≠ .error .unexpectedValues) ∧
    (∀ m : ProxyMethod,
      (TypeText.parse m.typesText).bind TypeText.resolve? = some (.tuple m.types)) ∧
    (TypeText.parse "(bytes)").bind TypeText.resolve? = some (.tuple [.bytes]) := by
  refine ⟨fun _ _ => ProxyCall.decode_eq_error_iff, fun _ _ => ProxyOutput.decode_eq_error_iff,
    fun _ _ => TextList.decode_eq_error_iff, fun data => ⟨?call, ?output, ?texts⟩,
    ProxyMethod.resolve?_typesText, ProxyOutput.resolve?_bytes⟩
  case call =>
    intro h
    cases ProxyCall.decode_eq_error_iff.mp h
  case output =>
    intro h
    obtain ⟨-, _, -, he⟩ := ProxyOutput.decode_eq_error_iff.mp h
    cases he
  case texts =>
    intro h
    obtain ⟨_, -, he⟩ := TextList.decode_eq_error_iff.mp h
    cases he

end LedgerGateway

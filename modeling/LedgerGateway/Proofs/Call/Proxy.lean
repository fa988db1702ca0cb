import LedgerGateway.Account.Profile
import LedgerGateway.Call.Proxy
import LedgerGateway.Proofs.Call.Method

/-!
# Calls through the proxy are read back

The signature of a proxy method, the values that are written and the places that they are read from
are three lists, and they agree for all four methods.
-/

namespace LedgerGateway

open Abi

namespace ProxyMethod

theorem areProper_types (m : ProxyMethod) : Ty.areProper m.types = true := by
  cases m <;> simp [types, Ty.areProper, Ty.isProper]

theorem areFilled_types (m : ProxyMethod) : Ty.areFilled m.types = true := by
  cases m <;> simp [types, Ty.areFilled, Ty.isFilled]

/-- Call data selects the method that it was built for if the four selectors differ. -/
theorem find?_callData {p : CryptoProfile}
    (hselectors : Function.Injective fun m : ProxyMethod => p.selector m.signature)
    (m : ProxyMethod) (body : Bytes) :
    all.find? (fun n => p.isCallOf n.signature (p.callData m.signature body)) = some m := by
  have hcall (n : ProxyMethod) :
      p.isCallOf n.signature (p.callData m.signature body) = decide (m = n) := by
    rw [CryptoProfile.isCallOf_callData]
    exact decide_eq_decide.mpr hselectors.eq_iff
  simp only [hcall]
  cases m <;> rfl

/-- The four selectors of the national profile. -/
theorem selectors_gm :
    all.map (fun m => (CryptoKind.gm.profile.selector m.signature).1) =
      [[0x72, 0xec, 0xef, 0x51], [0x5f, 0x44, 0xbb, 0xcf], [0xe0, 0x1c, 0x7a, 0x9e],
        [0x13, 0x67, 0x59, 0xf9]] := by
  decide +kernel

theorem injective_selector_gm :
    Function.Injective fun m : ProxyMethod => CryptoKind.gm.profile.selector m.signature := by
  have hselectors := selectors_gm
  simp only [all, List.map_cons, List.map_nil, List.cons.injEq, and_true] at hselectors
  obtain ⟨h₁, h₂, h₃, h₄⟩ := hselectors
  intro m n h
  have hbytes := congrArg Subtype.val h
  cases m <;> cases n <;> simp_all

end ProxyMethod

namespace ProxyCall

theorem forall₂_hasType_values (c : ProxyCall) :
    List.Forall₂ HasType c.values c.method.types := by
  have hsequence (seq : UInt64) :
      HasType (.uint (BitVec.ofNat 256 seq.toNat)) (.uint 256) := .uint (BitVec.isLt _)
  cases c with
  | sendTransaction uid id seq path signature arguments =>
    exact .cons (.string uid) (.cons (.string id) (.cons (hsequence seq) (.cons (.string path)
      (.cons (.string signature) (.cons (.bytes arguments) .nil)))))
  | constantCall id path signature arguments =>
    exact .cons (.string id) (.cons (.string path) (.cons (.string signature)
      (.cons (.bytes arguments) .nil)))
  | sendTransactionWithoutXa uid name payload =>
    exact .cons (.string uid) (.cons (.string name) (.cons (.bytes payload) .nil))
  | constantCallWithoutXa name payload =>
    exact .cons (.string name) (.cons (.bytes payload) .nil)

theorem deepest_values (c : ProxyCall) : Value.deepest c.values ≤ nestingLimit := by
  cases c <;> simp [values, Value.deepest, Value.depth, nestingLimit]

/-- Each value goes back to the field that it was taken from. -/
theorem ofValues_values (c : ProxyCall) : ofValues c.method c.values = .ok c := by
  cases c with
  | sendTransaction uid id seq path signature arguments =>
    have hlt : seq.toNat < UInt64.size := seq.toNat_lt
    have hword : (BitVec.ofNat 256 seq.toNat).toNat = seq.toNat := by
      rw [BitVec.toNat_ofNat]
      exact Nat.mod_eq_of_lt (Nat.lt_trans hlt (by decide))
    rw [method, values, ofValues, hword, if_pos hlt]
    simp
  | constantCall id path signature arguments => rfl
  | sendTransactionWithoutXa uid name payload => rfl
  | constantCallWithoutXa name payload => rfl

/-- A call of the proxy is read back from its data with every field in its place. -/
theorem decode_encode {p : CryptoProfile}
    (hselectors : Function.Injective fun m : ProxyMethod => p.selector m.signature)
    {c : ProxyCall} (hsize : (c.encode p).length < UInt64.size) :
    decode p (c.encode p) = .ok c := by
  rw [encode] at hsize ⊢
  have hlength := p.length_callData c.method.signature (Value.encodeAll c.values)
  have hvalues := decodeAll_encodeAll c.forall₂_hasType_values c.method.areProper_types
    c.method.areFilled_types c.deepest_values (by omega)
  rw [decode, if_neg (by omega), ProxyMethod.find?_callData hselectors]
  simp only [CryptoProfile.drop_callData, hvalues, ofValues_values]

end ProxyCall

namespace ProxyOutput

/-- What the contract returned is read back from the output of the proxy, no bytes included. -/
theorem decode_encode {output : Bytes} (h : (encode output).length < UInt64.size) :
    decode (encode output) = .ok output := by
  have htypes : List.Forall₂ HasType [.bytes output] [.bytes] := .cons (.bytes output) .nil
  have hproper : Ty.areProper [.bytes] = true := by simp [Ty.areProper, Ty.isProper]
  have hfilled : Ty.areFilled [.bytes] = true := by simp [Ty.areFilled, Ty.isFilled]
  have hvalues := decodeAll_encodeAll htypes hproper hfilled
    (by simp [Value.deepest, Value.depth, nestingLimit]) h
  have hne : encode output ≠ [] := encodeAll_ne_nil htypes hproper hfilled (List.cons_ne_nil _ _)
  rw [decode, if_neg (mt List.isEmpty_iff.mp hne), encode, hvalues]

end ProxyOutput

/-- Calls of the proxy and its outputs are read back from their bytes: the call data of a method as
the call of that method with every field in its place, and an output as what the contract returned. -/
theorem proxy_roundTrip (p : CryptoProfile)
    (hselectors : Function.Injective fun m : ProxyMethod => p.selector m.signature) :
    (∀ c : ProxyCall, (c.encode p).length < UInt64.size →
      ProxyCall.decode p (c.encode p) = .ok c) ∧
    (∀ output : Bytes, (ProxyOutput.encode output).length < UInt64.size →
      ProxyOutput.decode (ProxyOutput.encode output) = .ok output) :=
  ⟨fun _ hsize => ProxyCall.decode_encode hselectors hsize, fun _ => ProxyOutput.decode_encode⟩

/-- A transaction with a place in a distributed one, and an output without bytes. -/
theorem proxy_roundTrip_gm :
    ProxyCall.decode CryptoKind.gm.profile
        ((ProxyCall.sendTransaction "0x1" "7" 3 "a.b.Hello" "set(string)" [0xde, 0xad]).encode
          CryptoKind.gm.profile) =
      .ok (.sendTransaction "0x1" "7" 3 "a.b.Hello" "set(string)" [0xde, 0xad]) ∧
    ProxyOutput.decode (ProxyOutput.encode []) = .ok [] := by
  have hround := proxy_roundTrip CryptoKind.gm.profile ProxyMethod.injective_selector_gm
  constructor
  · apply hround.1
    rw [ProxyCall.encode, CryptoProfile.length_callData]
    decide +kernel
  · apply hround.2
    decide +kernel

end LedgerGateway

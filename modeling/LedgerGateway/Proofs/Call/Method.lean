import LedgerGateway.Account.Profile
import LedgerGateway.Call.Method
import LedgerGateway.Proofs.Abi.Decoded

/-!
# Call data is read back

Call data is told apart by its first four bytes alone, so a call is recognised under every signature
of the same selector. A call without an interface comes back with the arguments that it was built
with, and an empty list comes back as one, provided that the two signatures of its method have
selectors of their own. Data under any other selector is told from data that is broken. An output
reports a reason exactly if it is the encoding of one behind the selector of reasons.
-/

namespace LedgerGateway

open Abi

namespace CryptoProfile

variable (p : CryptoProfile) (signature other : String) (body : Bytes)

@[simp] theorem take_callData :
    (p.callData signature body).take selectorLength = (p.selector signature).1 :=
  List.take_left' (p.selector signature).2

@[simp] theorem drop_callData : (p.callData signature body).drop selectorLength = body :=
  List.drop_left' (p.selector signature).2

theorem length_callData :
    (p.callData signature body).length = selectorLength + body.length := by
  rw [callData, List.length_append, (p.selector signature).2, selectorLength]

/-- Data is a call of whatever has the selector that it starts with. -/
theorem isCallOf_callData :
    p.isCallOf other (p.callData signature body) =
      decide (p.selector signature = p.selector other) := by
  rw [isCallOf, take_callData, Bool.eq_iff_iff, beq_iff_eq, decide_eq_true_iff, Subtype.ext_iff]

end CryptoProfile

/-! ## Lists of texts -/

namespace TextList

theorem hasType_array (texts : List String) :
    HasType (.array (texts.map .string)) (.array .string) := by
  exact hasType_array_iff.mpr ⟨_, rfl, forall_hasType_string_iff.mpr ⟨texts, rfl⟩⟩

theorem deepest_map_string (texts : List String) : Value.deepest (texts.map .string) ≤ 1 := by
  induction texts with
  | nil => simp [Value.deepest]
  | cons s texts ih =>
    rw [List.map_cons, Value.deepest, Value.depth]
    omega

theorem depth_array (texts : List String) : (Value.array (texts.map .string)).depth ≤ 3 := by
  cases texts with
  | nil => simp [Value.depth]
  | cons s texts =>
    have htexts := deepest_map_string texts
    rw [List.map_cons, Value.depth, Value.depth]
    omega

theorem deepest_array (texts : List String) :
    Value.deepest [.array (texts.map .string)] ≤ nestingLimit := by
  have hlist := depth_array texts
  rw [Value.deepest, Value.deepest, nestingLimit]
  omega

theorem ofValues?_map_string (texts : List String) :
    ofValues? (texts.map .string) = some texts := by
  induction texts with
  | nil => rfl
  | cons s texts ih => rw [List.map_cons, ofValues?, ih, Option.map_some]

theorem decode_encode {texts : List String} (h : (encode texts).length < UInt64.size) :
    decode (encode texts) = .ok texts := by
  have hvalues := decodeAll_encodeAll (.cons (hasType_array texts) .nil)
    (by simp [Ty.areProper, Ty.isProper]) (by simp [Ty.areFilled, Ty.isFilled]) (deepest_array texts) h
  rw [decode, encode, hvalues]
  simp only [ofValues?_map_string]

theorem encode_ne_nil {texts : List String} (h : (encode texts).length < UInt64.size) :
    encode texts ≠ [] := by
  intro hnil
  have hback := decode_encode h
  rw [hnil] at hback
  cases hback

/-- What is read as a list of texts is one. -/
theorem eq_texts_of_decodeAll {data : Bytes} {vs : List Value}
    (h : Ty.decodeAll [.array .string] data = .ok vs) :
    ∃ texts : List String, vs = [.array (texts.map .string)] := by
  have htypes := Ty.forall₂_of_decodeAll (by simp [Ty.areWide, Ty.isWide])
    (by simp [Ty.areFilled, Ty.isFilled]) h
  obtain ⟨v, vs, hv, hnil, rfl⟩ := List.forall₂_cons_right_iff.mp htypes
  obtain rfl := List.forall₂_nil_right_iff.mp hnil
  obtain ⟨items, rfl, each⟩ := hasType_array_iff.mp hv
  obtain ⟨texts, rfl⟩ := forall_hasType_string_iff.mp each
  exact ⟨texts, rfl⟩

/-- Only data that cannot be read is refused. -/
theorem decode_eq_error_iff {data : Bytes} {e : CallError} :
    decode data = .error e ↔
      ∃ cause, Ty.decodeAll [.array .string] data = .error cause ∧ e = .invalidTexts cause := by
  rw [decode]
  cases hread : Ty.decodeAll [.array .string] data with
  | error cause => simp [eq_comm]
  | ok vs =>
    obtain ⟨texts, rfl⟩ := eq_texts_of_decodeAll hread
    simp [ofValues?_map_string]

theorem kind_of_decode {data : Bytes} {e : CallError} (h : decode data = .error e) :
    e.kind = .decode := by
  obtain ⟨cause, -, rfl⟩ := decode_eq_error_iff.mp h
  rfl

end TextList

/-! ## Calls without an interface -/

namespace PlainCall

section

variable {p : CryptoProfile} {method : String} {data : Bytes}

theorem not_isEmpty_of_length (hlength : selectorLength ≤ data.length) : ¬ data.isEmpty = true := by
  intro hempty
  rw [List.isEmpty_iff_length_eq_zero] at hempty
  rw [hempty] at hlength
  cases hlength

theorem decode_bare (hlength : selectorLength ≤ data.length)
    (hbare : data.take selectorLength = (p.selector (bareSignature method)).1) :
    decode p method data = .ok none := by
  have hcall : p.isCallOf (bareSignature method) data = true := beq_iff_eq.mpr hbare
  rw [decode, if_neg (not_isEmpty_of_length hlength), if_neg (Nat.not_lt.mpr hlength), if_pos hcall]

theorem decode_list (hlength : selectorLength ≤ data.length)
    (hbare : data.take selectorLength ≠ (p.selector (bareSignature method)).1)
    (hlist : data.take selectorLength = (p.selector (listSignature method)).1) :
    decode p method data = (TextList.decode (data.drop selectorLength)).map some := by
  have hnot : ¬ p.isCallOf (bareSignature method) data = true := fun h => hbare (beq_iff_eq.mp h)
  have hcall : p.isCallOf (listSignature method) data = true := beq_iff_eq.mpr hlist
  rw [decode, if_neg (not_isEmpty_of_length hlength), if_neg (Nat.not_lt.mpr hlength), if_neg hnot,
    if_pos hcall]

theorem decode_foreign (hlength : selectorLength ≤ data.length)
    (hbare : data.take selectorLength ≠ (p.selector (bareSignature method)).1)
    (hlist : data.take selectorLength ≠ (p.selector (listSignature method)).1) :
    decode p method data = .error (.foreignSelector (data.take selectorLength) method) := by
  have hnot : ¬ p.isCallOf (bareSignature method) data = true := fun h => hbare (beq_iff_eq.mp h)
  have hnone : ¬ p.isCallOf (listSignature method) data = true := fun h => hlist (beq_iff_eq.mp h)
  rw [decode, if_neg (not_isEmpty_of_length hlength), if_neg (Nat.not_lt.mpr hlength), if_neg hnot,
    if_neg hnone]

/-- Only a foreign selector is reported as a missing method. -/
theorem decode_eq_methodNotExist (hlength : selectorLength ≤ data.length) :
    (∃ e, decode p method data = .error e ∧ e.kind = .methodNotExist) ↔
      data.take selectorLength ≠ (p.selector (bareSignature method)).1 ∧
      data.take selectorLength ≠ (p.selector (listSignature method)).1 := by
  constructor
  · rintro ⟨e, he, hkind⟩
    have hbare : data.take selectorLength ≠ (p.selector (bareSignature method)).1 := by
      intro hbare
      rw [decode_bare hlength hbare] at he
      cases he
    refine ⟨hbare, ?_⟩
    intro hlist
    rw [decode_list hlength hbare hlist, map_eq_error] at he
    rw [TextList.kind_of_decode he] at hkind
    cases hkind
  · rintro ⟨hbare, hlist⟩
    exact ⟨_, decode_foreign hlength hbare hlist, rfl⟩

/-- A call without an interface comes back as it was built: without arguments, or with the list. -/
theorem decode_encode {arguments : Option (List String)}
    (hselectors : p.selector (bareSignature method) ≠ p.selector (listSignature method))
    (hsize : ∀ texts ∈ arguments, (TextList.encode texts).length < UInt64.size) :
    decode p method (encode p method arguments) = .ok arguments := by
  have hlength : selectorLength ≤ (encode p method arguments).length := by
    rw [encode, CryptoProfile.length_callData]
    exact Nat.le_add_right ..
  cases arguments with
  | none => exact decode_bare hlength (CryptoProfile.take_callData ..)
  | some texts =>
    have htake : (encode p method (some texts)).take selectorLength =
        (p.selector (listSignature method)).1 := CryptoProfile.take_callData ..
    have hbare : (encode p method (some texts)).take selectorLength ≠
        (p.selector (bareSignature method)).1 := by
      rw [htake]
      exact fun h => hselectors (Subtype.ext h.symm)
    have hdrop : (encode p method (some texts)).drop selectorLength = TextList.encode texts :=
      CryptoProfile.drop_callData ..
    rw [decode_list hlength hbare htake, hdrop, TextList.decode_encode (hsize texts rfl)]
    rfl

theorem length_texts_le {arguments : Option (List String)} :
    ∀ texts ∈ arguments, (TextList.encode texts).length ≤ (encode p method arguments).length := by
  rintro texts ⟨⟩
  rw [encode, CryptoProfile.length_callData]
  exact Nat.le_add_left ..

end

theorem decodeOutput_encode {texts : List String}
    (hsize : (TextList.encode texts).length < UInt64.size) :
    decodeOutput (TextList.encode texts) = .ok (some texts) := by
  have hsome : ¬ (TextList.encode texts).isEmpty = true :=
    fun h => TextList.encode_ne_nil hsize (List.isEmpty_iff.mp h)
  rw [decodeOutput, if_neg hsome, TextList.decode_encode hsize]
  rfl

/-- The two selectors of a method of the national profile. -/
theorem selectors_gm :
    [bareSignature "f", listSignature "f"].map (fun s => (CryptoKind.gm.profile.selector s).1) =
      [[0x26, 0xd7, 0x22, 0xd2], [0x03, 0x41, 0x28, 0xf8]] := by
  decide +kernel

theorem selector_bare_ne_list :
    CryptoKind.gm.profile.selector (bareSignature "f") ≠
      CryptoKind.gm.profile.selector (listSignature "f") := by
  have hselectors := selectors_gm
  simp only [List.map_cons, List.map_nil, List.cons.injEq, and_true] at hselectors
  intro h
  have hbytes := congrArg Subtype.val h
  rw [hselectors.1, hselectors.2] at hbytes
  simp at hbytes

end PlainCall

open PlainCall

/-- A call without an interface comes back with the arguments that it was built with, of which none
and an empty list are not the same, and only data under another selector than the two of the method
is reported as a missing method. A list of texts comes back from an output. -/
theorem plainCall_roundTrip (p : CryptoProfile) (method : String) :
    (p.selector (bareSignature method) ≠ p.selector (listSignature method) →
      ∀ arguments : Option (List String),
        (∀ texts ∈ arguments, (TextList.encode texts).length < UInt64.size) →
        decode p method (encode p method arguments) = .ok arguments) ∧
    (∀ data : Bytes, selectorLength ≤ data.length →
      ((∃ e, decode p method data = .error e ∧ e.kind = .methodNotExist) ↔
        data.take selectorLength ≠ (p.selector (bareSignature method)).1 ∧
        data.take selectorLength ≠ (p.selector (listSignature method)).1)) ∧
    ∀ texts : List String, (TextList.encode texts).length < UInt64.size →
      decodeOutput (TextList.encode texts) = .ok (some texts) := by
  refine ⟨?_, ?_, ?_⟩
  · intro hselectors arguments hsize
    exact decode_encode hselectors hsize
  · intro data hlength
    exact decode_eq_methodNotExist hlength
  · intro texts hsize
    exact decodeOutput_encode hsize

set_option maxRecDepth 2000 in
theorem plainCall_roundTrip_gm :
    decode CryptoKind.gm.profile "f" (encode CryptoKind.gm.profile "f" none) = .ok none ∧
      decode CryptoKind.gm.profile "f" (encode CryptoKind.gm.profile "f" (some [])) = .ok (some []) ∧
      decode CryptoKind.gm.profile "f" (encode CryptoKind.gm.profile "f" (some ["a", ""])) =
        .ok (some ["a", ""]) ∧
      (∃ e, decode CryptoKind.gm.profile "f" [0, 0, 0, 0] = .error e ∧ e.kind = .methodNotExist) ∧
      decodeOutput (TextList.encode ["a", ""]) = .ok (some ["a", ""]) := by
  obtain ⟨hback, hforeign, hreturned⟩ := plainCall_roundTrip CryptoKind.gm.profile "f"
  have hselectors := selectors_gm
  simp only [List.map_cons, List.map_nil, List.cons.injEq, and_true] at hselectors
  refine ⟨hback selector_bare_ne_list none (by simp), hback selector_bare_ne_list (some []) ?_,
    hback selector_bare_ne_list (some ["a", ""]) ?_, (hforeign [0, 0, 0, 0] (by decide)).mpr ?_,
    hreturned ["a", ""] (by decide)⟩
  · rintro texts ⟨⟩
    decide
  · rintro texts ⟨⟩
    decide
  · rw [hselectors.1, hselectors.2]
    decide

/-! ## Reasons -/

namespace RevertReason

variable {p : CryptoProfile} {output : Bytes} {reason : String}

/-- The output is the selector of the signature with an encoding of the reason behind it. -/
def Reports (p : CryptoProfile) (output : Bytes) (reason : String) : Prop :=
  ∃ body, output = p.callData signature body ∧ Ty.decodeAll [.string] body = .ok [.string reason]

theorem decode?_eq_some : decode? p output = some reason ↔ Reports p output reason := by
  constructor
  · intro h
    unfold decode? at h
    split at h
    · cases h
    · rename_i hcall
      have hselector : output.take selectorLength = (p.selector signature).1 := by
        simp only [CryptoProfile.isCallOf, Bool.or_eq_true, Bool.not_eq_true', not_or,
          Bool.not_eq_false, beq_iff_eq] at hcall
        exact hcall.2
      refine ⟨output.drop selectorLength, ?_, ?_⟩
      · rw [CryptoProfile.callData, ← hselector, List.take_append_drop]
      · split at h
        · rename_i hread
          cases h
          exact hread
        · cases h
  · rintro ⟨body, rfl, hread⟩
    have hlength : ¬ (p.callData signature body).length < selectorLength := by
      rw [p.length_callData]
      omega
    have hcall : p.isCallOf signature (p.callData signature body) = true := by
      rw [p.isCallOf_callData, decide_eq_true rfl]
    rw [decode?, hcall, p.drop_callData, if_neg (by simpa using hlength), hread]

/-- A reason that was written is read back. -/
theorem decode?_encode (h : (encode p reason).length < UInt64.size) :
    decode? p (encode p reason) = some reason := by
  have hsize : (Value.encodeAll [.string reason]).length < UInt64.size := by
    rw [encode, p.length_callData] at h
    omega
  refine decode?_eq_some.mpr ⟨_, rfl, ?_⟩
  exact decodeAll_encodeAll (.cons (.string reason) .nil) (by simp [Ty.areProper, Ty.isProper])
    (by simp [Ty.areFilled, Ty.isFilled]) (by simp [Value.deepest, Value.depth, nestingLimit]) hsize

end RevertReason

end LedgerGateway

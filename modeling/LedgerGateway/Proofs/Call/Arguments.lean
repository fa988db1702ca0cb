import LedgerGateway.Call.Arguments
import LedgerGateway.Proofs.Abi.Literal
import LedgerGateway.Proofs.Abi.Meaning
import LedgerGateway.Proofs.Abi.Rendered
import LedgerGateway.Proofs.Abi.RoundTrip
import LedgerGateway.Proofs.Except

/-!
# Arguments are read back

What arguments are encoded to is read back as the texts of the values that they were read as, one for
each argument and in their order. A text that was read as a text is the argument itself.
-/

namespace LedgerGateway

open Abi

theorem Abi.Parameter.length_of_types? {ps : List Parameter} {ts : List Ty}
    (h : types? ps = some ts) : ts.length = ps.length := by
  induction ps generalizing ts with
  | nil =>
    cases h
    rfl
  | cons p ps ih =>
    obtain ⟨first, others, -, hothers, rfl⟩ := types?_cons h
    simp [ih hothers]

theorem Abi.Parameter.getElem?_of_types? {ps : List Parameter} {ts : List Ty}
    (h : types? ps = some ts) {i : Nat} {p : Parameter} (hi : ps[i]? = some p) :
    ∃ t, p.type? = some t ∧ ts[i]? = some t := by
  induction ps generalizing ts i with
  | nil => simp at hi
  | cons first ps ih =>
    obtain ⟨t, others, ht, hothers, rfl⟩ := types?_cons h
    cases i with
    | zero =>
      obtain rfl : first = p := by simpa using hi
      exact ⟨t, ht, rfl⟩
    | succ i => exact ih hothers (by simpa using hi)

namespace Arguments

theorem types_eq_ok {ps : List Parameter} {ts : List Ty} :
    types ps = .ok ts ↔ Parameter.types? ps = some ts := by
  induction ps generalizing ts with
  | nil => simp [types, Parameter.types?]
  | cons p ps ih =>
    rw [types, Parameter.types?]
    cases p.type? with
    | none => simp
    | some t =>
      simp only [except_bind_eq_ok, Option.bind_eq_bind, Option.bind_some, Option.bind_eq_some_iff,
        ih]
      simp [pure, Except.pure]

theorem read_eq_ok {t : Ty} {argument : String} {v : Value} :
    read t argument = .ok v ↔ t.read? argument = some v := by
  unfold read
  split <;> simp_all

theorem readEach_cons_eq_ok {t : Ty} {ts : List Ty} {argument : String} {arguments : List String}
    {vs : List Value} (h : readEach (t :: ts) (argument :: arguments) = .ok vs) :
    ∃ v others, t.read? argument = some v ∧ readEach ts arguments = .ok others ∧
      vs = v :: others := by
  rw [readEach] at h
  obtain ⟨v, hv, h⟩ := except_bind_eq_ok.mp h
  obtain ⟨others, hothers, h⟩ := except_bind_eq_ok.mp h
  cases h
  exact ⟨v, others, read_eq_ok.mp hv, hothers, rfl⟩

/-- The values belong to the types that they were read as. -/
theorem forall₂_of_readEach {ts : List Ty} {arguments : List String} {vs : List Value}
    (hproper : Ty.areProper ts = true) (hlength : ts.length = arguments.length)
    (h : readEach ts arguments = .ok vs) : List.Forall₂ HasType vs ts := by
  induction ts generalizing arguments vs with
  | nil =>
    cases h
    exact .nil
  | cons t ts ih =>
    cases arguments with
    | nil => cases hlength
    | cons argument arguments =>
      obtain ⟨v, others, hv, hothers, rfl⟩ := readEach_cons_eq_ok h
      obtain ⟨hhead, htail⟩ := Ty.areProper_cons.mp hproper
      exact .cons (Ty.hasType_of_read? hhead hv) (ih htail (by simpa using hlength) hothers)

/-- A text that is read as a text is reported as it is. -/
theorem render_of_readEach {ts : List Ty} {arguments : List String} {vs : List Value}
    (hlength : ts.length = arguments.length) (h : readEach ts arguments = .ok vs) {k : Nat}
    (hk : ts[k]? = some .string) : (Value.renderAll vs)[k]? = arguments[k]? := by
  induction ts generalizing arguments vs k with
  | nil => simp at hk
  | cons t ts ih =>
    cases arguments with
    | nil => cases hlength
    | cons argument arguments =>
      obtain ⟨v, others, hv, hothers, rfl⟩ := readEach_cons_eq_ok h
      cases k with
      | zero =>
        obtain rfl : t = .string := by simpa using hk
        -- As a text every argument is read, and as it is.
        cases hv
        rfl
      | succ k => simpa [Value.renderAll] using ih (by simpa using hlength) hothers (by simpa using hk)

theorem getElem?_of_readEach {ts : List Ty} {arguments : List String} {vs : List Value}
    (h : readEach ts arguments = .ok vs) {i : Nat} {t : Ty} {argument : String}
    (ht : ts[i]? = some t) (hargument : arguments[i]? = some argument) :
    ∃ v, read t argument = .ok v ∧ vs[i]? = some v := by
  induction ts generalizing arguments vs i with
  | nil => simp at ht
  | cons head ts ih =>
    cases arguments with
    | nil => simp at hargument
    | cons first arguments =>
      obtain ⟨v, others, hv, hothers, rfl⟩ := readEach_cons_eq_ok h
      cases i with
      | zero =>
        obtain rfl : head = t := by simpa using ht
        obtain rfl : first = argument := by simpa using hargument
        exact ⟨v, read_eq_ok.mpr hv, rfl⟩
      | succ i => exact ih hothers (by simpa using ht) (by simpa using hargument)

theorem values_eq_ok {ps : List Parameter} {arguments : List String} {vs : List Value} :
    values ps arguments = .ok vs ↔ ps.length = arguments.length ∧
      ∃ ts, Parameter.types? ps = some ts ∧ readEach ts arguments = .ok vs := by
  unfold values
  split
  · rename_i hlength
    simp [hlength]
  · rename_i hlength
    simp only [except_bind_eq_ok, types_eq_ok]
    simp [not_not.mp hlength]

/-- The values that arguments stand for belong to the types of the parameters, one to one. -/
theorem forall₂_of_values {ps : List Parameter} {arguments : List String} {vs : List Value}
    {ts : List Ty} (h : values ps arguments = .ok vs) (hts : Parameter.types? ps = some ts) :
    List.Forall₂ HasType vs ts := by
  obtain ⟨hlength, ts', hts', hread⟩ := values_eq_ok.mp h
  obtain rfl := Option.some.inj (hts.symm.trans hts')
  refine forall₂_of_readEach (Parameter.areProper_of_types? ps hts) ?_ hread
  rw [Parameter.length_of_types? hts, hlength]

/-- The texts that are reported for values that stand for arguments: as many, and those of texts are
the arguments themselves. -/
theorem renderAll_of_values {ps : List Parameter} {arguments : List String} {vs : List Value}
    {ts : List Ty} (h : values ps arguments = .ok vs) (hts : Parameter.types? ps = some ts) :
    (Value.renderAll vs).length = arguments.length ∧
      ∀ k : Nat, ts[k]? = some .string → (Value.renderAll vs)[k]? = arguments[k]? := by
  obtain ⟨hlength, ts', hts', hread⟩ := values_eq_ok.mp h
  obtain rfl := Option.some.inj (hts.symm.trans hts')
  have htypes := Parameter.length_of_types? hts
  refine ⟨?_, fun k => render_of_readEach (htypes.trans hlength) hread⟩
  rw [Value.renderAll_eq_map, List.length_map, (forall₂_of_values h hts).length_eq, htypes, hlength]

/-- Encoded arguments are read back as the texts of their values. -/
theorem decode_encodeAll {ps : List Parameter} {ts : List Ty} {vs : List Value}
    (hts : Parameter.types? ps = some ts) (htypes : List.Forall₂ HasType vs ts)
    (hfilled : Ty.areFilled ts = true) (hdepth : Value.deepest vs ≤ nestingLimit)
    (hsize : (Value.encodeAll vs).length < UInt64.size) :
    decode ps (Value.encodeAll vs) = .ok (Value.renderAll vs) := by
  have hvalues := decodeAll_encodeAll htypes (Parameter.areProper_of_types? ps hts) hfilled hdepth
    hsize
  rw [decode, types_eq_ok.mpr hts]
  simp only [bind, Except.bind, hvalues]
  rfl

/-! ## Texts as arguments -/

def textParameter : Parameter := ⟨"string", []⟩

theorem types?_texts (n : Nat) :
    Parameter.types? (List.replicate n textParameter) = some (List.replicate n .string) := by
  induction n with
  | zero => rfl
  | succ n ih =>
    rw [List.replicate_succ, Parameter.types?, ih]
    rfl

theorem readEach_texts (arguments : List String) :
    readEach (List.replicate arguments.length .string) arguments = .ok (arguments.map .string) := by
  induction arguments with
  | nil => rfl
  | cons argument arguments ih =>
    rw [List.length_cons, List.replicate_succ, readEach, ih]
    rfl

theorem values_texts {n : Nat} {arguments : List String} {vs : List Value}
    (h : values (List.replicate n textParameter) arguments = .ok vs) :
    arguments.length = n ∧ vs = arguments.map .string := by
  obtain ⟨hlength, ts, hts, hread⟩ := values_eq_ok.mp h
  rw [List.length_replicate] at hlength
  subst hlength
  rw [types?_texts, Option.some.injEq] at hts
  subst hts
  rw [readEach_texts, Except.ok.injEq] at hread
  exact ⟨rfl, hread.symm⟩

theorem areFilled_texts (n : Nat) : Ty.areFilled (List.replicate n .string) = true := by
  induction n with
  | zero => rfl
  | succ n ih =>
    rw [List.replicate_succ, Ty.areFilled, ih]
    rfl

/-! ## The whole way -/

variable {ps : List Parameter} {arguments : List String} {data : Bytes}

/-- The arguments are as many as the parameters, and each is read as the value in its place, which is
one of the type of the parameter there. -/
structure StandFor (ps : List Parameter) (arguments : List String) (ts : List Ty)
    (vs : List Value) : Prop where
  types : types ps = .ok ts
  values : values ps arguments = .ok vs
  arguments_length : arguments.length = ps.length
  values_length : vs.length = ps.length
  each : ∀ (i : Nat) (p : Parameter) (argument : String), ps[i]? = some p →
    arguments[i]? = some argument →
    ∃ t v, p.type? = some t ∧ ts[i]? = some t ∧ read t argument = .ok v ∧ vs[i]? = some v

theorem standFor_of_values {vs : List Value} (h : values ps arguments = .ok vs) :
    ∃ ts, StandFor ps arguments ts vs := by
  obtain ⟨hlength, ts, hts, hread⟩ := values_eq_ok.mp h
  have hvalues := (forall₂_of_values h hts).length_eq
  refine ⟨ts, types_eq_ok.mpr hts, h, hlength.symm, ?_, ?_⟩
  · rw [hvalues, Parameter.length_of_types? hts]
  · intro i p argument hp hargument
    obtain ⟨t, htype, ht⟩ := Parameter.getElem?_of_types? hts hp
    obtain ⟨v, hv, hvs⟩ := getElem?_of_readEach hread ht hargument
    exact ⟨t, v, htype, ht, hv, hvs⟩

theorem kind_of_types {e : CallError} (h : types ps = .error e) : e.kind = .encode := by
  induction ps with
  | nil => cases h
  | cons p ps ih =>
    rw [types] at h
    cases htype : p.type? with
    | none =>
      rw [htype] at h
      cases h
      rfl
    | some t =>
      simp only [htype] at h
      rcases except_bind_eq_error.mp h with hrest | ⟨ts, -, hdone⟩
      · exact ih hrest
      · cases hdone

theorem kind_of_readEach {ts : List Ty} {e : CallError} (h : readEach ts arguments = .error e) :
    e.kind = .encode := by
  induction ts generalizing arguments with
  | nil => cases h
  | cons t ts ih =>
    cases arguments with
    | nil => cases h
    | cons argument arguments =>
      rw [readEach] at h
      rcases except_bind_eq_error.mp h with hread | ⟨v, -, hrest⟩
      · unfold read at hread
        split at hread
        · cases hread
        · cases hread
          rfl
      · rcases except_bind_eq_error.mp hrest with hothers | ⟨vs, -, hdone⟩
        · exact ih hothers
        · cases hdone

/-- Of all that can go wrong with arguments only their number is reported as a wrong parameter. -/
theorem encode_eq_invalidParameter :
    (∃ e, encode ps arguments = .error e ∧ e.kind = .invalidParameter) ↔
      ps.length ≠ arguments.length := by
  constructor
  · rintro ⟨e, he, hkind⟩ hlength
    have hvalues : values ps arguments = .error e := map_eq_error.mp he
    rw [values, if_neg (not_not.mpr hlength)] at hvalues
    rcases except_bind_eq_error.mp hvalues with htypes | ⟨ts, -, hread⟩
    · rw [kind_of_types htypes] at hkind
      cases hkind
    · rw [kind_of_readEach hread] at hkind
      cases hkind
  · intro hlength
    refine ⟨.argumentCount ps.length arguments.length, ?_, rfl⟩
    rw [encode, values, if_pos hlength]
    rfl

namespace Nested

/-- A list of names with their numbers, and a text. -/
def parameters : List Parameter :=
  [⟨"tuple[]", [⟨"string", []⟩, ⟨"uint8[2]", []⟩]⟩, ⟨"string", []⟩]

def texts : List String := ["[(a,[1,2]),(b,[3,4])]", "c"]

def pair (name : String) (first second : Nat) : Value :=
  .tuple [.string name, .tuple [.uint (BitVec.ofNat 256 first), .uint (BitVec.ofNat 256 second)]]

def held : List Value := [.array [pair "a" 1 2, pair "b" 3 4], .string "c"]

def kinds : List Ty := [.array (.tuple [.string, .fixedArray (.uint 8) 2]), .string]

theorem types_kinds : types parameters = .ok kinds := rfl

theorem values_held : values parameters texts = .ok held := by
  rfl

end Nested

end Arguments

open Arguments

/-- What arguments are encoded to comes back as the texts of the values that they were read as, one for
each parameter and in their order; those that were read as texts come back as they are. As a wrong
parameter nothing is reported but a wrong number of arguments. -/
theorem arguments_roundTrip (ps : List Parameter) (arguments : List String) :
    (∀ data, encode ps arguments = .ok data →
      ∃ ts vs, StandFor ps arguments ts vs ∧
        (Ty.areFilled ts = true → Value.deepest vs ≤ nestingLimit → data.length < UInt64.size →
          decode ps data = .ok (vs.map Value.render) ∧
          ∀ i : Nat, ts[i]? = some .string → (vs.map Value.render)[i]? = arguments[i]?)) ∧
    ((∃ e, encode ps arguments = .error e ∧ e.kind = .invalidParameter) ↔
      ps.length ≠ arguments.length) := by
  refine ⟨?_, encode_eq_invalidParameter⟩
  intro data h
  obtain ⟨vs, hvalues, rfl⟩ := map_eq_ok.mp h
  obtain ⟨ts, hstand⟩ := standFor_of_values hvalues
  refine ⟨ts, vs, hstand, ?_⟩
  intro hfilled hdepth hsize
  have hts := types_eq_ok.mp hstand.types
  have hback := decode_encodeAll hts (forall₂_of_values hvalues hts) hfilled hdepth hsize
  have htexts := (renderAll_of_values hvalues hts).2
  rw [Value.renderAll_eq_map] at hback htexts
  exact ⟨hback, htexts⟩

set_option maxRecDepth 4000 in
open Nested in
theorem arguments_roundTrip_nested :
    encode parameters texts = .ok (Value.encodeAll held) ∧
      decode parameters (Value.encodeAll held) = .ok (held.map Value.render) ∧
      (held.map Value.render)[1]? = some "c" ∧
      ∃ e, encode parameters ["c"] = .error e ∧ e.kind = .invalidParameter := by
  have hencode : encode parameters texts = .ok (Value.encodeAll held) :=
    map_eq_ok.mpr ⟨held, values_held, rfl⟩
  obtain ⟨ts, vs, hstand, hback⟩ := (arguments_roundTrip parameters texts).1 _ hencode
  obtain rfl : vs = held := Except.ok.inj (hstand.values.symm.trans values_held)
  obtain rfl : ts = kinds := Except.ok.inj (hstand.types.symm.trans types_kinds)
  obtain ⟨hdecode, htexts⟩ := hback rfl (by decide) (by decide)
  refine ⟨hencode, hdecode, htexts 1 rfl, ?_⟩
  exact (arguments_roundTrip parameters ["c"]).2.mpr (by decide)

end LedgerGateway

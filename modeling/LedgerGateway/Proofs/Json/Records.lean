import LedgerGateway.Proofs.Json.Written

/-!
# Written records are opened again

A record is written field by field, in order, and a field that may be missing is left out. Opening
what was written finds each field under its own number, so that the round trip of a record follows
from those of its fields.
-/

namespace LedgerGateway.Json

/-! ## Values and lists -/

variable {α : Type}

@[simp] theorem asText_text (s : String) : asText (.text (some s)) = .ok s := rfl

@[simp] theorem asUInt64_number (n : UInt64) :
    asUInt64 (.number ⟨false, n.toNat, 0, true⟩) = .ok n := by
  have hlt : n.toNat < UInt64.size := n.toNat_lt
  simp [asUInt64, Numeral.natural?, hlt]

theorem each_nodes {f : α → Json} {decode : Decoder α}
    (h : ∀ a, decode (f a).node = .ok a) (as : List α) :
    each decode (nodes (as.map f)) = .ok as := by
  induction as with
  | nil => rfl
  | cons a as ih => simp [each, h, ih, bind, Except.bind, pure, Except.pure]

theorem asList_array {f : α → Json} {decode : Decoder α} (h : ∀ a, decode (f a).node = .ok a)
    (as : List α) : asList decode (.array (nodes (as.map f))) = .ok as :=
  each_nodes h as

@[simp] theorem asList_ofTexts (texts : List String) :
    asList asText (ofTexts texts).node = .ok texts :=
  asList_array (fun _ => rfl) texts

/-- Texts are kept as they are. -/
theorem asList_keep_ofTexts (depth : Nat) (texts : List String) :
    asList (keep depth) (ofTexts texts).node = .ok (texts.map .text) := by
  change each (keep depth) (nodes (texts.map .text)) = _
  induction texts with
  | nil => rfl
  | cons text texts ih => simp [each, keep, ih, bind, Except.bind, pure, Except.pure]

theorem asOption_of_ne_null {decode : Decoder α} {n : Node} {a : α} (hnull : n ≠ .null)
    (h : decode n = .ok a) : asOption decode n = .ok (some a) := by
  cases n <;> first
    | exact absurd rfl hnull
    | simp [asOption, h, Except.map]

theorem areWhole_map {f : α → Json} (h : ∀ a, (f a).isWhole = true) (as : List α) :
    areWhole (as.map f) = true := by
  induction as with
  | nil => rfl
  | cons a as ih => simp [h, ih]

@[simp] theorem isWhole_ofTexts (texts : List String) : (ofTexts texts).isWhole = true :=
  areWhole_map (fun _ => rfl) texts

/-- Different lists of texts are written differently. -/
theorem render_ofTexts_injective : Function.Injective fun texts => (ofTexts texts).render := by
  intro xs ys h
  have hread : asList asText (ofTexts xs).node = asList asText (ofTexts ys).node := by
    have hbytes : (ofTexts xs).bytes = (ofTexts ys).bytes := congrArg Text.Utf8.encode h
    have hnode := readNode_bytes (isWhole_ofTexts xs)
    rw [hbytes, readNode_bytes (isWhole_ofTexts ys)] at hnode
    rw [Except.ok.inj hnode]
  rw [asList_ofTexts, asList_ofTexts] at hread
  exact Except.ok.inj hread

/-! ## Members that are left out -/

/-- The members of the fields that have a value. -/
def present : List (String × Option Json) → List (String × Json)
  | [] => []
  | (key, some value) :: rest => (key, value) :: present rest
  | (_, none) :: rest => present rest

@[simp] theorem present_nil : present [] = [] := rfl

@[simp] theorem present_some (key : String) (value : Json) (rest : List (String × Option Json)) :
    present ((key, some value) :: rest) = (key, value) :: present rest := rfl

@[simp] theorem present_map (key : String) (f : α → Json) (a : Option α)
    (rest : List (String × Option Json)) :
    present ((key, a.map f) :: rest) = member? key f a ++ present rest := by
  cases a <;> rfl

@[simp] theorem membersAreWhole_append (ms ns : List (String × Json)) :
    membersAreWhole (ms ++ ns) = (membersAreWhole ms && membersAreWhole ns) := by
  induction ms with
  | nil => rfl
  | cons m ms ih => simp [ih, Bool.and_assoc]

@[simp] theorem membersAreWhole_member? {f : α → Json} (h : ∀ a, (f a).isWhole = true)
    (key : String) (a : Option α) : membersAreWhole (member? key f a) = true := by
  cases a <;> simp [member?, h]

@[simp] theorem membersAreWhole_member?_text (key : String) (s : Option String) :
    membersAreWhole (member? key .text s) = true :=
  membersAreWhole_member? (fun _ => rfl) key s

@[simp] theorem membersAreWhole_member?_number (key : String) (n : Option UInt64) :
    membersAreWhole (member? key ofUInt64 n) = true :=
  membersAreWhole_member? (fun _ => rfl) key n

/-! ## Records -/

/-- The number of the field that a key names. -/
def fieldIndex (fields : Fields) (key : String) : Option Nat := fields.findIdx? (·.contains key)

/-- What a field holds that was written or left out. -/
def Slot.written : Option Json → Slot
  | some j => .given j.node
  | none => .absent

/-- Members that name the fields from `first` on, one after the other. -/
def Numbered (fields : Fields) (first : Nat) (members : List (String × Option Json)) : Prop :=
  members.map (fun m => fieldIndex fields m.1) = (List.range' first members.length).map some

theorem Numbered.head {fields : Fields} {first : Nat} {m : String × Option Json}
    {rest : List (String × Option Json)} (h : Numbered fields first (m :: rest)) :
    fieldIndex fields m.1 = some first := by
  simp only [Numbered, List.map_cons, List.length_cons, List.range'_succ] at h
  exact (List.cons.inj h).1

theorem Numbered.tail {fields : Fields} {first : Nat} {m : String × Option Json}
    {rest : List (String × Option Json)} (h : Numbered fields first (m :: rest)) :
    Numbered fields (first + 1) rest := by
  simp only [Numbered, List.map_cons, List.length_cons, List.range'_succ] at h
  exact (List.cons.inj h).2

theorem find?_eq_none_of_lt {found : List (Nat × Node)} {first i : Nat}
    (hfound : ∀ p ∈ found, p.1 < first) (hi : first ≤ i) : found.find? (·.1 == i) = none := by
  rw [List.find?_eq_none]
  intro p hp
  have hlt := hfound p hp
  simp only [beq_iff_eq]
  omega

/-- Sorting leaves what was found for the fields before the members, and finds the members. -/
theorem sortMembers_present {fields : Fields} (members : List (String × Option Json)) (first : Nat)
    (found : List (Nat × Node)) (hnum : Numbered fields first members)
    (hfound : ∀ p ∈ found, p.1 < first) :
    ∃ sorted, sortMembers fields found (memberNodes (present members)) = .ok sorted ∧
      ∀ i, (sorted.find? (·.1 == i)).map (·.2) =
        if i < first then (found.find? (·.1 == i)).map (·.2)
        else (members[i - first]?.bind (·.2)).map node := by
  induction members generalizing first found with
  | nil =>
    refine ⟨found, rfl, fun i => ?_⟩
    split
    · rfl
    · rename_i hi
      simp [find?_eq_none_of_lt hfound (Nat.not_lt.mp hi)]
  | cons m rest ih =>
    match m with
    | (key, none) =>
      obtain ⟨sorted, hsort, hfind⟩ := ih (first + 1) found hnum.tail
        fun p hp => Nat.lt_succ_of_lt (hfound p hp)
      refine ⟨sorted, hsort, fun i => ?_⟩
      rw [hfind]
      by_cases hi : i < first
      · rw [if_pos hi, if_pos (by omega)]
      · rw [if_neg hi]
        by_cases heq : i = first
        · rw [if_pos (by omega), find?_eq_none_of_lt hfound (Nat.not_lt.mp hi), heq]
          simp
        · rw [if_neg (by omega), show i - first = (i - (first + 1)) + 1 by omega]
          simp
    | (key, some value) =>
      have hindex : fields.findIdx? (·.contains key) = some first := hnum.head
      have hnew : found.any (·.1 == first) = false := by
        rw [List.any_eq_false]
        intro p hp
        have := hfound p hp
        simp
        omega
      obtain ⟨sorted, hsort, hfind⟩ := ih (first + 1) ((first, value.node) :: found) hnum.tail (by
        intro p hp
        rcases List.mem_cons.mp hp with rfl | hp
        · exact Nat.lt_succ_self _
        · exact Nat.lt_succ_of_lt (hfound p hp))
      refine ⟨sorted, ?_, fun i => ?_⟩
      · rw [present_some, memberNodes, sortMembers]
        simp only [hindex, hnew]
        exact hsort
      · rw [hfind]
        by_cases hi : i < first
        · have hne : (first == i) = false := by
            simp
            omega
          rw [if_pos hi, if_pos (by omega), List.find?_cons, hne]
        · rw [if_neg hi]
          by_cases heq : i = first
          · rw [if_pos (by omega), heq]
            simp
          · rw [if_neg (by omega), show i - first = (i - (first + 1)) + 1 by omega]
            simp

/-- Opening a record that was written field by field gives each field what was written for it. -/
theorem openRecord_present (fields : Fields) (members : List (String × Option Json))
    (hnum : Numbered fields 0 members) :
    openRecord fields (node (.object (present members))) =
      .ok fun i => Slot.written (members[i]?.bind (·.2)) := by
  obtain ⟨sorted, hsort, hfind⟩ := sortMembers_present members 0 [] hnum (by simp)
  simp only [node, openRecord, hsort, bind, Except.bind, pure, Except.pure]
  refine congrArg Except.ok (funext fun i => ?_)
  have := hfind i
  simp only [Nat.not_lt_zero, if_false, Nat.sub_zero] at this
  cases hs : sorted.find? (·.1 == i) with
  | none =>
    rw [hs] at this
    cases hm : members[i]?.bind (·.2) with
    | none => simp [Slot.written]
    | some j => simp [hm] at this
  | some p =>
    rw [hs] at this
    cases hm : members[i]?.bind (·.2) with
    | none => simp [hm] at this
    | some j =>
      simp [hm] at this
      simp [Slot.written, this]

/-! ## Fields -/

@[simp] theorem Slot.required_written (field : String) (decode : Decoder α) (j : Json) :
    (Slot.written (some j)).required field decode = decode j.node := rfl

@[simp] theorem Slot.orElse_written (default : α) (decode : Decoder α) (j : Json) :
    (Slot.written (some j)).orElse default decode = decode j.node := rfl

/-- A field that is left out where there is no value is read back. -/
theorem Slot.orElse_written_map {f : α → Json} {decode : Decoder α}
    (hnull : ∀ a, (f a).node ≠ .null) (h : ∀ a, decode (f a).node = .ok a) (a : Option α) :
    (Slot.written (a.map f)).orElse none (asOption decode) = .ok a := by
  cases a with
  | none => rfl
  | some a => exact asOption_of_ne_null (hnull a) (h a)

@[simp] theorem Slot.orElse_written_text (s : Option String) :
    (Slot.written (s.map .text)).orElse none (asOption asText) = .ok s :=
  orElse_written_map (by simp) (fun _ => rfl) s

@[simp] theorem Slot.orElse_written_number (n : Option UInt64) :
    (Slot.written (n.map ofUInt64)).orElse none (asOption asUInt64) = .ok n :=
  orElse_written_map (by simp [ofUInt64]) asUInt64_number n

end LedgerGateway.Json

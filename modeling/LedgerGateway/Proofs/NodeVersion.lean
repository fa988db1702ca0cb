import LedgerGateway.NodeVersion
import LedgerGateway.Proofs.Text.Blank
import LedgerGateway.Proofs.Text.Grammar
import LedgerGateway.Proofs.Text.Segments

/-!
# Which texts are versions

A text is cut in one way only: all letters `v` in front, the pieces between dots, and a suffix from
the first dash, plus sign or blank. It is a version if the first two pieces, and the third if there
is one, are numbers of 32 bits. A plus sign ends the pieces, so no number has one in front.
-/

namespace LedgerGateway.NodeVersion

open Text

/-! ## Cutting -/

/-- A letter that may stand in front of a version. -/
def IsLead (c : Char) : Prop := c = 'v' ∨ c = 'V'

/-- How a text is cut. -/
structure Cut (text lead : List Char) (pieces : List (List Char)) (suffix : List Char) : Prop where
  text_eq : text = lead ++ (['.'].intercalate pieces ++ suffix)
  lead : ∀ c ∈ lead, IsLead c
  /-- All letters in front are dropped. -/
  head : ∀ c ∈ (['.'].intercalate pieces).head?, ¬ IsLead c
  pieces_ne : pieces ≠ []
  pieces : ∀ piece ∈ pieces, ∀ c ∈ piece, c ≠ '.' ∧ endsNumbers c = false
  suffix : ∀ c ∈ suffix.head?, endsNumbers c = true

theorem isLead_iff {c : Char} : (c == 'v' || c == 'V') = true ↔ IsLead c := by
  rw [Bool.or_eq_true, beq_iff_eq, beq_iff_eq, IsLead]

theorem not_isLead_of_endsNumbers {c : Char} (h : endsNumbers c = true) : ¬ IsLead c := by
  rintro (rfl | rfl) <;> exact absurd h (by decide)

/-- The pieces of any cut are those that are read. -/
theorem Cut.segments_core {s : String} {lead suffix : List Char} {pieces : List (List Char)}
    (h : Cut (trim s).toList lead pieces suffix) : segments (· == '.') (core s) = pieces := by
  have hhead : ∀ c ∈ (['.'].intercalate pieces ++ suffix).head?, (c == 'v' || c == 'V') = false := by
    intro c hc
    rw [← Bool.not_eq_true, isLead_iff]
    rw [List.head?_append, Option.mem_def, Option.or_eq_some_iff] at hc
    rcases hc with hc | ⟨-, hc⟩
    · exact h.head c hc
    · exact not_isLead_of_endsNumbers (h.suffix c hc)
  have hpieces : ∀ c ∈ ['.'].intercalate pieces, (!endsNumbers c) = true := by
    intro c hc
    rcases eq_or_mem_of_mem_intercalate hc with rfl | ⟨piece, hpiece, hc⟩
    · decide
    · rw [(h.pieces piece hpiece c hc).2, Bool.not_false]
  have hsuffix : ∀ c ∈ suffix.head?, (!endsNumbers c) = false := by
    intro c hc
    rw [h.suffix c hc, Bool.not_true]
  have hcore : core s = ['.'].intercalate pieces := by
    rw [core, h.text_eq, dropWhile_append_of_head (fun c hc => isLead_iff.mpr (h.lead c hc)) hhead,
      takeWhile_append_of_head hpieces hsuffix]
  rw [hcore]
  exact segments_intercalate h.pieces_ne fun piece hpiece hdot =>
    (h.pieces piece hpiece '.' hdot).1 rfl

/-- A text is cut by what is in front, what the numbers are and what is left. -/
theorem cut_of_parts {lead body : List Char} (hlead : ∀ c ∈ lead, IsLead c)
    (hbody : ∀ c ∈ body.head?, ¬ IsLead c) :
    Cut (lead ++ body) lead (segments (· == '.') (body.takeWhile fun c => !endsNumbers c))
      (body.dropWhile fun c => !endsNumbers c) := by
  have hjoined := intercalate_segments '.' (body.takeWhile fun c => !endsNumbers c)
  refine ⟨?_, hlead, ?_, segments_ne_nil _ _, ?_, ?_⟩
  · rw [hjoined, List.takeWhile_append_dropWhile]
  · rw [hjoined]
    cases body with
    | nil => simp
    | cons c body =>
      rw [List.takeWhile_cons]
      split
      · exact hbody
      · simp
  · intro piece hpiece c hc
    have hdot := separates_of_mem_segments hpiece hc
    have hcore := mem_intercalate_of_mem '.' hpiece hc
    rw [hjoined] at hcore
    have hends := List.mem_takeWhile_imp hcore
    exact ⟨by simpa using hdot, by simpa using hends⟩
  · intro c hc
    have hends := List.head?_dropWhile_not (fun c => !endsNumbers c) body
    rw [hc] at hends
    simpa using hends

/-- Every text has a cut. -/
theorem exists_cut (s : String) :
    ∃ lead suffix, Cut (trim s).toList lead (segments (· == '.') (core s)) suffix := by
  unfold core
  generalize (trim s).toList = text
  have hlead : ∀ c ∈ (text.takeWhile fun c => c == 'v' || c == 'V'), IsLead c := by
    intro c hc
    have htaken := List.mem_takeWhile_imp hc
    exact isLead_iff.mp htaken
  have hbody : ∀ c ∈ (text.dropWhile fun c => c == 'v' || c == 'V').head?, ¬ IsLead c := by
    intro c hc
    have hends := List.head?_dropWhile_not (fun c => c == 'v' || c == 'V') text
    rw [hc] at hends
    rw [← isLead_iff]
    simpa using hends
  have hcut := cut_of_parts hlead hbody
  rw [List.takeWhile_append_dropWhile] at hcut
  exact ⟨_, _, hcut⟩

/-! ## Numbers -/

/-- The version that pieces write. -/
inductive Writes : List (List Char) → NodeVersion → Prop where
  | two {first second : List Char} {major minor : UInt32}
      (hmajor : IsNumeral 10 first major.toNat) (hminor : IsNumeral 10 second minor.toNat) :
      Writes [first, second] ⟨major, minor, 0⟩
  /-- Further pieces do not count. -/
  | three {first second third : List Char} {others : List (List Char)} {major minor patch : UInt32}
      (hmajor : IsNumeral 10 first major.toNat) (hminor : IsNumeral 10 second minor.toNat)
      (hpatch : IsNumeral 10 third patch.toNat) :
      Writes (first :: second :: third :: others) ⟨major, minor, patch⟩

theorem readPart_eq_ok_iff {text : String} {part : Part} {digits : List Char} {n : UInt32}
    (h : ∀ c ∈ digits, endsNumbers c = false) :
    readPart text part digits = .ok n ↔ IsNumeral 10 digits n.toNat := by
  have hplus : ∀ c ∈ digits.head?, c ≠ '+' := by
    rintro c hc rfl
    cases h '+' (List.mem_of_mem_head? hc)
  rw [← isNumber_iff_isNumeral hplus, ← String.toList_ofList (l := digits), ← readUInt32_eq_ok_iff,
    String.toList_ofList, readPart]
  cases readUInt32 (String.ofList digits) <;> simp

/-- What is read is what the pieces of the cut write. -/
theorem parse_eq_ok_iff_writes {s : String} {lead suffix : List Char} {pieces : List (List Char)}
    (h : Cut (trim s).toList lead pieces suffix) {v : NodeVersion} :
    parse s = .ok v ↔ Writes pieces v := by
  have hends : ∀ piece ∈ pieces, ∀ c ∈ piece, endsNumbers c = false :=
    fun piece hpiece c hc => (h.pieces piece hpiece c hc).2
  rw [parse, h.segments_core]
  obtain ⟨first, pieces, rfl⟩ := List.exists_cons_of_ne_nil h.pieces_ne
  have hfirst := hends first List.mem_cons_self
  cases pieces with
  | nil =>
    constructor
    · intro hparse
      obtain ⟨_, -, hmissing⟩ := except_bind_eq_ok.mp hparse
      cases hmissing
    · intro hwrites
      cases hwrites
  | cons second rest =>
    have hsecond := hends second (by simp)
    cases rest with
    | nil =>
      simp only [except_bind_eq_ok, readPart_eq_ok_iff hfirst, readPart_eq_ok_iff hsecond, pure,
        Except.pure, Except.ok.injEq]
      constructor
      · rintro ⟨major, hmajor, minor, hminor, patch, rfl, rfl⟩
        exact .two hmajor hminor
      · intro hwrites
        cases hwrites with
        | two hmajor hminor => exact ⟨_, hmajor, _, hminor, _, rfl, rfl⟩
    | cons third others =>
      have hthird := hends third (by simp)
      simp only [except_bind_eq_ok, readPart_eq_ok_iff hfirst, readPart_eq_ok_iff hsecond,
        readPart_eq_ok_iff hthird, pure, Except.pure, Except.ok.injEq]
      constructor
      · rintro ⟨major, hmajor, minor, hminor, patch, hpatch, rfl⟩
        exact .three hmajor hminor hpatch
      · intro hwrites
        cases hwrites with
        | three hmajor hminor hpatch => exact ⟨_, hmajor, _, hminor, _, hpatch, rfl⟩

/-- A text is a version exactly if the pieces of its cut write it. -/
theorem parse_eq_ok_iff {s : String} {v : NodeVersion} :
    parse s = .ok v ↔
      ∃ lead pieces suffix, Cut (trim s).toList lead pieces suffix ∧ Writes pieces v := by
  constructor
  · intro h
    obtain ⟨lead, suffix, hcut⟩ := exists_cut s
    exact ⟨lead, _, suffix, hcut, (parse_eq_ok_iff_writes hcut).mp h⟩
  · rintro ⟨lead, pieces, suffix, hcut, hwrites⟩
    exact (parse_eq_ok_iff_writes hcut).mpr hwrites

/-! ## Displayed versions -/

/-- The pieces of a displayed version. -/
def digits (v : NodeVersion) : List (List Char) :=
  [Nat.toDigits 10 v.major.toNat, Nat.toDigits 10 v.minor.toNat, Nat.toDigits 10 v.patch.toNat]

theorem toList_display (v : NodeVersion) : v.display.toList = ['.'].intercalate v.digits := by
  simp [display, decimal, digits, List.intercalate]

theorem writes_digits (v : NodeVersion) : Writes v.digits v :=
  .three (isNumeral_toDigits (by decide) (by decide) _) (isNumeral_toDigits (by decide) (by decide) _)
    (isNumeral_toDigits (by decide) (by decide) _)

theorem isBlank_of_not_endsNumbers {c : Char} (h : endsNumbers c = false) : isBlank c = false := by
  simp only [endsNumbers, Bool.or_eq_false_iff] at h
  exact h.2

/-- A digit is no dot, no letter in front and no end of the numbers. -/
theorem digitChar_inside {d : Nat} (hd : d < 10) :
    Nat.digitChar d ≠ '.' ∧ ¬ IsLead (Nat.digitChar d) ∧ endsNumbers (Nat.digitChar d) = false := by
  simp only [← isLead_iff]
  revert d
  decide

theorem inside_of_mem_digits {v : NodeVersion} :
    ∀ piece ∈ v.digits, ∀ c ∈ piece, c ≠ '.' ∧ ¬ IsLead c ∧ endsNumbers c = false := by
  have hdigits : ∀ n, ∀ c ∈ Nat.toDigits 10 n, c ≠ '.' ∧ ¬ IsLead c ∧ endsNumbers c = false :=
    forall_mem_toDigits (by decide) fun d hd => digitChar_inside hd
  simp only [digits, List.forall_mem_cons, List.not_mem_nil]
  exact ⟨hdigits _, hdigits _, hdigits _, by simp⟩

theorem inside_of_mem_display {v : NodeVersion} :
    ∀ c ∈ v.display.toList, ¬ IsLead c ∧ endsNumbers c = false := by
  intro c hc
  rw [toList_display] at hc
  rcases eq_or_mem_of_mem_intercalate hc with rfl | ⟨piece, hpiece, hc⟩
  · rw [← isLead_iff]
    decide
  · exact (inside_of_mem_digits piece hpiece c hc).2

section

variable (v : NodeVersion) {lead suffix : List Char} (hlead : ∀ c ∈ lead, IsLead c)
  (hsuffix : ∀ c ∈ suffix.head?, endsNumbers c = true)

include hlead hsuffix

theorem cut_display : Cut (lead ++ (v.display.toList ++ suffix)) lead v.digits suffix where
  text_eq := by rw [toList_display]
  lead := hlead
  head c hc := by
    rw [← toList_display] at hc
    exact (inside_of_mem_display c (List.mem_of_mem_head? hc)).1
  pieces_ne := by simp [digits]
  pieces piece hpiece c hc :=
    have hinside := inside_of_mem_digits piece hpiece c hc
    ⟨hinside.1, hinside.2.2⟩
  suffix := hsuffix

/-- A displayed version is read back, whatever number of letters is in front and whatever follows
that ends the numbers. -/
theorem parse_display : parse (String.ofList (lead ++ v.display.toList ++ suffix)) = .ok v := by
  have hne : lead ++ v.display.toList ≠ [] := by simp [display]
  have hblank : ∀ c ∈ lead ++ v.display.toList, isBlank c = false := by
    intro c hc
    rcases List.mem_append.mp hc with hc | hc
    · obtain rfl | rfl := hlead c hc <;> decide
    · exact isBlank_of_not_endsNumbers (inside_of_mem_display c hc).2
  have htrim := toList_trim_append hne (fun c hc => hblank c (List.mem_of_mem_head? hc))
    (fun c hc => hblank c (List.mem_of_mem_getLast? hc)) suffix
  simp only [List.append_assoc] at htrim ⊢
  have hsuffix' : ∀ c ∈ (trimEnd suffix).head?, endsNumbers c = true := fun c hc =>
    hsuffix c (head?_of_trimEnd hc)
  have hcut := cut_display v hlead hsuffix'
  rw [← htrim] at hcut
  exact (parse_eq_ok_iff_writes hcut).mpr (writes_digits v)

end

/-- A text is a version exactly if its numbers are: what is between its blanks is cut in one way
into letters, pieces and a suffix, and two or three pieces are numbers of 32 bits. A displayed version
is read back, behind letters and in front of a suffix as well. -/
theorem parse_iff_cut :
    (∀ (s : String) (v : NodeVersion), parse s = .ok v ↔
      ∃ lead pieces suffix, Cut (trim s).toList lead pieces suffix ∧ Writes pieces v) ∧
    ∀ (v : NodeVersion) (lead suffix : List Char), (∀ c ∈ lead, IsLead c) →
      (∀ c ∈ suffix.head?, c = '-' ∨ c = '+' ∨ isBlank c = true) →
      parse (String.ofList (lead ++ v.display.toList ++ suffix)) = .ok v := by
  refine ⟨fun s v => parse_eq_ok_iff, ?displayed⟩
  intro v lead suffix hlead hsuffix
  have hends : ∀ c ∈ suffix.head?, endsNumbers c = true := by
    intro c hc
    simpa [endsNumbers, or_assoc] using hsuffix c hc
  exact parse_display v hlead hends

/-- A release candidate is a version of its own numbers. -/
theorem parse_iff_cut_candidate :
    ((∀ c ∈ ['v', 'V'], IsLead c) ∧
      ∀ c ∈ ['-', 'r', 'c', '.', '1'].head?, c = '-' ∨ c = '+' ∨ isBlank c = true) ∧
    parse (String.ofList (['v', 'V'] ++ (display ⟨3, 2, 0⟩).toList ++ ['-', 'r', 'c', '.', '1'])) =
      .ok ⟨3, 2, 0⟩ := by
  have hlead : ∀ c ∈ ['v', 'V'], IsLead c := by simp [IsLead]
  have hsuffix : ∀ c ∈ ['-', 'r', 'c', '.', '1'].head?, c = '-' ∨ c = '+' ∨ isBlank c = true := by
    simp
  exact ⟨⟨hlead, hsuffix⟩, parse_iff_cut.2 _ _ _ hlead hsuffix⟩

/-! ## Order and proofs -/

end LedgerGateway.NodeVersion

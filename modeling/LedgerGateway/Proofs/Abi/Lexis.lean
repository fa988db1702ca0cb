import LedgerGateway.Abi.TypeText
import Mathlib.Data.List.TakeWhile

/-!
# Names and brackets of types

Names and digits go as far as they can, so what is read from the front of a text is also read there
when more text follows, provided that this does not go on with a type.
-/

namespace LedgerGateway

theorem Text.afterLead?_eq_some {lead cs rest : List Char} :
    afterLead? lead cs = some rest ↔ cs = lead ++ rest := by
  constructor
  · intro h
    unfold afterLead? at h
    split at h
    · rename_i hprefix
      obtain ⟨tail, rfl⟩ := List.isPrefixOf_iff_prefix.mp hprefix
      simpa using h
    · cases h
  · rintro rfl
    exact afterLead?_append lead rest

namespace Abi

/-! ## Where a type ends -/

/-- The characters that can stand behind a type. -/
def closers : List Char := [',', ')', ' ', '\t']

/-- The text does not go on with a type before it. -/
def Ends (cs : List Char) : Prop := ∀ c ∈ cs.head?, c ∈ closers

theorem Ends.nil : Ends [] := by
  intro c hc
  cases hc

theorem Ends.cons {c : Char} (h : c ∈ closers) (cs : List Char) : Ends (c :: cs) := by
  intro d hd
  cases hd
  exact h

theorem isIdentifierChar_of_mem_closers : ∀ c ∈ closers, isIdentifierChar c = false := by
  simp [closers, isIdentifierChar, isIdentifierStart]

theorem isDigit_of_mem_closers : ∀ c ∈ closers, c.isDigit = false := by
  simp [closers]

section Append

variable {cs ext rest : List Char}

theorem skipSpaces_append {c : Char} (h : skipSpaces cs = c :: rest) :
    skipSpaces (cs ++ ext) = c :: (rest ++ ext) := by
  rw [skipSpaces, List.dropWhile_append, ← skipSpaces, h]
  rfl

/-- A run of characters that ends before more text is the same there. -/
theorem span_append {q : Char → Bool} (hq : ∀ c ∈ closers, q c = false)
    (h : cs.dropWhile q = [] → Ends ext) :
    (cs ++ ext).takeWhile q = cs.takeWhile q ∧ (cs ++ ext).dropWhile q = cs.dropWhile q ++ ext := by
  induction cs with
  | nil =>
    have hend := h rfl
    cases ext with
    | nil => simp
    | cons c ext => simp [hq c (hend c rfl)]
  | cons c cs ih =>
    cases hc : q c with
    | false => simp [hc]
    | true =>
      have htail := ih (by simpa [hc] using h)
      simpa [hc] using htail

theorem readIdentifier?_append {name : List Char} (h : readIdentifier? cs = some (name, rest))
    (hend : rest = [] → Ends ext) : readIdentifier? (cs ++ ext) = some (name, rest ++ ext) := by
  cases cs with
  | nil => cases h
  | cons c cs =>
    rw [readIdentifier?] at h
    split at h
    · rename_i hstart
      cases h
      obtain ⟨htake, hdrop⟩ := span_append isIdentifierChar_of_mem_closers hend
      rw [List.cons_append, readIdentifier?, if_pos hstart, htake, hdrop]
    · cases h

theorem readIdentifier?_of_ends (h : Ends cs) : readIdentifier? cs = none := by
  cases cs with
  | nil => rfl
  | cons c cs =>
    have hc := isIdentifierChar_of_mem_closers c (h c rfl)
    rw [isIdentifierChar, Bool.or_eq_false_iff] at hc
    rw [readIdentifier?, hc.1, if_neg Bool.false_ne_true]

namespace TypeText

/-- The name of the member that may follow a point is passed over. -/
def skipMember (cs : List Char) : List Char := ((readIdentifier? cs).map (·.2)).getD cs

theorem skipMember_append (hend : skipMember cs = [] → Ends ext) :
    skipMember (cs ++ ext) = skipMember cs ++ ext := by
  unfold skipMember at hend ⊢
  cases hread : readIdentifier? cs with
  | some step =>
    rw [hread] at hend
    rw [readIdentifier?_append hread hend]
    rfl
  | none =>
    rw [hread] at hend
    have hnone : readIdentifier? (cs ++ ext) = none := by
      cases cs with
      | nil => exact readIdentifier?_of_ends (hend rfl)
      | cons c cs =>
        rw [readIdentifier?] at hread
        rw [List.cons_append, readIdentifier?]
        split at hread
        · cases hread
        · rename_i hstart
          exact if_neg hstart
    rw [hnone]
    rfl

theorem readName_eq_some {stem : TypeText} :
    readName cs = some (stem, rest) ↔ ∃ name tail, readIdentifier? cs = some (name, tail) ∧
      ((∃ member, tail = '.' :: member ∧ stem = named ['u', 'i', 'n', 't', '8'] ∧
          rest = skipMember member) ∨
        (tail.head? ≠ some '.' ∧ stem = named name ∧ rest = tail)) := by
  unfold readName
  simp only [bind, Option.bind_eq_some_iff, Prod.exists]
  refine exists_congr fun name => exists_congr fun tail => and_congr_right fun _ => ?_
  split
  · rename_i member
    simp [skipMember, eq_comm, pure]
  · rename_i hpoint
    have hhead : tail.head? ≠ some '.' := by
      cases tail with
      | nil => simp
      | cons c tail =>
        intro hc
        exact hpoint tail (by simpa using hc)
    simp only [Option.some.injEq, Prod.mk.injEq, ne_eq, hhead, not_false_eq_true, true_and, pure]
    constructor
    · rintro ⟨rfl, rfl⟩
      exact .inr ⟨rfl, rfl⟩
    · rintro (⟨member, hmember, -⟩ | ⟨rfl, rfl⟩)
      · exact absurd hmember (hpoint member)
      · exact ⟨rfl, rfl⟩

theorem readName_append {stem : TypeText} (h : readName cs = some (stem, rest))
    (hend : rest = [] → Ends ext) : readName (cs ++ ext) = some (stem, rest ++ ext) := by
  obtain ⟨name, tail, hname, ⟨member, rfl, rfl, rfl⟩ | ⟨hpoint, rfl, rfl⟩⟩ := readName_eq_some.mp h
  · have hlonger : readIdentifier? (cs ++ ext) = some (name, '.' :: member ++ ext) :=
      readIdentifier?_append hname (by simp)
    refine readName_eq_some.mpr ⟨name, _, hlonger, .inl ⟨member ++ ext, rfl, rfl, ?_⟩⟩
    exact (skipMember_append hend).symm
  · refine readName_eq_some.mpr ⟨name, _, readIdentifier?_append hname hend, .inr ⟨?_, rfl, rfl⟩⟩
    cases rest with
    | nil =>
      intro hhead
      have hcloser := hend rfl '.' hhead
      exact absurd hcloser (by decide)
    | cons c tail => simpa using hpoint

/-! ## Brackets -/

/-- What stands between brackets behind the opening one, and what follows the closing one. -/
def lengthBefore? (cs : List Char) : Option (Option Nat × List Char) :=
  let digits := cs.takeWhile Char.isDigit
  match cs.dropWhile Char.isDigit with
  | ']' :: rest =>
    if digits.isEmpty then some (none, rest)
    else if decimalValue digits = 0 || UInt64.size ≤ decimalValue digits then none
    else some (some (decimalValue digits), rest)
  | _ => none

theorem readBrackets_cons (fuel : Nat) (cs : List Char) :
    readBrackets (fuel + 1) ('[' :: cs) = (lengthBefore? cs).bind fun (length, rest) =>
      (readBrackets fuel rest).map fun (lengths, rest) => (length :: lengths, rest) := by
  rw [readBrackets, lengthBefore?]
  simp only
  cases hclose : cs.dropWhile Char.isDigit with
  | nil => rfl
  | cons c tail =>
    by_cases hc : c = ']'
    · subst hc
      simp only
      split
      · rfl
      · split <;> rfl
    · simp [hc]

theorem readBrackets_of_head (fuel : Nat) (h : cs.head? ≠ some '[') :
    readBrackets fuel cs = some ([], cs) := by
  cases cs with
  | nil => cases fuel <;> rfl
  | cons c cs =>
    have hopen : c ≠ '[' := by simpa using h
    rw [readBrackets]
    intro _ tail _ htail
    exact hopen (List.cons.inj htail).1

theorem lengthBefore?_append {length : Option Nat} (h : lengthBefore? cs = some (length, rest)) :
    lengthBefore? (cs ++ ext) = some (length, rest ++ ext) := by
  unfold lengthBefore? at h ⊢
  simp only at h ⊢
  split at h
  · rename_i tail hclose
    have hend : cs.dropWhile Char.isDigit = [] → Ends ext := by
      rw [hclose]
      simp
    obtain ⟨htake, hdrop⟩ := span_append isDigit_of_mem_closers hend
    rw [htake, hdrop, hclose]
    split at h
    · rename_i hempty
      cases h
      simp [hempty]
    · rename_i hempty
      split at h
      · cases h
      · rename_i hbound
        cases h
        simp [hempty, hbound]
  · cases h

theorem lengthBefore?_shorter {length : Option Nat} (h : lengthBefore? cs = some (length, rest)) :
    rest.length < cs.length ∧ length ≠ some 0 := by
  unfold lengthBefore? at h
  simp only at h
  split at h
  · rename_i tail hclose
    have hsuffix := (List.dropWhile_suffix (l := cs) Char.isDigit).length_le
    rw [hclose, List.length_cons] at hsuffix
    split at h
    · cases h
      exact ⟨by omega, by simp⟩
    · split at h
      · cases h
      · rename_i hbound
        cases h
        refine ⟨by omega, ?_⟩
        intro hzero
        simp_all
  · cases h

theorem readBrackets_append {fuel fuel' : Nat} {lengths : List (Option Nat)}
    (hfuel : cs.length ≤ fuel) (hfuel' : (cs ++ ext).length ≤ fuel')
    (h : readBrackets fuel cs = some (lengths, rest)) (hend : rest = [] → Ends ext) :
    readBrackets fuel' (cs ++ ext) = some (lengths, rest ++ ext) := by
  induction fuel generalizing cs fuel' lengths with
  | zero =>
    obtain rfl : cs = [] := by simpa using hfuel
    cases h
    have hopen : ext.head? ≠ some '[' := fun hhead => absurd (hend rfl '[' hhead) (by decide)
    exact readBrackets_of_head fuel' hopen
  | succ fuel ih =>
    -- Either one more length stands in front, or the brackets have ended and stay ended before `ext`.
    by_cases hopen : cs.head? = some '['
    · obtain ⟨body, rfl⟩ : ∃ body, cs = '[' :: body := by
        cases cs with
        | nil => cases hopen
        | cons c body => exact ⟨body, by simpa using hopen⟩
      rw [List.cons_append, List.length_cons] at hfuel'
      obtain ⟨fuel', rfl⟩ : ∃ k, fuel' = k + 1 := ⟨fuel' - 1, by omega⟩
      rw [readBrackets_cons] at h
      obtain ⟨⟨length, tail⟩, hlength, h⟩ := Option.bind_eq_some_iff.mp h
      obtain ⟨⟨others, tail'⟩, hothers, h⟩ := Option.map_eq_some_iff.mp h
      cases h
      have hshorter := (lengthBefore?_shorter hlength).1
      rw [List.length_cons] at hfuel
      have hroom : (tail ++ ext).length ≤ fuel' := by
        simp only [List.length_append] at hfuel' ⊢
        omega
      have hmore := ih (by omega) hroom hothers
      rw [List.cons_append, readBrackets_cons, lengthBefore?_append hlength]
      simp only [Option.bind_some, hmore, Option.map_some]
    · rw [readBrackets_of_head _ hopen] at h
      cases h
      refine readBrackets_of_head fuel' ?_
      cases rest with
      | nil => exact fun hhead => absurd (hend rfl '[' hhead) (by decide)
      | cons c body => simpa using hopen

theorem readBrackets_ne_zero {fuel : Nat} {lengths : List (Option Nat)}
    (h : readBrackets fuel cs = some (lengths, rest)) : some 0 ∉ lengths := by
  induction fuel generalizing cs lengths with
  | zero =>
    cases h
    simp
  | succ fuel ih =>
    by_cases hopen : cs.head? = some '['
    · obtain ⟨body, rfl⟩ : ∃ body, cs = '[' :: body := by
        cases cs with
        | nil => cases hopen
        | cons c body => exact ⟨body, by simpa using hopen⟩
      rw [readBrackets_cons] at h
      obtain ⟨⟨length, tail⟩, hlength, h⟩ := Option.bind_eq_some_iff.mp h
      obtain ⟨⟨others, tail'⟩, hothers, h⟩ := Option.map_eq_some_iff.mp h
      cases h
      have hfirst := (lengthBefore?_shorter hlength).2
      simp [hfirst.symm, ih hothers]
    · rw [readBrackets_of_head _ hopen] at h
      cases h
      simp

end TypeText
end Append

end Abi

end LedgerGateway

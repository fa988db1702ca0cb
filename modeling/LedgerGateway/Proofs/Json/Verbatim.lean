import LedgerGateway.Json.Printer
import Mathlib.Data.List.Basic
import Mathlib.Tactic.SplitIfs
import Mathlib.Tactic.ByContra

/-!
# Strings without escapes

A string is written as it is exactly if it has no character that is escaped, because every escape makes
it longer. A list of strings is written as one string behind the other, with a comma in front of all but
the first.
-/

namespace LedgerGateway.Json

/-- No character of the text is escaped in a JSON string. -/
def Verbatim (s : String) : Prop := ∀ c ∈ s.toList, c ≠ '"' ∧ c ≠ '\\' ∧ 0x20 ≤ c.toNat

instance (s : String) : Decidable (Verbatim s) :=
  List.decidableBAll (fun c => c ≠ '"' ∧ c ≠ '\\' ∧ 0x20 ≤ c.toNat) s.toList

theorem escape_eq_self {c : Char} (h : c ≠ '"' ∧ c ≠ '\\' ∧ 0x20 ≤ c.toNat) : escape c = [c] := by
  obtain ⟨hquote, hslash, hlow⟩ := h
  rw [escape, if_neg hquote, if_neg hslash, if_neg (Nat.not_lt.mpr hlow)]

/-- A character that is escaped is written behind a backslash, with two characters at least. -/
theorem two_le_length_escape {c : Char} (h : ¬ (c ≠ '"' ∧ c ≠ '\\' ∧ 0x20 ≤ c.toNat)) :
    2 ≤ (escape c).length := by
  unfold escape
  split
  · simp
  · split
    · simp
    · rename_i hquote hslash
      have hlow : c.toNat < 0x20 := by
        by_contra hhigh
        exact h ⟨hquote, hslash, Nat.not_lt.mp hhigh⟩
      rw [if_pos hlow]
      split_ifs <;> simp

theorem length_escape_pos (c : Char) : 1 ≤ (escape c).length := by
  by_cases h : c ≠ '"' ∧ c ≠ '\\' ∧ 0x20 ≤ c.toNat
  · simp [escape_eq_self h]
  · exact Nat.le_of_succ_le (two_le_length_escape h)

theorem length_le_flatMap_escape (cs : List Char) : cs.length ≤ (cs.flatMap escape).length := by
  induction cs with
  | nil => simp
  | cons c cs ih =>
    have hc := length_escape_pos c
    rw [List.flatMap_cons, List.length_append, List.length_cons]
    omega

theorem flatMap_escape_of_verbatim {s : String} (h : Verbatim s) :
    s.toList.flatMap escape = s.toList := by
  have hescape : ∀ c ∈ s.toList, escape c = [c] := fun c hc => escape_eq_self (h c hc)
  rw [List.flatMap_congr hescape, List.flatMap_singleton']

/-- Escapes make a text longer, so that a text that is written as it is has none. -/
theorem verbatim_of_flatMap_escape {s : String} (h : s.toList.flatMap escape = s.toList) :
    Verbatim s := by
  have key : ∀ cs : List Char, (cs.flatMap escape).length ≤ cs.length →
      ∀ c ∈ cs, c ≠ '"' ∧ c ≠ '\\' ∧ 0x20 ≤ c.toNat := by
    intro cs
    induction cs with
    | nil => simp
    | cons first cs ih =>
      intro hlength
      rw [List.flatMap_cons, List.length_append, List.length_cons] at hlength
      have hcs := length_le_flatMap_escape cs
      have hfirst : first ≠ '"' ∧ first ≠ '\\' ∧ 0x20 ≤ first.toNat := by
        by_contra hescaped
        have htwo := two_le_length_escape hescaped
        omega
      have hone := length_escape_pos first
      intro c hc
      rcases List.mem_cons.mp hc with rfl | hc
      · exact hfirst
      · exact ih (by omega) c hc
  exact key s.toList (Nat.le_of_eq (congrArg List.length h))

/-- Only the quote is written with a quote. -/
theorem ne_quote_of_mem_escape {c d : Char} (hc : c ≠ '"') (hd : d ∈ escape c) : d ≠ '"' := by
  have hdigit : ∀ n < 16, Nat.digitChar n ≠ '"' := by decide
  have hdigits : c.toNat < 0x20 → ∀ d ∈ twoDigits c.toNat, d ≠ '"' := by
    intro hlow d hd
    rw [twoDigits, List.mem_cons, List.mem_singleton] at hd
    rcases hd with rfl | rfl
    · exact hdigit _ (by omega)
    · exact hdigit _ (by omega)
  unfold escape at hd
  split_ifs at hd with hlow
  all_goals grind

/-- What follows the first of some strings in a list of them. -/
def behindFirst : List String → List Char
  | [] => [']']
  | s :: rest => ',' :: (quoted s ++ behindFirst rest)

theorem length_le_behindFirst (rest : List String) : rest.length ≤ (behindFirst rest).length := by
  induction rest with
  | nil => simp
  | cons s rest ih =>
    rw [behindFirst, List.length_cons, List.length_cons, List.length_append]
    omega

theorem itemChars_map_text (texts : List String) : itemChars (texts.map .text) = texts.map quoted := by
  induction texts with
  | nil => rfl
  | cons s texts ih => rw [List.map_cons, itemChars, ih, chars, List.map_cons]

theorem render_ofTexts_nil : (ofTexts []).render.toList = ['[', ']'] := by decide

theorem render_ofTexts_cons (s : String) (rest : List String) :
    (ofTexts (s :: rest)).render.toList = '[' :: (quoted s ++ behindFirst rest) := by
  have hjoined : List.intercalate [','] (quoted s :: rest.map quoted) ++ [']'] =
      quoted s ++ behindFirst rest := by
    induction rest generalizing s with
    | nil => simp [behindFirst]
    | cons t rest ih =>
      rw [List.map_cons, List.intercalate_cons_cons, List.append_assoc, ih t, behindFirst]
      simp
  rw [render, String.toList_ofList, ofTexts, chars, itemChars_map_text, listed, List.map_cons, hjoined]

/-- A list is written with more characters than its only string has. -/
theorem render_ofTexts_singleton_ne (s : String) : (ofTexts [s]).render ≠ s := by
  intro h
  have hlength := congrArg (fun t : String => t.toList.length) h
  have hescaped := length_le_flatMap_escape s.toList
  simp only [render_ofTexts_cons, quoted, List.length_cons, List.length_append] at hlength
  omega

end LedgerGateway.Json

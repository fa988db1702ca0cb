import LedgerGateway.Text.Blank
import Mathlib.Data.List.TakeWhile

/-!
# Blanks at the ends of a text

What trimming leaves has no blank at either end, so that trimming again changes nothing, and a text
without blanks is left as it is.
-/

namespace LedgerGateway.Text

theorem trimStart_eq_self {cs : List Char} (h : ∀ c ∈ cs.head?, isBlank c = false) :
    trimStart cs = cs := by
  cases cs with
  | nil => rfl
  | cons c cs => simp [trimStart, h c (by simp)]

theorem trimEnd_eq_self {cs : List Char} (h : ∀ c ∈ cs.getLast?, isBlank c = false) :
    trimEnd cs = cs := by
  have hrev : trimStart cs.reverse = cs.reverse := trimStart_eq_self (by simpa using h)
  rw [trimEnd, ← trimStart, hrev, List.reverse_reverse]

theorem trimEnd_cons {c : Char} (cs : List Char) (h : isBlank c = false) :
    trimEnd (c :: cs) = c :: trimEnd cs := by
  rw [trimEnd, trimEnd, List.reverse_cons, List.dropWhile_append]
  split
  · rename_i hempty
    rw [List.isEmpty_iff] at hempty
    simp [hempty, h]
  · simp

theorem trimEnd_prefix (cs : List Char) : trimEnd cs <+: cs := by
  have hsuffix : cs.reverse.dropWhile isBlank <:+ cs.reverse := List.dropWhile_suffix _
  rw [trimEnd, ← List.reverse_suffix, List.reverse_reverse]
  exact hsuffix

theorem head?_of_trimEnd {cs : List Char} {c : Char} (h : c ∈ (trimEnd cs).head?) :
    c ∈ cs.head? := by
  obtain ⟨dropped, hcs⟩ := trimEnd_prefix cs
  obtain ⟨rest, hrest⟩ := List.head?_eq_some_iff.mp h
  rw [← hcs, hrest]
  rfl

theorem isBlank_of_head?_trimStart {cs : List Char} {c : Char} (h : c ∈ (trimStart cs).head?) :
    isBlank c = false := by
  have hends := List.head?_dropWhile_not isBlank cs
  rw [← trimStart, h] at hends
  simpa using hends

/-- Only what stands behind the last character that is not blank is dropped. -/
theorem trimEnd_append {front : List Char} (h : ∀ c ∈ front.getLast?, isBlank c = false)
    (back : List Char) : trimEnd (front ++ back) = front ++ trimEnd back := by
  rw [trimEnd, trimEnd, List.reverse_append, List.dropWhile_append]
  split
  · rename_i hempty
    rw [List.isEmpty_iff] at hempty
    rw [← trimEnd, trimEnd_eq_self h, hempty, List.reverse_nil, List.append_nil]
  · rw [List.reverse_append, List.reverse_reverse]

/-- Nothing is left exactly where everything is blank. -/
theorem trimEnd_eq_nil_iff {cs : List Char} : trimEnd cs = [] ↔ ∀ c ∈ cs, isBlank c = true := by
  rw [trimEnd, List.reverse_eq_nil_iff, List.dropWhile_eq_nil_iff]
  simp only [List.mem_reverse]

/-- Trimming leaves nothing of a text that is all blank, and of no other. -/
theorem isEmpty_trim (s : String) : (trim s).isEmpty = isAllBlank s := by
  have hempty : (trim s).isEmpty = true ↔ trimEnd (trimStart s.toList) = [] := by
    rw [trim, String.isEmpty_iff, ← String.toList_inj, String.toList_ofList]
    rfl
  rw [Bool.eq_iff_iff, hempty, isAllBlank, List.all_eq_true]
  constructor
  · intro h
    -- What is left in front of the last blanks would start with a character that is none.
    have hstart : trimStart s.toList = [] := by
      cases hrest : trimStart s.toList with
      | nil => rfl
      | cons c cs =>
        have hc : isBlank c = true := trimEnd_eq_nil_iff.mp h c (by simp [hrest])
        have hhead : c ∈ (trimStart s.toList).head? := by rw [hrest]; rfl
        rw [isBlank_of_head?_trimStart hhead] at hc
        cases hc
    exact List.dropWhile_eq_nil_iff.mp hstart
  · intro h
    have hstart : trimStart s.toList = [] := List.dropWhile_eq_nil_iff.mpr h
    rw [hstart]
    rfl

theorem trim_eq_empty_iff {s : String} : trim s = "" ↔ isAllBlank s = true := by
  rw [← isEmpty_trim, String.isEmpty_iff]

/-- A text that neither starts nor ends with a blank is left as it is. -/
theorem trim_eq_self {s : String} (hfirst : ∀ c ∈ s.toList.head?, isBlank c = false)
    (hlast : ∀ c ∈ s.toList.getLast?, isBlank c = false) : trim s = s := by
  rw [trim, trimStart_eq_self hfirst, trimEnd_eq_self hlast, String.ofList_toList]

/-- A text that starts with something else than a blank loses only blanks at its end. -/
theorem toList_trim_append {front : List Char} (hne : front ≠ [])
    (hfirst : ∀ c ∈ front.head?, isBlank c = false)
    (hlast : ∀ c ∈ front.getLast?, isBlank c = false) (back : List Char) :
    (trim (String.ofList (front ++ back))).toList = front ++ trimEnd back := by
  have hstart : trimStart (front ++ back) = front ++ back := by
    obtain ⟨d, ds, rfl⟩ := List.exists_cons_of_ne_nil hne
    exact trimStart_eq_self hfirst
  rw [trim, String.toList_ofList, String.toList_ofList, hstart, trimEnd_append hlast]

theorem trim_eq_self_of_forall {s : String} (h : ∀ c ∈ s.toList, isBlank c = false) :
    trim s = s :=
  trim_eq_self (fun c hc => h c (List.mem_of_mem_head? hc))
    (fun c hc => h c (List.mem_of_mem_getLast? hc))

/-- Blanks around a text without blanks are all that is dropped. -/
theorem trim_surrounded {before core after : List Char} (hbefore : ∀ c ∈ before, isBlank c = true)
    (hcore : ∀ c ∈ core, isBlank c = false) (hafter : ∀ c ∈ after, isBlank c = true) :
    trim (String.ofList (before ++ core ++ after)) = String.ofList core := by
  have hstart : trimStart (before ++ core ++ after) = trimStart (core ++ after) := by
    rw [trimStart, trimStart, List.append_assoc, List.dropWhile_append_of_pos hbefore]
  have hend : trimEnd (core ++ after) = trimEnd core := by
    rw [trimEnd, trimEnd, List.reverse_append, List.dropWhile_append_of_pos (by simpa using hafter)]
  have hcoreEnd : trimEnd core = core :=
    trimEnd_eq_self fun c hc => hcore c (List.mem_of_mem_getLast? hc)
  rw [trim, String.toList_ofList, hstart]
  cases core with
  | nil =>
    have hnone : trimStart ([] ++ after) = [] := List.dropWhile_eq_nil_iff.mpr hafter
    rw [hnone]
    rfl
  | cons c cs =>
    have hself : trimStart (c :: cs ++ after) = c :: cs ++ after :=
      trimStart_eq_self (by simpa using hcore c List.mem_cons_self)
    rw [hself, hend, hcoreEnd]

end LedgerGateway.Text

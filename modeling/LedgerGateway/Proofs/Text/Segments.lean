import LedgerGateway.Text.Segments

/-!
# Cutting and joining

Cutting a text at separators cuts what stands in front of a separator and what stands behind it, and
leaves no separator in the pieces. Put together again with separators between them, the pieces are the
text, and no other pieces make it (`intercalate_segments`, `segments_intercalate`).
-/

namespace LedgerGateway

namespace Text

variable {separates : Char → Bool} {c : Char} {cs : List Char}

theorem segments_cons_of_separates (h : separates c = true) (cs : List Char) :
    segments separates (c :: cs) = [] :: segments separates cs := by
  rw [segments, if_pos h]

theorem segments_cons_of_not_separates (h : separates c = false) {piece : List Char}
    {pieces : List (List Char)} (hcs : segments separates cs = piece :: pieces) :
    segments separates (c :: cs) = (c :: piece) :: pieces := by
  rw [segments, if_neg (Bool.eq_false_iff.mp h), hcs]

/-- A text has a first piece, and it may be empty. -/
theorem exists_segments (separates : Char → Bool) (cs : List Char) :
    ∃ piece pieces, segments separates cs = piece :: pieces :=
  List.exists_cons_of_ne_nil (segments_ne_nil separates cs)

theorem segments_append_cons (h : separates c = true) (cs ds : List Char) :
    segments separates (cs ++ c :: ds) = segments separates cs ++ segments separates ds := by
  induction cs with
  | nil => rw [List.nil_append, segments_cons_of_separates h, segments, List.singleton_append]
  | cons d cs ih =>
    rw [List.cons_append]
    by_cases hd : separates d = true
    · rw [segments_cons_of_separates hd, segments_cons_of_separates hd, ih, List.cons_append]
    · obtain ⟨piece, pieces, hpieces⟩ := exists_segments separates cs
      rw [hpieces, List.cons_append] at ih
      rw [segments_cons_of_not_separates (Bool.eq_false_iff.mpr hd) ih,
        segments_cons_of_not_separates (Bool.eq_false_iff.mpr hd) hpieces, List.cons_append]

theorem separates_of_mem_segments {piece : List Char} (hpiece : piece ∈ segments separates cs)
    (hc : c ∈ piece) : separates c = false := by
  induction cs generalizing piece with
  | nil =>
    rw [segments, List.mem_singleton] at hpiece
    rw [hpiece] at hc
    cases hc
  | cons d cs ih =>
    by_cases hd : separates d = true
    · rw [segments_cons_of_separates hd, List.mem_cons] at hpiece
      rcases hpiece with rfl | hpiece
      · cases hc
      · exact ih hpiece hc
    · obtain ⟨first, rest, hcs⟩ := exists_segments separates cs
      rw [segments_cons_of_not_separates (Bool.eq_false_iff.mpr hd) hcs, List.mem_cons] at hpiece
      rw [hcs] at ih
      rcases hpiece with rfl | hpiece
      · rcases List.mem_cons.mp hc with rfl | hc
        · exact Bool.eq_false_iff.mpr hd
        · exact ih List.mem_cons_self hc
      · exact ih (List.mem_cons_of_mem _ hpiece) hc

theorem segments_eq_singleton (h : ∀ c ∈ cs, separates c = false) :
    segments separates cs = [cs] := by
  induction cs with
  | nil => rw [segments]
  | cons d cs ih =>
    have hcs := ih fun c hc => h c (List.mem_cons_of_mem _ hc)
    exact segments_cons_of_not_separates (h d List.mem_cons_self) hcs

/-- The pieces with the separator between them are the text. -/
theorem intercalate_segments (c : Char) (cs : List Char) :
    [c].intercalate (segments (· == c) cs) = cs := by
  induction cs with
  | nil => simp [segments, List.intercalate]
  | cons d cs ih =>
    obtain ⟨piece, pieces, hcs⟩ := exists_segments (· == c) cs
    rw [hcs] at ih
    by_cases hd : (d == c) = true
    · obtain rfl : d = c := by simpa using hd
      have hstep : segments (· == d) (d :: cs) = [] :: segments (· == d) cs := by
        rw [segments, if_pos hd]
      rw [hstep, hcs, List.intercalate_cons_cons, ih]
      rfl
    · have hstep : segments (· == c) (d :: cs) = (d :: piece) :: pieces :=
        segments_cons_of_not_separates (by simpa using hd) hcs
      rw [hstep]
      cases pieces with
      | nil =>
        rw [List.intercalate_singleton] at ih ⊢
        rw [ih]
      | cons next pieces =>
        rw [List.intercalate_cons_cons] at ih ⊢
        rw [← ih]
        rfl

/-- Pieces without separators are cut out of the text that they make. -/
theorem segments_intercalate {pieces : List (List Char)} (hne : pieces ≠ [])
    (h : ∀ piece ∈ pieces, c ∉ piece) : segments (· == c) ([c].intercalate pieces) = pieces := by
  have hsingle : ∀ piece ∈ pieces, segments (· == c) piece = [piece] := by
    intro piece hpiece
    refine segments_eq_singleton fun d hd => ?_
    rw [beq_eq_false_iff_ne]
    rintro rfl
    exact h piece hpiece hd
  induction pieces with
  | nil => exact absurd rfl hne
  | cons piece pieces ih =>
    have hpiece := hsingle piece List.mem_cons_self
    cases pieces with
    | nil => rw [List.intercalate_singleton, hpiece]
    | cons next pieces =>
      have hrest := ih (List.cons_ne_nil next pieces)
        (fun q hq => h q (List.mem_cons_of_mem piece hq))
        (fun q hq => hsingle q (List.mem_cons_of_mem piece hq))
      have hsep : (c == c) = true := beq_self_eq_true c
      have hcut : ∀ cs ds : List Char, segments (· == c) (cs ++ c :: ds) =
          segments (· == c) cs ++ segments (· == c) ds := segments_append_cons hsep
      rw [List.intercalate_cons_cons, List.append_assoc, List.singleton_append, hcut, hpiece, hrest,
        List.singleton_append]

theorem eq_of_segments_eq_singleton {piece : List Char} (h : segments (· == c) cs = [piece]) :
    cs = piece := by
  rw [← intercalate_segments c cs, h, List.intercalate_singleton]

/-! ## Characters of a joined text -/

theorem eq_or_mem_of_mem_intercalate {pieces : List (List Char)} {sep : Char}
    (h : c ∈ [sep].intercalate pieces) : c = sep ∨ ∃ piece ∈ pieces, c ∈ piece := by
  induction pieces with
  | nil => cases h
  | cons piece pieces ih =>
    cases pieces with
    | nil =>
      rw [List.intercalate_singleton] at h
      exact .inr ⟨piece, List.mem_cons_self, h⟩
    | cons next pieces =>
      rw [List.intercalate_cons_cons, List.mem_append, List.mem_append, List.mem_singleton] at h
      rcases h with (h | h) | h
      · exact .inr ⟨piece, List.mem_cons_self, h⟩
      · exact .inl h
      · rcases ih h with h | ⟨found, hfound, h⟩
        · exact .inl h
        · exact .inr ⟨found, List.mem_cons_of_mem piece hfound, h⟩

theorem mem_intercalate_of_mem {pieces : List (List Char)} {piece : List Char} (sep : Char)
    (hpiece : piece ∈ pieces) (h : c ∈ piece) : c ∈ [sep].intercalate pieces := by
  induction pieces with
  | nil => cases hpiece
  | cons first pieces ih =>
    cases pieces with
    | nil =>
      obtain rfl := List.mem_singleton.mp hpiece
      rwa [List.intercalate_singleton]
    | cons next pieces =>
      rw [List.intercalate_cons_cons, List.mem_append, List.mem_append]
      rcases List.mem_cons.mp hpiece with rfl | hpiece
      · exact .inl (.inl h)
      · exact .inr (ih hpiece)

/-! ## The front of a text -/

section

variable {p : Char → Bool} {front rest : List Char}

theorem takeWhile_append_of_head (hfront : ∀ c ∈ front, p c = true)
    (hrest : ∀ c ∈ rest.head?, p c = false) : (front ++ rest).takeWhile p = front := by
  rw [List.takeWhile_append_of_pos hfront]
  cases rest with
  | nil => simp
  | cons c rest => simp [hrest c rfl]

theorem dropWhile_append_of_head (hfront : ∀ c ∈ front, p c = true)
    (hrest : ∀ c ∈ rest.head?, p c = false) : (front ++ rest).dropWhile p = rest := by
  rw [List.dropWhile_append_of_pos hfront]
  cases rest with
  | nil => rfl
  | cons c rest => simp [hrest c rfl]

end

end Text

end LedgerGateway

import LedgerGateway.Proofs.Except
import LedgerGateway.Proofs.Text.Segments
import LedgerGateway.ResourcePath

/-!
# Paths and their texts

A path that was read has three parts without dots, and its text is read as nothing else. A path that
was put together from other parts has a text as well, which is no path (`parse_display_dotted`).
-/

namespace LedgerGateway

namespace ResourcePath

/-- The resource of a path that was read has no dots. -/
theorem ne_dot_of_parse {s : String} {path : ResourcePath} (h : parse s = .ok path) :
    ∀ c ∈ path.resource.toList, (c == '.') = false := by
  unfold parse at h
  split at h
  · rename_i zone chain resource hsegments
    split at h
    · cases h
    · cases h
      intro c hc
      rw [String.toList_ofList] at hc
      have hmem : resource ∈ Text.segments (· == '.') s.toList := by simp [hsegments]
      have hfree := Text.separates_of_mem_segments hmem hc
      exact hfree
  · cases h

/-- A part of a path that can be told from its text. -/
def IsPart (part : String) : Prop := part ≠ "" ∧ '.' ∉ part.toList

/-- Every part of the path can be told from the text. -/
structure WellFormed (p : ResourcePath) : Prop where
  zone : IsPart p.zone
  chain : IsPart p.chain
  resource : IsPart p.resource

theorem toList_display (p : ResourcePath) :
    p.display.toList = p.zone.toList ++ '.' :: (p.chain.toList ++ '.' :: p.resource.toList) := by
  simp [display]

theorem segments_of_isPart {part : String} (h : IsPart part) :
    Text.segments (· == '.') part.toList = [part.toList] := by
  refine Text.segments_eq_singleton fun c hc => ?_
  rw [beq_eq_false_iff_ne]
  rintro rfl
  exact h.2 hc

/-- Cutting the text of a path cuts its parts. -/
theorem segments_display (p : ResourcePath) :
    Text.segments (· == '.') p.display.toList =
      Text.segments (· == '.') p.zone.toList ++ (Text.segments (· == '.') p.chain.toList ++
        Text.segments (· == '.') p.resource.toList) := by
  rw [toList_display]
  have hdot : ('.' == '.') = true := rfl
  have hcut : ∀ cs ds : List Char, Text.segments (· == '.') (cs ++ '.' :: ds) =
      Text.segments (· == '.') cs ++ Text.segments (· == '.') ds :=
    Text.segments_append_cons hdot
  rw [hcut, hcut]

/-- A path is read from its own text, if its parts can be told from it, and from no other. -/
theorem parse_eq_ok_iff {s : String} {p : ResourcePath} :
    parse s = .ok p ↔ p.WellFormed ∧ s = p.display := by
  constructor
  · intro h
    unfold parse at h
    split at h
    · rename_i zone chain resource hsegments
      split at h
      · cases h
      · rename_i hempty
        cases h
        have hpart : ∀ part ∈ [zone, chain, resource], part ≠ [] → IsPart (String.ofList part) := by
          intro part hmem hne
          refine ⟨by simpa using hne, fun hdot => ?_⟩
          rw [String.toList_ofList] at hdot
          have hfree := Text.separates_of_mem_segments (hsegments ▸ hmem) hdot
          cases hfree
        simp only [Bool.or_eq_true, List.isEmpty_iff, not_or] at hempty
        obtain ⟨⟨hzone, hchain⟩, hresource⟩ := hempty
        refine ⟨⟨hpart zone (by simp) hzone, hpart chain (by simp) hchain,
          hpart resource (by simp) hresource⟩, ?_⟩
        have hs := Text.intercalate_segments '.' s.toList
        rw [hsegments] at hs
        rw [← String.toList_inj, toList_display, ← hs]
        simp [List.intercalate]
    · cases h
  · rintro ⟨h, rfl⟩
    have hne : ∀ {part : String}, IsPart part → part.toList.isEmpty = false := by
      intro part hpart
      simpa using hpart.1
    unfold parse
    rw [segments_display, segments_of_isPart h.zone, segments_of_isPart h.chain,
      segments_of_isPart h.resource]
    simp [hne h.zone, hne h.chain, hne h.resource]

/-- A refused text is shown. -/
theorem parse_eq_error {s : String} {e : Malformed} (h : parse s = .error e) : e = ⟨s⟩ := by
  unfold parse at h
  split at h
  · split at h
    · cases h
      rfl
    · cases h
  · cases h
    rfl

/-- The text of a path is not that of another one that can be told from it. -/
theorem eq_of_display_eq {p q : ResourcePath} (hq : q.WellFormed) (h : p.display = q.display) :
    p = q := by
  have hcut := congrArg (fun s : String => Text.segments (· == '.') s.toList) h
  simp only [segments_display, segments_of_isPart hq.zone, segments_of_isPart hq.chain,
    segments_of_isPart hq.resource] at hcut
  -- Each part has a first piece, and there are three pieces.
  obtain ⟨zone, zones, hzone⟩ := Text.exists_segments (· == '.') p.zone.toList
  obtain ⟨chain, chains, hchain⟩ := Text.exists_segments (· == '.') p.chain.toList
  obtain ⟨resource, resources, hresource⟩ := Text.exists_segments (· == '.') p.resource.toList
  rw [hzone, hchain, hresource] at hcut
  have hlength := congrArg List.length hcut
  simp only [List.length_append, List.length_cons, List.length_nil] at hlength
  obtain rfl : zones = [] := List.eq_nil_of_length_eq_zero (by omega)
  obtain rfl : chains = [] := List.eq_nil_of_length_eq_zero (by omega)
  obtain rfl : resources = [] := List.eq_nil_of_length_eq_zero (by omega)
  simp only [List.cons_append, List.nil_append, List.cons.injEq, and_true] at hcut
  obtain ⟨hz, hc, hr⟩ := hcut
  obtain ⟨pz, pc, pr⟩ := p
  obtain ⟨qz, qc, qr⟩ := q
  simp only [mk.injEq, ← String.toList_inj]
  exact ⟨(Text.eq_of_segments_eq_singleton hzone).trans hz,
    (Text.eq_of_segments_eq_singleton hchain).trans hc,
    (Text.eq_of_segments_eq_singleton hresource).trans hr⟩

theorem parse_display_of_wellFormed {p : ResourcePath} (h : p.WellFormed) :
    parse p.display = .ok p :=
  parse_eq_ok_iff.mpr ⟨h, rfl⟩

/-- The text of any other path is refused, and not read as something else. -/
theorem parse_display_of_not_wellFormed {p : ResourcePath} (h : ¬ p.WellFormed) :
    parse p.display = .error ⟨p.display⟩ := by
  cases hparse : parse p.display with
  | error e => rw [parse_eq_error hparse]
  | ok q =>
    obtain ⟨hq, hdisplay⟩ := parse_eq_ok_iff.mp hparse
    exact absurd (eq_of_display_eq hq hdisplay ▸ hq) h

theorem wellFormed_of_decoder {node : Json.Node} {p : ResourcePath} (h : decoder node = .ok p) :
    p.WellFormed := by
  obtain ⟨s, -, hs⟩ := except_bind_eq_ok.mp h
  exact (parse_eq_ok_iff.mp (mapError_eq_ok.mp hs)).1

/-- A text is a path exactly if it is three parts with dots between them, none empty and none with a
dot, and then it is the text of that path. A path that was read, from a text or from JSON, is read back
from its own text. One that was put together is so exactly if its parts are parts; otherwise its text is
refused. -/
theorem parse_display_iff (s : String) (node : Json.Node) (p : ResourcePath) :
    ((∃ path, parse s = .ok path) ↔
      ∃ zone chain resource : String, s = zone ++ "." ++ chain ++ "." ++ resource ∧
        IsPart zone ∧ IsPart chain ∧ IsPart resource) ∧
    (parse s = .ok p → p.display = s ∧ parse p.display = .ok p) ∧
    (decoder node = .ok p → parse p.display = .ok p) ∧
    (parse p.display = .ok p ↔ p.WellFormed) ∧
    (¬ p.WellFormed → parse p.display = .error ⟨p.display⟩) := by
  refine ⟨?text, ?parsed, ?decoded, ?assembled, parse_display_of_not_wellFormed⟩
  case text =>
    constructor
    · rintro ⟨path, hpath⟩
      obtain ⟨h, rfl⟩ := parse_eq_ok_iff.mp hpath
      exact ⟨path.zone, path.chain, path.resource, rfl, h.zone, h.chain, h.resource⟩
    · rintro ⟨zone, chain, resource, rfl, hzone, hchain, hresource⟩
      exact ⟨⟨zone, chain, resource⟩, parse_eq_ok_iff.mpr ⟨⟨hzone, hchain, hresource⟩, rfl⟩⟩
  case parsed =>
    intro hp
    obtain ⟨h, rfl⟩ := parse_eq_ok_iff.mp hp
    exact ⟨rfl, hp⟩
  case decoded =>
    intro hp
    exact parse_display_of_wellFormed (wellFormed_of_decoder hp)
  case assembled => exact ⟨fun hp => (parse_eq_ok_iff.mp hp).1, parse_display_of_wellFormed⟩

theorem parse_display_iff_payment :
    let p : ResourcePath := ⟨"payment", "bcos", "HelloWorld"⟩
    let q : ResourcePath := ⟨"a.b", "c", "d"⟩
    (parse "payment.bcos.HelloWorld" = .ok p ∧ p.display = "payment.bcos.HelloWorld" ∧
        parse p.display = .ok p) ∧
      (decoder (.text (some "payment.bcos.HelloWorld")) = .ok p ∧ parse p.display = .ok p) ∧
      ¬ q.WellFormed ∧ parse q.display = .error ⟨q.display⟩ := by
  intro p q
  let node : Json.Node := .text (some "payment.bcos.HelloWorld")
  obtain ⟨-, hparsed, hdecoded, -, -⟩ := parse_display_iff "payment.bcos.HelloWorld" node p
  obtain ⟨-, -, -, -, hrefused⟩ := parse_display_iff "" node q
  have hp : parse "payment.bcos.HelloWorld" = .ok p := rfl
  have hnode : decoder node = .ok p := rfl
  have hq : ¬ q.WellFormed := fun h => h.zone.2 (by decide)
  exact ⟨⟨hp, hparsed hp⟩, ⟨hnode, hdecoded hnode⟩, hq, hrefused hq⟩

/-- A part with a dot makes a text of four parts. -/
theorem parse_display_dotted :
    ¬ ∀ zone chain resource : String,
      parse (display ⟨zone, chain, resource⟩) = .ok ⟨zone, chain, resource⟩ := by
  intro hall
  have hrefused : parse (display ⟨"a.b", "c", "d"⟩) = .error ⟨"a.b.c.d"⟩ := rfl
  rw [hall] at hrefused
  cases hrefused

end ResourcePath

end LedgerGateway

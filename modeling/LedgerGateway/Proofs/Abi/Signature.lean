import LedgerGateway.Proofs.Abi.Meaning

/-!
# Signatures tell types

Two functions of one signature have the same name and take the same types, if the types are known.
This is not plain: the text of a tuple stands for the types of its parts, which another function may
write in parentheses itself, and what follows the word `tuple` is repeated as it stands. Texts of
parameters are therefore compared with what the grammar reads from them.
-/

namespace LedgerGateway.Abi

open TypeText

namespace Parameter

mutual

/-- The type is in the grammar, and in front of parts stands the word for them. -/
def isChecked : Parameter → Bool
  | ⟨typeText, []⟩ => (TypeText.parse typeText).isSome
  | ⟨typeText, part :: parts⟩ =>
    tupleWord.isPrefixOf typeText.toList && part.isChecked && areChecked parts

def areChecked : List Parameter → Bool
  | [] => true
  | p :: rest => p.isChecked && areChecked rest

end

/-! ## Texts -/

/-- The characters of a type in a signature. -/
def chars (p : Parameter) : List Char := p.signatureText.toList

/-- The characters of the types behind the first. -/
def following (ps : List Parameter) : List Char := ps.flatMap fun p => ',' :: p.chars

@[simp] theorem following_cons (p : Parameter) (ps : List Parameter) :
    following (p :: ps) = ',' :: (p.chars ++ following ps) := by
  simp [following]

theorem toList_intercalate (p : Parameter) (ps : List Parameter) :
    (",".intercalate (p.signatureText :: signatureTexts ps)).toList = p.chars ++ following ps := by
  induction ps generalizing p with
  | nil => simp [signatureTexts, following, chars]
  | cons q ps ih =>
    rw [signatureTexts, String.intercalate_cons_cons, String.toList_append, String.toList_append, ih,
      following_cons]
    simp [chars]

theorem chars_leaf (typeText : String) : chars ⟨typeText, []⟩ = typeText.toList := by
  rw [chars, signatureText]

theorem chars_tuple {typeText : String} {suffix : List Char} (part : Parameter)
    (parts : List Parameter) (h : typeText.toList = tupleWord ++ suffix) :
    chars ⟨typeText, part :: parts⟩ = '(' :: (part.chars ++ following parts ++ ')' :: suffix) := by
  rw [chars, signatureText, h, Text.afterLead?_append]
  simp only [Option.elim, String.toList_append, toList_intercalate, String.toList_ofList]
  simp

/-- The word in front of parts, and what follows it. -/
theorem isChecked_tuple {typeText : String} {part : Parameter} {parts : List Parameter}
    (h : isChecked ⟨typeText, part :: parts⟩ = true) :
    (∃ suffix, typeText.toList = tupleWord ++ suffix) ∧ part.isChecked = true ∧
      areChecked parts = true := by
  simp only [isChecked, Bool.and_eq_true] at h
  obtain ⟨⟨hword, hpart⟩, hparts⟩ := h
  obtain ⟨suffix, hsuffix⟩ := List.isPrefixOf_iff_prefix.mp hword
  exact ⟨⟨suffix, hsuffix.symm⟩, hpart, hparts⟩

theorem starts_chars {p : Parameter} (h : p.isChecked = true) (rest : List Char) :
    Starts (p.chars ++ rest) := by
  obtain ⟨typeText, components⟩ := p
  cases components with
  | nil =>
    rw [isChecked] at h
    obtain ⟨t, ht⟩ := Option.isSome_iff_exists.mp h
    obtain ⟨c, tail, htext, hc⟩ := (written_of_parse ht).starts
    rw [chars_leaf, htext]
    exact ⟨c, tail ++ rest, rfl, hc⟩
  | cons part parts =>
    obtain ⟨⟨suffix, hsuffix⟩, -⟩ := isChecked_tuple h
    rw [chars_tuple part parts hsuffix]
    exact ⟨'(', _, rfl, .inl rfl⟩

theorem ends_following (ps : List Parameter) (rest : List Char) :
    Ends (following ps ++ ')' :: rest) := by
  cases ps with
  | nil => exact Ends.cons (by decide) rest
  | cons p ps =>
    rw [following_cons]
    exact Ends.cons (by decide) _

end Parameter

namespace TypeText

theorem readName_tupleWord {cs : List Char} (h : ∀ c ∈ cs.head?, c ∈ '[' :: closers) :
    readName (Parameter.tupleWord ++ cs) = some (named Parameter.tupleWord, cs) := by
  have hchar : ∀ c ∈ '[' :: closers, isIdentifierChar c = false ∧ c ≠ '.' := by
    simp [closers, isIdentifierChar, isIdentifierStart]
  have hletters : ∀ c ∈ ['u', 'p', 'l', 'e'], isIdentifierChar c = true := by
    simp [isIdentifierChar, isIdentifierStart]
  have hrun : cs.takeWhile isIdentifierChar = [] ∧ cs.dropWhile isIdentifierChar = cs := by
    cases cs with
    | nil => exact ⟨rfl, rfl⟩
    | cons c cs => simp [(hchar c (h c rfl)).1]
  have hread : readIdentifier? (Parameter.tupleWord ++ cs) = some (Parameter.tupleWord, cs) := by
    rw [Parameter.tupleWord, List.cons_append, readIdentifier?, if_pos (by decide),
      List.takeWhile_append_of_pos hletters, List.dropWhile_append_of_pos hletters, hrun.1, hrun.2]
    rfl
  refine readName_eq_some.mpr ⟨_, _, hread, .inr ⟨?_, rfl, rfl⟩⟩
  intro hpoint
  exact (hchar '.' (h '.' hpoint)).2 rfl

theorem openTuple?_tupleWord {cs : List Char} (h : ∀ c ∈ cs.head?, c ∈ '[' :: closers) :
    openTuple? (Parameter.tupleWord ++ cs) = none := by
  by_contra hsome
  obtain ⟨body, hbody⟩ := Option.ne_none_iff_exists'.mp hsome
  rcases openTuple?_eq_some.mp hbody with hparen | hword
  · cases hparen
  · have hcs : cs = '(' :: body := by simpa [Parameter.tupleWord] using hword
    exact absurd (h '(' (by rw [hcs]; rfl)) (by decide)

/-- The brackets behind the word for parts are those that stand alone in its place. -/
theorem Written.lengths_tupleWord {mid rest rest' : List Char} {written : TypeText}
    {lengths : List (Option Nat)} (hwritten : Written (Parameter.tupleWord ++ mid) written rest)
    (hbrackets : readBrackets mid.length mid = some (lengths, rest')) (hend : Ends rest') :
    written.lengths = lengths ∧ rest' = rest := by
  have hhead : ∀ c ∈ mid.head?, c ∈ '[' :: closers := by
    by_cases hopen : mid.head? = some '['
    · simp [hopen]
    · rw [readBrackets_of_head _ hopen] at hbrackets
      cases hbrackets
      intro c hc
      exact List.mem_cons_of_mem _ (hend c hc)
  have hname : Written (Parameter.tupleWord ++ mid) ((named Parameter.tupleWord).wrap lengths) rest' :=
    .name (openTuple?_tupleWord hhead) (readName_tupleWord hhead) hbrackets
  obtain ⟨rfl, rfl⟩ := hname.unique hwritten
  exact ⟨by rw [lengths_wrap, TypeText.lengths, List.nil_append], rfl⟩

/-- Before the end of a list there are only blanks. -/
theorem ends_of_skipSpaces {cs rest : List Char} (h : skipSpaces cs = ')' :: rest) : Ends cs := by
  cases cs with
  | nil => exact Ends.nil
  | cons c cs =>
    refine Ends.cons ?_ cs
    by_cases hc : (c == ' ' || c == '\t') = true
    · simp only [Bool.or_eq_true, beq_iff_eq] at hc
      rcases hc with rfl | rfl <;> decide
    · rw [skipSpaces, List.dropWhile_cons_of_neg (by simpa using hc)] at h
      cases h
      decide

end TypeText

namespace Parameter

mutual

/-- What the grammar reads from the text of a parameter means the type of that parameter. -/
theorem resolve?_of_written : ∀ (p : Parameter), p.isChecked = true → ∀ {t : Ty},
    p.type? = some t → ∀ {rest rest' : List Char} {written : TypeText}, Ends rest →
    Written (p.chars ++ rest) written rest' → Ends rest' →
    written.resolve? = some t ∧ rest' = rest
  | ⟨typeText, []⟩, _, t, ht, rest, rest', written, hend, hwritten, _ => by
    obtain ⟨own, hown, hresolve⟩ := type?_leaf ht
    have hsame := (written_of_parse hown).append rest fun _ => hend
    rw [chars_leaf] at hwritten
    obtain ⟨rfl, rfl⟩ := hwritten.unique hsame
    exact ⟨hresolve, rfl⟩
  | ⟨typeText, part :: parts⟩, hchecked, t, ht, rest, rest', written, hend, hwritten, hend' => by
    obtain ⟨⟨suffix, hsuffix⟩, hpart, hparts⟩ := isChecked_tuple hchecked
    obtain ⟨own, first, others, hown, hfirst, hothers, rfl⟩ := type?_tuple ht
    have htext : chars ⟨typeText, part :: parts⟩ ++ rest =
        '(' :: (part.chars ++ (following parts ++ ')' :: (suffix ++ rest))) := by
      simp [chars_tuple part parts hsuffix]
    have hopen : openTuple? ('(' :: (part.chars ++ (following parts ++ ')' :: (suffix ++ rest)))) =
        some (part.chars ++ (following parts ++ ')' :: (suffix ++ rest))) :=
      openTuple?_eq_some.mpr (.inl rfl)
    have hstarts := starts_chars hpart (following parts ++ ')' :: (suffix ++ rest))
    -- The text opens with a parenthesis, so the grammar has read a list of types from it.
    rw [htext] at hwritten
    cases hwritten with
    | name opening _ _ => cases hopen.symm.trans opening
    | empty opening closing _ =>
      cases hopen.symm.trans opening
      rw [hstarts.skipSpaces] at closing
      rw [closing] at hstarts
      exact absurd hstarts not_starts_close
    | tuple opening itemsRead brackets =>
      cases hopen.symm.trans opening
      rw [hstarts.skipSpaces] at itemsRead
      obtain ⟨hitems, rfl⟩ := resolveAll?_of_written part parts hpart hparts hfirst hothers itemsRead
      -- The brackets behind the list are those that follow the word in the text of the type.
      have hword := (written_of_parse hown).append rest fun _ => hend
      rw [hsuffix, List.append_assoc, List.nil_append] at hword
      obtain ⟨rfl, rfl⟩ := hword.lengths_tupleWord brackets hend'
      refine ⟨?_, rfl⟩
      rw [resolve?_wrap, resolve?, hitems]
      rfl
termination_by p => sizeOf p

theorem resolveAll?_of_written : ∀ (p : Parameter) (ps : List Parameter), p.isChecked = true →
    areChecked ps = true → ∀ {t : Ty} {ts : List Ty}, p.type? = some t → types? ps = some ts →
    ∀ {rest rest' : List Char} {written : List TypeText},
    WrittenAll (p.chars ++ (following ps ++ ')' :: rest)) written rest' →
    resolveAll? written = some (t :: ts) ∧ rest' = rest
  | p, [], hp, _, t, ts, ht, hts, rest, rest', written, hwritten => by
    cases hts
    have hends := ends_following [] rest
    cases hwritten with
    | last itemRead closing =>
      obtain ⟨hitem, rfl⟩ := resolve?_of_written p hp ht hends itemRead (ends_of_skipSpaces closing)
      cases closing
      exact ⟨by simp [resolveAll?, hitem], rfl⟩
    | lastComma itemRead _ =>
      obtain ⟨-, hmid⟩ := resolve?_of_written p hp ht hends itemRead (Ends.cons (by decide) _)
      cases hmid
    | more itemRead _ =>
      obtain ⟨-, hmid⟩ := resolve?_of_written p hp ht hends itemRead (Ends.cons (by decide) _)
      cases hmid
  | p, q :: qs, hp, hps, t, ts, ht, hts, rest, rest', written, hwritten => by
    obtain ⟨first, others, hfirst, hothers, rfl⟩ := types?_cons hts
    obtain ⟨hq, hqs⟩ : q.isChecked = true ∧ areChecked qs = true := by
      simpa [areChecked] using hps
    have hends := ends_following (q :: qs) rest
    have hstarts := starts_chars hq (following qs ++ ')' :: rest)
    rw [following_cons, List.cons_append, List.append_assoc] at hwritten hends
    cases hwritten with
    | last itemRead closing =>
      obtain ⟨-, rfl⟩ := resolve?_of_written p hp ht hends itemRead (ends_of_skipSpaces closing)
      cases closing
    | lastComma itemRead closing =>
      obtain ⟨-, hmid⟩ := resolve?_of_written p hp ht hends itemRead (Ends.cons (by decide) _)
      cases hmid
      rw [hstarts.skipSpaces] at closing
      rw [closing] at hstarts
      exact absurd hstarts not_starts_close
    | more itemRead itemsRead =>
      obtain ⟨hitem, hmid⟩ := resolve?_of_written p hp ht hends itemRead (Ends.cons (by decide) _)
      cases hmid
      rw [hstarts.skipSpaces] at itemsRead
      obtain ⟨hitems, rfl⟩ := resolveAll?_of_written q qs hq hqs hfirst hothers itemsRead
      exact ⟨by simp [resolveAll?, hitem, hitems], rfl⟩
termination_by p ps => sizeOf p + sizeOf ps

end

/-- A text that is read as a type stands for that of the parameter that is written like it. -/
theorem resolve?_of_parse {p : Parameter} (hchecked : p.isChecked = true) {t : Ty}
    (ht : p.type? = some t) {s : String} (hs : s.toList = p.chars)
    (hparse : (TypeText.parse s).isSome = true) :
    (TypeText.parse s).bind TypeText.resolve? = some t := by
  obtain ⟨written, hwritten⟩ := Option.isSome_iff_exists.mp hparse
  have hchars : Written (p.chars ++ []) written [] := by
    rw [List.append_nil, ← hs]
    exact written_of_parse hwritten
  rw [hwritten, Option.bind_some]
  exact (resolve?_of_written p hchecked ht .nil hchars .nil).1

/-! ## Equal texts -/

theorem written_leaf {typeText : String} {t : Ty} (h : type? ⟨typeText, []⟩ = some t)
    {rest : List Char} (hend : Ends rest) :
    ∃ own, Written (chars ⟨typeText, []⟩ ++ rest) own rest ∧ own.resolve? = some t := by
  obtain ⟨own, hown, hresolve⟩ := type?_leaf h
  rw [chars_leaf]
  exact ⟨own, (written_of_parse hown).append rest fun _ => hend, hresolve⟩

mutual

theorem type?_eq_of_chars : ∀ (p q : Parameter), p.isChecked = true → q.isChecked = true →
    ∀ {t u : Ty}, p.type? = some t → q.type? = some u → ∀ {rest rest' : List Char}, Ends rest →
    Ends rest' → p.chars ++ rest = q.chars ++ rest' → t = u ∧ rest = rest'
  | ⟨typeText, []⟩, q, _, hq, t, u, ht, hu, rest, rest', hend, hend', htext => by
    obtain ⟨own, hown, hresolve⟩ := written_leaf ht hend
    rw [htext] at hown
    obtain ⟨hmeant, rfl⟩ := resolve?_of_written q hq hu hend' hown hend
    exact ⟨Option.some.inj (hresolve.symm.trans hmeant), rfl⟩
  | p, ⟨typeText, []⟩, hp, _, t, u, ht, hu, rest, rest', hend, hend', htext => by
    obtain ⟨own, hown, hresolve⟩ := written_leaf hu hend'
    rw [← htext] at hown
    obtain ⟨hmeant, rfl⟩ := resolve?_of_written p hp ht hend hown hend'
    exact ⟨Option.some.inj (hmeant.symm.trans hresolve), rfl⟩
  | ⟨typeText, part :: parts⟩, ⟨typeText', part' :: parts'⟩, hp, hq, t, u, ht, hu, rest, rest', hend,
      hend', htext => by
    -- Neither text is read as it stands: the parts are compared first, and then what follows the word.
    obtain ⟨⟨suffix, hsuffix⟩, hpart, hparts⟩ := isChecked_tuple hp
    obtain ⟨⟨suffix', hsuffix'⟩, hpart', hparts'⟩ := isChecked_tuple hq
    obtain ⟨own, first, others, hown, hfirst, hothers, rfl⟩ := type?_tuple ht
    obtain ⟨own', first', others', hown', hfirst', hothers', rfl⟩ := type?_tuple hu
    have hlists : following (part :: parts) ++ ')' :: (suffix ++ rest) =
        following (part' :: parts') ++ ')' :: (suffix' ++ rest') := by
      rw [chars_tuple part parts hsuffix, chars_tuple part' parts' hsuffix'] at htext
      simpa using htext
    have hts : types? (part :: parts) = some (first :: others) := by simp [types?, hfirst, hothers]
    have hus : types? (part' :: parts') = some (first' :: others') := by
      simp [types?, hfirst', hothers']
    obtain ⟨hitems, hrest⟩ := types?_eq_of_following (part :: parts) (part' :: parts')
      (by simp [areChecked, hpart, hparts]) (by simp [areChecked, hpart', hparts']) hts hus hlists
    have hword := (written_of_parse hown).append rest fun _ => hend
    have hword' := (written_of_parse hown').append rest' fun _ => hend'
    rw [hsuffix, List.append_assoc, List.nil_append, hrest, ← List.append_assoc, ← hsuffix'] at hword
    obtain ⟨rfl, rfl⟩ := hword.unique hword'
    exact ⟨by rw [hitems], rfl⟩

theorem types?_eq_of_following : ∀ (ps qs : List Parameter), areChecked ps = true →
    areChecked qs = true → ∀ {ts us : List Ty}, types? ps = some ts → types? qs = some us →
    ∀ {rest rest' : List Char}, following ps ++ ')' :: rest = following qs ++ ')' :: rest' →
    ts = us ∧ rest = rest'
  | [], [], _, _, _, _, hts, hus, _, _, htext => by
    cases hts
    cases hus
    cases htext
    exact ⟨rfl, rfl⟩
  | [], q :: qs, _, _, _, _, _, _, _, _, htext => by
    rw [following_cons] at htext
    cases htext
  | p :: ps, [], _, _, _, _, _, _, _, _, htext => by
    rw [following_cons] at htext
    cases htext
  | p :: ps, q :: qs, hps, hqs, _, _, hts, hus, rest, rest', htext => by
    obtain ⟨t, ts, ht, hothers, rfl⟩ := types?_cons hts
    obtain ⟨u, us, hu, hothers', rfl⟩ := types?_cons hus
    obtain ⟨hp, hps⟩ : p.isChecked = true ∧ areChecked ps = true := by simpa [areChecked] using hps
    obtain ⟨hq, hqs⟩ : q.isChecked = true ∧ areChecked qs = true := by simpa [areChecked] using hqs
    rw [following_cons, following_cons, List.cons_append, List.cons_append, List.append_assoc,
      List.append_assoc] at htext
    obtain ⟨rfl, htails⟩ := type?_eq_of_chars p q hp hq ht hu (ends_following ps rest)
      (ends_following qs rest') (List.cons.inj htext).2
    obtain ⟨rfl, rfl⟩ := types?_eq_of_following ps qs hps hqs hothers hothers' htails
    exact ⟨rfl, rfl⟩

end

/-- The type is written as a name, without parts and parentheses. -/
def IsPlain (p : Parameter) : Prop := p.components = [] ∧ p.typeText.toList.head? ≠ some '('

/-- Where one function has a name, another of the same text has the same name. -/
theorem eq_of_chars_of_isPlain {p q : Parameter} (hplain : p.IsPlain) (hp : p.isChecked = true)
    (hq : q.isChecked = true) {rest rest' : List Char} (hend : Ends rest) (hend' : Ends rest')
    (htext : p.chars ++ rest = q.chars ++ rest') : p = q ∧ rest = rest' := by
  obtain ⟨typeText, components⟩ := p
  obtain ⟨typeText', components'⟩ := q
  obtain ⟨rfl, hhead⟩ : components = [] ∧ typeText.toList.head? ≠ some '(' := hplain
  rw [isChecked] at hp
  obtain ⟨written, hparse⟩ := Option.isSome_iff_exists.mp hp
  have hwritten := (written_of_parse hparse).append rest fun _ => hend
  rw [chars_leaf] at htext
  cases components' with
  | nil =>
    rw [isChecked] at hq
    obtain ⟨written', hparse'⟩ := Option.isSome_iff_exists.mp hq
    have hwritten' := (written_of_parse hparse').append rest' fun _ => hend'
    rw [chars_leaf] at htext
    rw [htext] at hwritten
    obtain ⟨-, rfl⟩ := hwritten.unique hwritten'
    have hsame : typeText = typeText' := String.toList_inj.mp (List.append_cancel_right htext)
    rw [hsame]
    exact ⟨rfl, rfl⟩
  | cons part parts =>
    obtain ⟨⟨suffix, hsuffix⟩, -⟩ := isChecked_tuple hq
    obtain ⟨c, tail, hstart, -⟩ := (written_of_parse hparse).starts
    rw [chars_tuple part parts hsuffix, hstart] at htext
    rw [hstart, (List.cons.inj htext).1] at hhead
    exact absurd rfl hhead

theorem eq_of_following_of_isPlain {ps qs : List Parameter} (hplain : ∀ p ∈ ps, p.IsPlain)
    (hps : areChecked ps = true) (hqs : areChecked qs = true) {rest rest' : List Char}
    (htext : following ps ++ ')' :: rest = following qs ++ ')' :: rest') : ps = qs := by
  induction ps generalizing qs with
  | nil =>
    cases qs with
    | nil => rfl
    | cons q qs =>
      rw [following_cons] at htext
      cases htext
  | cons p ps ih =>
    cases qs with
    | nil =>
      rw [following_cons] at htext
      cases htext
    | cons q qs =>
      obtain ⟨hp, hps⟩ : p.isChecked = true ∧ areChecked ps = true := by simpa [areChecked] using hps
      obtain ⟨hq, hqs⟩ : q.isChecked = true ∧ areChecked qs = true := by simpa [areChecked] using hqs
      rw [following_cons, following_cons, List.cons_append, List.cons_append, List.append_assoc,
        List.append_assoc] at htext
      obtain ⟨hfirst, htails⟩ := eq_of_chars_of_isPlain (hplain p List.mem_cons_self) hp hq
        (ends_following ps rest) (ends_following qs rest') (List.cons.inj htext).2
      rw [hfirst, ih (fun r hr => hplain r (List.mem_cons_of_mem p hr)) hps hqs htails]

end Parameter

/-! ## Signatures -/

theorem isIdentifierChar_of_isIdentifier {s : String} (h : isIdentifier s = true) :
    ∀ c ∈ s.toList, isIdentifierChar c = true := by
  unfold isIdentifier at h
  split at h
  · rename_i name hread
    cases hs : s.toList with
    | nil => simp
    | cons c cs =>
      rw [hs, readIdentifier?] at hread
      split at hread
      · rename_i hstart
        have hrest : cs.dropWhile isIdentifierChar = [] :=
          (Prod.mk.inj (Option.some.inj hread)).2
        intro d hd
        rcases List.mem_cons.mp hd with rfl | hd
        · rw [isIdentifierChar, hstart, Bool.true_or]
        · exact List.dropWhile_eq_nil_iff.mp hrest d hd
      · cases hread
  · cases h

namespace Function

def isChecked (f : Function) : Bool := isIdentifier f.name && Parameter.areChecked f.inputs

/-- The characters behind the opening parenthesis of a signature. -/
def inputChars : List Parameter → List Char
  | [] => [')']
  | p :: ps => p.chars ++ (Parameter.following ps ++ [')'])

theorem toList_signature (f : Function) :
    f.signature.toList = f.name.toList ++ '(' :: inputChars f.inputs := by
  unfold signature
  cases f.inputs with
  | nil => simp [Parameter.signatureTexts, inputChars]
  | cons p ps =>
    simp only [Parameter.signatureTexts, String.toList_append, Parameter.toList_intercalate]
    simp [inputChars]

theorem eq_nil_of_inputChars {ps : List Parameter} (hps : Parameter.areChecked ps = true)
    (h : inputChars ps = [')']) : ps = [] := by
  cases ps with
  | nil => rfl
  | cons p ps =>
    have hp : p.isChecked = true := by
      simp only [Parameter.areChecked, Bool.and_eq_true] at hps
      exact hps.1
    have hstarts := Parameter.starts_chars hp (Parameter.following ps ++ [')'])
    have hclose : p.chars ++ (Parameter.following ps ++ [')']) = [')'] := h
    rw [hclose] at hstarts
    exact absurd hstarts not_starts_close

/-- Functions of one signature have one name, and the texts of their parameters agree. -/
theorem eq_of_signature {f g : Function} (hf : f.isChecked = true) (hg : g.isChecked = true)
    (h : f.signature = g.signature) : f.name = g.name ∧
      Parameter.following f.inputs ++ [')'] = Parameter.following g.inputs ++ [')'] := by
  obtain ⟨hname, hinputs⟩ : isIdentifier f.name = true ∧ Parameter.areChecked f.inputs = true := by
    simpa [isChecked] using hf
  obtain ⟨hname', hinputs'⟩ : isIdentifier g.name = true ∧ Parameter.areChecked g.inputs = true := by
    simpa [isChecked] using hg
  have hchars := congrArg String.toList h
  rw [toList_signature, toList_signature] at hchars
  -- No name has a parenthesis, so both signatures are cut where their names end.
  have hparen : isIdentifierChar '(' = false := by decide
  have hnames := congrArg (List.takeWhile isIdentifierChar) hchars
  have htails := congrArg (List.dropWhile isIdentifierChar) hchars
  rw [List.takeWhile_append_of_pos (isIdentifierChar_of_isIdentifier hname),
    List.takeWhile_append_of_pos (isIdentifierChar_of_isIdentifier hname')] at hnames
  rw [List.dropWhile_append_of_pos (isIdentifierChar_of_isIdentifier hname),
    List.dropWhile_append_of_pos (isIdentifierChar_of_isIdentifier hname')] at htails
  simp only [List.takeWhile_cons, List.dropWhile_cons, hparen, Bool.false_eq_true, if_false,
    List.append_nil, List.cons.injEq, true_and] at hnames htails
  refine ⟨String.toList_inj.mp hnames, ?_⟩
  cases hps : f.inputs with
  | nil =>
    rw [hps] at htails
    rw [eq_nil_of_inputChars hinputs' htails.symm]
  | cons p ps =>
    cases hqs : g.inputs with
    | nil =>
      rw [hqs] at htails
      rw [← hps, eq_nil_of_inputChars hinputs htails]
    | cons q qs =>
      rw [hps, hqs] at htails
      simpa [inputChars] using htails

/-- Functions of one signature take the same types, if these are known. -/
theorem types_eq_of_signature {f g : Function} (hf : f.isChecked = true) (hg : g.isChecked = true)
    (h : f.signature = g.signature) {ts us : List Ty} (hts : Parameter.types? f.inputs = some ts)
    (hus : Parameter.types? g.inputs = some us) : f.name = g.name ∧ ts = us := by
  obtain ⟨hname, htexts⟩ := eq_of_signature hf hg h
  simp only [isChecked, Bool.and_eq_true] at hf hg
  exact ⟨hname, (Parameter.types?_eq_of_following _ _ hf.2 hg.2 hts hus htexts).1⟩

/-- Functions of one signature take the same parameters, if those of one are written as names. -/
theorem inputs_eq_of_signature {f g : Function} (hf : f.isChecked = true) (hg : g.isChecked = true)
    (h : f.signature = g.signature) (hplain : ∀ p ∈ f.inputs, p.IsPlain) :
    f.name = g.name ∧ f.inputs = g.inputs := by
  obtain ⟨hname, htexts⟩ := eq_of_signature hf hg h
  simp only [isChecked, Bool.and_eq_true] at hf hg
  exact ⟨hname, Parameter.eq_of_following_of_isPlain hplain hf.2 hg.2 htexts⟩

end Function

end LedgerGateway.Abi

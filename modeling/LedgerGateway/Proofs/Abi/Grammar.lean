import LedgerGateway.Proofs.Abi.Lexis

/-!
# The grammar of types

`Written` is the grammar without bounds on the size of a type: a type stands at the front of a text,
and the rest follows it. What the reader finds is written there, and a text says one type only. A type
that is written alone is also written before more text, if it ends there.
-/

namespace LedgerGateway.Abi.TypeText

mutual

/-- A type stands at the front of a text, and the rest follows it. -/
inductive Written : List Char → TypeText → List Char → Prop where
  /-- A name with brackets behind it. -/
  | name {cs mid rest : List Char} {stem : TypeText} {lengths : List (Option Nat)}
      (opening : openTuple? cs = none) (stemRead : readName cs = some (stem, mid))
      (brackets : readBrackets mid.length mid = some (lengths, rest)) :
      Written cs (stem.wrap lengths) rest
  /-- Parentheses around nothing. -/
  | empty {cs body mid rest : List Char} {lengths : List (Option Nat)}
      (opening : openTuple? cs = some body) (closing : skipSpaces body = ')' :: mid)
      (brackets : readBrackets mid.length mid = some (lengths, rest)) :
      Written cs ((tuple []).wrap lengths) rest
  /-- Parentheses around types. -/
  | tuple {cs body mid rest : List Char} {items : List TypeText} {lengths : List (Option Nat)}
      (opening : openTuple? cs = some body) (itemsRead : WrittenAll (skipSpaces body) items mid)
      (brackets : readBrackets mid.length mid = some (lengths, rest)) :
      Written cs ((tuple items).wrap lengths) rest

/-- Types stand at the front of a text up to a closing parenthesis, and the rest follows that. -/
inductive WrittenAll : List Char → List TypeText → List Char → Prop where
  | last {cs mid rest : List Char} {item : TypeText} (itemRead : Written cs item mid)
      (closing : skipSpaces mid = ')' :: rest) : WrittenAll cs [item] rest
  | lastComma {cs mid rest : List Char} {item : TypeText} (itemRead : Written cs item (',' :: mid))
      (closing : skipSpaces mid = ')' :: rest) : WrittenAll cs [item] rest
  | more {cs mid rest : List Char} {item : TypeText} {items : List TypeText}
      (itemRead : Written cs item (',' :: mid)) (itemsRead : WrittenAll (skipSpaces mid) items rest) :
      WrittenAll cs (item :: items) rest

end

mutual

/-- What the reader finds is written there. -/
theorem written_of_readType : ∀ {fuel depth : Nat} {cs rest : List Char} {t : TypeText},
    readType fuel depth cs = some (t, rest) → Written cs t rest
  | 0, _, _, _, _, h => by cases h
  | fuel + 1, depth, cs, rest, t, h => by
    rw [readType] at h
    cases hopen : openTuple? cs with
    | none =>
      simp only [hopen] at h
      obtain ⟨⟨stem, mid⟩, hstem, h⟩ := Option.bind_eq_some_iff.mp h
      obtain ⟨⟨lengths, rest'⟩, hbrackets, h⟩ := Option.bind_eq_some_iff.mp h
      cases h
      exact .name hopen hstem hbrackets
    | some body =>
      simp only [hopen] at h
      split at h
      · rename_i mid hclose
        simp only [Option.bind_eq_bind, Option.pure_def, Option.bind_some] at h
        obtain ⟨⟨lengths, rest'⟩, hbrackets, h⟩ := Option.bind_eq_some_iff.mp h
        cases h
        exact .empty hopen hclose hbrackets
      · cases depth with
        | zero => cases h
        | succ depth =>
          obtain ⟨⟨items, mid⟩, hitems, h⟩ := Option.bind_eq_some_iff.mp h
          simp only [Option.bind_eq_bind, Option.pure_def, Option.bind_some] at h
          obtain ⟨⟨lengths, rest'⟩, hbrackets, h⟩ := Option.bind_eq_some_iff.mp h
          cases h
          exact .tuple hopen (writtenAll_of_readItems hitems) hbrackets

theorem writtenAll_of_readItems : ∀ {fuel depth : Nat} {cs rest : List Char} {ts : List TypeText},
    readItems fuel depth cs = some (ts, rest) → WrittenAll cs ts rest
  | 0, _, _, _, _, h => by cases h
  | fuel + 1, depth, cs, rest, ts, h => by
    rw [readItems] at h
    obtain ⟨⟨item, mid⟩, hitem, h⟩ := Option.bind_eq_some_iff.mp h
    have hwritten := written_of_readType hitem
    simp only at h
    split at h
    · rename_i tail
      split at h
      · rename_i hclose
        cases h
        exact .lastComma hwritten hclose
      · obtain ⟨⟨items, rest'⟩, hitems, h⟩ := Option.bind_eq_some_iff.mp h
        cases h
        exact .more hwritten (writtenAll_of_readItems hitems)
    · split at h
      · rename_i hclose
        cases h
        exact .last hwritten hclose
      · cases h

end

theorem written_of_parse {s : String} {t : TypeText} (h : parse s = some t) :
    Written s.toList t [] := by
  unfold parse at h
  split at h
  · rename_i hread
    cases h
    exact written_of_readType hread
  · cases h

/-! ## Where a type starts -/

theorem openTuple?_eq_some {cs body : List Char} :
    openTuple? cs = some body ↔ cs = ['('] ++ body ∨ cs = ['t', 'u', 'p', 'l', 'e', '('] ++ body := by
  unfold openTuple?
  split
  · rename_i tail htail
    rw [Text.afterLead?_eq_some] at htail
    subst htail
    simp
  · rename_i hnone
    rw [Text.afterLead?_eq_some, or_iff_right]
    rintro rfl
    cases hnone.symm.trans (Text.afterLead?_append ['('] body)

/-- The character that a type starts with. -/
def Starts (cs : List Char) : Prop := ∃ c tail, cs = c :: tail ∧ (c = '(' ∨ isIdentifierStart c)

theorem starts_of_openTuple? {cs body : List Char} (h : openTuple? cs = some body) : Starts cs := by
  rcases openTuple?_eq_some.mp h with rfl | rfl
  · exact ⟨_, _, rfl, .inl rfl⟩
  · exact ⟨_, _, rfl, .inr rfl⟩

theorem starts_of_readName {cs rest : List Char} {stem : TypeText}
    (h : readName cs = some (stem, rest)) : Starts cs := by
  obtain ⟨name, tail, hname, -⟩ := readName_eq_some.mp h
  cases cs with
  | nil => cases hname
  | cons c cs =>
    rw [readIdentifier?] at hname
    split at hname
    · rename_i hstart
      exact ⟨c, cs, rfl, .inr hstart⟩
    · cases hname

theorem Written.starts {cs rest : List Char} {t : TypeText} (h : Written cs t rest) : Starts cs := by
  cases h with
  | name _ stemRead _ => exact starts_of_readName stemRead
  | empty opening _ _ => exact starts_of_openTuple? opening
  | tuple opening _ _ => exact starts_of_openTuple? opening

theorem WrittenAll.starts {cs rest : List Char} {ts : List TypeText} (h : WrittenAll cs ts rest) :
    Starts cs := by
  cases h with
  | last itemRead _ => exact itemRead.starts
  | lastComma itemRead _ => exact itemRead.starts
  | more itemRead _ => exact itemRead.starts

theorem not_starts_close {cs : List Char} : ¬ Starts (')' :: cs) := by
  rintro ⟨c, tail, hcs, hc⟩
  cases hcs
  rcases hc with hc | hc
  · cases hc
  · exact absurd hc (by decide)

/-- There is nothing to skip in front of a type. -/
theorem Starts.skipSpaces {cs : List Char} (h : Starts cs) : skipSpaces cs = cs := by
  obtain ⟨c, tail, rfl, hc⟩ := h
  have hspace : (c == ' ' || c == '\t') = false := by
    by_contra hblank
    rw [Bool.not_eq_false, Bool.or_eq_true, beq_iff_eq, beq_iff_eq] at hblank
    rcases hblank with rfl | rfl <;> exact absurd hc (by decide)
  rw [Abi.skipSpaces, List.dropWhile_cons_of_neg (by simp [hspace])]

/-! ## What is written is unique -/

mutual

/-- A text says one type, and where it ends. -/
theorem Written.unique : ∀ {cs rest rest' : List Char} {t t' : TypeText}, Written cs t rest →
    Written cs t' rest' → t = t' ∧ rest = rest'
  | _, _, _, _, _, .name opening stemRead brackets, h' => by
    cases h' with
    | name opening' stemRead' brackets' =>
      cases stemRead.symm.trans stemRead'
      cases brackets.symm.trans brackets'
      exact ⟨rfl, rfl⟩
    | empty opening' _ _ => cases opening.symm.trans opening'
    | tuple opening' _ _ => cases opening.symm.trans opening'
  | _, _, _, _, _, .empty opening closing brackets, h' => by
    cases h' with
    | name opening' _ _ => cases opening.symm.trans opening'
    | empty opening' closing' brackets' =>
      cases opening.symm.trans opening'
      cases closing.symm.trans closing'
      cases brackets.symm.trans brackets'
      exact ⟨rfl, rfl⟩
    | tuple opening' itemsRead' _ =>
      -- The parenthesis that closes the list starts no type.
      cases opening.symm.trans opening'
      rw [closing] at itemsRead'
      exact absurd itemsRead'.starts not_starts_close
  | _, _, _, _, _, .tuple opening itemsRead brackets, h' => by
    cases h' with
    | name opening' _ _ => cases opening.symm.trans opening'
    | empty opening' closing' _ =>
      cases opening.symm.trans opening'
      rw [closing'] at itemsRead
      exact absurd itemsRead.starts not_starts_close
    | tuple opening' itemsRead' brackets' =>
      cases opening.symm.trans opening'
      obtain ⟨rfl, rfl⟩ := WrittenAll.unique itemsRead itemsRead'
      cases brackets.symm.trans brackets'
      exact ⟨rfl, rfl⟩

theorem WrittenAll.unique : ∀ {cs rest rest' : List Char} {ts ts' : List TypeText},
    WrittenAll cs ts rest → WrittenAll cs ts' rest' → ts = ts' ∧ rest = rest'
  | _, _, _, _, _, .last itemRead closing, h' => by
    cases h' with
    | last itemRead' closing' =>
      obtain ⟨rfl, rfl⟩ := Written.unique itemRead itemRead'
      cases closing.symm.trans closing'
      exact ⟨rfl, rfl⟩
    | lastComma itemRead' _ =>
      obtain ⟨rfl, rfl⟩ := Written.unique itemRead itemRead'
      cases closing
    | more itemRead' _ =>
      obtain ⟨rfl, rfl⟩ := Written.unique itemRead itemRead'
      cases closing
  | _, _, _, _, _, .lastComma itemRead closing, h' => by
    cases h' with
    | last itemRead' closing' =>
      obtain ⟨rfl, rfl⟩ := Written.unique itemRead itemRead'
      cases closing'
    | lastComma itemRead' closing' =>
      obtain ⟨rfl, hmid⟩ := Written.unique itemRead itemRead'
      cases hmid
      cases closing.symm.trans closing'
      exact ⟨rfl, rfl⟩
    | more itemRead' itemsRead' =>
      obtain ⟨rfl, hmid⟩ := Written.unique itemRead itemRead'
      cases hmid
      rw [closing] at itemsRead'
      exact absurd itemsRead'.starts not_starts_close
  | _, _, _, _, _, .more itemRead itemsRead, h' => by
    cases h' with
    | last itemRead' closing' =>
      obtain ⟨rfl, rfl⟩ := Written.unique itemRead itemRead'
      cases closing'
    | lastComma itemRead' closing' =>
      obtain ⟨rfl, hmid⟩ := Written.unique itemRead itemRead'
      cases hmid
      rw [closing'] at itemsRead
      exact absurd itemsRead.starts not_starts_close
    | more itemRead' itemsRead' =>
      obtain ⟨rfl, hmid⟩ := Written.unique itemRead itemRead'
      cases hmid
      obtain ⟨rfl, rfl⟩ := WrittenAll.unique itemsRead itemsRead'
      exact ⟨rfl, rfl⟩

end

/-! ## What is written before more text -/

section Append

variable {cs ext : List Char}

theorem openTuple?_append {body : List Char} (h : openTuple? cs = some body) :
    openTuple? (cs ++ ext) = some (body ++ ext) := by
  rw [openTuple?_eq_some] at h ⊢
  rcases h with rfl | rfl
  · exact .inl rfl
  · exact .inr rfl

/-- A name that is the front of the word before parentheses is read up to its end. -/
theorem mid_eq_nil_of_prefix {stem : TypeText} {mid tail : List Char}
    (hword : cs ++ tail = ['t', 'u', 'p', 'l', 'e']) (hname : readName cs = some (stem, mid)) :
    mid = [] := by
  have hletters : ∀ c ∈ cs, isIdentifierChar c = true := by
    intro c hc
    have hall : ∀ d ∈ ['t', 'u', 'p', 'l', 'e'], isIdentifierChar d = true := by
      simp [isIdentifierChar, isIdentifierStart]
    exact hall c (hword ▸ List.mem_append_left tail hc)
  obtain ⟨name, rest, hread, hrest⟩ := readName_eq_some.mp hname
  have hend : rest = [] := by
    cases cs with
    | nil => cases hread
    | cons c cs =>
      rw [readIdentifier?] at hread
      split at hread
      · cases hread
        exact List.dropWhile_eq_nil_iff.mpr fun d hd => hletters d (List.mem_cons_of_mem c hd)
      · cases hread
  subst hend
  rcases hrest with ⟨_, hpoint, -, -⟩ | ⟨-, -, rfl⟩
  · cases hpoint
  · rfl

theorem openTuple?_append_none (hopen : openTuple? cs = none) {stem : TypeText} {mid : List Char}
    (hname : readName cs = some (stem, mid)) (hend : mid = [] → Ends ext) :
    openTuple? (cs ++ ext) = none := by
  by_contra hsome
  obtain ⟨body, hbody⟩ := Option.ne_none_iff_exists'.mp hsome
  rcases openTuple?_eq_some.mp hbody with hparen | hword
  · cases cs with
    | nil => cases hname
    | cons c cs =>
      cases hparen
      cases hname
  · rcases List.append_eq_append_iff.mp hword with ⟨tail, htail, rfl⟩ | ⟨tail, rfl, -⟩
    · cases tail with
      | nil =>
        rw [List.append_nil] at htail
        cases hopen.symm.trans (openTuple?_eq_some.mpr (.inr (by rw [htail, List.append_nil])))
      | cons d tail =>
        -- the text before `ext` is the front of the word, so the name ends with it
        obtain ⟨front, c, hlast⟩ : ∃ front c, d :: tail = front ++ [c] :=
          ⟨_, _, (List.dropLast_concat_getLast (List.cons_ne_nil d tail)).symm⟩
        have hword : ['t', 'u', 'p', 'l', 'e'] ++ ['('] = (cs ++ front) ++ [c] := by
          rw [List.append_assoc, ← hlast]
          exact htail
        have hmid := mid_eq_nil_of_prefix (List.append_inj_left' hword rfl).symm hname
        have hcloser : d ∈ closers := hend hmid d rfl
        have hletter : d ∈ ['t', 'u', 'p', 'l', 'e', '('] := by
          rw [htail]
          simp
        have hdistinct : ∀ c ∈ ['t', 'u', 'p', 'l', 'e', '('], c ∉ closers := by
          simp [closers]
        exact hdistinct d hletter hcloser
    · cases hopen.symm.trans (openTuple?_eq_some.mpr (.inr rfl))

end Append

theorem WrittenAll.skipSpaces_append {cs rest : List Char} {ts : List TypeText}
    (h : WrittenAll (skipSpaces cs) ts rest) (ext : List Char) :
    skipSpaces (cs ++ ext) = skipSpaces cs ++ ext := by
  obtain ⟨c, tail, hspaces, -⟩ := h.starts
  rw [Abi.skipSpaces_append hspaces, hspaces]
  rfl

theorem rest_eq_nil_of_brackets {mid rest : List Char} {lengths : List (Option Nat)}
    (h : readBrackets mid.length mid = some (lengths, rest)) (hmid : mid = []) : rest = [] := by
  subst hmid
  cases h
  rfl

mutual

/-- What is written alone is also written before more text, if the type ends there. -/
theorem Written.append : ∀ {cs rest : List Char} {t : TypeText}, Written cs t rest →
    ∀ ext, (rest = [] → Ends ext) → Written (cs ++ ext) t (rest ++ ext)
  | _, _, _, .name opening stemRead brackets, ext, hend => by
    have hmid := fun hmid => hend (rest_eq_nil_of_brackets brackets hmid)
    exact .name (openTuple?_append_none opening stemRead hmid) (readName_append stemRead hmid)
      (readBrackets_append (Nat.le_refl _) (Nat.le_refl _) brackets hend)
  | _, _, _, .empty opening closing brackets, ext, hend =>
    .empty (openTuple?_append opening) (skipSpaces_append closing)
      (readBrackets_append (Nat.le_refl _) (Nat.le_refl _) brackets hend)
  | _, _, _, .tuple opening itemsRead brackets, ext, hend => by
    have hitems := WrittenAll.append itemsRead ext
    rw [← itemsRead.skipSpaces_append] at hitems
    exact .tuple (openTuple?_append opening) hitems
      (readBrackets_append (Nat.le_refl _) (Nat.le_refl _) brackets hend)

theorem WrittenAll.append : ∀ {cs rest : List Char} {ts : List TypeText}, WrittenAll cs ts rest →
    ∀ ext, WrittenAll (cs ++ ext) ts (rest ++ ext)
  | _, _, _, .last itemRead closing, ext =>
    .last (Written.append itemRead ext fun hmid => by rw [hmid] at closing; cases closing)
      (skipSpaces_append closing)
  | _, _, _, .lastComma itemRead closing, ext =>
    .lastComma (Written.append itemRead ext fun hmid => by cases hmid) (skipSpaces_append closing)
  | _, _, _, .more itemRead itemsRead, ext => by
    have hitems := WrittenAll.append itemsRead ext
    rw [← itemsRead.skipSpaces_append] at hitems
    exact .more (Written.append itemRead ext fun hmid => by cases hmid) hitems

end

end LedgerGateway.Abi.TypeText

import LedgerGateway.Configuration.Placeholder
import LedgerGateway.Proofs.Except
import Mathlib.Data.List.Infix
import Mathlib.Data.List.TakeWhile

/-!
# Placeholders that are filled at once

`Cut` cuts a text at its placeholders, from left to right, and `simultaneous` puts the values into the
places that were cut. Substitution fails exactly as this does. It replaces one name after the other in
a text that already holds values, so it gives the same text only if no name is spelled there anew.
-/

namespace LedgerGateway.Placeholder

/-- A piece of a text. -/
inductive Piece where
  /-- A character that stands for itself. -/
  | char (c : Char)
  /-- The place of a placeholder. -/
  | slot (name : List Char)

/-- What may stand between the braces. -/
structure IsName (name : List Char) : Prop where
  nonempty : name ≠ []
  noBrace : '\x7d' ∉ name

/-- The pieces of a text. Where a placeholder starts it is taken whole, so that the next one starts
behind it at the earliest. -/
inductive Cut : List Char → List Piece → Prop
  | nil : Cut [] []
  | slot {name rest : List Char} {pieces : List Piece} : IsName name → Cut rest pieces →
      Cut (ofName name ++ rest) (.slot name :: pieces)
  | char {c : Char} {rest : List Char} {pieces : List Piece} :
      (∀ name behind, IsName name → ofName name ++ behind ≠ c :: rest) → Cut rest pieces →
      Cut (c :: rest) (.char c :: pieces)

def Piece.name? : Piece → Option (List Char)
  | char _ => none
  | slot name => some name

/-- The names of the placeholders, in order. -/
def slots (pieces : List Piece) : List (List Char) := pieces.filterMap Piece.name?

/-- The text with every placeholder replaced by its value and nothing else changed, or the first name
without a value. -/
def simultaneous (env : Environment) : List Piece → Except String (List Char)
  | [] => .ok []
  | .char c :: rest => (simultaneous env rest).map (c :: ·)
  | .slot name :: rest =>
    match env (String.ofList name) with
    | some value => (simultaneous env rest).map (value.toList ++ ·)
    | none => .error (String.ofList name)

@[simp] theorem slots_nil : slots [] = [] := rfl

@[simp] theorem slots_char (c : Char) (pieces : List Piece) :
    slots (.char c :: pieces) = slots pieces := rfl

@[simp] theorem slots_slot (name : List Char) (pieces : List Piece) :
    slots (.slot name :: pieces) = name :: slots pieces := rfl

@[simp] theorem slots_chars_append (cs : List Char) (pieces : List Piece) :
    slots (cs.map .char ++ pieces) = slots pieces := by
  induction cs with
  | nil => rfl
  | cons c cs ih => exact ih

/-! ## Where a placeholder ends -/

/-- A placeholder without its closing brace. -/
def opened (name : List Char) : List Char := '$' :: '\x7b' :: name

theorem ofName_eq (name : List Char) : ofName name = opened name ++ ['\x7d'] := by
  simp [ofName, opened]

theorem ofName_append (name rest : List Char) :
    ofName name ++ rest = opened name ++ '\x7d' :: rest := by
  simp [ofName, opened]

theorem IsName.notMem_opened {name : List Char} (h : IsName name) : '\x7d' ∉ opened name := by
  simpa [opened] using h.noBrace

theorem takeWhile_closing {cs : List Char} (h : '\x7d' ∉ cs) (rest : List Char) :
    (cs ++ '\x7d' :: rest).takeWhile (· != '\x7d') = cs := by
  rw [List.takeWhile_append_of_pos]
  · simp
  · intro c hc
    simpa using ne_of_mem_of_not_mem hc h

/-- The first closing brace is in one place only. -/
theorem closing_inj {cs cs' rest rest' : List Char} (h : '\x7d' ∉ cs) (h' : '\x7d' ∉ cs')
    (heq : cs ++ '\x7d' :: rest = cs' ++ '\x7d' :: rest') : cs = cs' ∧ rest = rest' := by
  obtain rfl : cs = cs' := by
    rw [← takeWhile_closing h rest, heq, takeWhile_closing h' rest']
  simpa using heq

theorem nameAt?_eq_some {rest name : List Char} :
    nameAt? rest = some name ↔ IsName name ∧ ∃ behind, rest = name ++ '\x7d' :: behind := by
  unfold nameAt?
  constructor
  · intro h
    dsimp only at h
    split at h
    · cases h
    · rename_i hname
      cases h
      simp only [Bool.or_eq_true, List.isEmpty_iff, decide_eq_true_eq, not_or] at hname
      have hsplit := List.takeWhile_append_dropWhile (p := (· != '\x7d')) (l := rest)
      refine ⟨⟨hname.1, ?_⟩, ?_⟩
      · intro hmem
        simpa using List.mem_takeWhile_imp hmem
      · cases hbehind : rest.dropWhile (· != '\x7d') with
        | nil =>
          rw [hbehind, List.append_nil] at hsplit
          exact absurd (congrArg List.length hsplit) hname.2
        | cons c behind =>
          have hc := List.head_dropWhile_not (· != '\x7d') (l := rest) (by simp [hbehind])
          simp only [hbehind, List.head_cons, bne_eq_false_iff_eq] at hc
          rw [hbehind, hc] at hsplit
          exact ⟨behind, hsplit.symm⟩
  · rintro ⟨hname, behind, rfl⟩
    simp [takeWhile_closing hname.noBrace, hname.nonempty]

/-! ## Cutting -/

theorem namesFrom_eq_drop (skip : Nat) (cs : List Char) :
    namesFrom skip cs = names (cs.drop skip) := by
  induction cs generalizing skip with
  | nil => cases skip <;> rfl
  | cons c cs ih =>
    cases skip with
    | zero => rfl
    | succ skip => exact ih skip

theorem names_ofName {name : List Char} (h : IsName name) (rest : List Char) :
    names (ofName name ++ rest) = name :: names rest := by
  have hname : nameAt? (name ++ '\x7d' :: rest) = some name := nameAt?_eq_some.mpr ⟨h, rest, rfl⟩
  rw [ofName_append]
  simp only [opened, List.cons_append, names, namesFrom, hname]
  rw [namesFrom_eq_drop]
  simp [names]

theorem names_char {c : Char} {cs : List Char}
    (h : ∀ name behind, IsName name → ofName name ++ behind ≠ c :: cs) :
    names (c :: cs) = names cs := by
  simp only [names]
  rw [namesFrom.eq_def]
  dsimp only
  split
  · rename_i rest
    split
    · rename_i name hname
      obtain ⟨hisName, behind, rfl⟩ := nameAt?_eq_some.mp hname
      exact absurd (ofName_append name behind) (h name behind hisName)
    · rfl
  · rfl

namespace Cut

variable {cs : List Char} {pieces other : List Piece}

/-- Every text can be cut. -/
theorem exists_cut (cs : List Char) : ∃ pieces, Cut cs pieces := by
  match cs with
  | [] => exact ⟨[], .nil⟩
  | c :: rest =>
    by_cases hstart : ∃ name behind, IsName name ∧ ofName name ++ behind = c :: rest
    · obtain ⟨name, behind, hname, heq⟩ := hstart
      have hshorter : behind.length < (c :: rest).length := by
        rw [← heq, ofName_append, List.length_append, List.length_cons]
        omega
      obtain ⟨pieces, hpieces⟩ := exists_cut behind
      exact ⟨.slot name :: pieces, heq ▸ Cut.slot hname hpieces⟩
    · obtain ⟨pieces, hpieces⟩ := exists_cut rest
      refine ⟨_, .char (fun name behind hname heq => ?_) hpieces⟩
      exact hstart ⟨name, behind, hname, heq⟩
termination_by cs.length
decreasing_by
  · exact hshorter
  · exact Nat.lt_succ_self rest.length

/-- There is one way to cut a text. -/
theorem unique (h : Cut cs pieces) (h' : Cut cs other) : pieces = other := by
  induction h generalizing other with
  | nil =>
    generalize hcs : ([] : List Char) = cs at h'
    cases h' with
    | nil => rfl
    | slot => simp [ofName] at hcs
    | char => cases hcs
  | @slot name rest pieces hname hrest ih =>
    generalize hcs : ofName name ++ rest = cs at h'
    cases h' with
    | nil => simp [ofName] at hcs
    | slot hname' hrest' =>
      rw [ofName_append, ofName_append] at hcs
      obtain ⟨hopened, rfl⟩ := closing_inj hname.notMem_opened hname'.notMem_opened hcs
      simp only [opened, List.cons.injEq, true_and] at hopened
      rw [hopened, ih hrest']
    | char hnone => exact absurd hcs (hnone name rest hname)
  | @char c rest pieces hnone hrest ih =>
    generalize hcs : c :: rest = cs at h'
    cases h' with
    | nil => cases hcs
    | @slot name behind _ hname => exact absurd hcs.symm (hnone name behind hname)
    | char _ hrest' =>
      cases hcs
      rw [ih hrest']

theorem isName (h : Cut cs pieces) : ∀ name ∈ slots pieces, IsName name := by
  induction h with
  | nil => simp
  | slot hname _ ih => simpa using ⟨hname, ih⟩
  | char _ _ ih => simpa using ih

/-- The names that are found are those of the placeholders. -/
theorem names_eq (h : Cut cs pieces) : names cs = slots pieces := by
  induction h with
  | nil => rfl
  | slot hname _ ih => rw [names_ofName hname, ih, slots_slot]
  | char hnone _ ih => rw [names_char hnone, ih, slots_char]

end Cut

/-! ## Names without a value -/

/-- Of the names, this one is the first without a value. -/
def FirstUnset (env : Environment) (names : List (List Char)) (name : List Char) : Prop :=
  ∃ before after, names = before ++ name :: after ∧
    (∀ m ∈ before, ∃ value, env (String.ofList m) = some value) ∧ env (String.ofList name) = none

theorem firstUnset_cons_of_some {env : Environment} {first : List Char} {value : String}
    (h : env (String.ofList first) = some value) {names : List (List Char)} {name : List Char} :
    FirstUnset env (first :: names) name ↔ FirstUnset env names name := by
  constructor
  · rintro ⟨before, after, hsplit, hbefore, hname⟩
    cases before with
    | nil =>
      cases hsplit
      rw [h] at hname
      cases hname
    | cons m before =>
      cases hsplit
      exact ⟨before, after, rfl, (List.forall_mem_cons.mp hbefore).2, hname⟩
  · rintro ⟨before, after, rfl, hbefore, hname⟩
    exact ⟨first :: before, after, rfl, List.forall_mem_cons.mpr ⟨⟨value, h⟩, hbefore⟩, hname⟩

theorem firstUnset_cons_of_none {env : Environment} {first : List Char}
    (h : env (String.ofList first) = none) {names : List (List Char)} {name : List Char} :
    FirstUnset env (first :: names) name ↔ name = first := by
  constructor
  · rintro ⟨before, after, hsplit, hbefore, -⟩
    cases before with
    | nil => exact (List.cons.inj hsplit).1.symm
    | cons m before =>
      cases hsplit
      obtain ⟨value, hvalue⟩ := hbefore _ List.mem_cons_self
      rw [h] at hvalue
      cases hvalue
  · rintro rfl
    exact ⟨[], names, rfl, by simp, h⟩

/-- Whatever the text has become by then, the first name without a value is told. -/
theorem fill_eq_error {env : Environment} {names : List (List Char)} {cs : List Char}
    {text : String} :
    fill env names cs = .error text ↔
      ∃ name, FirstUnset env names name ∧ text = String.ofList name := by
  induction names generalizing cs with
  | nil => simp [fill, FirstUnset]
  | cons first names ih =>
    rw [fill]
    cases hfirst : env (String.ofList first) with
    | none =>
      simp only [firstUnset_cons_of_none hfirst, exists_eq_left, Except.error.injEq]
      exact eq_comm
    | some value => simp only [firstUnset_cons_of_some hfirst, ih]

theorem fill_slots_eq_error {env : Environment} {pieces : List Piece} {cs : List Char}
    {name : String} :
    fill env (slots pieces) cs = .error name ↔ simultaneous env pieces = .error name := by
  induction pieces generalizing cs with
  | nil => simp [fill, simultaneous]
  | cons piece pieces ih =>
    cases piece with
    | char c => rw [slots_char, simultaneous, map_eq_error, ih]
    | slot other =>
      rw [slots_slot, fill, simultaneous]
      cases env (String.ofList other) with
      | none => rfl
      | some value => rw [map_eq_error, ih]

/-! ## Replacing a text -/

theorem replaceFrom_eq_drop (pattern value : List Char) (skip : Nat) (cs : List Char) :
    replaceFrom pattern value skip cs = replaceAll pattern value (cs.drop skip) := by
  induction cs generalizing skip with
  | nil => cases skip <;> rfl
  | cons c cs ih =>
    cases skip with
    | zero => rfl
    | succ skip => exact ih skip

theorem replaceAll_pattern {pattern : List Char} (h : pattern ≠ []) (value rest : List Char) :
    replaceAll pattern value (pattern ++ rest) = value ++ replaceAll pattern value rest := by
  obtain ⟨c, cs, rfl⟩ := List.exists_cons_of_ne_nil h
  have hprefix : (c :: cs).isPrefixOf (c :: (cs ++ rest)) = true := by
    rw [List.isPrefixOf_iff_prefix, ← List.cons_append]
    exact List.prefix_append _ _
  rw [List.cons_append, replaceAll, replaceFrom, if_pos hprefix, replaceFrom_eq_drop]
  simp

/-- Where no occurrence starts, the text stays. -/
theorem replaceAll_append {pattern value kept rest : List Char}
    (h : ∀ before c after, kept = before ++ c :: after → ¬ pattern <+: c :: (after ++ rest)) :
    replaceAll pattern value (kept ++ rest) = kept ++ replaceAll pattern value rest := by
  induction kept with
  | nil => rfl
  | cons c kept ih =>
    have hprefix : pattern.isPrefixOf (c :: (kept ++ rest)) = false := by
      rw [← Bool.not_eq_true, List.isPrefixOf_iff_prefix]
      exact h [] c kept rfl
    have hrest := ih fun before d after hkept => h (c :: before) d after (by rw [hkept]; rfl)
    rw [List.cons_append, replaceAll, replaceFrom, hprefix, if_neg (by decide), ← replaceAll, hrest,
      List.cons_append]

/-! ## Between the first name and the last -/

section

variable {value : List Char → List Char} {done : List (List Char)} {name : List Char}
  {pieces : List Piece}

/-- A piece when the placeholders of some names have been replaced. -/
def Piece.text (value : List Char → List Char) (done : List (List Char)) : Piece → List Char
  | char c => [c]
  | slot name => if name ∈ done then value name else ofName name

/-- A piece when all placeholders have been replaced. -/
def Piece.filled (value : List Char → List Char) : Piece → List Char
  | char c => [c]
  | slot name => value name

theorem text_chars_append (cs : List Char) :
    (cs.map Piece.char ++ pieces).flatMap (Piece.text value done) =
      cs ++ pieces.flatMap (Piece.text value done) := by
  induction cs with
  | nil => rfl
  | cons c cs ih => simp [Piece.text, ← ih]

theorem filled_chars_append (cs : List Char) :
    (cs.map Piece.char ++ pieces).flatMap (Piece.filled value) =
      cs ++ pieces.flatMap (Piece.filled value) := by
  induction cs with
  | nil => rfl
  | cons c cs ih => simp [Piece.filled, ← ih]

theorem Cut.text_eq {cs : List Char} (h : Cut cs pieces) :
    pieces.flatMap (Piece.text value []) = cs := by
  induction h with
  | nil => rfl
  | slot _ _ ih => simp [Piece.text, ih]
  | char _ _ ih => simp [Piece.text, ih]

/-- What ends at the first closing brace either is there when all has been replaced, or it ends with a
placeholder that has not been replaced yet. -/
theorem prefix_filled_or_suffix (hnames : ∀ m ∈ slots pieces, IsName m) {cs : List Char}
    (hcs : '\x7d' ∉ cs) (h : cs ++ ['\x7d'] <+: pieces.flatMap (Piece.text value done)) :
    cs ++ ['\x7d'] <+: pieces.flatMap (Piece.filled value) ∨
      ∃ m ∈ slots pieces, ofName m <:+ cs ++ ['\x7d'] := by
  induction pieces generalizing cs with
  | nil => simp at h
  | cons piece pieces ih =>
    rw [List.flatMap_cons] at h ⊢
    cases piece with
    | char c =>
      rw [slots_char] at hnames ⊢
      simp only [Piece.text, Piece.filled, List.singleton_append] at h ⊢
      cases cs with
      | nil => exact .inl (by simpa using h)
      | cons d cs =>
        rw [List.cons_append, List.cons_prefix_cons] at h
        rw [List.cons_append, List.cons_prefix_cons]
        rcases ih hnames (fun hmem => hcs (List.mem_cons_of_mem _ hmem)) h.2 with
          hfilled | ⟨m, hm, hsuffix⟩
        · exact .inl ⟨h.1, hfilled⟩
        · exact .inr ⟨m, hm, hsuffix.trans (List.suffix_cons _ _)⟩
    | slot m =>
      rw [slots_slot, List.forall_mem_cons] at hnames
      simp only [Piece.text, Piece.filled] at h ⊢
      split at h
      · rcases List.prefix_or_prefix_of_prefix h (List.prefix_append (value m) _) with
          hshort | ⟨more, hmore⟩
        · exact .inl (hshort.trans (List.prefix_append _ _))
        · rcases List.eq_nil_or_concat' more with rfl | ⟨inner, last, rfl⟩
          · exact .inl (by rw [← hmore, List.append_nil]; exact List.prefix_append _ _)
          · rw [← List.append_assoc] at hmore
            obtain ⟨rfl, hlast⟩ := List.append_inj' hmore rfl
            obtain rfl : last = '\x7d' := by simpa using hlast
            rw [List.append_assoc, List.prefix_append_right_inj] at h
            rw [List.append_assoc, List.prefix_append_right_inj]
            rcases ih hnames.2 (fun hmem => hcs (List.mem_append_right _ hmem)) h with
              hfilled | ⟨m', hm', hsuffix⟩
            · exact .inl hfilled
            · exact .inr ⟨m', by simp [hm'], hsuffix.trans (List.suffix_append _ _)⟩
      · obtain ⟨rest, hrest⟩ := h
        rw [List.append_assoc, List.singleton_append, ofName_append] at hrest
        obtain ⟨rfl, -⟩ := closing_inj hcs hnames.1.notMem_opened hrest
        exact .inr ⟨m, by simp, by rw [ofName_eq]⟩

/-- No occurrence of the placeholder starts in front of pieces, if none is there when all has been
replaced. -/
theorem not_prefix_text (hname : IsName name) (hnames : ∀ m ∈ slots pieces, IsName m)
    (hnested : ∀ m ∈ slots pieces, ofName m <:+: ofName name → m = name) {c : Char}
    {after : List Char}
    (hfresh : ¬ ofName name <:+: c :: (after ++ pieces.flatMap (Piece.filled value))) :
    ¬ ofName name <+: c :: (after ++ pieces.flatMap (Piece.text value done)) := by
  intro h
  have hofName : ofName name = '$' :: ('\x7b' :: name ++ ['\x7d']) := by simp [ofName]
  have hinner : '\x7d' ∉ '\x7b' :: name := by simpa using hname.noBrace
  rw [hofName, List.cons_prefix_cons, ← text_chars_append] at h
  rw [← slots_chars_append after] at hnames
  rcases prefix_filled_or_suffix hnames hinner h.2 with hfilled | ⟨m, hm, hsuffix⟩
  · refine hfresh (List.IsPrefix.isInfix ?_)
    rw [hofName, List.cons_prefix_cons, ← filled_chars_append]
    exact ⟨h.1, hfilled⟩
  · rw [slots_chars_append] at hm
    obtain rfl : m = name := by
      refine hnested m hm ?_
      rw [hofName]
      exact (hsuffix.trans (List.suffix_cons _ _)).isInfix
    have hlength := hsuffix.length_le
    rw [hofName, List.length_cons] at hlength
    omega

/-- A placeholder that is not part of another starts nowhere in it. -/
theorem not_prefix_ofName {m : List Char} (hname : IsName name) (hm : IsName m)
    (hnested : ¬ ofName name <:+: ofName m) {before after : List Char} {c : Char}
    (hsplit : ofName m = before ++ c :: after) (rest : List Char) :
    ¬ ofName name <+: c :: (after ++ rest) := by
  rintro ⟨behind, hbehind⟩
  rcases List.eq_nil_or_concat' (c :: after) with hnil | ⟨inner, last, hinner⟩
  · cases hnil
  · rw [hinner, ofName_eq, ← List.append_assoc] at hsplit
    obtain ⟨hopened, hlast⟩ := List.append_inj' hsplit rfl
    obtain rfl : '\x7d' = last := by simpa using hlast
    have hbrace : '\x7d' ∉ inner := fun hmem =>
      hm.notMem_opened (hopened ▸ List.mem_append_right _ hmem)
    rw [← List.cons_append, hinner, ofName_append, List.append_assoc, List.singleton_append] at hbehind
    obtain ⟨rfl, -⟩ := closing_inj hname.notMem_opened hbrace hbehind
    rw [ofName_eq, ofName_eq, hopened, List.append_assoc] at hnested
    exact hnested (List.suffix_append _ _).isInfix

/-- Replacing a name touches its placeholders alone. -/
theorem replaceAll_text (hname : IsName name) (hnames : ∀ m ∈ slots pieces, IsName m)
    (hnested : ∀ m ∈ slots pieces,
      (ofName m <:+: ofName name → m = name) ∧ (ofName name <:+: ofName m → name = m))
    (hfresh : ¬ ofName name <:+: pieces.flatMap (Piece.filled value)) :
    replaceAll (ofName name) (value name) (pieces.flatMap (Piece.text value done)) =
      pieces.flatMap (Piece.text value (done ++ [name])) := by
  induction pieces with
  | nil => rfl
  | cons piece pieces ih =>
    rw [List.flatMap_cons] at hfresh
    have hrest : ¬ ofName name <:+: pieces.flatMap (Piece.filled value) := fun h =>
      hfresh (h.trans (List.suffix_append _ _).isInfix)
    -- In characters and in values, no occurrence starts.
    have hkept : ∀ kept, kept = piece.filled value →
        (∀ m ∈ slots pieces, IsName m) → (∀ m ∈ slots pieces, ofName m <:+: ofName name → m = name) →
        replaceAll (ofName name) (value name) (kept ++ pieces.flatMap (Piece.text value done)) =
          kept ++ replaceAll (ofName name) (value name) (pieces.flatMap (Piece.text value done)) := by
      intro kept hfilled hnames hnested
      refine replaceAll_append fun before c after hsplit => ?_
      refine not_prefix_text hname hnames hnested fun h => hfresh ?_
      rw [← hfilled, hsplit, List.append_assoc]
      exact h.trans (List.suffix_append _ _).isInfix
    cases piece with
    | char c =>
      rw [slots_char] at hnames hnested
      rw [List.flatMap_cons, List.flatMap_cons, ← ih hnames hnested hrest]
      exact hkept [c] rfl hnames fun m hm => (hnested m hm).1
    | slot m =>
      rw [slots_slot, List.forall_mem_cons] at hnames hnested
      rw [List.flatMap_cons, List.flatMap_cons, ← ih hnames.2 hnested.2 hrest]
      by_cases hdone : m ∈ done
      · have hm : m ∈ done ++ [name] := by simp [hdone]
        simp only [Piece.text, hdone, hm, if_true]
        exact hkept (value m) rfl hnames.2 fun m hm => (hnested.2 m hm).1
      · by_cases heq : m = name
        · subst heq
          simp only [Piece.text, hdone, if_false, List.mem_append, List.mem_singleton, or_true, if_true]
          exact replaceAll_pattern (by simp [ofName]) _ _
        · have hm : m ∉ done ++ [name] := by simp [hdone, heq]
          simp only [Piece.text, hdone, hm, if_false]
          refine replaceAll_append fun before c after hsplit => ?_
          refine not_prefix_ofName hname hnames.1 (fun h => heq ?_) hsplit _
          exact (hnested.1.2 h).symm

end

/-! ## All names -/

section

variable {env : Environment} {pieces : List Piece}

def valueOf (env : Environment) (name : List Char) : List Char :=
  ((env (String.ofList name)).getD "").toList

theorem filled_of_simultaneous {filled : List Char} (h : simultaneous env pieces = .ok filled) :
    filled = pieces.flatMap (Piece.filled (valueOf env)) ∧
      ∀ name ∈ slots pieces, ∃ value, env (String.ofList name) = some value := by
  induction pieces generalizing filled with
  | nil =>
    cases h
    simp
  | cons piece pieces ih =>
    cases piece with
    | char c =>
      obtain ⟨rest, hrest, rfl⟩ := map_eq_ok.mp h
      obtain ⟨rfl, hset⟩ := ih hrest
      exact ⟨rfl, hset⟩
    | slot name =>
      rw [simultaneous] at h
      cases hvalue : env (String.ofList name) with
      | none =>
        rw [hvalue] at h
        cases h
      | some value =>
        rw [hvalue] at h
        obtain ⟨rest, hrest, rfl⟩ := map_eq_ok.mp h
        obtain ⟨rfl, hset⟩ := ih hrest
        rw [slots_slot, List.forall_mem_cons]
        exact ⟨by simp [Piece.filled, valueOf, hvalue], ⟨value, hvalue⟩, hset⟩

theorem text_slots (value : List Char → List Char) :
    pieces.flatMap (Piece.text value (slots pieces)) = pieces.flatMap (Piece.filled value) := by
  refine List.flatMap_congr fun piece hpiece => ?_
  cases piece with
  | char c => rfl
  | slot name =>
    have hname : name ∈ slots pieces := List.mem_filterMap.mpr ⟨_, hpiece, rfl⟩
    rw [Piece.text, if_pos hname, Piece.filled]

/-- The placeholders of a text do not get into the way of each other, nor do their values. -/
structure Apart (env : Environment) (pieces : List Piece) : Prop where
  /-- No placeholder is part of another. -/
  nested : ∀ name ∈ slots pieces, ∀ other ∈ slots pieces,
    ofName name <:+: ofName other → name = other
  /-- When all have their values, none of them is spelled anywhere. -/
  fresh : ∀ filled, simultaneous env pieces = .ok filled →
    ∀ name ∈ slots pieces, ¬ ofName name <:+: filled

/-- One name after the other is replaced, and each time no more than its placeholders. -/
theorem fill_text (hnames : ∀ m ∈ slots pieces, IsName m)
    (hnested : ∀ name ∈ slots pieces, ∀ other ∈ slots pieces,
      ofName name <:+: ofName other → name = other)
    (hfresh : ∀ name ∈ slots pieces,
      ¬ ofName name <:+: pieces.flatMap (Piece.filled (valueOf env)))
    {names : List (List Char)} (hslots : ∀ name ∈ names, name ∈ slots pieces)
    (hset : ∀ name ∈ names, ∃ value, env (String.ofList name) = some value)
    (done : List (List Char)) :
    fill env names (pieces.flatMap (Piece.text (valueOf env) done)) =
      .ok (pieces.flatMap (Piece.text (valueOf env) (done ++ names))) := by
  induction names generalizing done with
  | nil => rw [fill, List.append_nil]
  | cons name names ih =>
    rw [List.forall_mem_cons] at hslots hset
    obtain ⟨⟨value, hvalue⟩, hset⟩ := hset
    have hreplace : replaceAll (ofName name) (valueOf env name)
        (pieces.flatMap (Piece.text (valueOf env) done)) =
          pieces.flatMap (Piece.text (valueOf env) (done ++ [name])) :=
      replaceAll_text (hnames name hslots.1) hnames
        (fun m hm => ⟨hnested m hm name hslots.1, hnested name hslots.1 m hm⟩) (hfresh name hslots.1)
    have hvalueOf : value.toList = valueOf env name := by simp [valueOf, hvalue]
    simp only [fill, hvalue, hvalueOf, hreplace]
    rw [ih hslots.2 hset, List.append_assoc, List.singleton_append]

end

/-- Substitution fails with the first name of the text that has no value, and in no other way. It fills
all placeholders at once if they stay apart. -/
theorem substitute_eq_simultaneous {env : Environment} {s : String} {pieces : List Piece}
    (h : Cut s.toList pieces) :
    (∀ text, substitute env s = .error text ↔
      ∃ name, FirstUnset env (slots pieces) name ∧ text = String.ofList name) ∧
    (Apart env pieces →
      substitute env s = (simultaneous env pieces).map String.ofList) := by
  rw [substitute, h.names_eq]
  constructor
  · intro text
    rw [map_eq_error, fill_eq_error]
  · intro hapart
    cases hfilled : simultaneous env pieces with
    | error text => rw [fill_slots_eq_error.mpr hfilled]
    | ok filled =>
      obtain ⟨rfl, hset⟩ := filled_of_simultaneous hfilled
      have hfill := fill_text h.isName hapart.nested (hapart.fresh _ hfilled) (fun _ hm => hm) hset []
      rw [h.text_eq, List.nil_append, text_slots] at hfill
      rw [hfill]

namespace Price

/-- A dollar sign in front of two placeholders. -/
def text : List Char := '$' :: (ofName ['A'] ++ (ofName ['B'] ++ []))

def pieces : List Piece := [.char '$', .slot ['A'], .slot ['B']]

/-- Only the value of the second placeholder looks like a placeholder. -/
def env : Environment := fun name => if name = "A" then some "5" else some "$\x7bC\x7d"

theorem cut_text : Cut (String.ofList text).toList pieces := by
  have hA : IsName ['A'] := ⟨by decide, by decide⟩
  have hB : IsName ['B'] := ⟨by decide, by decide⟩
  rw [String.toList_ofList]
  refine .char ?_ (.slot hA (.slot hB .nil))
  intro name behind _ heq
  simp [ofName] at heq

theorem simultaneous_env : simultaneous env pieces = .ok "$5$\x7bC\x7d".toList := by
  decide

theorem apart_env : Apart env pieces := by
  constructor
  · decide
  · intro filled hfilled
    rw [simultaneous_env] at hfilled
    cases hfilled
    decide

end Price

/-- A value that is spelled like a placeholder stays if the text has no such placeholder. -/
theorem substitute_eq_simultaneous_price :
    Cut (String.ofList Price.text).toList Price.pieces ∧ Apart Price.env Price.pieces ∧
      substitute Price.env (String.ofList Price.text) = .ok "$5$\x7bC\x7d" ∧
      substitute (fun _ => none) (String.ofList Price.text) = .error "A" := by
  refine ⟨Price.cut_text, Price.apart_env, ?_, ?_⟩
  · rw [(substitute_eq_simultaneous Price.cut_text).2 Price.apart_env, Price.simultaneous_env]
    rfl
  · exact ((substitute_eq_simultaneous Price.cut_text).1 "A").mpr
      ⟨['A'], ⟨[], [['B']], rfl, by simp, rfl⟩, rfl⟩

namespace Chained

/-- Two placeholders, of which the first has the second as its value. -/
def text : List Char := ofName ['A'] ++ (ofName ['B'] ++ [])

def pieces : List Piece := [.slot ['A'], .slot ['B']]

def env : Environment := fun name => if name = "A" then some "$\x7bB\x7d" else some "x"

theorem cut_text : Cut (String.ofList text).toList pieces := by
  have hA : IsName ['A'] := ⟨by decide, by decide⟩
  have hB : IsName ['B'] := ⟨by decide, by decide⟩
  rw [String.toList_ofList]
  exact .slot hA (.slot hB .nil)

theorem substitute_text : substitute env (String.ofList text) = .ok "xx" := by
  decide

theorem simultaneous_text :
    (simultaneous env pieces).map String.ofList = .ok "$\x7bB\x7dx" := by
  decide

end Chained

/-- A placeholder in a value is replaced if one of its name follows in the text. -/
theorem substitute_replaces_value :
    ¬ ∀ (env : Environment) (s : String) (pieces : List Piece), Cut s.toList pieces →
      substitute env s = (simultaneous env pieces).map String.ofList := by
  intro hall
  have hsame := hall Chained.env _ _ Chained.cut_text
  rw [Chained.substitute_text, Chained.simultaneous_text] at hsame
  exact absurd hsame (by decide)

-- A placeholder that is part of another takes it apart, whatever the values are.
example : substitute (fun _ => some "x")
    (String.ofList (ofName ['b'] ++ ofName ('a' :: opened ['b']))) = .ok "x$\x7bax" := by
  decide

end LedgerGateway.Placeholder

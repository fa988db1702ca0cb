import LedgerGateway.Abi.Interface
import LedgerGateway.Proofs.Abi.Belonging
import LedgerGateway.Proofs.Abi.Grammar

/-!
# What types in text mean

Whatever type a text means is one that a text can mean: its numbers have 256 bits at most, its byte
strings a word, and no list has a fixed length of zero. So it is with the parameters of a function.
-/

namespace LedgerGateway.Abi

namespace TypeText

mutual

/-- No list has a fixed length of zero. -/
def isPlaced : TypeText → Bool
  | named _ => true
  | tuple items => arePlaced items
  | list item length => length != some 0 && item.isPlaced

/-- No list in the types has a fixed length of zero. -/
def arePlaced : List TypeText → Bool
  | [] => true
  | item :: rest => item.isPlaced && arePlaced rest

end

theorem isPlaced_wrap {stem : TypeText} (hstem : stem.isPlaced = true) {lengths : List (Option Nat)}
    (h : some 0 ∉ lengths) : (stem.wrap lengths).isPlaced = true := by
  induction lengths generalizing stem with
  | nil => exact hstem
  | cons length lengths ih =>
    obtain ⟨hfirst, hothers⟩ : some 0 ≠ length ∧ some 0 ∉ lengths := by simpa using h
    refine ih ?_ hothers
    simp [isPlaced, hstem, hfirst.symm]

theorem resolve?_wrap (stem : TypeText) (lengths : List (Option Nat)) :
    (stem.wrap lengths).resolve? = stem.resolve?.map fun t => lengths.foldl listOf t := by
  induction lengths generalizing stem with
  | nil => simp [wrap]
  | cons length lengths ih =>
    have hstep : stem.wrap (length :: lengths) = (stem.list length).wrap lengths := rfl
    rw [hstep, ih, resolve?, Option.map_map]
    rfl

theorem lengths_wrap (stem : TypeText) (lengths : List (Option Nat)) :
    (stem.wrap lengths).lengths = stem.lengths ++ lengths := by
  induction lengths generalizing stem with
  | nil => simp [wrap]
  | cons length lengths ih =>
    have hstep : stem.wrap (length :: lengths) = (stem.list length).wrap lengths := rfl
    rw [hstep, ih, TypeText.lengths, List.append_assoc]
    rfl

theorem isPlaced_of_readName {cs rest : List Char} {stem : TypeText}
    (h : readName cs = some (stem, rest)) : stem.isPlaced = true := by
  obtain ⟨name, tail, -, ⟨_, -, rfl, -⟩ | ⟨-, rfl, -⟩⟩ := readName_eq_some.mp h <;> rw [isPlaced]

mutual

theorem Written.isPlaced : ∀ {cs rest : List Char} {t : TypeText}, Written cs t rest →
    t.isPlaced = true
  | _, _, _, .name _ stemRead brackets =>
    isPlaced_wrap (isPlaced_of_readName stemRead) (readBrackets_ne_zero brackets)
  | _, _, _, .empty _ _ brackets =>
    isPlaced_wrap (by simp [TypeText.isPlaced, arePlaced]) (readBrackets_ne_zero brackets)
  | _, _, _, .tuple _ itemsRead brackets => by
    refine isPlaced_wrap ?_ (readBrackets_ne_zero brackets)
    rw [TypeText.isPlaced]
    exact WrittenAll.arePlaced itemsRead

theorem WrittenAll.arePlaced : ∀ {cs rest : List Char} {ts : List TypeText},
    WrittenAll cs ts rest → arePlaced ts = true
  | _, _, _, .last itemRead _ => by simp [TypeText.arePlaced, Written.isPlaced itemRead]
  | _, _, _, .lastComma itemRead _ => by simp [TypeText.arePlaced, Written.isPlaced itemRead]
  | _, _, _, .more itemRead itemsRead => by
    simp [TypeText.arePlaced, Written.isPlaced itemRead, WrittenAll.arePlaced itemsRead]

end

theorem lengths_of_isPlaced : ∀ {t : TypeText}, t.isPlaced = true → some 0 ∉ t.lengths
  | named _, _ => by simp [lengths]
  | tuple _, _ => by simp [lengths]
  | list item length, h => by
    obtain ⟨hlength, hitem⟩ : length ≠ some 0 ∧ item.isPlaced = true := by
      simpa [isPlaced] using h
    simp [lengths, lengths_of_isPlaced hitem, hlength.symm]

theorem isProper_listOf {item : Ty} (hitem : item.isProper = true) {length : Option Nat}
    (h : length ≠ some 0) : (listOf item length).isProper = true := by
  cases length with
  | none => simpa [listOf, Ty.isProper] using hitem
  | some n =>
    have hn : 0 < n := Nat.pos_of_ne_zero fun hzero => h (by rw [hzero])
    simp [listOf, Ty.isProper, hitem, hn]

theorem bits?_bounds {digits : List Char} {n : Nat} (h : bits? digits = some n) :
    0 < n ∧ n ≤ 256 := by
  unfold bits? at h
  split at h
  · cases h
    decide
  · split at h
    · simp only at h
      split at h
      · rename_i hbounds
        cases h
        simp only [Bool.and_eq_true, decide_eq_true_eq] at hbounds
        exact hbounds.1
      · cases h
    · cases h

theorem byteCount?_le {digits : List Char} {n : Nat} (h : byteCount? digits = some n) :
    n ≤ 32 := by
  unfold byteCount? at h
  split at h
  · cases h
  · simp only at h
    split at h
    · rename_i hbounds
      cases h
      simp only [Bool.and_eq_true, decide_eq_true_eq] at hbounds
      exact hbounds.2
    · cases h

theorem isProper_of_ofName? {name : List Char} {t : Ty} (h : ofName? name = some t) :
    t.isProper = true := by
  unfold ofName? at h
  have hbits : ∀ {digits : List Char} {make : Nat → Ty},
      (∀ n, 0 < n ∧ n ≤ 256 → (make n).isProper = true) →
      (bits? digits).map make = some t → t.isProper = true := by
    intro digits make hmake hmap
    obtain ⟨n, hn, rfl⟩ := Option.map_eq_some_iff.mp hmap
    exact hmake n (bits?_bounds hn)
  -- The five words without digits come first.
  split at h
  iterate 5
    · cases h
      simp [Ty.isProper]
  split at h
  · obtain ⟨n, hn, rfl⟩ := Option.map_eq_some_iff.mp h
    simp [Ty.isProper, byteCount?_le hn]
  split at h
  · exact hbits (fun n hn => by simp [Ty.isProper, hn]) h
  split at h
  · exact hbits (fun n hn => by simp [Ty.isProper, hn]) h
  · cases h

mutual

/-- A type that a text means is one that a text can mean. -/
theorem isProper_of_resolve? : ∀ {written : TypeText} {t : Ty}, written.isPlaced = true →
    written.resolve? = some t → t.isProper = true
  | named _, _, _, h => isProper_of_ofName? (by simpa [resolve?] using h)
  | tuple items, t, hplaced, h => by
    rw [resolve?] at h
    obtain ⟨ts, hts, rfl⟩ := Option.map_eq_some_iff.mp h
    rw [Ty.isProper]
    exact areProper_of_resolveAll? (by simpa [isPlaced] using hplaced) hts
  | list item length, t, hplaced, h => by
    obtain ⟨hlength, hitem⟩ : length ≠ some 0 ∧ item.isPlaced = true := by
      simpa [isPlaced] using hplaced
    rw [resolve?] at h
    obtain ⟨u, hu, rfl⟩ := Option.map_eq_some_iff.mp h
    exact isProper_listOf (isProper_of_resolve? hitem hu) hlength

theorem areProper_of_resolveAll? : ∀ {written : List TypeText} {ts : List Ty},
    arePlaced written = true → resolveAll? written = some ts → Ty.areProper ts = true
  | [], _, _, h => by
    cases h
    simp [Ty.areProper]
  | item :: rest, ts, hplaced, h => by
    obtain ⟨hitem, hrest⟩ : item.isPlaced = true ∧ arePlaced rest = true := by
      simpa [arePlaced] using hplaced
    rw [resolveAll?] at h
    obtain ⟨u, hu, h⟩ := Option.bind_eq_some_iff.mp h
    obtain ⟨us, hus, h⟩ := Option.bind_eq_some_iff.mp h
    cases h
    simp [Ty.areProper, isProper_of_resolve? hitem hu, areProper_of_resolveAll? hrest hus]

end

end TypeText

/-! ## Parameters -/

namespace Parameter

theorem type?_leaf {typeText : String} {t : Ty} (h : type? ⟨typeText, []⟩ = some t) :
    ∃ written, TypeText.parse typeText = some written ∧ written.resolve? = some t := by
  rw [type?] at h
  exact Option.bind_eq_some_iff.mp h

theorem type?_tuple {typeText : String} {part : Parameter} {parts : List Parameter} {t : Ty}
    (h : type? ⟨typeText, part :: parts⟩ = some t) :
    ∃ written first others, TypeText.parse typeText = some written ∧ part.type? = some first ∧
      types? parts = some others ∧
      t = written.lengths.foldl TypeText.listOf (.tuple (first :: others)) := by
  rw [type?] at h
  obtain ⟨written, hwritten, h⟩ := Option.bind_eq_some_iff.mp h
  obtain ⟨first, hfirst, h⟩ := Option.bind_eq_some_iff.mp h
  obtain ⟨others, hothers, h⟩ := Option.bind_eq_some_iff.mp h
  cases h
  exact ⟨written, first, others, hwritten, hfirst, hothers, rfl⟩

theorem types?_cons {p : Parameter} {ps : List Parameter} {ts : List Ty}
    (h : types? (p :: ps) = some ts) :
    ∃ first others, p.type? = some first ∧ types? ps = some others ∧ ts = first :: others := by
  rw [types?] at h
  obtain ⟨first, hfirst, h⟩ := Option.bind_eq_some_iff.mp h
  obtain ⟨others, hothers, h⟩ := Option.bind_eq_some_iff.mp h
  cases h
  exact ⟨first, others, hfirst, hothers, rfl⟩

theorem isProper_foldl_listOf {t : Ty} (ht : t.isProper = true) {lengths : List (Option Nat)}
    (h : some 0 ∉ lengths) : (lengths.foldl TypeText.listOf t).isProper = true := by
  induction lengths generalizing t with
  | nil => exact ht
  | cons length lengths ih =>
    obtain ⟨hfirst, hothers⟩ : some 0 ≠ length ∧ some 0 ∉ lengths := by simpa using h
    exact ih (TypeText.isProper_listOf ht hfirst.symm) hothers

mutual

/-- The type of a parameter is one that a text can mean. -/
theorem isProper_of_type? : ∀ (p : Parameter) {t : Ty}, p.type? = some t → t.isProper = true
  | ⟨typeText, []⟩, t, h => by
    obtain ⟨written, hparse, hresolve⟩ := type?_leaf h
    exact TypeText.isProper_of_resolve? (TypeText.written_of_parse hparse).isPlaced hresolve
  | ⟨typeText, part :: parts⟩, t, h => by
    obtain ⟨written, first, others, hparse, hfirst, hothers, rfl⟩ := type?_tuple h
    refine isProper_foldl_listOf ?_
      (TypeText.lengths_of_isPlaced (TypeText.written_of_parse hparse).isPlaced)
    simp [Ty.isProper, Ty.areProper, isProper_of_type? part hfirst, areProper_of_types? parts hothers]

theorem areProper_of_types? : ∀ (ps : List Parameter) {ts : List Ty}, types? ps = some ts →
    Ty.areProper ts = true
  | [], _, h => by
    cases h
    simp [Ty.areProper]
  | p :: ps, _, h => by
    obtain ⟨first, others, hfirst, hothers, rfl⟩ := types?_cons h
    simp [Ty.areProper, isProper_of_type? p hfirst, areProper_of_types? ps hothers]

end

end Parameter

end LedgerGateway.Abi

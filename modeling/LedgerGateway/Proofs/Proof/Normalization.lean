import LedgerGateway.Proofs.Except
import LedgerGateway.Proofs.Proof.Gas

/-!
# Normalised receipts

`normalize_faithful` says what normalising does to a receipt: it may be done again, it touches
nothing but the gas, it keeps the number that `gasUsed` stands for, and the encoding does not see it.
It fails on a `gasUsed` without mark that stands for no number of 256 bits. Underscores do not count
in such a text, so that underscores alone stand for zero (`normalize_underscores`).
-/

namespace LedgerGateway

open Text

/-! ## Decimal gas -/

/-- The text is a decimal number. Underscores beside its digits do not count. -/
structure WritesDecimal (s : String) (n : Nat) : Prop where
  digit : ∃ c ∈ s.toList, c ≠ '_'
  value : numeral? 10 s = some n

/-- The number that a text of gas without a mark stands for. -/
inductive DecimalGas (text : String) : Nat → Prop where
  | blank (h : isAllBlank text = true) : DecimalGas text 0
  /-- Nothing but underscores. -/
  | underscores (some : isAllBlank text = false) (only : ∀ c ∈ (trim text).toList, c = '_') :
      DecimalGas text 0
  | number {n : Nat} (h : WritesDecimal (trim text) n) : DecimalGas text n

theorem numeral?_of_underscores {s : String} (h : ∀ c ∈ s.toList, c = '_') (radix : Nat) :
    numeral? radix s = some 0 := by
  have hnone : s.toList.filter (· != '_') = [] :=
    List.filter_eq_nil_iff.mpr fun c hc => by simp [h c hc]
  rw [numeral?, digitsOf?, hnone]
  rfl

theorem decimalGas_iff {text : String} {n : Nat} :
    DecimalGas text n ↔ numeral? 10 (trim text) = some n := by
  constructor
  · intro h
    cases h with
    | blank h => rw [trim_eq_empty_iff.mpr h, numeral?_empty]
    | underscores _ only => exact numeral?_of_underscores only 10
    | number h => exact h.value
  · intro h
    by_cases hall : isAllBlank text = true
    · rw [trim_eq_empty_iff.mpr hall, numeral?_empty] at h
      cases h
      exact .blank hall
    · by_cases hlow : ∀ c ∈ (trim text).toList, c = '_'
      · rw [numeral?_of_underscores hlow] at h
        cases h
        exact .underscores (by simpa using hall) hlow
      · push Not at hlow
        exact .number ⟨hlow, h⟩

namespace ReceiptEncoding

/-! ## Normalising twice -/

theorem isMarked_append (s : String) : isMarked ("0x" ++ s) = true := by
  simp [isMarked]

theorem isMarked_trim_hexadecimal (n : Nat) : isMarked (trim ("0x" ++ hexadecimal n)) = true := by
  rw [trim_eq_self_of_forall (isBlank_of_mem_hexadecimal n), isMarked_append]

theorem normalizeGasUsed_again {text normal : String} (h : normalizeGasUsed text = .ok normal) :
    normalizeGasUsed normal = .ok normal := by
  rcases normalizeGasUsed_eq_ok.mp h with ⟨hmark, rfl⟩ | ⟨-, v, -, rfl⟩
  · exact h
  · exact normalizeGasUsed_eq_ok.mpr (.inl ⟨isMarked_trim_hexadecimal v.toNat, rfl⟩)

theorem normalizeRemainGas_again (text : String) :
    normalizeRemainGas (normalizeRemainGas text) = normalizeRemainGas text := by
  by_cases hmark : isMarked text = true
  · simp only [normalizeRemainGas, if_pos hmark]
  · simp only [normalizeRemainGas, if_neg hmark, if_pos (isMarked_append text)]

theorem normalize_eq_ok {r n : Receipt} :
    normalize r = .ok n ↔ ∃ gasUsed, normalizeGasUsed r.gasUsed = .ok gasUsed ∧
      n = { r with gasUsed, remainGas := r.remainGas.map normalizeRemainGas } := by
  rw [normalize, except_bind_eq_ok]
  simp only [pure, Except.pure, Except.ok.injEq, eq_comm]

theorem normalize_eq_error {r : Receipt} {e : ProofError} :
    normalize r = .error e ↔ normalizeGasUsed r.gasUsed = .error e := by
  rw [normalize, except_bind_eq_error]
  simp [pure, Except.pure]

theorem normalize_again {r n : Receipt} (h : normalize r = .ok n) : normalize n = .ok n := by
  obtain ⟨gasUsed, hgas, rfl⟩ := normalize_eq_ok.mp h
  refine normalize_eq_ok.mpr ⟨gasUsed, normalizeGasUsed_again hgas, ?_⟩
  have hremain : (r.remainGas.map normalizeRemainGas).map normalizeRemainGas =
      r.remainGas.map normalizeRemainGas := by
    rw [Option.map_map]
    exact congrArg (r.remainGas.map ·) (funext normalizeRemainGas_again)
  simp only [hremain]

/-- Every failure names the field and shows its text. -/
theorem normalize_error {r : Receipt} {e : ProofError} (h : normalize r = .error e) :
    ∃ why : Wide.Error,
      e = .invalidField "gasUsed" ("'" ++ trim r.gasUsed ++ "': " ++ why.message) := by
  obtain ⟨-, -, why, -, rfl⟩ := normalizeGasUsed_eq_error.mp (normalize_eq_error.mp h)
  exact ⟨why, rfl⟩

/-! ## What is kept -/

/-- The encoding normalises first, so it sees only what that leaves. -/
theorem encode_eq_of_normalize {r n : Receipt} (h : normalize n = normalize r)
    (e : ReceiptEncoding) : e.encode n = e.encode r := by
  rw [encode, encode, item, item, h]

/-- What is kept when a receipt is normalised. -/
structure Normalizes (r n : Receipt) : Prop where
  /-- Normalising again changes nothing. -/
  again : normalize n = .ok n
  others : n = { r with gasUsed := n.gasUsed, remainGas := n.remainGas }
  marked : isMarked (trim r.gasUsed) = true → n.gasUsed = r.gasUsed
  /-- The new text is the number that the old one stands for. -/
  unmarked : isMarked (trim r.gasUsed) = false →
    ∃ v : Word, quantity "gasUsed" n.gasUsed = .ok v ∧ ∀ m, DecimalGas r.gasUsed m ↔ m = v.toNat
  encoded : ∀ e : ReceiptEncoding, e.encode n = e.encode r

theorem normalizes_of_normalize {r n : Receipt} (h : normalize r = .ok n) : Normalizes r n := by
  obtain ⟨gasUsed, hgas, rfl⟩ := normalize_eq_ok.mp h
  refine ⟨normalize_again h, rfl, ?_, ?_, encode_eq_of_normalize ((normalize_again h).trans h.symm)⟩
  · intro hmark
    rcases normalizeGasUsed_eq_ok.mp hgas with ⟨-, hsame⟩ | ⟨hplain, -⟩
    · exact hsame
    · rw [hmark] at hplain
      cases hplain
  · intro hplain
    rcases normalizeGasUsed_eq_ok.mp hgas with ⟨hmark, -⟩ | ⟨-, v, hv, rfl⟩
    · rw [hplain] at hmark
      cases hmark
    · -- A text writes one number, so whatever it stands for is what was written anew.
      refine ⟨v, quantity_hexadecimal "gasUsed" v, fun m => ?_⟩
      rw [decimalGas_iff, hv, Option.some.injEq, eq_comm]

/-- A text that is read at all writes a number of 256 bits, and one that writes it is read. -/
theorem normalizeGasUsed_fails_iff {text : String} :
    (∃ e, normalizeGasUsed text = .error e) ↔
      isMarked (trim text) = false ∧ ∀ v < Nat.pow 2 256, ¬ DecimalGas text v := by
  have hok : (¬ ∃ e, normalizeGasUsed text = .error e) ↔ ∃ g, normalizeGasUsed text = .ok g := by
    cases normalizeGasUsed text <;> simp
  -- The form of a success tells which number was read. The form of a failure only tells the cause.
  rw [← not_iff_not, hok]
  simp only [normalizeGasUsed_eq_ok, decimalGas_iff]
  constructor
  · rintro ⟨g, ⟨hmark, -⟩ | ⟨-, v, hv, -⟩⟩ ⟨hplain, hnone⟩
    · rw [hmark] at hplain
      cases hplain
    · exact hnone v.toNat v.isLt hv
  · intro h
    by_cases hmark : isMarked (trim text) = true
    · exact ⟨text, .inl ⟨hmark, rfl⟩⟩
    · have hplain : isMarked (trim text) = false := by simpa using hmark
      push Not at h
      obtain ⟨n, hlt, hn⟩ := h hplain
      obtain ⟨v, rfl⟩ := exists_toNat_eq hlt
      exact ⟨_, .inr ⟨hplain, v, hn, rfl⟩⟩

/-- Normalising keeps what a receipt says, and it fails exactly if the gas that was used is neither
marked nor a number of 256 bits. -/
theorem normalize_faithful (r : Receipt) :
    (∀ n, normalize r = .ok n → Normalizes r n) ∧
      ((∃ e, normalize r = .error e) ↔
        isMarked (trim r.gasUsed) = false ∧ ∀ v < Nat.pow 2 256, ¬ DecimalGas r.gasUsed v) := by
  refine ⟨fun n h => normalizes_of_normalize h, ?_⟩
  simp only [normalize_eq_error]
  exact normalizeGasUsed_fails_iff

/-- Blanks and an underscore around a decimal number, and a remainder of gas without a mark. -/
theorem normalize_faithful_underscore :
    let r : Receipt := { gasUsed := " 1_000 ", remainGas := some "ff" }
    let n : Receipt := { gasUsed := "0x3e8", remainGas := some "0xff" }
    normalize r = .ok n ∧ Normalizes r n ∧ quantity "gasUsed" n.gasUsed = .ok 1000 := by
  intro r n
  have hgas : normalizeGasUsed r.gasUsed = .ok n.gasUsed :=
    normalizeGasUsed_eq_ok.mpr (.inr ⟨by decide +kernel, 1000, by decide +kernel, rfl⟩)
  have hremain : r.remainGas.map normalizeRemainGas = n.remainGas := by decide +kernel
  have hnormal : normalize r = .ok n :=
    normalize_eq_ok.mpr ⟨n.gasUsed, hgas, by rw [hremain]⟩
  exact ⟨hnormal, (normalize_faithful r).1 n hnormal, quantity_hexadecimal "gasUsed" 1000⟩

/-- A text of underscores has no digit, and yet it is not refused. -/
theorem normalize_underscores :
    let r : Receipt := { gasUsed := "_" }
    normalize r = .ok { r with gasUsed := "0x0" } ∧
      ¬ ((∃ e, normalize r = .error e) ↔
        isMarked (trim r.gasUsed) = false ∧ isAllBlank r.gasUsed = false ∧
          ∀ v < Nat.pow 2 256, ¬ WritesDecimal (trim r.gasUsed) v) := by
  intro r
  have hmark : isMarked (trim r.gasUsed) = false := by decide +kernel
  have hblank : isAllBlank r.gasUsed = false := by decide +kernel
  have hlow : ∀ c ∈ (trim r.gasUsed).toList, c = '_' := by
    have htrim : (trim r.gasUsed).toList = ['_'] := by decide +kernel
    rw [htrim]
    exact fun c hc => List.mem_singleton.mp hc
  have hgas : normalizeGasUsed r.gasUsed = .ok "0x0" :=
    normalizeGasUsed_eq_ok.mpr (.inr ⟨hmark, 0, numeral?_of_underscores hlow 10, rfl⟩)
  have hnormal : normalize r = .ok { r with gasUsed := "0x0" } :=
    normalize_eq_ok.mpr ⟨"0x0", hgas, rfl⟩
  refine ⟨hnormal, fun hiff => ?_⟩
  have hnone : ∀ v < Nat.pow 2 256, ¬ WritesDecimal (trim r.gasUsed) v := by
    rintro v - ⟨⟨c, hc, hne⟩, -⟩
    exact hne (hlow c hc)
  obtain ⟨e, he⟩ := hiff.mpr ⟨hmark, hblank, hnone⟩
  rw [hnormal] at he
  cases he

end ReceiptEncoding

end LedgerGateway

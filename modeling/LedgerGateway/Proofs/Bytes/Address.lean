import LedgerGateway.Bytes.Sized
import LedgerGateway.Proofs.Abi.Lexis
import LedgerGateway.Proofs.Bytes.Hex
import LedgerGateway.Proofs.Except
import LedgerGateway.Proofs.Text.Utf8

/-!
# Addresses have no blanks

Digits are read from the bytes of a text. A byte that is a digit is a character of its own, so a text
whose bytes are digits has no blanks, and trimming an address changes nothing.
-/

namespace LedgerGateway

namespace Hex

open Text

/-- A character whose bytes are digits is one. -/
theorem isBlank_of_nibble? {c : Char} (h : ∀ b ∈ String.utf8EncodeChar c, (nibble? b).isSome) :
    isBlank c = false := by
  by_cases hascii : c.toNat < 0x80
  · rw [Utf8.utf8EncodeChar_of_lt hascii] at h
    have hdigit := h _ (List.mem_singleton_self _)
    rw [nibble?, Utf8.latin1_ofNat hascii] at hdigit
    rw [← Bool.not_eq_true]
    intro hblank
    rw [digit?_of_isBlank hblank] at hdigit
    cases hdigit
  · obtain ⟨b, hb⟩ := List.exists_mem_of_length_pos (String.length_utf8EncodeChar c ▸ c.utf8Size_pos)
    have hwide := Utf8.toNat_of_mem_utf8EncodeChar (Nat.not_lt.mp hascii) b hb
    have hdigit := h b hb
    have hchar := Utf8.toNat_latin1 b
    rw [nibble?, digit?_of_le (by omega)] at hdigit
    cases hdigit

theorem nibble?_of_readPairs {position : Nat} {text bytes : Bytes}
    (h : readPairs position text = .ok bytes) : ∀ b ∈ text, (nibble? b).isSome := by
  fun_induction readPairs position text generalizing bytes with
  | case1 => simp
  | case2 => cases h
  | case3 => cases h
  | case4 => cases h
  | case5 position a b rest high low hhigh hlow ih =>
    obtain ⟨others, hothers, -⟩ := map_eq_ok.mp h
    simpa [hhigh, hlow] using ih hothers

/-- Only a mark of two characters is stripped. -/
theorem exists_mark (s : String) : ∃ mark : List Char, (∀ c ∈ mark, isBlank c = false) ∧
    s.toList = mark ++ (stripMark s).toList := by
  unfold stripMark
  split
  · rename_i rest hlower
    exact ⟨['0', 'x'], by simp [isBlank], by rw [String.toList_ofList, afterLead?_eq_some.mp hlower]⟩
  · split
    · rename_i rest hupper
      exact ⟨['0', 'X'], by simp [isBlank], by rw [String.toList_ofList, afterLead?_eq_some.mp hupper]⟩
    · exact ⟨[], by simp, rfl⟩

end Hex

/-- A text that is an address has no blanks. -/
theorem Address.trim_eq_self_of_read {s : String} {a : Address} (h : read s = .ok a) :
    Text.trim s = s := by
  have hpairs : ∃ bytes, Hex.readPairs 0 (Text.Utf8.encode (Hex.stripMark s)) = .ok bytes := by
    unfold read at h
    simp only at h
    split at h
    · cases h
    · split at h
      · cases h
      · split at h
        · cases h
        · cases h
        · rename_i bytes hread
          exact ⟨bytes, hread⟩
  obtain ⟨bytes, hread⟩ := hpairs
  obtain ⟨mark, hmark, hs⟩ := Hex.exists_mark s
  refine Text.trim_eq_self_of_forall fun c hc => ?_
  rw [hs] at hc
  rcases List.mem_append.mp hc with hc | hc
  · exact hmark c hc
  · exact Hex.isBlank_of_nibble? fun b hb =>
      Hex.nibble?_of_readPairs hread b (List.mem_flatMap.mpr ⟨c, hc, hb⟩)

end LedgerGateway

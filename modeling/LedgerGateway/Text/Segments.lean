/-!
# Texts cut at separators

`segments` cuts at every separator, so `n` separators give `n + 1` pieces, some of them empty.
-/

namespace LedgerGateway.Text

/-- The pieces of a text between separators. -/
def segments (separates : Char → Bool) : List Char → List (List Char)
  | [] => [[]]
  | c :: cs =>
    if separates c then [] :: segments separates cs
    else match segments separates cs with
      | [] => [[c]]
      | piece :: pieces => (c :: piece) :: pieces

theorem segments_ne_nil (separates : Char → Bool) (cs : List Char) :
    segments separates cs ≠ [] := by
  cases cs with
  | nil => simp [segments]
  | cons c cs =>
    simp only [segments]
    split
    · simp
    · split <;> simp

end LedgerGateway.Text

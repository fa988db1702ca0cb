/-!
# Blank characters

A character is blank when it has the Unicode property `White_Space`. Every reader that forgives
surrounding blanks means this set, which is wider than the blanks of ASCII. `trim` drops the blanks
at both ends of a text and nothing else.
-/

namespace LedgerGateway.Text

/-- The Unicode property `White_Space`, which holds of twenty-five code points. -/
def isBlank (c : Char) : Bool :=
  let n := c.toNat
  (0x09 ≤ n && n ≤ 0x0d) || n == 0x20 || n == 0x85 || n == 0xa0 || n == 0x1680 ||
    (0x2000 ≤ n && n ≤ 0x200a) || n == 0x2028 || n == 0x2029 || n == 0x202f || n == 0x205f ||
    n == 0x3000

/-- The characters without the blanks at the front. -/
def trimStart (cs : List Char) : List Char := cs.dropWhile isBlank

/-- The characters without the blanks at the end. -/
def trimEnd (cs : List Char) : List Char := (cs.reverse.dropWhile isBlank).reverse

/-- The text without the blanks at its two ends. -/
def trim (s : String) : String := String.ofList (trimEnd (trimStart s.toList))

/-- The text is empty or holds only blanks. -/
def isAllBlank (s : String) : Bool := s.toList.all isBlank

/-- What follows `lead` in a text that starts with it. -/
def afterLead? (lead : List Char) (s : List Char) : Option (List Char) :=
  if lead.isPrefixOf s then some (s.drop lead.length) else none

theorem afterLead?_append (lead s : List Char) : afterLead? lead (lead ++ s) = some s := by
  simp [afterLead?]

@[simp] theorem trim_empty : trim "" = "" := rfl

end LedgerGateway.Text

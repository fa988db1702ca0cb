/-!
# Placeholders

A placeholder is a name between `${` and `}`. The names are found in the text as it was given; then
each placeholder is replaced wherever it stands, one name after the other, in the text as it is by
then.
-/

namespace LedgerGateway.Placeholder

/-- Where variables have their values. -/
abbrev Environment := String → Option String

def ofName (name : List Char) : List Char := ['$', '\x7b'] ++ name ++ ['\x7d']

/-- The name at the front of a text behind an opening brace: at least one character, and a closing
brace behind it. -/
def nameAt? (rest : List Char) : Option (List Char) :=
  let name := rest.takeWhile (· != '\x7d')
  if name.isEmpty || name.length = rest.length then none else some name

/-- The names in a text, of which the first `skip` characters belong to a placeholder already
found. -/
def namesFrom : Nat → List Char → List (List Char)
  | _, [] => []
  | skip + 1, _ :: cs => namesFrom skip cs
  | 0, c :: cs =>
    match c, cs with
    | '$', '\x7b' :: rest =>
      match nameAt? rest with
      | some name => name :: namesFrom (name.length + 2) cs
      | none => namesFrom 0 cs
    | _, _ => namesFrom 0 cs

/-- The names in a text, in order. -/
def names (cs : List Char) : List (List Char) := namesFrom 0 cs

/-- A text with every occurrence of a pattern replaced, when its first `skip` characters belong to an
occurrence already replaced. -/
def replaceFrom (pattern value : List Char) : Nat → List Char → List Char
  | _, [] => []
  | skip + 1, _ :: cs => replaceFrom pattern value skip cs
  | 0, c :: cs =>
    if pattern.isPrefixOf (c :: cs) then value ++ replaceFrom pattern value (pattern.length - 1) cs
    else c :: replaceFrom pattern value 0 cs

/-- A text with every occurrence of a pattern replaced. -/
def replaceAll (pattern value cs : List Char) : List Char := replaceFrom pattern value 0 cs

/-- Replaces the placeholders of names by their values, or tells the first name without one. -/
def fill (env : Environment) : List (List Char) → List Char → Except String (List Char)
  | [], cs => .ok cs
  | name :: rest, cs =>
    match env (String.ofList name) with
    | some value => fill env rest (replaceAll (ofName name) value.toList cs)
    | none => .error (String.ofList name)

/-- A text with its placeholders replaced, or the first name without a value. -/
def substitute (env : Environment) (s : String) : Except String String :=
  (fill env (names s.toList) s.toList).map String.ofList

end LedgerGateway.Placeholder

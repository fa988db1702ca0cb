import LedgerGateway.Text.Blank
import LedgerGateway.Toml.Word
import LedgerGateway.Toml.Quoted

/-!
# Reading configuration texts

A text is a sequence of lines. A line opens a table, adds a table to a list, gives a key a value, or
holds nothing; a comment may end it. Values between brackets and braces may go over lines.
-/

namespace LedgerGateway.Toml

/-! ## Between the values -/

/-- The characters behind spaces and tabs. -/
def skipSpaces (cs : List Char) : List Char := cs.dropWhile isSpace

/-- The characters behind a comment, if there is one; it may hold plain characters only. -/
def skipComment (cs : List Char) : Option (List Char) :=
  match cs with
  | '#' :: rest => match rest.dropWhile isPlain with
    | [] => some []
    | '\n' :: rest => some ('\n' :: rest)
    | '\r' :: '\n' :: rest => some ('\r' :: '\n' :: rest)
    | _ => none
  | cs => some cs

/-- The characters behind blanks, comments and line ends; `fuel` bounds the number of lines. -/
def skipLines : Nat → List Char → Option (List Char)
  | 0, _ => none
  | fuel + 1, cs => do
    match ← skipComment (skipSpaces cs) with
    | '\n' :: rest | '\r' :: '\n' :: rest => skipLines fuel rest
    | cs => pure cs

/-- The characters behind the rest of a line that holds nothing more. -/
def endLine (cs : List Char) : Option (List Char) := do
  match ← skipComment (skipSpaces cs) with
  | [] => pure []
  | '\n' :: rest | '\r' :: '\n' :: rest => pure rest
  | _ => none

/-! ## Keys -/

/-- A character of a key without quotes. -/
def isBare (c : Char) : Bool := c.isAlphanum || c == '_' || c == '-'

/-- A key without dots. -/
def readKey (cs : List Char) : Option (String × List Char) :=
  match cs with
  | '"' :: rest => (readEscaped false false rest).map fun (s, rest) => (String.ofList s, rest)
  | '\'' :: rest => (readVerbatim false rest).map fun (s, rest) => (String.ofList s, rest)
  | cs =>
    let key := cs.takeWhile isBare
    if key.isEmpty then none else some (String.ofList key, cs.dropWhile isBare)

/-- How many parts a key may have. -/
def partLimit : Nat := 80

/-- A key with dots that has at most so many parts: the way and the last part. -/
def readDotted : Nat → List Char → Option ((List String × String) × List Char)
  | 0, _ => none
  | parts + 1, cs => do
    let (key, rest) ← readKey (skipSpaces cs)
    match skipSpaces rest with
    | '.' :: rest => do
      let ((path, last), rest) ← readDotted parts rest
      pure ((key :: path, last), rest)
    | rest => pure (([], key), rest)

/-! ## Values -/

/-- How deeply brackets and braces may be nested. -/
def nestingLimit : Nat := 80

mutual

/-- A value, in which brackets and braces may be opened `depth` more times. -/
def readValue : Nat → Nat → List Char → Option (Value × List Char)
  | 0, _, _ => none
  | fuel + 1, depth, cs =>
    match cs with
    | '[' :: rest => match depth with
      | 0 => none
      | depth + 1 => (readItems fuel depth [] rest).map fun (items, rest) => (.list false items, rest)
    | '\x7b' :: rest => match depth with
      | 0 => none
      | depth + 1 =>
        (readMembers fuel depth [] rest).map fun (members, rest) => (.table .closed members, rest)
    | '"' :: _ | '\'' :: _ =>
      (readString cs).map fun (s, rest) => (.text (String.ofList s), rest)
    | cs => readWord cs

/-- The items of a list up to the closing bracket, behind those already read. -/
def readItems : Nat → Nat → List Value → List Char → Option (List Value × List Char)
  | 0, _, _, _ => none
  | fuel + 1, depth, read, cs => do
    match ← skipLines (cs.length + 1) cs with
    | ']' :: rest => pure (read, rest)
    | cs => do
      let (item, rest) ← readValue fuel depth cs
      match ← skipLines (rest.length + 1) rest with
      | ',' :: rest => readItems fuel depth (read ++ [item]) rest
      | ']' :: rest => pure (read ++ [item], rest)
      | _ => none

/-- The members of a table up to the closing brace, behind those already read. -/
def readMembers : Nat → Nat → Members → List Char → Option (Members × List Char)
  | 0, _, _, _ => none
  | fuel + 1, depth, read, cs => do
    match ← skipLines (cs.length + 1) cs with
    | '\x7d' :: rest => pure (read, rest)
    | cs => do
      let ((path, key), rest) ← readDotted partLimit cs
      let (v, rest) ← match ← skipLines (rest.length + 1) rest with
        | '=' :: rest => do readValue fuel depth (← skipLines (rest.length + 1) rest)
        | _ => none
      let read ← insert path key v .stated read
      match ← skipLines (rest.length + 1) rest with
      | ',' :: rest => readMembers fuel depth read rest
      | '\x7d' :: rest => pure (read, rest)
      | _ => none

end

/-! ## Documents -/

/-- What was read so far. -/
structure Document where
  /-- The table of the whole text. -/
  root : Members := []
  /-- The way to the table that was opened last. -/
  opened : List String := []

/-- A header behind its opening brackets, of which it closes as many. -/
def readHeader (brackets : List Char) (cs : List Char) :
    Option ((List String × String) × List Char) := do
  let (key, rest) ← readDotted partLimit cs
  pure (key, ← endLine (← Text.afterLead? brackets rest))

def readAssignment (cs : List Char) : Option ((List String × String) × Value × List Char) := do
  let (key, rest) ← readDotted partLimit cs
  match rest with
  | '=' :: rest => do
    let (v, rest) ← readValue (2 * rest.length + 2) nestingLimit (skipSpaces rest)
    pure (key, v, ← endLine rest)
  | _ => none

/-- Reads the lines of a text; `fuel` bounds their number. -/
def readLines : Nat → Document → List Char → Option Document
  | 0, _, _ => none
  | fuel + 1, d, cs => do
    match ← skipLines (cs.length + 1) cs with
    | [] => pure d
    | '[' :: '[' :: rest => do
      let ((path, key), rest) ← readHeader [']', ']'] rest
      let root ← openItem path key d.root
      readLines fuel ⟨root, path ++ [key]⟩ rest
    | '[' :: rest => do
      let ((path, key), rest) ← readHeader [']'] rest
      let root ← openTable path key d.root
      readLines fuel ⟨root, path ++ [key]⟩ rest
    | cs => do
      let ((path, key), v, rest) ← readAssignment cs
      let root ← insertIn d.opened path key v d.root
      readLines fuel { d with root } rest

/-- The table of a whole text, behind a byte order mark if there is one. -/
def parse? (s : String) : Option Value :=
  let cs := match s.toList with
    | '\uFEFF' :: rest => rest
    | cs => cs
  (readLines (cs.length + 1) {} cs).map fun d => .table .stated d.root

end LedgerGateway.Toml

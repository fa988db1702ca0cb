import LedgerGateway.Json.Basic

/-!
# Tables

A configuration text is a table of named values, some of them tables again. A table may be written in
several pieces, and which pieces go together depends on how it came to be: that is what a table
remembers beside its members.
-/

namespace LedgerGateway.Toml

/-- How a table came to be. -/
inductive Origin where
  /-- A header names a table inside it. -/
  | implied
  /-- A dotted key leads through it. -/
  | dotted
  /-- It has a header of its own. -/
  | stated
  /-- It was written between braces and takes no more members. -/
  | closed
  deriving DecidableEq, Repr

inductive Value where
  | text (s : String)
  | bool (b : Bool)
  | number (n : Json.Numeral)
  /-- An infinite number, no number, or a moment, as it is written. -/
  | word (s : String)
  /-- A number that no reader takes. -/
  | unreadable
  /-- A list. One that was written by headers can grow. -/
  | list (grows : Bool) (items : List Value)
  | table (origin : Origin) (members : List (String × Value))

/-- The members of a table. -/
abbrev Members := List (String × Value)

def find? (key : String) (members : Members) : Option Value :=
  (members.find? (·.1 == key)).map (·.2)

/-- The members with another value for a key that they have. -/
def replace (key : String) (v : Value) (members : Members) : Members :=
  members.map fun m => if m.1 == key then (key, v) else m

/-- Changes the members of the table at the end of a path, for which it is told how that table came
to be. Tables that are missing on the way are made with the given origin. A dotted key does not lead
through a table that has a header; nothing leads into a table between braces. -/
def descend (made : Origin) (change : Origin → Members → Option Members) :
    List String → Origin → Members → Option Members
  | [], origin, members => change origin members
  | key :: path, _, members =>
    match find? key members with
    | none => do
      let inner ← descend made change path made []
      pure (members ++ [(key, .table made inner)])
    | some (.table origin inner) =>
      if origin == .closed || (made == .dotted && origin == .stated) then none
      else do
        let inner ← descend made change path origin inner
        pure (replace key (.table origin inner) members)
    | some (.list true items) =>
      match items.getLast? with
      | some (.table origin inner) => do
        let inner ← descend made change path origin inner
        pure (replace key (.list true (items.dropLast ++ [.table origin inner])) members)
      | _ => none
    | some _ => none

/-- Adds a value under a dotted key. The tables that the key leads through may have been made by other
dotted keys only. -/
def insert (path : List String) (key : String) (v : Value) (origin : Origin) (members : Members) :
    Option Members :=
  descend .dotted (fun origin members =>
    if (origin == .dotted) == path.isEmpty || (find? key members).isSome then none
    else some (members ++ [(key, v)])) path origin members

/-- Opens the table that a header names. -/
def openTable (path : List String) (key : String) (members : Members) : Option Members :=
  descend .implied (fun _ members =>
    match find? key members with
    | none => some (members ++ [(key, .table .stated [])])
    | some (.table .implied inner) => some (replace key (.table .stated inner) members)
    | some _ => none) path .stated members

/-- Adds a table to the list that a header names. -/
def openItem (path : List String) (key : String) (members : Members) : Option Members :=
  descend .implied (fun _ members =>
    match find? key members with
    | none => some (members ++ [(key, .list true [.table .stated []])])
    | some (.list true items) =>
      some (replace key (.list true (items ++ [.table .stated []])) members)
    | some _ => none) path .stated members

/-- Adds a value in the table that was opened last. -/
def insertIn (opened path : List String) (key : String) (v : Value) (members : Members) :
    Option Members :=
  descend .implied (insert path key v) opened .stated members

namespace Value

mutual

/-- The value as a record reader takes it. What JSON has no word for becomes a record of its own, and
what no reader takes a string that spells no text. -/
def node : Value → Json.Node
  | text s => .text (some s)
  | bool b => .bool b
  | number n => .number n
  | word s => .object [(some "word", .text (some s))]
  | unreadable => .text none
  | list _ items => .array (itemNodes items)
  | table _ members => .object (memberNodes members)

/-- The items of a list as a record reader takes them. -/
def itemNodes : List Value → List Json.Node
  | [] => []
  | item :: rest => item.node :: itemNodes rest

/-- The members of a table as a record reader takes them. -/
def memberNodes : List (String × Value) → List (Option String × Json.Node)
  | [] => []
  | (key, value) :: rest => (some key, value.node) :: memberNodes rest

end

end Value

end LedgerGateway.Toml

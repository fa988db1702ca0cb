import LedgerGateway.Json.Reader

/-!
# Values out of JSON

A decoder takes a node to a value of a type or says what is wrong with its shape. Records come as
objects, or as lists of their fields in order. An object may hold members that the record does not
know; a member that it knows may stand there once only, under whichever of its names.
-/

namespace LedgerGateway.Json

/-- What is wrong with a node. -/
inductive ShapeError where
  /-- The node is of another kind. -/
  | unexpected (wanted : String)
  | missing (field : String)
  /-- A field is given more than once. -/
  | repeated (field : String)
  /-- There are more items than fields. -/
  | surplus
  /-- A value that is kept is nested too deeply. -/
  | tooDeep
  /-- The text of a field is refused. -/
  | refused (reason : String)
  deriving DecidableEq, Repr

/-- The wording of a refused shape. -/
def ShapeError.message : ShapeError → String
  | .unexpected wanted => "expected " ++ wanted
  | .missing field => "missing field " ++ field
  | .repeated field => "repeated field " ++ field
  | .surplus => "more items than fields"
  | .tooDeep => "nested too deeply"
  | .refused reason => reason

/-- A function from nodes to the values of a type. -/
abbrev Decoder (α : Type) := Node → Except ShapeError α

/-! ## Plain values -/

def asText : Decoder String
  | .text (some s) => .ok s
  | _ => .error (.unexpected "a string")

/-- A truth value. -/
def asBool : Decoder Bool
  | .bool b => .ok b
  | _ => .error (.unexpected "true or false")

/-- A natural number of 64 bits. -/
def asUInt64 : Decoder UInt64
  | .number n => match n.natural? with
    | some v => .ok v
    | none => .error (.unexpected "a number from 0 to 2^64 - 1")
  | _ => .error (.unexpected "a number")

def asByte : Decoder UInt8
  | .number n => match n.natural? with
    | some v => if v < 256 then .ok v.toUInt8 else .error (.unexpected "a number from 0 to 255")
    | none => .error (.unexpected "a number from 0 to 255")
  | _ => .error (.unexpected "a number")

/-- An integer of 32 bits. -/
def asInt32 : Decoder Int32
  | .number n => match n.integer? with
    | some i =>
      if Int32.minValue.toInt ≤ i && i ≤ Int32.maxValue.toInt then .ok (Int32.ofInt i)
      else .error (.unexpected "a number of 32 bits")
    | none => .error (.unexpected "a number of 32 bits")
  | _ => .error (.unexpected "a number")

def each {α : Type} (decode : Decoder α) : List Node → Except ShapeError (List α)
  | [] => .ok []
  | node :: rest => do
    let a ← decode node
    let as ← each decode rest
    pure (a :: as)

def asList {α : Type} (decode : Decoder α) : Decoder (List α)
  | .array items => each decode items
  | _ => .error (.unexpected "a list")

def asByteList : Decoder Bytes := asList asByte

/-- A value or `null`. -/
def asOption {α : Type} (decode : Decoder α) : Decoder (Option α)
  | .null => .ok none
  | node => (decode node).map some

/-- One of a set of names, as a string or as the key of the only member of an object, whose value
is `null`. -/
def asName {α : Type} (ofName? : String → Option α) : Decoder α
  | .text (some s) | .object [(some s, .null)] =>
    match ofName? s with
    | some a => .ok a
    | none => .error (.refused ("unknown name " ++ s))
  | _ => .error (.unexpected "a name")

/-! ## Values that are kept -/

/-- How deeply a text may nest values that are kept. -/
def depthLimit : Nat := 127

mutual

/-- The value itself, at most `depth` levels deep, with the members in the order of their keys and the
last of those with one key. -/
def keep (depth : Nat) : Node → Except ShapeError Json
  | .null => .ok .null
  | .bool b => .ok (.bool b)
  | .number n => match n.number? with
    | some v => .ok (.number v)
    | none => .error (.refused "number out of range")
  | .text (some s) => .ok (.text s)
  | .text none => .error (.unexpected "a string")
  | .array items => match depth with
    | 0 => .error .tooDeep
    | depth + 1 => (keepItems depth items).map .array
  | .object members => match depth with
    | 0 => .error .tooDeep
    | depth + 1 => (keepMembers depth [] members).map .object

def keepItems (depth : Nat) : List Node → Except ShapeError (List Json)
  | [] => .ok []
  | node :: rest => do
    let j ← keep depth node
    let js ← keepItems depth rest
    pure (j :: js)

/-- The members behind those already kept. -/
def keepMembers (depth : Nat) (kept : List (String × Json)) :
    List (Option String × Node) → Except ShapeError (List (String × Json))
  | [] => .ok kept
  | (none, _) :: _ => .error (.unexpected "a string")
  | (some key, node) :: rest => do
    let j ← keep depth node
    keepMembers depth (insertMember key j kept) rest

end

/-! ## Records -/

/-- What a record has for a field. -/
inductive Slot where
  | given (node : Node)
  /-- Nothing: an object without the field, or a list that ends before it. -/
  | absent

/-- The names of the fields of a record, in order; the first of each is its own, others are read as
well. -/
abbrev Fields := List (List String)

/-- Sorts the members of an object to the fields, in front of which `found` holds what came before. -/
def sortMembers (fields : Fields) (found : List (Nat × Node)) :
    List (Option String × Node) → Except ShapeError (List (Nat × Node))
  | [] => .ok found
  | (none, _) :: _ => .error (.unexpected "a string")
  | (some key, node) :: rest =>
    match fields.findIdx? (·.contains key) with
    | none => sortMembers fields found rest
    | some i =>
      if found.any (·.1 == i) then .error (.repeated key)
      else sortMembers fields ((i, node) :: found) rest

/-- Takes a record apart into what it has for each field, counted from zero. -/
def openRecord (fields : Fields) : Node → Except ShapeError (Nat → Slot)
  | .object members => do
    let found ← sortMembers fields [] members
    pure fun i => match found.find? (·.1 == i) with
      | some (_, node) => .given node
      | none => .absent
  | .array items =>
    if fields.length < items.length then .error .surplus
    else .ok fun i => match items[i]? with
      | some node => .given node
      | none => .absent
  | _ => .error (.unexpected "a record")

namespace Slot

variable {α : Type}

def required (field : String) (decode : Decoder α) : Slot → Except ShapeError α
  | .given node => decode node
  | .absent => .error (.missing field)

/-- A field that has a value of its own where it is not given. -/
def orElse (default : α) (decode : Decoder α) : Slot → Except ShapeError α
  | .given node => decode node
  | .absent => .ok default

end Slot

/-! ## From bytes -/

/-- Why bytes are not the JSON of a value, and where reading stopped. -/
structure ReadError where
  /-- What is wrong; none if the grammar is broken. -/
  shape : Option ShapeError
  line : Nat
  /-- The column, counted from zero. -/
  column : Nat
  deriving DecidableEq, Repr

/-- The wording of a refused text, which ends with the place. -/
def ReadError.message (e : ReadError) : String :=
  let problem := match e.shape with
    | some shape => shape.message
    | none => "broken text"
  problem ++ " at line " ++ Text.decimal e.line ++ " column " ++ Text.decimal e.column

/-- An error behind the given bytes. -/
def ReadError.after (shape : Option ShapeError) (read : Bytes) : ReadError :=
  ⟨shape, read.count 0x0a + 1, (read.reverse.takeWhile (· != 0x0a)).length⟩

/-- Reads a value of a type from bytes that hold its JSON and nothing else. -/
def decodeBytes {α : Type} (decode : Decoder α) (bytes : Bytes) : Except ReadError α :=
  match readNode bytes with
  | .error rest => .error (.after none (bytes.take (bytes.length - rest.length)))
  | .ok node => match decode node with
    | .error e => .error (.after (some e) bytes)
    | .ok a => .ok a

def decodeText {α : Type} (decode : Decoder α) (s : String) : Except ReadError α :=
  decodeBytes decode (Text.Utf8.encode s)

/-- Any value. -/
def asJson : Decoder Json := keep depthLimit

end LedgerGateway.Json

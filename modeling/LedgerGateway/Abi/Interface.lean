import LedgerGateway.Abi.TypeText
import LedgerGateway.Json.Decoder

/-!
# Interfaces of contracts

An interface lists what a contract offers. It arrives as a JSON list of items, each of a kind of its
own. Of functions the parameters count, and of everything else only that it is there. A function is
known by its signature, which repeats the types as the interface writes them.
-/

namespace LedgerGateway.Abi

open Json

/-- A parameter of a function or a part of one. -/
structure Parameter where
  /-- The type as it is written; in front of parts stands a word in their place. -/
  typeText : String
  components : List Parameter := []
  deriving Repr, Inhabited

namespace Parameter

/-- The word that stands in place of parts. -/
def tupleWord : List Char := ['t', 'u', 'p', 'l', 'e']

mutual

def signatureText : Parameter → String
  | ⟨typeText, []⟩ => typeText
  | ⟨typeText, part :: parts⟩ =>
    "(" ++ ",".intercalate (part.signatureText :: signatureTexts parts) ++ ")" ++
      ((Text.afterLead? tupleWord typeText.toList).elim "" String.ofList)

def signatureTexts : List Parameter → List String
  | [] => []
  | p :: rest => p.signatureText :: signatureTexts rest

end

mutual

/-- The type that is meant, if all its names are known. -/
def type? : Parameter → Option Ty
  | ⟨typeText, []⟩ => do (← TypeText.parse typeText).resolve?
  | ⟨typeText, part :: parts⟩ => do
    let lengths := (← TypeText.parse typeText).lengths
    let t ← part.type?
    let ts ← types? parts
    pure (lengths.foldl TypeText.listOf (.tuple (t :: ts)))

def types? : List Parameter → Option (List Ty)
  | [] => some []
  | p :: rest => do
    let t ← p.type?
    let ts ← types? rest
    pure (t :: ts)

end

/-- A parameter of an elementary type, or what is written like one, if the grammar takes it. -/
def ofText? (typeText : String) : Option Parameter :=
  (TypeText.parse typeText).map fun _ => ⟨typeText, []⟩

/-- The parameter with the fields that were read, if they agree. -/
def checked (name typeText : String) (components : List Parameter) : Except ShapeError Parameter :=
  if name ≠ "" && !isIdentifier name then .error (.refused "a name that is no identifier")
  else match components with
    | [] => match ofText? typeText with
      | some p => .ok p
      | none => .error (.refused "a type that is none")
    | components =>
      if tupleWord.isPrefixOf typeText.toList then .ok ⟨typeText, components⟩
      else .error (.refused "parts of something that is no tuple")

/-- Reads a parameter that is nested at most `depth` levels deep. Only those of an event may say
whether they are indexed. -/
def decoder (ofEvent : Bool) : Nat → Decoder Parameter
  | 0 => fun _ => .error .tooDeep
  | depth + 1 => fun node => do
    let slot ← openRecord [["name"], ["type"], ["indexed"], ["internalType"], ["components"]] node
    let name ← (slot 0).orElse "" asText
    let typeText ← (slot 1).required "type" asText
    let indexed ← (slot 2).orElse none (asOption asBool)
    let _ ← (slot 3).orElse none (asOption asText)
    let components ← (slot 4).orElse [] (match depth with
      | 0 => fun _ => .error .tooDeep
      | depth + 1 => asList (decoder false depth))
    if indexed.isSome && !ofEvent then .error (.refused "a parameter that is no part of an event")
    else checked name typeText components

end Parameter

/-- A function of a contract. -/
structure Function where
  name : String
  inputs : List Parameter
  outputs : List Parameter
  deriving Repr, Inhabited

/-- The name with the types of the inputs. -/
def Function.signature (f : Function) : String :=
  f.name ++ "(" ++ ",".intercalate (Parameter.signatureTexts f.inputs) ++ ")"

/-- What a contract offers. -/
structure Interface where
  /-- The functions in the order of their names, those of one name as they are written. -/
  functions : List Function := []
  constructor? : Option (List Parameter) := none
  eventCount : Nat := 0
  errorCount : Nat := 0
  /-- Calls of other functions are taken. -/
  hasFallback : Bool := false
  /-- Plain transfers are taken. -/
  hasReceive : Bool := false
  deriving Repr, Inhabited

namespace Interface

def overloads (i : Interface) (name : String) : List Function := i.functions.filter (·.name == name)

/-- The functions with one more behind those whose names are not greater. -/
def insertFunction (f : Function) : List Function → List Function
  | [] => [f]
  | g :: rest => if f.name < g.name then f :: g :: rest else g :: insertFunction f rest

/-! ## Items -/

/-- One entry of an interface. -/
inductive Item where
  | function (f : Function)
  | constructor (inputs : List Parameter)
  | event
  | error
  | fallback
  /-- The function for plain transfers. -/
  | receive

/-- The interface with one more item. The constructor and the two functions without a name can stand
there once. -/
def add (i : Interface) : Item → Except ShapeError Interface
  | .function f => .ok { i with functions := insertFunction f i.functions }
  | .event => .ok { i with eventCount := i.eventCount + 1 }
  | .error => .ok { i with errorCount := i.errorCount + 1 }
  | .constructor inputs =>
    if i.constructor?.isSome then .error (.repeated "constructor")
    else .ok { i with constructor? := some inputs }
  | .fallback =>
    if i.hasFallback then .error (.repeated "fallback") else .ok { i with hasFallback := true }
  | .receive =>
    if i.hasReceive then .error (.repeated "receive") else .ok { i with hasReceive := true }

/-- Reads the name of a function, an event or an error. -/
def identifierDecoder : Decoder String := fun node => do
  let name ← asText node
  if isIdentifier name then .ok name else .error (.refused "a name that is no identifier")

def parametersDecoder (ofEvent : Bool) : Decoder (List Parameter) :=
  asList (Parameter.decoder ofEvent depthLimit)

/-- Reads how a function treats the state: a name, which may also be the key of the only member of an
object, over `null` or over an object without members. -/
def mutabilityDecoder : Decoder Unit := fun node =>
  let decode := asName fun name =>
    if ["pure", "view", "nonpayable", "payable"].contains name then some () else none
  match node with
  | .object [(key, .object [])] => decode (.text key)
  | node => decode node

/-- The fields that say how a function treats the state, from the place `first` on. The two older ones
count where the newer is missing, and then exclude each other. -/
def checkMutability (slot : Nat → Slot) (first : Nat) : Except ShapeError Unit := do
  let mutability ← (slot first).orElse none (asOption mutabilityDecoder)
  let payable ← (slot (first + 1)).orElse none (asOption asBool)
  let constant ← (slot (first + 2)).orElse none (asOption asBool)
  if mutability.isNone && payable.getD false && constant.getD false then
    .error (.refused "a function that is both payable and constant")
  else .ok ()

def mutabilityFields : Fields := [["stateMutability"], ["payable"], ["constant"]]

/-- Reads a record that comes as an object only. -/
def openObject (fields : Fields) : Node → Except ShapeError (Nat → Slot)
  | .object members => openRecord fields (.object members)
  | _ => .error (.unexpected "an object")

/-- The kind of an item, which an object has under its key and a list in front. -/
def kindOf (node : Node) : Except ShapeError String :=
  match node with
  | .array [] => .error (.missing "type")
  | .array (kind :: _) => asText kind
  | node => do
    let slot ← openRecord [["type"]] node
    (slot 0).required "type" asText

def itemDecoder : Decoder Item := fun node => do
  match ← kindOf node with
  | "function" => do
    let slot ← openObject ([["name"], ["inputs"], ["outputs"]] ++ mutabilityFields) node
    let name ← (slot 0).required "name" identifierDecoder
    let inputs ← (slot 1).required "inputs" (parametersDecoder false)
    let outputs ← (slot 2).required "outputs" (parametersDecoder false)
    checkMutability slot 3
    pure (.function ⟨name, inputs, outputs⟩)
  | "constructor" => do
    let slot ← openObject (["inputs"] :: mutabilityFields) node
    let inputs ← (slot 0).required "inputs" (parametersDecoder false)
    checkMutability slot 1
    pure (.constructor inputs)
  | "fallback" => do
    checkMutability (← openObject mutabilityFields node) 0
    pure .fallback
  | "receive" => do
    checkMutability (← openObject mutabilityFields node) 0
    pure .receive
  | "event" => do
    let slot ← openRecord [["type"], ["name"], ["inputs"], ["anonymous"]] node
    let _ ← (slot 1).required "name" identifierDecoder
    let _ ← (slot 2).required "inputs" (parametersDecoder true)
    let _ ← (slot 3).required "anonymous" asBool
    pure .event
  | "error" => do
    let slot ← openRecord [["type"], ["name"], ["inputs"]] node
    let _ ← (slot 1).required "name" identifierDecoder
    let _ ← (slot 2).required "inputs" (parametersDecoder false)
    pure .error
  | kind => .error (.refused ("unknown kind " ++ kind))

/-- Adds each item to an interface. Items are kept whole before they are looked at. -/
def addAll (i : Interface) : List Node → Except ShapeError Interface
  | [] => .ok i
  | node :: rest => do
    let _ ← keep (depthLimit - 1) node
    addAll (← i.add (← itemDecoder node)) rest

def decoder : Decoder Interface
  | .array items => addAll {} items
  | _ => .error (.unexpected "a list")

def parse (s : String) : Except ReadError Interface := decodeText decoder s

end Interface

end LedgerGateway.Abi

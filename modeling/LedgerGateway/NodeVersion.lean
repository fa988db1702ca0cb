import LedgerGateway.Text.Blank
import LedgerGateway.Text.Numeral
import LedgerGateway.Text.Segments

/-!
# Node versions

A node reports a version such as `v3.2.0` or `2.9.0-rc1`. What counts are two or three numbers with
dots between them, behind any number of letters `v` and before the first dash, plus sign or blank.
Two features hang on it: whether the node proves what it reports, and whether its receipts carry the
gas that remains.
-/

namespace LedgerGateway

structure NodeVersion where
  major : UInt32
  minor : UInt32
  patch : UInt32
  deriving DecidableEq, Repr

namespace NodeVersion

/-- The numbers of a version. -/
inductive Part where
  | major
  | minor
  /-- The third, which may be missing. -/
  | patch
  deriving DecidableEq, Repr

def Part.name : Part → String
  | .major => "major"
  | .minor => "minor"
  | .patch => "patch"

/-- Why a text is no version. -/
inductive Error where
  /-- A part is no number of 32 bits. -/
  | invalid (part : Part) (text : String) (reason : Text.NumeralError)
  | missing (part : Part) (text : String)
  deriving DecidableEq, Repr

/-- The wording of a refused version. -/
def Error.message : Error → String
  | .invalid part text reason =>
    "Invalid " ++ part.name ++ " version in '" ++ text ++ "': " ++ reason.message
  | .missing part text => "Missing " ++ part.name ++ " version in '" ++ text ++ "'"

/-- The characters at which the numbers of a version end. -/
def endsNumbers (c : Char) : Bool := c == '-' || c == '+' || Text.isBlank c

/-- The part of a text that holds the numbers. -/
def core (s : String) : List Char :=
  ((Text.trim s).toList.dropWhile fun c => c == 'v' || c == 'V').takeWhile fun c => !endsNumbers c

/-- One number of a version. -/
def readPart (text : String) (part : Part) (digits : List Char) : Except Error UInt32 :=
  match Text.readUInt32 (String.ofList digits) with
  | .ok n => .ok n
  | .error reason => .error (.invalid part text reason)

/-- Reads a version. Parts behind the third do not count. -/
def parse (s : String) : Except Error NodeVersion :=
  match Text.segments (· == '.') (core s) with
  | [] => .error (.missing .major s)
  | [first] => do
    let _ ← readPart s .major first
    .error (.missing .minor s)
  | first :: second :: rest => do
    let major ← readPart s .major first
    let minor ← readPart s .minor second
    let patch ← match rest with
      | [] => pure 0
      | third :: _ => readPart s .patch third
    pure ⟨major, minor, patch⟩

def display (v : NodeVersion) : String :=
  Text.decimal v.major.toNat ++ "." ++ Text.decimal v.minor.toNat ++ "." ++ Text.decimal v.patch.toNat

/-- The order of versions: the first number that differs decides. -/
def compare (a b : NodeVersion) : Ordering :=
  (Ord.compare a.major.toNat b.major.toNat).then
    ((Ord.compare a.minor.toNat b.minor.toNat).then (Ord.compare a.patch.toNat b.patch.toNat))

/-- The node returns proofs of transactions and receipts. -/
def supportsProof (v : NodeVersion) : Bool := v.major == 3 && 2 ≤ v.minor

/-- The node's receipts carry the gas that remains. -/
def hasRemainGas (v : NodeVersion) : Bool := 9 ≤ v.minor

/-- A node with the version text can serve proofs. Without a version, or with one that cannot be
read, it is taken to. -/
def textSupportsProof (version : Option String) : Bool :=
  match version.map Text.trim with
  | none => true
  | some "" => true
  | some s => match parse s with
    | .ok v => v.supportsProof
    | .error _ => true

end NodeVersion

end LedgerGateway

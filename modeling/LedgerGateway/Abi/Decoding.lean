import LedgerGateway.Abi.Value

/-!
# Reading encoded values

The reader follows offsets wherever they lead, as long as that is inside the input: parts may overlap,
lie apart or be followed by more, and padding is not looked at. Numbers are taken as whole words and
texts as far as they go. A bound on the depth keeps the work in proportion to the input.
-/

namespace LedgerGateway.Abi

/-- Why an input is refused. -/
inductive DecodingError where
  /-- A value reaches beyond the input. -/
  | overrun
  /-- A length or an offset has more than 64 bits. -/
  | tooLarge
  /-- Values are nested too deeply. -/
  | tooDeep
  deriving DecidableEq, Repr

/-- The wording of a refused input. -/
def DecodingError.message : DecodingError → String
  | .overrun => "ABI decoding failed: the input ends too early"
  | .tooLarge => "ABI decoding failed: a length or an offset is too large"
  | .tooDeep => "ABI decoding failed: the values are nested too deeply"

/-- How deeply values may be nested. -/
def nestingLimit : Nat := 16

/-- What offsets are counted from. -/
structure Frame where
  /-- The input from the point where offsets are zero. -/
  start : Bytes
  /-- How deep the frame lies. -/
  depth : Nat

def Frame.whole (input : Bytes) : Frame := ⟨input, 0⟩

/-- A frame one level deeper that starts at an offset. -/
def Frame.child (frame : Frame) (offset : Nat) : Except DecodingError Frame :=
  if nestingLimit ≤ frame.depth then .error .tooDeep
  else if frame.start.length < offset then .error .overrun
  else .ok ⟨frame.start.drop offset, frame.depth + 1⟩

/-- A frame one level deeper that starts where the rest of the input does. -/
def Frame.inner (frame : Frame) (rest : Bytes) : Except DecodingError Frame :=
  if nestingLimit ≤ frame.depth then .error .tooDeep else .ok ⟨rest, frame.depth + 1⟩

def takeBytes (count : Nat) (rest : Bytes) : Except DecodingError (Bytes × Bytes) :=
  let front := rest.take count
  if front.length < count then .error .overrun else .ok (front, rest.drop count)

def takeWord (rest : Bytes) : Except DecodingError (Bytes × Bytes) := takeBytes 32 rest

/-- The next length or offset and the rest. -/
def takeSize (rest : Bytes) : Except DecodingError (Nat × Bytes) := do
  let (w, rest) ← takeWord rest
  let n := Bytes.toNat w
  if n < UInt64.size then pure (n, rest) else .error .tooLarge

/-- The frame that the next offset leads to, and what follows the offset. -/
def Frame.follow (frame : Frame) (rest : Bytes) : Except DecodingError (Frame × Bytes) := do
  let (offset, rest) ← takeSize rest
  let child ← frame.child offset
  pure (child, rest)

/-- The byte string behind its length at the start of a frame. -/
def Frame.bytes (frame : Frame) : Except DecodingError Bytes := do
  let (length, rest) ← takeSize frame.start
  let (b, _) ← takeBytes length rest
  pure b

/-- As many values as asked for, each read from what the one before it left. -/
def takeMany {α : Type} (step : Bytes → Except DecodingError (α × Bytes)) :
    Nat → Bytes → Except DecodingError (List α × Bytes)
  | 0, rest => .ok ([], rest)
  | count + 1, rest => do
    let (a, rest) ← step rest
    let (as, rest) ← takeMany step count rest
    pure (a :: as, rest)

namespace Ty

mutual

/-- Reads a value of the type from the rest of a frame, and what follows it there. -/
def decode (frame : Frame) : Ty → Bytes → Except DecodingError (Value × Bytes)
  | bool, rest => do
    let (w, rest) ← takeWord rest
    pure (.bool (Bytes.toNat w != 0), rest)
  | int _, rest => do
    let (w, rest) ← takeWord rest
    pure (.int (Word.ofBytes w), rest)
  | uint _, rest => do
    let (w, rest) ← takeWord rest
    pure (.uint (Word.ofBytes w), rest)
  | fixedBytes length, rest => do
    let (w, rest) ← takeWord rest
    pure (.fixedBytes (w.take length), rest)
  | address, rest => do
    let (w, rest) ← takeWord rest
    pure (.address (SizedBytes.ofNat 20 (Bytes.toNat w)), rest)
  | function, rest => do
    let (w, rest) ← takeWord rest
    pure (.function (SizedBytes.ofNat 24 (Bytes.toNat (w.take 24))), rest)
  | bytes, rest => do
    let (child, rest) ← frame.follow rest
    pure (.bytes (← child.bytes), rest)
  | string, rest => do
    let (child, rest) ← frame.follow rest
    pure (.string (Text.Utf8.decodeLossy (← child.bytes)), rest)
  | array item, rest => do
    let (child, rest) ← frame.follow rest
    let (length, body) ← takeSize child.start
    if length = 0 || item.minimumWords = 0 then pure (.array [], rest)
    else if body.length / 32 < item.minimumWords * length then .error .overrun
    else
      let inner ← child.inner body
      let (items, _) ← takeMany (item.decode inner) length body
      pure (.array items, rest)
  | fixedArray item length, rest => do
    if item.isDynamic then
      let (child, rest) ← frame.follow rest
      let (items, _) ← takeMany (item.decode child) length child.start
      pure (.tuple items, rest)
    else
      let child ← frame.inner rest
      let (items, rest) ← takeMany (item.decode child) length rest
      pure (.tuple items, rest)
  | tuple items, rest => do
    if anyDynamic items then
      let (child, rest) ← frame.follow rest
      let (values, _) ← decodeEach child items child.start
      pure (.tuple values, rest)
    else
      let child ← frame.inner rest
      let (values, rest) ← decodeEach child items rest
      pure (.tuple values, rest)

def decodeEach (frame : Frame) : List Ty → Bytes → Except DecodingError (List Value × Bytes)
  | [], rest => .ok ([], rest)
  | item :: items, rest => do
    let (v, rest) ← item.decode frame rest
    let (vs, rest) ← decodeEach frame items rest
    pure (v :: vs, rest)

end

/-- Reads the values that a function is called with, or that it returns. Where all types are hollow
there are none to read. An input that is too short for any values is refused at once, even where
offsets that lead to the same words would let it pass. -/
def decodeAll (types : List Ty) (input : Bytes) : Except DecodingError (List Value) :=
  if allHollow types then .ok []
  else if input.length / 32 < minimumWordsOfAll types then .error .overrun
  else (decodeEach (.whole input) types input).map (·.1)

end Ty

end LedgerGateway.Abi

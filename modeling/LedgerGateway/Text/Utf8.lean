/-!
# UTF-8

Bytes of a text and back. `pieces` cuts any byte string into characters and faults: a fault is the
longest front of a character that breaks off there, so a strict reader can say where and how wide
the first fault is, and a forgiving reader can put one replacement character for each.
-/

namespace LedgerGateway.Text.Utf8

/-- The bytes of a text. -/
def encode (s : String) : List UInt8 := s.toList.flatMap String.utf8EncodeChar

/-- One step of reading a byte string. -/
inductive Piece where
  /-- A well-formed character. -/
  | char (c : Char)
  /-- Bytes, one to three of them, that begin no character as they go on. -/
  | broken (width : Nat)
  /-- The byte string ends inside a character. -/
  | cut
  deriving DecidableEq, Repr

/-- How many bytes a character has that starts with this byte, and the range of its second byte. -/
def lead (a : UInt8) : Option (Nat × UInt8 × UInt8) :=
  if a < 0xc2 then none
  else if a < 0xe0 then some (2, 0x80, 0xbf)
  else if a == 0xe0 then some (3, 0xa0, 0xbf)
  else if a == 0xed then some (3, 0x80, 0x9f)
  else if a < 0xf0 then some (3, 0x80, 0xbf)
  else if a == 0xf0 then some (4, 0x90, 0xbf)
  else if a < 0xf4 then some (4, 0x80, 0xbf)
  else if a == 0xf4 then some (4, 0x80, 0x8f)
  else none

/-- The byte carries six bits of a character begun before it. -/
def isContinuation (b : UInt8) : Bool := 0x80 ≤ b && b ≤ 0xbf

/-- The six bits of a continuation byte. -/
def low6 (b : UInt8) : Nat := b.toNat % 64

/-- The characters and faults of a byte string, in order. -/
def pieces : List UInt8 → List Piece
  | [] => []
  | a :: r₁ =>
    if a < 0x80 then .char (Char.ofNat a.toNat) :: pieces r₁
    else match lead a with
      | none => .broken 1 :: pieces r₁
      | some (width, lo, hi) => match r₁ with
        | [] => [.cut]
        | b :: r₂ =>
          if !(lo ≤ b && b ≤ hi) then .broken 1 :: pieces (b :: r₂)
          else if width == 2 then .char (Char.ofNat (a.toNat % 32 * 64 + low6 b)) :: pieces r₂
          else match r₂ with
            | [] => [.cut]
            | c :: r₃ =>
              if !isContinuation c then .broken 2 :: pieces (c :: r₃)
              else if width == 3 then
                .char (Char.ofNat (a.toNat % 16 * 4096 + low6 b * 64 + low6 c)) :: pieces r₃
              else match r₃ with
                | [] => [.cut]
                | d :: r₄ =>
                  if !isContinuation d then .broken 3 :: pieces (d :: r₄)
                  else .char (Char.ofNat
                    (a.toNat % 8 * 262144 + low6 b * 4096 + low6 c * 64 + low6 d)) :: pieces r₄

/-- Where a byte string stops being UTF-8. -/
inductive Fault where
  /-- `width` bytes at `index` begin no character. -/
  | invalid (width index : Nat)
  /-- The character at `index` is cut off by the end. -/
  | incomplete (index : Nat)
  deriving DecidableEq, Repr

def Fault.message : Fault → String
  | .invalid width index =>
    "invalid utf-8 sequence of " ++ toString width ++ " bytes from index " ++ toString index
  | .incomplete index => "incomplete utf-8 byte sequence from index " ++ toString index

/-- The characters of the pieces, or the first fault, when `index` bytes lie before them. -/
def characters (index : Nat) : List Piece → Except Fault (List Char)
  | [] => .ok []
  | .char c :: ps => (characters (index + c.utf8Size) ps).map (c :: ·)
  | .broken width :: _ => .error (.invalid width index)
  | .cut :: _ => .error (.incomplete index)

/-- The text that the bytes spell, or their first fault. -/
def decode (bytes : List UInt8) : Except Fault String :=
  (characters 0 (pieces bytes)).map String.ofList

/-- The text that the bytes spell, with U+FFFD in place of each fault. -/
def decodeLossy (bytes : List UInt8) : String :=
  String.ofList <| (pieces bytes).map fun
    | .char c => c
    | .broken _ | .cut => '\uFFFD'

/-- The byte as the character of the same number. -/
def latin1 (b : UInt8) : Char := Char.ofNat b.toNat

end LedgerGateway.Text.Utf8

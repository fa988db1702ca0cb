import LedgerGateway.Hash.Blocks

/-!
# SM3

The hash of the national profile: 68 expanded words, 64 rounds, and a state that is combined by
exclusive or.
-/

namespace LedgerGateway.Sm3

/-- The state before the first block. -/
def start : Blocks.State :=
  ⟨0x7380166f, 0x4914b2b9, 0x172442d7, 0xda8a0600, 0xa96f30bc, 0x163138aa, 0xe38dee4d, 0xb0fb0e4e⟩

/-- The first permutation of words, which spreads a state. -/
def p0 (x : UInt32) : UInt32 := x ^^^ Blocks.rotate x 9 ^^^ Blocks.rotate x 17

/-- The second permutation of words, which spreads a schedule. -/
def p1 (x : UInt32) : UInt32 := x ^^^ Blocks.rotate x 15 ^^^ Blocks.rotate x 23

/-- Appends one word to a schedule. -/
def extend (w : Array UInt32) : Array UInt32 :=
  let back (k : Nat) : UInt32 := w.getD (w.size - k) 0
  w.push (p1 (back 16 ^^^ back 9 ^^^ Blocks.rotate (back 3) 15) ^^^ Blocks.rotate (back 13) 7 ^^^
    back 6)

/-- The schedule of a block: its sixteen words and fifty-two more. -/
def schedule (block : List UInt32) : Array UInt32 :=
  (List.range 52).foldl (fun w _ => extend w) block.toArray

/-- One round, given its number and the schedule. -/
def round (w : Array UInt32) (s : Blocks.State) (j : Nat) : Blocks.State :=
  let constant : UInt32 := if j < 16 then 0x79cc4519 else 0x7a879d8a
  let ss1 := Blocks.rotate (Blocks.rotate s.a 12 + s.e + Blocks.rotate constant j) 7
  let ss2 := ss1 ^^^ Blocks.rotate s.a 12
  let ff := if j < 16 then s.a ^^^ s.b ^^^ s.c else (s.a &&& s.b) ||| (s.a &&& s.c) ||| (s.b &&& s.c)
  let gg := if j < 16 then s.e ^^^ s.f ^^^ s.g else (s.e &&& s.f) ||| ((~~~ s.e) &&& s.g)
  let word := w.getD j 0
  let tt1 := ff + s.d + ss2 + (word ^^^ w.getD (j + 4) 0)
  let tt2 := gg + s.h + ss1 + word
  ⟨tt1, s.a, Blocks.rotate s.b 9, s.c, p0 tt2, s.e, Blocks.rotate s.f 19, s.g⟩

def compress (s : Blocks.State) (block : List UInt32) : Blocks.State :=
  let w := schedule block
  s.combine (· ^^^ ·) ((List.range 64).foldl (round w) s)

def hash (bytes : Bytes) : Digest := Blocks.run compress start bytes

end LedgerGateway.Sm3

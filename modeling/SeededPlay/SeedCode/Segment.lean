/-
# `SeededPlay.SeedCode.Segment` — the seed in four symbols

An internal seed is a number below `33 ^ 4`, written with four symbols of an
alphabet that leaves out I, L and O.  Any raw value gives a seed: it is read as a
double, rounded half up, stripped of its sign and reduced into the seed space.
Reading a segment back ignores case; anything malformed reads as zero.
-/
import SeededPlay.Numeric

namespace SeededPlay.SeedCode

/-- The symbols of a segment, by their value. -/
def alphabet : List Char := "0123456789ABCDEFGHJKMNPQRSTUVWXYZ".toList

/-- How many symbols there are. -/
def base : Nat := 33

/-- How many symbols a segment has. -/
def width : Nat := 4

/-- How many seeds there are. -/
def seedSpace : Nat := Nat.pow base width

/-- Half of one. -/
def half : Binary64 := .finite false (Nat.pow 2 1073)

/-- The seed that a double stands for; zero for nan and the infinities. -/
def seedOfReal (x : Binary64) : Nat :=
  (x.add half).floor?.elim 0 fun n => n.natAbs % seedSpace

/-- The seed that a raw value stands for.  What is no number stands for zero; an
integer beyond every double is refused. -/
def normalizeSeed (seed : Datum) : Except Fault Nat :=
  match seed.toReal with
  | .ok x => .ok (seedOfReal x)
  | .error .outOfRange => .error .outOfRange
  | .error _ => .ok 0

/-- The symbol of a digit. -/
def symbol (d : Nat) : Char := alphabet.getD d '0'

/-- The last `n` digits of a number in symbols. -/
def symbols : Nat → Nat → List Char
  | 0, _ => []
  | n + 1, seed => symbols n (seed / base) ++ [symbol (seed % base)]

/-- The segment of a seed. -/
def writeSegment (seed : Nat) : String := String.ofList (symbols width seed)

/-- The number that symbols write, starting from what stands before them; none
when one of them is no symbol. -/
def readSymbols? : Nat → List Char → Option Nat
  | n, [] => some n
  | n, c :: cs => do
    let d ← alphabet.idxOf? c
    readSymbols? (n * base + d) cs

/-- The seed of a segment; zero for anything malformed. -/
def readSegment (segment : String) : Nat :=
  if segment.length = width then (readSymbols? 0 (Text.upperChars segment.toList)).getD 0 else 0

end SeededPlay.SeedCode

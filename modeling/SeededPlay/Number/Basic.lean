/-
# `SeededPlay.Number.Basic` — integers and doubles together

Scores, clocks and effect values are integers as long as nobody brings in a
fraction, and doubles from then on.  Integers have no bound; an integer beyond
the largest double cannot be added to a double.  Comparison of an integer with a
double is exact.
-/
import SeededPlay.Number.Binary64

namespace SeededPlay

/-- An integer or a double. -/
inductive Number where
  | int (n : Int)
  | real (x : Binary64)
deriving DecidableEq, Repr, Inhabited

namespace Number

instance : OfNat Number n := ⟨.int n⟩

/-- The double nearest to a number; none for an integer beyond every double. -/
def toReal? : Number → Option Binary64
  | .int n => Binary64.ofInt? n
  | .real x => some x

/-- Where a number lies on the extended line; nan lies nowhere. -/
def extent? : Number → Option Extent
  | .int n => some (Binary64.extentOfInt n)
  | .real x => x.extent?

def lt (a b : Number) : Bool :=
  match a.extent?, b.extent? with
  | some a, some b => a.lt b
  | _, _ => false

def le (a b : Number) : Bool :=
  match a.extent?, b.extent? with
  | some a, some b => a.le b
  | _, _ => false

/-- Numeric equality: `1` and `1.0` are the same, nan is the same as nothing. -/
def same (a b : Number) : Bool :=
  match a.extent?, b.extent? with
  | some a, some b => a == b
  | _, _ => false

def neg : Number → Number
  | .int n => .int (-n)
  | .real x => .real x.neg

/-- Two numbers combined in their common kind; none when an integer is beyond
every double and the other number is a double. -/
def combine? (onInt : Int → Int → Int) (onReal : Binary64 → Binary64 → Binary64) :
    Number → Number → Option Number
  | .int a, .int b => some (.int (onInt a b))
  | a, b => do return .real (onReal (← a.toReal?) (← b.toReal?))

def add? : Number → Number → Option Number := combine? (· + ·) Binary64.add

def sub? : Number → Number → Option Number := combine? (· - ·) Binary64.sub

/-- False of the integer zero and of the two zeros among the doubles. -/
def isNonzero : Number → Bool
  | .int n => n != 0
  | .real x => !x.isZero

end Number

end SeededPlay

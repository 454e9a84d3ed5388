/-
# `SeededPlay.Number.Binary64` — double precision numbers, exactly

A finite double is a whole number of *units*, the unit being the smallest
positive double, `2 ^ -1074`.  Sums, comparisons and floors of doubles are then
sums, comparisons and floors of integers, and the one place where precision is
lost is `Binary64.ofFraction`: it rounds an exact fraction of units to the
nearest double, 53 significant bits, a tie to the even one.

## What is computed here

* `ofFraction`, `ofInt?` — rounding into the type; an integer beyond the largest
  double has no value,
* `add`, `neg`, `mul`, `div` — exact, then rounded once,
* `floor?`, `roundEven?` — whole numbers out of a double,
* `Extent` — the extended line on which doubles and integers compare exactly.
-/
import SeededPlay.Number.Rounding

namespace SeededPlay

/-- A double: `finite negative units` is `± units · 2 ^ -1074`; zero has a sign. -/
inductive Binary64 where
  | finite (negative : Bool) (units : Nat)
  | infinite (negative : Bool)
  | nan
deriving DecidableEq, Repr, Inhabited

/-- A point of the extended line, finite points counted in units of `2 ^ -1074`. -/
inductive Extent where
  | below
  | point (units : Int)
  | above
deriving DecidableEq, Repr

namespace Extent

/-- Order of the extended line. -/
def le : Extent → Extent → Bool
  | .below, _ => true
  | _, .above => true
  | .point a, .point b => decide (a ≤ b)
  | _, _ => false

/-- Strict order of the extended line. -/
def lt (a b : Extent) : Bool := !le b a

end Extent

namespace Binary64

/-- How many units make one. -/
def unitsPerOne : Nat := Nat.pow 2 1074

/-- First magnitude, in units, that is no double: `2 ^ 1024`. -/
def unitsLimit : Nat := Nat.pow 2 2098

/-- Gap between neighbouring doubles at a magnitude of `units`. -/
def gap (units : Nat) : Nat := Nat.pow 2 (units.log2 - 52)

/-- `num / den` units, rounded to 53 significant bits. -/
def nearestUnits (num den : Nat) : Nat :=
  let g := gap (num / den)
  nearestEven num (den * g) * g

/-- The double nearest to `± num / den` units; what rounds to `2 ^ 1024` or more is infinite. -/
def ofFraction (negative : Bool) (num den : Nat) : Binary64 :=
  let units := nearestUnits num den
  if units < unitsLimit then .finite negative units else .infinite negative

def zero : Binary64 := .finite false 0

def one : Binary64 := .finite false unitsPerOne

/-- The double nearest to a signed whole number of units. -/
def ofUnits (units : Int) : Binary64 := ofFraction (units < 0) units.natAbs 1

/-- The double nearest to an integer. -/
def ofInt (n : Int) : Binary64 := ofFraction (n < 0) (n.natAbs * unitsPerOne) 1

/-- A double itself if it is finite. -/
def finite? : Binary64 → Option Binary64
  | .finite s u => some (.finite s u)
  | _ => none

/-- The double nearest to an integer, or none if the integer is beyond every double. -/
def ofInt? (n : Int) : Option Binary64 := (ofInt n).finite?

/-- The double nearest to `num / den`. -/
def ofRatio (num den : Nat) : Binary64 := ofFraction false (num * unitsPerOne) den

/-- Signed units of a finite double. -/
def signedUnits (negative : Bool) (units : Nat) : Int :=
  if negative then -(units : Int) else units

/-- Where a double lies on the extended line; nan lies nowhere. -/
def extent? : Binary64 → Option Extent
  | .finite s u => some (.point (signedUnits s u))
  | .infinite true => some .below
  | .infinite false => some .above
  | .nan => none

/-- Where an integer lies on the extended line. -/
def extentOfInt (n : Int) : Extent := .point (n * unitsPerOne)

def lt (x y : Binary64) : Bool :=
  match x.extent?, y.extent? with
  | some a, some b => a.lt b
  | _, _ => false

def le (x y : Binary64) : Bool :=
  match x.extent?, y.extent? with
  | some a, some b => a.le b
  | _, _ => false

/-- Numeric equality: the two zeros are equal, nan equals nothing. -/
def same (x y : Binary64) : Bool :=
  match x.extent?, y.extent? with
  | some a, some b => a == b
  | _, _ => false

/-- True of both zeros. -/
def isZero : Binary64 → Bool
  | .finite _ 0 => true
  | _ => false

def neg : Binary64 → Binary64
  | .finite s u => .finite (!s) u
  | .infinite s => .infinite (!s)
  | .nan => .nan

/-- Rounded sum.  A sum of zero is positive unless both terms are negative. -/
def add : Binary64 → Binary64 → Binary64
  | .nan, _ => .nan
  | _, .nan => .nan
  | .infinite s, .infinite t => if s = t then .infinite s else .nan
  | .infinite s, .finite _ _ => .infinite s
  | .finite _ _, .infinite t => .infinite t
  | .finite s u, .finite t v =>
    let sum := signedUnits s u + signedUnits t v
    if sum = 0 then .finite (s && t) 0 else ofUnits sum

def sub (x y : Binary64) : Binary64 := add x (neg y)

/-- Rounded product. -/
def mul : Binary64 → Binary64 → Binary64
  | .nan, _ => .nan
  | _, .nan => .nan
  | .infinite s, .infinite t => .infinite (s != t)
  | .infinite s, .finite t v => if v = 0 then .nan else .infinite (s != t)
  | .finite s u, .infinite t => if u = 0 then .nan else .infinite (s != t)
  | .finite s u, .finite t v => ofFraction (s != t) (u * v) unitsPerOne

/-- Rounded quotient. -/
def div : Binary64 → Binary64 → Binary64
  | .nan, _ => .nan
  | _, .nan => .nan
  | .infinite _, .infinite _ => .nan
  | .infinite s, .finite t _ => .infinite (s != t)
  | .finite s _, .infinite t => .finite (s != t) 0
  | .finite s u, .finite t v =>
    if v = 0 then (if u = 0 then .nan else .infinite (s != t))
    else ofFraction (s != t) (u * unitsPerOne) v

/-- Largest integer not above the double; none for nan and the infinities. -/
def floor? : Binary64 → Option Int
  | .finite s u => some (Int.fdiv (signedUnits s u) unitsPerOne)
  | _ => none

/-- The double without its fraction. -/
def truncate? : Binary64 → Option Int
  | .finite s u => some (signedUnits s (u / unitsPerOne))
  | _ => none

/-- Nearest integer, a tie to the even one; none for nan and the infinities. -/
def roundEven? : Binary64 → Option Int
  | .finite s u => some (signedUnits s (nearestEven u unitsPerOne))
  | _ => none

/-- Whether a finite double is a whole number. -/
def isWhole : Binary64 → Bool
  | .finite _ u => u % unitsPerOne == 0
  | _ => false

/-- The lesser of two, the first one when neither is below the other. -/
def min (x y : Binary64) : Binary64 := if lt y x then y else x

/-- The greater of two, the first one when neither is above the other. -/
def max (x y : Binary64) : Binary64 := if lt x y then y else x

end Binary64

end SeededPlay

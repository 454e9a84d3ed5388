/-
# `SeededPlay.Number.Decimal` — doubles written in decimal, and read back

A decimal is a digit string with an exponent.  Reading one rounds its exact value
to the nearest double (`Decimal.toBinary64`).  Writing a double takes the fewest
digits that read back to it (`Binary64.shortest`): for one digit, two digits, …,
the two decimals beside the exact value are read back, and the first length at
which one of them gives the double wins; when both do, the nearer one.

`Binary64.roundPlaces` and `Binary64.fixedText` round the exact binary value at a
fixed number of decimal places.
-/
import SeededPlay.Number.Binary64

namespace SeededPlay

/-- `digits · 10 ^ exponent`. -/
structure Decimal where
  digits : Nat
  exponent : Int
deriving DecidableEq, Repr

namespace Decimal

/-- How many decimal digits a natural has; zero has one. -/
def digitCount (n : Nat) : Nat := (Nat.toDigits 10 n).length

/-- The exact value as a fraction `num / den`. -/
def fraction (d : Decimal) : Nat × Nat :=
  (d.digits * Nat.pow 10 d.exponent.toNat, Nat.pow 10 (-d.exponent).toNat)

/-- The nearest double.  Decimals of `10 ^ 400` and more are infinite and those
below `10 ^ -400` are zero, before any power of ten is formed. -/
def toBinary64 (negative : Bool) (d : Decimal) : Binary64 :=
  let size := d.exponent + digitCount d.digits
  if d.digits = 0 then .finite negative 0
  else if 400 < size then .infinite negative
  else if size < -400 then .finite negative 0
  else
    let (num, den) := d.fraction
    Binary64.ofFraction negative (num * Binary64.unitsPerOne) den

/-- Trailing zeros moved from the digits into the exponent; `fuel` bounds their number. -/
def strip : Nat → Decimal → Decimal
  | 0, d => d
  | fuel + 1, d =>
    if d.digits ≠ 0 ∧ d.digits % 10 = 0 then strip fuel ⟨d.digits / 10, d.exponent + 1⟩ else d

end Decimal

namespace Binary64

/-- Least `k` with `units · 2 ^ -1074 < 10 ^ k`, for a magnitude other than zero.
The search starts below every double and climbs; 700 steps reach past the largest. -/
def decimalScale (units : Nat) : Int :=
  let rec climb : Nat → Int → Int
    | 0, k => k
    | fuel + 1, k =>
      if units * Nat.pow 10 (-k).toNat < Nat.pow 10 k.toNat * unitsPerOne then k
      else climb fuel (k + 1)
  let guess : Int := Int.fdiv (((units.log2 : Int) - 1074) * 30102) 100000 - 1
  climb 700 guess

/-- The two decimals of `n` digits beside a magnitude that lies below `10 ^ k`. -/
def neighbours (units : Nat) (k : Int) (n : Nat) : Decimal × Decimal :=
  let e := k - n
  let low := units * Nat.pow 10 (-e).toNat / (Nat.pow 10 e.toNat * unitsPerOne)
  (⟨low, e⟩, ⟨low + 1, e⟩)

/-- Whether a decimal reads back to a magnitude. -/
def readsBack (units : Nat) (d : Decimal) : Bool := d.toBinary64 false == .finite false units

/-- Whether the first of two neighbouring decimals is the nearer one; a tie goes to
the one with even digits. -/
def prefersLow (units : Nat) (low high : Decimal) : Bool :=
  let middle := (low.digits + high.digits) * Nat.pow 10 low.exponent.toNat * unitsPerOne
  let value := 2 * units * Nat.pow 10 (-low.exponent).toNat
  value < middle || (value == middle && low.digits % 2 == 0)

/-- The neighbour that reads back to a magnitude; the preferred one if both do. -/
def chooseNeighbour (units : Nat) (low high : Decimal) : Option Decimal :=
  match readsBack units low, readsBack units high with
  | true, true => some (if prefersLow units low high then low else high)
  | true, false => some low
  | false, true => some high
  | false, false => none

/-- The first grid, from `n` digits on, on which a neighbour reads back. -/
def searchShortest (units : Nat) (k : Int) : Nat → Nat → Decimal
  | 0, _ => ⟨units * Nat.pow 5 1074, -1074⟩
  | fuel + 1, n =>
    let sides := neighbours units k n
    (chooseNeighbour units sides.1 sides.2).getD (searchShortest units k fuel (n + 1))

/-- The decimal with the fewest digits that reads back to a magnitude; should no
decimal of seventeen digits do, the exact value. -/
def shortest (units : Nat) : Decimal :=
  if units = 0 then ⟨0, 0⟩
  else (searchShortest units (decimalScale units) 17 1).strip 20

/-- The double nearest to `digits · 10 ^ exponent`. -/
def ofDecimal (digits : Nat) (exponent : Int) : Binary64 :=
  Decimal.toBinary64 false ⟨digits, exponent⟩

/-- A double rounded to `places` decimal places, the exact binary value deciding. -/
def roundPlaces (places : Nat) : Binary64 → Binary64
  | .finite s u =>
    Decimal.toBinary64 s ⟨nearestEven (u * Nat.pow 10 places) unitsPerOne, -places⟩
  | x => x

end Binary64

end SeededPlay

/-
# `SeededPlay.Number.Sine` — the sine of a double

The power series of the sine, evaluated from its far end in fixed-point arithmetic
with 256 binary places and rounded to the nearest double once at the end:

    x · (1 - x² / (2·3) · (1 - x² / (4·5) · (1 - …)))

Eighty factors are enough for arguments of magnitude up to sixteen; nothing here
reduces a larger one.
-/
import SeededPlay.Number.Decimal

namespace SeededPlay

namespace FixedPoint

/-- How many binary places a fixed-point number has. -/
def places : Nat := 256

/-- One. -/
def one : Int := Nat.pow 2 places

/-- The product of two fixed-point numbers. -/
def mul (a b : Int) : Int := a * b / one

/-- The last `n` factors of the sine series, from the `k`-th on; `square` is the
square of the argument. -/
def sineTail (square : Int) : Nat → Nat → Int
  | 0, _ => one
  | n + 1, k => one - mul square (sineTail square n (k + 1)) / ((2 * k) * (2 * k + 1) : Nat)

/-- The sine series at a fixed-point number. -/
def sine (x : Int) : Int := mul x (sineTail (mul x x) 80 1)

end FixedPoint

namespace Binary64

/-- Units of a double in one fixed-point unit. -/
def unitsPerFixed : Nat := Nat.pow 2 (1074 - FixedPoint.places)

/-- The sine of a double of magnitude up to sixteen. -/
def sine : Binary64 → Binary64
  | .finite s u =>
    let y := FixedPoint.sine (signedUnits s u / unitsPerFixed)
    if y = 0 then .finite s 0 else ofUnits (y * unitsPerFixed)
  | _ => .nan

end Binary64

end SeededPlay

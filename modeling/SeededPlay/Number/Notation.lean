/-
# `SeededPlay.Number.Notation` — how numbers are written

A double is written with the fewest digits that read back to it: positionally,
with at least one digit after the point, while the leading digit stands between
`10 ^ -4` and `10 ^ 15`, and with a signed exponent of at least two digits
otherwise.  Fixed-place text rounds the exact binary value.
-/
import SeededPlay.Number.Basic
import SeededPlay.Number.Decimal

namespace SeededPlay

/-- The decimal digits of a natural. -/
def natDigits (n : Nat) : List Char := Nat.toDigits 10 n

/-- A natural in decimal with at least `width` digits. -/
def natPadded (width n : Nat) : List Char :=
  let ds := natDigits n
  List.replicate (width - ds.length) '0' ++ ds

def signText (negative : Bool) : List Char := if negative then ['-'] else []

namespace Decimal

/-- Positional text, with at least one digit on each side of the point. -/
def positional (d : Decimal) : List Char :=
  let ds := natDigits d.digits
  let point : Int := ds.length + d.exponent
  if 0 ≤ d.exponent then
    ds ++ List.replicate d.exponent.toNat '0' ++ ['.', '0']
  else if 0 < point then
    ds.take point.toNat ++ '.' :: ds.drop point.toNat
  else
    '0' :: '.' :: List.replicate (-point).toNat '0' ++ ds

/-- Text with one digit before the point and a signed exponent. -/
def scientific (d : Decimal) : List Char :=
  let ds := natDigits d.digits
  let e : Int := ds.length - 1 + d.exponent
  let mantissa := match ds with
    | [c] => [c]
    | c :: cs => c :: '.' :: cs
    | [] => []
  mantissa ++ 'e' :: (if e < 0 then '-' else '+') :: natPadded 2 e.natAbs

/-- The layout that suits the size of a decimal. -/
def layout (d : Decimal) : List Char :=
  let lead : Int := (natDigits d.digits).length - 1 + d.exponent
  if d.digits = 0 ∨ (-4 ≤ lead ∧ lead < 16) then d.positional else d.scientific

end Decimal

namespace Binary64

/-- A double in the fewest digits that identify it. -/
def text : Binary64 → String
  | .finite s u => String.ofList (signText s ++ (shortest u).layout)
  | .infinite s => String.ofList (signText s ++ ['i', 'n', 'f'])
  | .nan => "nan"

/-- A double with exactly `places` digits after the point (at least one). -/
def fixedText (places : Nat) : Binary64 → String
  | .finite s u =>
    let ds := natPadded (places + 1) (nearestEven (u * Nat.pow 10 places) unitsPerOne)
    let whole := ds.length - places
    String.ofList (signText s ++ ds.take whole ++ '.' :: ds.drop whole)
  | x => x.text

end Binary64

namespace Number

def text : Number → String
  | .int n => toString n
  | .real x => x.text

end Number

end SeededPlay

/-
# `SeededPlay.Draw.Hexadecimal` — fractions from written digests

Eight digits of a digest written in base sixteen, from any place on, give a
fraction of one.  A negative place counts from the end.  The digits are a numeral:
blanks around them, a sign, the mark `0x` and single underscores are allowed.
-/
import SeededPlay.Draw.Stream

namespace SeededPlay.Draw

/-- The characters from one place up to another, places before the start counting from the end. -/
def slice (cs : List Char) (low high : Int) : List Char :=
  let size : Int := cs.length
  let place (i : Int) : Nat := (if i < 0 then max 0 (i + size) else min i size).toNat
  (cs.take (place high)).drop (place low)

/-- The value of a digit in base sixteen. -/
def hexValue? (c : Char) : Option Nat :=
  if c.isDigit then some (c.toNat - 0x30)
  else if 'a' ≤ c ∧ c ≤ 'f' then some (c.toNat - 0x57)
  else if 'A' ≤ c ∧ c ≤ 'F' then some (c.toNat - 0x37)
  else none

/-- Digits in base sixteen, single underscores between them. -/
def hexDigits? : List Char → Nat → Bool → Option Nat
  | [], n, afterDigit => if afterDigit then some n else none
  | c :: cs, n, afterDigit =>
    if c = '_' then (if afterDigit then hexDigits? cs n false else none)
    else do
      let d ← hexValue? c
      hexDigits? cs (16 * n + d) true

/-- A numeral in base sixteen without its sign. -/
def hexMagnitude? : List Char → Option Nat
  | '0' :: x :: cs =>
    if x = 'x' ∨ x = 'X' then
      match cs with
      | '_' :: rest => hexDigits? rest 0 false
      | _ => hexDigits? cs 0 false
    else hexDigits? ('0' :: x :: cs) 0 false
  | cs => hexDigits? cs 0 false

/-- A text as an integer in base sixteen. -/
def readHex (s : String) : Except Fault Int :=
  let (negative, body) := Numeral.signed (Numeral.bare s)
  match hexMagnitude? body with
  | some n => .ok (if negative then -(n : Int) else n)
  | none => .error (.hexadecimal s)

/-- Eight digits of a written digest as a fraction of one. -/
def fractionOfHex (hex : String) (offset : Int) : Except Fault Binary64 :=
  (readHex (String.ofList (slice hex.toList offset (offset + 8)))).map fun n =>
    Binary64.ofFraction (n < 0) (n.natAbs * Binary64.unitsPerOne) range

end SeededPlay.Draw

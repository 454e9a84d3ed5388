/-
# `SeededPlay.Number.Reading` — numerals

Numerals may use the decimal digits of any script, may have blanks around them,
and may have an underscore between two digits.  An integer numeral is a sign and
digits; a real numeral has a fraction and an exponent, or is one of the names
`inf`, `infinity` and `nan` in any case.
-/
import SeededPlay.Number.Decimal
import SeededPlay.Text.Quoted

namespace SeededPlay.Numeral

open Text

/-- Every decimal digit replaced by the ASCII digit of its value. -/
def asciiDigits (cs : List Char) : List Char :=
  cs.map fun c => match digitValue? c with
    | some d => Char.ofNat (0x30 + d)
    | none => c

/-- The text of a numeral without its blanks, in ASCII digits. -/
def bare (s : String) : List Char := asciiDigits (trimWhere isNumeralBlank s.toList)

/-- The sign in front, and the rest. -/
def signed : List Char → Bool × List Char
  | '-' :: cs => (true, cs)
  | '+' :: cs => (false, cs)
  | cs => (false, cs)

/-- The text without its underscores, if each stands between two digits. -/
def joinUnderscores? : List Char → Option (List Char)
  | [] => some []
  | [c] => if c = '_' then none else some [c]
  | c :: '_' :: rest =>
    match rest with
    | d :: _ =>
      if c.isDigit && d.isDigit then (joinUnderscores? rest).map (c :: ·) else none
    | [] => none
  | c :: rest => if c = '_' then none else (joinUnderscores? rest).map (c :: ·)

/-- The natural that a list of ASCII digits writes. -/
def ofDigits (cs : List Char) : Nat := cs.foldl (fun n c => 10 * n + (c.toNat - 0x30)) 0

/-- Digits as a natural, if they are all digits and there is at least one. -/
def digits? (cs : List Char) : Option Nat :=
  if !cs.isEmpty && cs.all Char.isDigit then some (ofDigits cs) else none

/-! ## Integers -/

/-- How a text fails to be an integer. -/
inductive IntFault where
  /-- It is no integer numeral. -/
  | malformed (text : String)
  /-- It has more digits than are read. -/
  | tooLong (count : Nat)
deriving DecidableEq, Repr

/-- The most digits an integer numeral may have. -/
def digitLimit : Nat := 4300

/-- Digits and underscores at the front, and the rest. -/
def spanJoined (cs : List Char) : List Char × List Char :=
  (cs.takeWhile fun c => c.isDigit || c == '_', cs.dropWhile fun c => c.isDigit || c == '_')

/-- A text as an integer.  The digits are counted before the text behind them is
looked at, so a numeral that is too long is too long whatever follows it. -/
def readInt (s : String) : Except IntFault Int :=
  let (negative, body) := signed (bare s)
  let (front, rest) := spanJoined body
  match joinUnderscores? front with
  | none => .error (.malformed s)
  | some ds =>
    if ds.isEmpty then .error (.malformed s)
    else if digitLimit < ds.length then .error (.tooLong ds.length)
    else if !rest.isEmpty then .error (.malformed s)
    else .ok (if negative then -(ofDigits ds : Int) else ofDigits ds)

/-! ## Reals -/

/-- The digits at the front, and the rest. -/
def spanDigits (cs : List Char) : List Char × List Char :=
  (cs.takeWhile Char.isDigit, cs.dropWhile Char.isDigit)

/-- The exponent part of a real numeral; the empty text is the exponent zero. -/
def exponent? : List Char → Option Int
  | [] => some 0
  | c :: cs =>
    if c = 'e' ∨ c = 'E' then
      let (negative, ds) := signed cs
      (digits? ds).map fun n => if negative then -(n : Int) else n
    else none

/-- An unsigned real numeral that is not a name. -/
def decimal? (cs : List Char) : Option Decimal :=
  let (whole, rest) := spanDigits cs
  let (frac, rest) := match rest with
    | '.' :: more => spanDigits more
    | _ => ([], rest)
  if whole.isEmpty && frac.isEmpty then none
  else (exponent? rest).map fun e => ⟨ofDigits (whole ++ frac), e - frac.length⟩

/-- A text as a double, rounded to the nearest. -/
def readReal? (s : String) : Option Binary64 :=
  let (negative, body) := signed (bare s)
  let name := String.ofList (body.map Char.toLower)
  if name = "inf" ∨ name = "infinity" then some (.infinite negative)
  else if name = "nan" then some .nan
  else do
    let cs ← joinUnderscores? body
    let d ← decimal? cs
    return d.toBinary64 negative

end SeededPlay.Numeral

/-
# `SeededPlay.Rules.Phrase` — name, operator, argument

Every text of the rule language is a phrase of three tokens: a name, an operator
and an argument.  What an argument can be read as is shared by effects and
conditions.
-/
import SeededPlay.Rules.Token
import SeededPlay.Fault
import SeededPlay.Number.Basic

namespace SeededPlay

structure Phrase where
  name : String
  operator : List Char
  argument : Token
deriving DecidableEq, Repr

namespace Phrase

/-- The phrase that a text is, if it is one. -/
def ofText? (text : String) : Option Phrase :=
  match tokenize text with
  | some [⟨.name, name⟩, ⟨.operator, op⟩, argument] => some ⟨String.ofList name, op, argument⟩
  | _ => none

/-- The argument as a word. -/
def word? (p : Phrase) : Option String :=
  if p.argument.isWord then some p.argument.text else none

/-- The number that a numeral writes: with a point a double, without one an integer. -/
def numberOf (numeral : String) : Except Fault Number :=
  if numeral.toList.contains '.' then
    match Numeral.readReal? numeral with
    | some x => .ok (.real x)
    | none => .error (.notReal numeral)
  else (Numeral.readInt numeral).mapError .integer |>.map .int

/-- The argument as a numeral. -/
def numeral? (p : Phrase) : Option String :=
  if p.argument.kind = .number then some p.argument.text else none

end Phrase

end SeededPlay

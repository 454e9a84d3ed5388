/-
# `SeededPlay.Numeric` — raw values used as numbers and lists

How a raw value becomes a double, an integer or a list of items, and how numbers
are added to it.  Texts are read as numerals; null, lists and records are of the
wrong kind; what lies beyond every double is out of range.
-/
import SeededPlay.Fault

namespace SeededPlay.Datum

/-- The double nearest to a value. -/
def toReal : Datum → Except Fault Binary64
  | .bool b => .ok (if b then .one else .zero)
  | .number n => match n.toReal? with
    | some x => .ok x
    | none => .error .outOfRange
  | .text s => match Numeral.readReal? s with
    | some x => .ok x
    | none => .error (.notReal s)
  | _ => .error .wrongKind

/-- A double cut off at the point. -/
def truncate (x : Binary64) : Except Fault Int :=
  match x with
  | .nan => .error .nanToInteger
  | x => match x.truncate? with
    | some n => .ok n
    | none => .error .outOfRange

/-- The largest integer not above a double. -/
def floor (x : Binary64) : Except Fault Int :=
  match x with
  | .nan => .error .nanToInteger
  | x => match x.floor? with
    | some n => .ok n
    | none => .error .outOfRange

/-- A value as an integer: doubles are cut off at the point, texts are numerals. -/
def toInt : Datum → Except Fault Int
  | .bool b => .ok (if b then 1 else 0)
  | .number (.int n) => .ok n
  | .number (.real x) => truncate x
  | .text s => (Numeral.readInt s).mapError .integer
  | _ => .error .wrongKind

/-- The items of a value: those of a list, the names of a record, the characters
of a text. -/
def elements : Datum → Except Fault (List Datum)
  | .list items => .ok items
  | .record fields => .ok (fields.map fun f => .text f.1)
  | .text s => .ok (s.toList.map fun c => .text (String.singleton c))
  | _ => .error .wrongKind

/-- A raw pair of a name and a value, the one at a place of a list. -/
def namedPair (place : Nat) (d : Datum) : Except Fault (String × Datum) := do
  match ← d.elements with
  | [.list _, _] => throw .wrongKind
  | [.record _, _] => throw .wrongKind
  | [name, value] => return (name.plain, value)
  | other => throw (.pairLength place other.length)

/-- The named values of a list of raw pairs, from a place on, put behind others. -/
def namedPairs : Nat → Fields Datum → List Datum → Except Fault (Fields Datum)
  | _, fields, [] => .ok fields
  | place, fields, d :: ds => do
    let (name, value) ← namedPair place d
    namedPairs (place + 1) (fields.set name value) ds

/-- Named values: those of a record or of a list of pairs. -/
def toFields (d : Datum) : Except Fault (Fields Datum) :=
  match d with
  | .record fields => .ok fields
  | d => d.elements.bind (namedPairs 0 [])

/-- Named values, none if there is nothing. -/
def toFieldsOrNone (d : Datum) : Except Fault (Fields Datum) :=
  if d.isPresent then d.toFields else .ok []

/-- A value that counts as a number. -/
def toNumber (d : Datum) : Except Fault Number :=
  match d.number? with
  | some n => .ok n
  | none => .error .wrongKind

/-- A value increased by a number. -/
def plus (d : Datum) (n : Number) : Except Fault Datum := do
  match (← d.toNumber).add? n with
  | some sum => return .number sum
  | none => throw .outOfRange

/-- A value decreased by another. -/
def minus (d e : Datum) : Except Fault Datum := do
  match (← d.toNumber).sub? (← e.toNumber) with
  | some difference => return .number difference
  | none => throw .outOfRange

/-- Whether one value is at most another, both counting as numbers. -/
def atMost (d e : Datum) : Except Fault Bool := do
  return (← d.toNumber).le (← e.toNumber)

end SeededPlay.Datum

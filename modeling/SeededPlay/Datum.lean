/-
# `SeededPlay.Datum` — values as they arrive

Payloads, states and parameters come from outside with whatever values their
writer put there.  A `Datum` is such a value; the records of the library are read
out of it and written back to it.  State fields stay raw: a score can be a text
until a rule tries to add to it.

Truth values count as the numbers zero and one wherever a number is wanted, and
values of different kinds are the same only when both count as numbers.
-/
import SeededPlay.Fields
import SeededPlay.Number.Notation
import SeededPlay.Text.Quoted

namespace SeededPlay

/-- A raw value. -/
inductive Datum where
  | null
  | bool (b : Bool)
  | number (n : Number)
  | text (s : String)
  | list (items : List Datum)
  | record (fields : List (String × Datum))
deriving Inhabited, Repr

namespace Datum

/-- An integer as a raw value. -/
def int (n : Int) : Datum := .number (.int n)

/-- A double as a raw value. -/
def real (x : Binary64) : Datum := .number (.real x)

/-- The number that a value counts as. -/
def number? : Datum → Option Number
  | .bool b => some (.int (if b then 1 else 0))
  | .number n => some n
  | _ => none

/-- Whether a value counts as present: not null, not false, not zero, not empty. -/
def isPresent : Datum → Bool
  | .null => false
  | .bool b => b
  | .number n => n.isNonzero
  | .text s => !s.isEmpty
  | .list items => !items.isEmpty
  | .record fields => !fields.isEmpty

/-! ## Sameness -/

mutual

/-- Whether two values are the same, numbers by their size and records by their names. -/
def same : Datum → Datum → Bool
  | .null, b => match b with
    | .null => true
    | _ => false
  | .bool x, b => match b.number? with
    | some n => (Number.int (if x then 1 else 0)).same n
    | none => false
  | .number x, b => match b.number? with
    | some n => x.same n
    | none => false
  | .text x, b => match b with
    | .text y => x == y
    | _ => false
  | .list xs, b => match b with
    | .list ys => sameItems xs ys
    | _ => false
  | .record fs, b => match b with
    | .record gs => fs.length == gs.length && sameFields fs gs
    | _ => false
termination_by structural a => a

/-- Whether two lists have the same items at the same places. -/
def sameItems : List Datum → List Datum → Bool
  | [], ys => ys.isEmpty
  | x :: xs, ys => match ys with
    | [] => false
    | y :: ys => same x y && sameItems xs ys
termination_by structural a => a

/-- Whether every field is the same in another record. -/
def sameFields : List (String × Datum) → List (String × Datum) → Bool
  | [], _ => true
  | (k, x) :: fs, gs => match Fields.get? gs k with
    | some y => same x y && sameFields fs gs
    | none => false
termination_by structural a => a

end

/-- Whether a list holds a value. -/
def occursIn (x : Datum) (items : List Datum) : Bool := items.any (·.same x)

/-! ## Written forms -/

mutual

/-- A value with its texts in quotes, as messages show it. -/
def literal : Datum → String
  | .null => "None"
  | .bool b => if b then "True" else "False"
  | .number n => n.text
  | .text s => Text.quoted s
  | .list items => "[" ++ Text.joinWith ", " (literalItems items) ++ "]"
  | .record fields => "\x7b" ++ Text.joinWith ", " (literalFields fields) ++ "\x7d"
termination_by structural d => d

def literalItems : List Datum → List String
  | [] => []
  | d :: ds => literal d :: literalItems ds
termination_by structural d => d

def literalFields : List (String × Datum) → List String
  | [] => []
  | (k, d) :: fs => (Text.quoted k ++ ": " ++ literal d) :: literalFields fs
termination_by structural d => d

end

/-- A value as plain text: a text by itself, anything else in its literal form. -/
def plain : Datum → String
  | .text s => s
  | d => d.literal

end Datum

end SeededPlay

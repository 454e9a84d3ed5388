/-
# `SeededPlay.Record.Check` — reading records out of raw values

A reader takes a raw value and gives either a value of the wanted type or all the
issues it found, each with its place.  Readers of fields are combined
applicatively, so that every failing field is reported, in the order in which the
record lists its fields.

Readers are lenient in fixed ways: truth values count as zero and one, whole
doubles as integers, and numerals as the numbers they write.
-/
import SeededPlay.Fault

namespace SeededPlay

/-- A value that was read, or the issues that kept it from being read. -/
inductive Check (α : Type) where
  | valid (value : α)
  | invalid (issues : List Issue)
deriving Repr

namespace Check

variable {α β : Type}

/-- A function and its argument read side by side; the issues of both are kept. -/
def apply (f : Check (α → β)) (x : Check α) : Check β :=
  match f, x with
  | .valid f, .valid a => .valid (f a)
  | .invalid i, .valid _ => .invalid i
  | .valid _, .invalid j => .invalid j
  | .invalid i, .invalid j => .invalid (i ++ j)

instance : Applicative Check where
  pure := .valid
  seq f x := apply f (x ())

/-- A single complaint about the value itself. -/
def fail (complaint : Complaint) : Check α := .invalid [⟨[], complaint⟩]

/-- A check whose issues lie behind one more step. -/
def within (step : Step) : Check α → Check α
  | .valid a => .valid a
  | .invalid issues => .invalid (issues.map fun i => { i with place := step :: i.place })

/-- What was read, further checked. -/
def andThen (x : Check α) (f : α → Check β) : Check β :=
  match x with
  | .valid a => f a
  | .invalid issues => .invalid issues

/-- A check as an outcome. -/
def toExcept : Check α → Except Fault α
  | .valid a => .ok a
  | .invalid issues => .error (.invalid issues)

@[simp] theorem within_valid (step : Step) (a : α) : within step (.valid a) = .valid a := rfl

@[simp] theorem seq_valid (f : α → β) (a : α) :
    (Check.valid f : Check (α → β)) <*> (Check.valid a) = .valid (f a) := rfl

@[simp] theorem map_valid (f : α → β) (a : α) : f <$> (Check.valid a) = .valid (f a) := rfl

end Check

namespace Record

variable {α : Type}

/-! ## Plain values -/

def text : Datum → Check String
  | .text s => .valid s
  | _ => .fail .notText

def optional (read : Datum → Check α) : Datum → Check (Option α)
  | .null => .valid none
  | d => some <$> read d

/-- A member of a vocabulary, by its word. -/
def term [Vocabulary α] (d : Datum) : Check α :=
  match Vocabulary.ofDatum? d with
  | some a => .valid a
  | none => .fail (.notChoice (Vocabulary.choiceText α))

/-- The least and the greatest integer that a double may stand for. -/
def wordLimit : Int := Nat.pow 2 63

/-- A double that is a whole number within a machine word. -/
def wholeReal (x : Binary64) : Check Int :=
  match x.truncate? with
  | none => .fail .notFinite
  | some n =>
    if !x.isWhole then .fail .notWhole
    else if -wordLimit < n ∧ n < wordLimit then .valid n
    else .fail .intOutOfRange

/-- Digits without their underscores, none of which may lead, trail or double. -/
def dropUnderscores? (cs : List Char) : Option (List Char) :=
  if cs.head? = some '_' ∨ cs.getLast? = some '_' ∨ Text.occursIn ['_', '_'] cs then none
  else some (cs.filter (· ≠ '_'))

/-- A numeral without a fraction of zeros. -/
def dropZeroFraction (cs : List Char) : List Char :=
  let frac := (cs.dropWhile (· ≠ '.')).drop 1
  if cs.contains '.' && frac.all (· == '0') then cs.takeWhile (· ≠ '.') else cs

/-- A text as an integer: a sign, digits, and a fraction of zeros. -/
def intNumeral (s : String) : Check Int :=
  let cs := Text.trimWhere Text.isNumeralBlank s.toList
  let (negative, body) := Numeral.signed cs
  match (dropUnderscores? (dropZeroFraction body)).bind Numeral.digits? with
  | some n =>
    if Numeral.digitLimit < s.utf8ByteSize then .fail .intOutOfRange
    else .valid (if negative then -(n : Int) else n)
  | none => .fail .notIntNumeral

def int : Datum → Check Int
  | .bool b => .valid (if b then 1 else 0)
  | .number (.int n) => .valid n
  | .number (.real x) => wholeReal x
  | .text s => intNumeral s
  | _ => .fail .notInt

/-- A text as a double. -/
def realNumeral (s : String) : Check Binary64 :=
  let cs := Text.trimWhere Text.isNumeralBlank s.toList
  let (negative, body) := Numeral.signed cs
  let name := String.ofList (body.map Char.toLower)
  if name = "inf" ∨ name = "infinity" then .valid (.infinite negative)
  else if name = "nan" then .valid .nan
  else
    match (dropUnderscores? body).bind Numeral.decimal? with
    | some d => .valid (d.toBinary64 negative)
    | none => .fail .notRealNumeral

def real : Datum → Check Binary64
  | .bool b => .valid (if b then .one else .zero)
  | .number (.real x) => .valid x
  | .number (.int n) => match Binary64.ofInt? n with
    | some x => .valid x
    | none => .fail .notReal
  | .text s => realNumeral s
  | _ => .fail .notReal

/-- The words for true and for false, in lower case. -/
def trueWords : List String := ["1", "t", "y", "on", "yes", "true"]

def falseWords : List String := ["0", "f", "n", "no", "off", "false"]

def boolWord (s : String) : Check Bool :=
  let word := String.ofList (s.toList.map Char.toLower)
  if word ∈ trueWords then .valid true
  else if word ∈ falseWords then .valid false
  else .fail .notBoolWord

/-- An integer as a truth value. -/
def boolOfInt (n : Int) : Check Bool :=
  if n = 0 then .valid false
  else if n = 1 then .valid true
  else .fail .notBoolWord

def bool : Datum → Check Bool
  | .bool b => .valid b
  | .text s => boolWord s
  | .number (.int n) =>
    if -wordLimit ≤ n ∧ n < wordLimit then boolOfInt n else .fail .notBool
  | .number (.real x) => match wholeReal x with
    | .valid n => boolOfInt n
    | .invalid _ => .fail .notBool
  | _ => .fail .notBool

/-! ## Lists and fields -/

/-- Items read one by one, from a place on. -/
def itemsFrom (read : Datum → Check α) : Nat → List Datum → Check (List α)
  | _, [] => .valid []
  | i, d :: ds => List.cons <$> (read d).within (.index i) <*> itemsFrom read (i + 1) ds

def list (read : Datum → Check α) : Datum → Check (List α)
  | .list ds => itemsFrom read 0 ds
  | _ => .fail .notList

/-- A list with a least and a greatest size.  Too many items are one complaint about
the whole list, before any item is looked at. -/
def sizedList (read : Datum → Check α) (least most : Nat) : Datum → Check (List α)
  | .list ds =>
    if most < ds.length then .fail (.tooLong most ds.length)
    else (itemsFrom read 0 ds).andThen fun xs =>
      if xs.length < least then .fail (.tooShort least xs.length) else .valid xs
  | _ => .fail .notList

/-- Named values read one by one. -/
def namedValues (read : Datum → Check α) : List (String × Datum) → Check (Fields α)
  | [] => .valid []
  | (k, d) :: fs =>
    (fun v rest => (k, v) :: rest) <$> (read d).within (.field k) <*> namedValues read fs

def fields (read : Datum → Check α) : Datum → Check (Fields α)
  | .record fs => namedValues read fs
  | _ => .fail .notFields

/-- A field that must be there. -/
def required (fs : List (String × Datum)) (name : String) (read : Datum → Check α) : Check α :=
  match Fields.get? fs name with
  | some d => (read d).within (.field name)
  | none => .invalid [⟨[.field name], .missing⟩]

/-- A field with a default. -/
def optionalField (fs : List (String × Datum)) (name : String) (read : Datum → Check α)
    (other : α) : Check α :=
  match Fields.get? fs name with
  | some d => (read d).within (.field name)
  | none => .valid other

/-- A record with named fields. -/
def ofFields (title : String) (read : List (String × Datum) → Check α) : Datum → Check α
  | .record fs => read fs
  | _ => .fail (.notRecord title)

end Record

end SeededPlay

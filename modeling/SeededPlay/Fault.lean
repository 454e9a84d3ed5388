/-
# `SeededPlay.Fault` — what can go wrong

Raw values can be of the wrong kind, numerals can be malformed, records can fail
their validation, and rule texts can fall outside the rule language.  Each cause
is a constructor; the wording of those that have one is in `Fault.message?`.
-/
import SeededPlay.Number.Reading
import SeededPlay.Vocabulary

namespace SeededPlay

/-! ## Validation issues -/

/-- One step on the way to the place of an issue. -/
inductive Step where
  | field (name : String)
  | index (i : Nat)
deriving DecidableEq, Repr

/-- What is wrong with a value that a record was to be read from. -/
inductive Complaint where
  | missing
  | notRecord (title : String)
  | notText
  | notList
  | tooShort (least actual : Nat)
  | tooLong (most actual : Nat)
  | notChoice (words : String)
  | notInt
  | notIntNumeral
  | intOutOfRange
  | notWhole
  | notFinite
  | notReal
  | notRealNumeral
  | notBool
  | notBoolWord
  | notFields
deriving DecidableEq, Repr

namespace Complaint

/-- A count of items in words. -/
def items (n : Nat) : String := toString n ++ (if n = 1 then " item" else " items")

/-- The short name of a complaint. -/
def code : Complaint → String
  | .missing => "missing"
  | .notRecord _ => "model_type"
  | .notText => "string_type"
  | .notList => "list_type"
  | .tooShort _ _ => "too_short"
  | .tooLong _ _ => "too_long"
  | .notChoice _ => "enum"
  | .notInt => "int_type"
  | .notIntNumeral => "int_parsing"
  | .intOutOfRange => "int_parsing_size"
  | .notWhole => "int_from_float"
  | .notFinite => "finite_number"
  | .notReal => "float_type"
  | .notRealNumeral => "float_parsing"
  | .notBool => "bool_type"
  | .notBoolWord => "bool_parsing"
  | .notFields => "dict_type"

/-- A complaint in words. -/
def message : Complaint → String
  | .missing => "Field required"
  | .notRecord title => "Input should be a valid dictionary or instance of " ++ title
  | .notText => "Input should be a valid string"
  | .notList => "Input should be a valid list"
  | .tooShort least actual =>
    "List should have at least " ++ items least ++ " after validation, not " ++ toString actual
  | .tooLong most actual =>
    "List should have at most " ++ items most ++ " after validation, not " ++ toString actual
  | .notChoice words => "Input should be " ++ words
  | .notInt => "Input should be a valid integer"
  | .notIntNumeral => "Input should be a valid integer, unable to parse string as an integer"
  | .intOutOfRange => "Unable to parse input string as an integer, exceeded maximum size"
  | .notWhole => "Input should be a valid integer, got a number with a fractional part"
  | .notFinite => "Input should be a finite number"
  | .notReal => "Input should be a valid number"
  | .notRealNumeral => "Input should be a valid number, unable to parse string as a number"
  | .notBool => "Input should be a valid boolean"
  | .notBoolWord => "Input should be a valid boolean, unable to interpret input"
  | .notFields => "Input should be a valid dictionary"

end Complaint

/-- A complaint and the place it is about. -/
structure Issue where
  place : List Step
  complaint : Complaint
deriving DecidableEq, Repr

/-! ## Rule texts -/

/-- The two languages of rule texts. -/
inductive ExpressionKind where
  | effect
  | condition
deriving DecidableEq, Repr

namespace ExpressionKind

def word : ExpressionKind → String
  | .effect => "effect"
  | .condition => "condition"

/-- What a text of the language should have looked like. -/
def expectation : ExpressionKind → String
  | .effect => "expected name+N, name-N, name:word or name=word"
  | .condition => "expected flag:name, has:name or field<op>number"

end ExpressionKind

/-- A text that is in neither form of its rule language. -/
structure Unparsable where
  kind : ExpressionKind
  text : String
deriving DecidableEq, Repr

namespace Unparsable

def reason (u : Unparsable) : String := u.kind.expectation

def message (u : Unparsable) : String :=
  "Unparsable " ++ u.kind.word ++ " " ++ Text.quoted u.text ++ ": " ++ u.reason

end Unparsable

/-! ## Faults -/

/-- Why an operation fails. -/
inductive Fault where
  /-- A value is of a kind that the operation is not defined on. -/
  | wrongKind
  /-- A value has no members by name. -/
  | noMembers
  /-- A number lies beyond the range it is needed in. -/
  | outOfRange
  /-- A name that a record does not have. -/
  | noSuchKey
  /-- A place beyond the end of a list. -/
  | noSuchPlace
  /-- A rule text outside the rule language. -/
  | unparsable (what : Unparsable)
  /-- A raw value that is no record of the wanted kind. -/
  | invalid (issues : List Issue)
  /-- A text that is no integer. -/
  | integer (fault : Numeral.IntFault)
  /-- A text that is no number in base sixteen. -/
  | hexadecimal (text : String)
  /-- A text that is no real number. -/
  | notReal (text : String)
  /-- An integer wanted of nan. -/
  | nanToInteger
  /-- A value outside a vocabulary. -/
  | notListed (title : String) (value : Datum)
  /-- No bundle of rules has this name. -/
  | unknownBundle (name : Datum) (known : List String)
  /-- No chaos preset has this label. -/
  | unknownPreset (label : Datum) (known : List String)
  /-- No log level is called this. -/
  | unknownLevel (name : String)
  /-- A text that a terminal refuses, as its style tags do not match. -/
  | unopenedTag
  /-- A list of the wrong length where `wanted` items are needed. -/
  | itemCount (wanted got : Nat)
  /-- Pairs were wanted, and the item at a place is of another length. -/
  | pairLength (place got : Nat)
deriving Repr, Inhabited

namespace Fault

/-- Words as a list in quotes. -/
def wordList (words : List String) : String :=
  "[" ++ Text.joinWith ", " (words.map Text.quoted) ++ "]"

/-- The wording of a fault that has one of its own. -/
def message? : Fault → Option String
  | .integer (.malformed s) =>
    some ("invalid literal for int() with base 10: " ++
      String.ofList ((Text.quoted s).toList.take 200))
  | .integer (.tooLong n) =>
    some ("Exceeds the limit (4300 digits) for integer string conversion: value has " ++
      toString n ++ " digits; use sys.set_int_max_str_digits() to increase the limit")
  | .hexadecimal s =>
    some ("invalid literal for int() with base 16: " ++
      String.ofList ((Text.quoted s).toList.take 200))
  | .notReal s => some ("could not convert string to float: " ++ Text.quoted s)
  | .nanToInteger => some "cannot convert float NaN to integer"
  | .notListed title value => some (value.literal ++ " is not a valid " ++ title)
  | .unknownBundle name known =>
    some ("Unknown rule bundle: " ++ name.plain ++ ". Available: " ++ wordList known)
  | .unknownPreset label known =>
    some ("Unknown chaos preset: " ++ label.plain ++ ". Available: " ++ wordList known)
  | .itemCount wanted got =>
    some (if got < wanted then
        "not enough values to unpack (expected " ++ toString wanted ++ ", got " ++
          toString got ++ ")"
      else "too many values to unpack (expected " ++ toString wanted ++ ")")
  | .pairLength place got =>
    some ("dictionary update sequence element #" ++ toString place ++ " has length " ++
      toString got ++ "; 2 is required")
  | .unknownLevel name => some ("Unknown level: " ++ Text.quoted name)
  | _ => none

end Fault

end SeededPlay

/-
# `SeededPlay.Text.Basic` — whole texts: case, trimming, cutting

Texts are strings at every boundary and lists of characters inside; each
operation here is a list operation with its string form beside it.
-/
import SeededPlay.Text.Classes

namespace SeededPlay.Text

/-- Upper case, character by character. -/
def upperChars (cs : List Char) : List Char := cs.flatMap upperChar

/-- Lower case, character by character.  A capital sigma becomes the ordinary small one wherever it
stands, also at the end of a word; no word that is looked for in a text in lower case has one. -/
def lowerChars (cs : List Char) : List Char := cs.flatMap lowerChar

def upper (s : String) : String := String.ofList (upperChars s.toList)

def lower (s : String) : String := String.ofList (lowerChars s.toList)

/-- The text without the characters of a class at its two ends. -/
def trimWhere (p : Char → Bool) (cs : List Char) : List Char :=
  ((cs.dropWhile p).reverse.dropWhile p).reverse

/-- The text without blanks at its two ends. -/
def trimChars (cs : List Char) : List Char := trimWhere isBlank cs

def trim (s : String) : String := String.ofList (trimChars s.toList)

/-- The pieces between the occurrences of a character; at least one. -/
def splitChars (sep : Char) : List Char → List (List Char)
  | [] => [[]]
  | c :: cs =>
    if c = sep then [] :: splitChars sep cs
    else
      match splitChars sep cs with
      | piece :: rest => (c :: piece) :: rest
      | [] => [[c]]

/-- Whether one list begins with another. -/
def beginsWith {α : Type} [DecidableEq α] (start : List α) (xs : List α) : Bool :=
  start.isPrefixOf xs

/-- Whether a text occurs inside another. -/
def occursIn (needle : List Char) : List Char → Bool
  | [] => needle.isEmpty
  | c :: cs => needle.isPrefixOf (c :: cs) || occursIn needle cs

/-- Texts put one after another with a separator between them. -/
def joinWith (sep : String) (parts : List String) : String := sep.intercalate parts

end SeededPlay.Text

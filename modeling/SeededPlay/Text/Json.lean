/-
# `SeededPlay.Text.Json` — raw values written as JSON

Lists and records are spread over lines, indented by two blanks a level; empty
ones stay on their line.  Texts are quoted with the short escapes where there is
one.  A writer either keeps characters beyond ASCII or writes them, and the
delete character, as escapes of their UTF-16 units.
-/
import SeededPlay.Datum

namespace SeededPlay.Json

open Text

/-- An escape of one unit. -/
def unitEscape (n : Nat) : List Char := '\\' :: 'u' :: hexPadded 4 n

/-- The escapes of a character, two of them beyond the first plane. -/
def unitEscapes (c : Char) : List Char :=
  let n := c.toNat
  if n < 0x10000 then unitEscape n
  else unitEscape (0xD800 + (n - 0x10000) / 0x400) ++ unitEscape (0xDC00 + (n - 0x10000) % 0x400)

/-- How a character is written inside quotes. -/
def writeChar (asciiOnly : Bool) (c : Char) : List Char :=
  if c = '"' ∨ c = '\\' then ['\\', c]
  else if c = '\n' then ['\\', 'n']
  else if c = '\r' then ['\\', 'r']
  else if c = '\t' then ['\\', 't']
  else if c = '\x08' then ['\\', 'b']
  else if c = '\x0c' then ['\\', 'f']
  else if c.toNat < 0x20 then unitEscape c.toNat
  else if asciiOnly && 0x7F ≤ c.toNat then unitEscapes c
  else [c]

def writeText (asciiOnly : Bool) (s : String) : String :=
  String.ofList ('"' :: s.toList.flatMap (writeChar asciiOnly) ++ ['"'])

def writeNumber : Number → String
  | .int n => toString n
  | .real .nan => "NaN"
  | .real (.infinite false) => "Infinity"
  | .real (.infinite true) => "-Infinity"
  | .real x => x.text

/-- A new line at a level. -/
def newline (level : Nat) : String := String.ofList ('\n' :: List.replicate (2 * level) ' ')

/-- Parts between brackets, each on its line. -/
def spread (level : Nat) (start stop : String) (parts : List String) : String :=
  if parts.isEmpty then start ++ stop
  else start ++ newline (level + 1) ++ joinWith ("," ++ newline (level + 1)) parts ++
    newline level ++ stop

mutual

/-- A value at a level of indentation. -/
def write (asciiOnly : Bool) (level : Nat) : Datum → String
  | .null => "null"
  | .bool b => if b then "true" else "false"
  | .number n => writeNumber n
  | .text s => writeText asciiOnly s
  | .list items => spread level "[" "]" (writeItems asciiOnly (level + 1) items)
  | .record fields => spread level "\x7b" "\x7d" (writeFields asciiOnly (level + 1) fields)
termination_by structural d => d

def writeItems (asciiOnly : Bool) (level : Nat) : List Datum → List String
  | [] => []
  | d :: ds => write asciiOnly level d :: writeItems asciiOnly level ds
termination_by structural d => d

def writeFields (asciiOnly : Bool) (level : Nat) : List (String × Datum) → List String
  | [] => []
  | (k, d) :: fs =>
    (writeText asciiOnly k ++ ": " ++ write asciiOnly level d) :: writeFields asciiOnly level fs
termination_by structural d => d

end

end SeededPlay.Json

/-
# `SeededPlay.CommandLine.Report` — what a command says

A report is made of single lines, panels with a title, and tables.  A command writes
them with style tags, and a terminal shows their texts (`Block.shown`).  The lines of
a block that is shown are its texts without frames and padding: no line is empty, and
blanks are single.
-/
import SeededPlay.CommandLine.Terminal

namespace SeededPlay.CommandLine

inductive Block where
  | line (text : String)
  | panel (title content : String)
  | table (title : String) (header : List String) (rows : List (List String))
deriving DecidableEq, Repr

namespace Block

/-! ## Texts on a terminal -/

/-- The texts of a block as a terminal shows them; it may refuse any of them. -/
def shown (terminal : Terminal) : Block → Except Fault Block
  | .line text => return .line (← terminal.render text)
  | .panel title content => return .panel (← terminal.render title) (← terminal.render content)
  | .table title header rows =>
    return .table (← terminal.render title) (← header.mapM terminal.render)
      (← rows.mapM fun cells => cells.mapM terminal.render)

/-! ## Lines -/

/-- Whether a character belongs to a drawing of frames. -/
def isFrame (c : Char) : Bool := 0x2500 ≤ c.toNat && c.toNat ≤ 0x257F

/-- A text without frames and with single blanks. -/
def squeeze (cs : List Char) : String :=
  let blanked := cs.map fun c => if Text.isBlank c || isFrame c then ' ' else c
  Text.joinWith " " (((Text.splitChars ' ' blanked).filter (!·.isEmpty)).map String.ofList)

/-- The lines of a text, empty ones left out. -/
def linesOf (cs : List Char) : List String :=
  ((Text.splitChars '\n' cs).map squeeze).filter (!·.isEmpty)

/-! ## Titles of tables -/

/-- The words of a text, each with the blanks behind it, the first also with those
before it. -/
def wordsOf (cs : List Char) : List (List Char) :=
  let front := cs.takeWhile Text.isBlank
  let rec go (cs word : List Char) (ended : Bool) : List (List Char) :=
    match cs with
    | [] => [word]
    | c :: rest =>
      if Text.isBlank c then go rest (word ++ [c]) true
      else if ended then word :: go rest [c] false
      else go rest (word ++ [c]) false
  match cs.drop front.length with
  | [] => []
  | rest => go rest front false

/-- A text in pieces of a width; `fuel` bounds their number. -/
def chop (width : Nat) : Nat → List Char → List (List Char)
  | 0, cs => [cs]
  | fuel + 1, cs =>
    if cs.length ≤ width then [cs] else cs.take width :: chop width fuel (cs.drop width)

/-- Words put into lines of a width.  A word goes on the line if it fits without the
blanks behind it, on a new line if it fits there, and is chopped otherwise. -/
def fill (width : Nat) : List Char → List (List Char) → List (List Char)
  | row, [] => [row]
  | row, w :: ws =>
    let size := (w.reverse.dropWhile Text.isBlank).length
    if row.length + size ≤ width then fill width (row ++ w) ws
    else if size ≤ width then row :: fill width w ws
    else
      let pieces := chop width w.length w
      let full := pieces.dropLast
      (if row.isEmpty then full else row :: full) ++ fill width (pieces.getLastD []) ws

/-- The lines of a title above a table of a width, each character one column wide. -/
def titleLines (width : Nat) (title : String) : List String :=
  (Text.splitChars '\n' title.toList).flatMap fun cs =>
    (fill width [] (wordsOf cs)).flatMap linesOf

/-- The width of a table: its widest cells, a blank on both sides of each, and the frame. -/
def tableWidth (header : List String) (rows : List (List String)) : Nat :=
  let widest (i : Nat) : Nat :=
    ((header :: rows).map fun cells => (cells.getD i "").length).foldl max 0
  (List.range header.length).foldl (fun width i => width + widest i + 3) 1

/-- The lines of a block. -/
def lines : Block → List String
  | .line text => linesOf text.toList
  | .panel title content => linesOf title.toList ++ linesOf content.toList
  | .table title header rows =>
    titleLines (tableWidth header rows) title ++
      (header :: rows).flatMap fun cells => linesOf (Text.joinWith " " cells).toList

end Block

end SeededPlay.CommandLine

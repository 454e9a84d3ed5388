/-
# `SeededPlay.CommandLine.Terminal` — where a command says what it says

The commands write texts with style tags in square brackets, such as `[dim]unknown[/dim]`, and
hand them to a terminal.  What a terminal shows of a text is its own affair, and so is which tags
it knows: the commands take the terminal as a parameter, and ask nothing of it but what stands in
`Terminal.Plain`.  Codes and events are put between the tags as they were typed.  A bracket among
them may be taken for a tag, so a terminal may refuse such a text, and then the command fails.

The program itself is run on `Terminal.bare`, which has no styles.
-/
import SeededPlay.Fault
import SeededPlay.Text.Basic

namespace SeededPlay.CommandLine

/-- A terminal, by what it shows of a text with style tags; none if it refuses the text. -/
structure Terminal where
  shown? : String → Option String

namespace Terminal

/-- What a terminal shows; a text that it refuses is a fault. -/
def render (t : Terminal) (s : String) : Except Fault String :=
  match t.shown? s with
  | some shown => .ok shown
  | none => .error .unopenedTag

/-- What is asked of a terminal.  It shows a text without an opening bracket, in which there can
be no tag, also with a tag in front and the end of it behind. -/
structure Plain (t : Terminal) : Prop where
  text : ∀ s : String, '[' ∉ s.toList → ∃ shown, t.shown? s = some shown
  dim : ∀ s : String, '[' ∉ s.toList → ∃ shown, t.shown? ("[dim]" ++ s ++ "[/dim]") = some shown

/-! ## A terminal without styles -/

/-- The tags that the commands write. -/
def styleTags : List (List Char) :=
  ["bold", "dim", "yellow", "magenta"].flatMap fun style =>
    [("[" ++ style ++ "]").toList, ("[/" ++ style ++ "]").toList]

/-- Whether a character would ring or move the cursor. -/
def isControl (c : Char) : Bool :=
  c == '\x07' || c == '\x08' || c == '\x0b' || c == '\x0c' || c == '\r'

/-- A text without those tags and characters; so many characters at its front belong to a tag
that is being left out. -/
def withoutStyle : Nat → List Char → List Char
  | _, [] => []
  | skip + 1, _ :: cs => withoutStyle skip cs
  | 0, c :: cs =>
    match styleTags.find? (Text.beginsWith · (c :: cs)) with
    | some tag => withoutStyle (tag.length - 1) cs
    | none => if isControl c then withoutStyle 0 cs else c :: withoutStyle 0 cs

/-- A terminal that leaves out the tags of the commands and shows everything else as it stands. -/
def bare : Terminal := ⟨fun s => some (String.ofList (withoutStyle 0 s.toList))⟩

end Terminal

end SeededPlay.CommandLine

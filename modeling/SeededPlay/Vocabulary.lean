/-
# `SeededPlay.Vocabulary` — closed lists of words

Most choices of a game are picked from a fixed list.  Each list is an inductive
type with a word for every member; `ofWord?` finds the member of a word, and
`ofWord?_word` says that it undoes `word`.
-/
import SeededPlay.Datum

namespace SeededPlay

/-- A type whose members are named by words. -/
class Vocabulary (α : Type) where
  /-- The members, in the order in which messages show them. -/
  members : List α
  /-- The word of a member. -/
  word : α → String
  /-- Every member is listed, and is the only one with its word. -/
  find?_word : ∀ a, members.find? (fun b => word b == word a) = some a := by
    intro a; cases a <;> rfl

namespace Vocabulary

variable {α : Type} [Vocabulary α]

/-- The member that a word names. -/
def ofWord? (s : String) : Option α := members.find? fun a => word a == s

/-- The member that a raw value names; only texts name one. -/
def ofDatum? : Datum → Option α
  | .text s => ofWord? s
  | _ => none

/-- The word of a member as a raw value. -/
def datum (a : α) : Datum := .text (word a)

/-- Words in quotes, the last one after "or". -/
def quotedChoice : List String → String
  | [] => ""
  | [a] => "'" ++ a ++ "'"
  | [a, b] => "'" ++ a ++ "' or '" ++ b ++ "'"
  | a :: rest => "'" ++ a ++ "', " ++ quotedChoice rest

/-- The words of the list in quotes. -/
def choiceText (α : Type) [Vocabulary α] : String :=
  quotedChoice ((members : List α).map word)

@[simp] theorem ofWord?_word (a : α) : ofWord? (word a) = some a := find?_word a

@[simp] theorem ofDatum?_datum (a : α) : ofDatum? (datum a) = some a := find?_word a

theorem mem_members (a : α) : a ∈ (members : List α) := List.mem_of_find?_eq_some (find?_word a)

theorem word_injective {a b : α} (h : word a = word b) : a = b := by
  have ha := ofWord?_word a
  rw [h, ofWord?_word] at ha
  exact (Option.some.inj ha).symm

theorem word_of_ofWord? {s : String} {a : α} (h : ofWord? s = some a) : word a = s := by
  simpa using List.find?_some h

end Vocabulary

end SeededPlay

/-
# `SeededPlay.Rules.Condition` — when rules apply

    (empty)            always
    flag:key_found     the flag is up
    has:shoot          the player has the ability
    health>0           a named number compares with a constant
    anything else      unknown, which counts as true

Reading is total unless the reader is strict.  A comparison reads the state value
as a double: a missing value is zero, a value that is no number is nan, which
compares with nothing and differs from everything.
-/
import SeededPlay.Rules.Phrase
import SeededPlay.Play.State

namespace SeededPlay

inductive Comparator where
  | gt | ge | lt | le | eq | ne
deriving DecidableEq, Repr, Inhabited

namespace Comparator

def all : List Comparator := [.gt, .ge, .lt, .le, .eq, .ne]

def chars : Comparator → List Char
  | .gt => ['>']
  | .ge => ['>', '=']
  | .lt => ['<']
  | .le => ['<', '=']
  | .eq => ['=', '=']
  | .ne => ['!', '=']

def ofChars? (cs : List Char) : Option Comparator := all.find? (·.chars == cs)

/-- Whether two numbers compare. -/
def compare (c : Comparator) (a b : Number) : Bool :=
  match c with
  | .gt => b.lt a
  | .ge => b.le a
  | .lt => a.lt b
  | .le => a.le b
  | .eq => a.same b
  | .ne => !a.same b

end Comparator

inductive Condition where
  | always
  | flag (name : String)
  | has (name : String)
  | compare (field : String) (comparator : Comparator) (target : Number) (text : String)
  | unknown (text : String)
deriving DecidableEq, Repr, Inhabited

namespace Condition

/-- The text of a condition. -/
def text : Condition → String
  | .always => ""
  | .flag name => "flag:" ++ name
  | .has name => "has:" ++ name
  | .compare _ _ _ text => text
  | .unknown text => text

/-! ## Reading -/

/-- The condition that a phrase means; none when its argument does not suit it. -/
def ofPhrase (p : Phrase) (text : String) : Except Fault (Option Condition) :=
  if p.operator = [':'] then
    match p.name with
    | "flag" => .ok (p.word?.map .flag)
    | "has" => .ok (p.word?.map .has)
    | _ => .ok none
  else
    match Comparator.ofChars? p.operator, p.numeral? with
    | some c, some n => (Phrase.numberOf n).map fun target => some (.compare p.name c target text)
    | _, _ => .ok none

/-- The condition that a text means. -/
def parse (strict : Bool) (text : String) : Except Fault Condition := do
  if text.toList.all Text.isBlank then return .always
  let condition ← match Phrase.ofText? text with
    | some p => ofPhrase p text
    | none => .ok none
  match condition with
  | some c => return c
  | none => if strict then throw (.unparsable ⟨.condition, text⟩) else return .unknown text

/-- The condition of a rule, which may have none. -/
def parseOption (strict : Bool) : Option String → Except Fault Condition
  | some text => parse strict text
  | none => .ok .always

/-- A raw value read as a condition; what is no text always holds. -/
def parseDatum (strict : Bool) : Datum → Except Fault Condition
  | .text s => parse strict s
  | _ => .ok .always

/-! ## Holding -/

/-- A state value as the double that a comparison sees. -/
def measured : Option Datum → Except Fault Binary64
  | none => .ok .zero
  | some .null => .ok .zero
  | some d => match d.toReal with
    | .ok x => .ok x
    | .error .outOfRange => .error .outOfRange
    | .error _ => .ok .nan

/-- Whether the condition holds in a state. -/
def holds (c : Condition) (s : GameState) : Except Fault Bool :=
  match c with
  | .always => .ok true
  | .unknown _ => .ok true
  | .flag name => (GameState.member s.flags name).map fun d => match d with
    | some (.bool true) => true
    | _ => false
  | .has name => .ok (match s.abilities with
    | .list items => items.any fun d => match d with
      | .text t => t == name
      | _ => false
    | _ => false)
  | .compare field op target _ => do
    let x ← measured (← s.valueOf field)
    return op.compare (.real x) target

end Condition

end SeededPlay

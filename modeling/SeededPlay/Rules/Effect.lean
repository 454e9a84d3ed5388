/-
# `SeededPlay.Rules.Effect` — what rules do

    score+1         arithmetic on a named number
    chaos:trigger   a trigger for an outside system
    spawn:enemy     a signal with a word
    door=open       a flag that is set; assignments always land among the flags
    anything else   a custom signal that carries its text

Reading is total: a text outside the language is a custom effect, or, when the
reader is strict, a fault.  Applying an effect changes the score, the health, the
level or the flags; every other effect is only reported.
-/
import SeededPlay.Rules.Phrase
import SeededPlay.Play.State

namespace SeededPlay

inductive Sign where
  | plus
  | minus
deriving DecidableEq, Repr, Inhabited

namespace Sign

def char : Sign → Char
  | .plus => '+'
  | .minus => '-'

def flip : Sign → Sign
  | .plus => .minus
  | .minus => .plus

/-- An amount with its sign. -/
def apply : Sign → Number → Number
  | .plus, n => n
  | .minus, n => n.neg

end Sign

inductive Effect where
  | arithmetic (name : String) (sign : Sign) (amount : Number)
  | trigger (name : String)
  | signal (name word : String)
  | flag (word : String)
  | custom (text : String)
deriving DecidableEq, Repr, Inhabited

namespace Effect

/-- What the effect is about. -/
def type : Effect → String
  | .arithmetic name _ _ => name
  | .trigger name => name
  | .signal name _ => name
  | .flag _ => "flag"
  | .custom _ => "custom"

/-- How the effect is written between its type and its value. -/
def operatorText : Effect → String
  | .arithmetic _ sign _ => String.singleton sign.char
  | .trigger _ => "trigger"
  | .signal _ _ => ":"
  | .flag _ => "="
  | .custom _ => "trigger"

/-- What the effect carries. -/
def value : Effect → Datum
  | .arithmetic _ _ amount => .number amount
  | .trigger _ => .text "trigger"
  | .signal _ word => .text word
  | .flag word => .text word
  | .custom text => .text text

/-! ## Reading -/

/-- The effect that a phrase means; none when its argument does not suit its operator. -/
def ofPhrase (p : Phrase) : Except Fault (Option Effect) :=
  let arithmetic (sign : Sign) : Except Fault (Option Effect) :=
    match p.numeral? with
    | some n => (Phrase.numberOf n).map fun amount => some (.arithmetic p.name sign amount)
    | none => .ok none
  match p.operator with
  | ['+'] => arithmetic .plus
  | ['-'] => arithmetic .minus
  | [':'] => .ok (p.word?.map fun w => if w = "trigger" then .trigger p.name else .signal p.name w)
  | ['='] => .ok (p.word?.map .flag)
  | _ => .ok none

/-- The effect that a text means. -/
def parse (strict : Bool) (text : String) : Except Fault Effect := do
  let effect ← match Phrase.ofText? text with
    | some p => ofPhrase p
    | none => .ok none
  match effect with
  | some e => return e
  | none => if strict then throw (.unparsable ⟨.effect, text⟩) else return .custom text

/-- A raw value read as an effect; what is no text counts as the empty one. -/
def parseDatum (strict : Bool) : Datum → Except Fault Effect
  | .text s => parse strict s
  | _ => parse strict ""

/-! ## Applying -/

/-- A flag put up in a state. -/
def raiseFlag (s : GameState) (word : String) : Except Fault GameState :=
  match s.flags with
  | .record fields => .ok { s with flags := .record (Fields.set fields word (.bool true)) }
  | _ => .error .wrongKind

/-- The state after an effect. -/
def apply (e : Effect) (s : GameState) : Except Fault GameState :=
  match e with
  | .arithmetic "score" sign n => do return { s with score := ← s.score.plus (sign.apply n) }
  | .arithmetic "health" sign n => do return { s with health := ← s.health.plus (sign.apply n) }
  | .arithmetic "level" sign n => do return { s with level := ← s.level.plus (sign.apply n) }
  | .flag word => raiseFlag s word
  | _ => .ok s

end Effect

end SeededPlay

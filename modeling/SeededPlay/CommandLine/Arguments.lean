/-
# `SeededPlay.CommandLine.Arguments` — options and values on a command line

Words that start with a dash are options, except numbers below zero, words with a
blank in them, and everything behind a lone double dash.  A long option may be
shortened as long as it stays unique, and may carry its value behind an equals
sign.  A grammar says which options there are, how many values each takes, and
whether one more value stands by itself.
-/
import SeededPlay.Text.Basic

namespace SeededPlay.CommandLine

/-- How many values an option takes. -/
inductive Arity where
  | nothing
  | one
  | any
  | several
deriving DecidableEq, Repr

structure Grammar where
  /-- The long options without `--help`, which is always there. -/
  options : List (String × Arity)
  /-- Whether one value stands by itself. -/
  hasOperand : Bool
deriving Repr

/-- Why a command line is not carried out. -/
inductive Stop where
  /-- It does not follow the grammar. -/
  | usage
  /-- It asks for help. -/
  | help
deriving DecidableEq, Repr

/-- A word of a command line, seen by a grammar. -/
inductive Word where
  | option (name : String) (arity : Arity) (inline : Option String)
  | help
  /-- It looks like an option and is none. -/
  | stray
  | value (text : String)
  /-- The lone double dash. -/
  | separator
deriving DecidableEq, Repr

/-! ## Words -/

/-- Whether a word is a number below zero. -/
def isNegativeNumber (cs : List Char) : Bool :=
  match cs with
  | '-' :: ds =>
    let whole := ds.takeWhile Text.isDigit
    match ds.dropWhile Text.isDigit with
    | [] => !whole.isEmpty
    | '.' :: frac => !frac.isEmpty && frac.all Text.isDigit
    | _ => false
  | _ => false

/-- The part before an equals sign, and the part behind it if there is one. -/
def splitEquals (cs : List Char) : List Char × Option String :=
  let name := cs.takeWhile (· ≠ '=')
  (name, if cs.contains '=' then some (String.ofList (cs.drop (name.length + 1))) else none)

namespace Grammar

/-- The options that a shortened name may stand for. -/
def matching (g : Grammar) (name : List Char) : List (String × Arity) :=
  (("--help", .nothing) :: g.options).filter fun o => Text.beginsWith name o.1.toList

/-- The word of an option. -/
def optionWord (o : String × Arity) (inline : Option String) : Word :=
  if o.1 = "--help" ∧ inline = none then .help else .option o.1 o.2 inline

/-- A word that is no option by name. -/
def plainWord (s : String) : Word :=
  if isNegativeNumber s.toList || s.toList.contains ' ' then .value s else .stray

/-- One word. -/
def classify (g : Grammar) (s : String) : Except Stop Word :=
  match s.toList with
  | [] => .ok (.value s)
  | [_] => .ok (.value s)
  | '-' :: '-' :: _ =>
    let (name, inline) := splitEquals s.toList
    match (("--help", .nothing) :: g.options).find? (·.1.toList == name) with
    | some o => .ok (optionWord o inline)
    | none => match g.matching name with
      | [] => .ok (plainWord s)
      | [o] => .ok (optionWord o inline)
      | _ => .error .usage
  | ['-', 'h'] => .ok .help
  | '-' :: 'h' :: _ => .error .usage
  | '-' :: _ => .ok (plainWord s)
  | _ => .ok (.value s)

/-- All words; behind the first lone double dash there are only values. -/
def words (g : Grammar) : List String → Except Stop (List Word)
  | [] => .ok []
  | s :: rest =>
    if s = "--" then .ok (.separator :: rest.map .value)
    else do return (← g.classify s) :: (← g.words rest)

end Grammar

/-! ## Reading -/

/-- What a command line says. -/
structure Reading where
  /-- The options with their values, in order. -/
  options : List (String × List String) := []
  operand : Option String := none
deriving DecidableEq, Repr

namespace Reading

/-- The values at the front. -/
def leading : List Word → List String
  | .value s :: rest => s :: leading rest
  | _ => []

/-- How many words the values of an option take up; none if they do not suit it. -/
def taken? (arity : Arity) (rest : List Word) : Option (List String) :=
  match arity, leading rest with
  | .nothing, _ => some []
  | .one, s :: _ => some [s]
  | .one, [] => none
  | .any, vs => some vs
  | .several, [] => none
  | .several, vs => some vs

/-- The operand at the front, a double dash before or behind it dropped, with the
number of words it takes up. -/
def operandAt : List Word → Option (String × Nat)
  | .separator :: .value s :: _ => some (s, 2)
  | .value s :: .separator :: _ => some (s, 2)
  | .value s :: _ => some (s, 1)
  | _ => none

/-- Words read from the front.  A word left over spoils the whole line, but only when
its end is reached. -/
def walk (g : Grammar) (r : Reading) (spoilt : Bool) : List Word → Except Stop Reading
  | [] => if spoilt then .error .usage else .ok r
  | .help :: _ => .error .help
  | .stray :: rest => walk g r true rest
  | .option _ .nothing (some _) :: _ => .error .usage
  | .option name _ (some v) :: rest =>
    walk g { r with options := r.options ++ [(name, [v])] } spoilt rest
  | .option name arity none :: rest =>
    match taken? arity rest with
    | some vs =>
      walk g { r with options := r.options ++ [(name, vs)] } spoilt (rest.drop vs.length)
    | none => .error .usage
  | w :: rest =>
    match g.hasOperand && r.operand.isNone, operandAt (w :: rest) with
    | true, some (s, n) => walk g { r with operand := some s } spoilt (rest.drop (n - 1))
    | _, _ => walk g r true rest
termination_by ws => ws.length
decreasing_by all_goals simp only [List.length_cons, List.length_drop]; omega

/-- Words read by a grammar; a missing operand is a mistake. -/
def ofWords (g : Grammar) (ws : List Word) : Except Stop Reading := do
  let r ← walk g {} false ws
  if g.hasOperand && r.operand.isNone then throw .usage
  return r

/-- A command line read by a grammar. -/
def ofArguments (g : Grammar) (args : List String) : Except Stop Reading := do
  ofWords g (← g.words args)

/-- The values that an option was last given. -/
def last? (r : Reading) (name : String) : Option (List String) :=
  (r.options.reverse.find? (·.1 = name)).map (·.2)

end Reading

end SeededPlay.CommandLine

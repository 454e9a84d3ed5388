/-
# `SeededPlay.CommandLine.Command` — the four commands

    encode     choices and a seed to a seed code
    decode     a seed code to its fields; fails if nothing was recognised
    generate   choices to a game, as a report or as a record
    play       events played on the game of a seed code

A command line that does not follow the grammar ends with code 2 and says nothing
here.  Everything else that goes wrong is a fault, also a text that the terminal refuses
to show.
-/
import SeededPlay.CommandLine.Arguments
import SeededPlay.CommandLine.Report
import SeededPlay.Play.Session
import SeededPlay.Text.Json

namespace SeededPlay.CommandLine

inductive Output where
  | nothing
  | text (s : String)
  | report (blocks : List Block)
deriving DecidableEq, Repr

/-- The end of a command: its exit code and what it says. -/
structure Answer where
  code : Nat
  output : Output
deriving DecidableEq, Repr

/-- Choices as the options give them. -/
structure ChoiceOptions where
  verbs : List String := ["jump"]
  gravity : String := "normal"
  world : String := "colors_alive"
  difficulty : String := "steady"
  pace : String := "medium"
  chaos : Int := 0
deriving DecidableEq, Repr

inductive Command where
  | encode (choices : ChoiceOptions) (seed : Int)
  | decode (code : String)
  | generate (choices : ChoiceOptions) (seed : Option Int) (asRecord : Bool)
  | play (code : String) (events : List String) (tick : Binary64)
deriving DecidableEq, Repr

/-! ## Reading values -/

/-- A failure on the way to a command: the line is refused, or something faults. -/
inductive Failure where
  | stop (why : Stop)
  | fault (what : Fault)

/-- The values of an option without the first double dash among them. -/
def valuesOf (r : Reading) (name : String) : Option (List String) :=
  (r.last? name).map (·.erase "--")

/-- The values of an option, each from a list of words. -/
def listOf (r : Reading) (name : String) (words : List String) (other : List String) :
    Except Failure (List String) :=
  match valuesOf r name with
  | none => .ok other
  | some vs => if vs.all words.contains then .ok vs else .error (.stop .usage)

/-- The one value of an option. -/
def textOf? (r : Reading) (name : String) : Except Failure (Option String) :=
  match valuesOf r name with
  | none => .ok none
  | some [s] => .ok (some s)
  | some vs => .error (.fault (.itemCount 1 vs.length))

/-- The one value of an option, from a list of words. -/
def wordOf (r : Reading) (name : String) (words : List String) (other : String) :
    Except Failure String := do
  match ← textOf? r name with
  | none => return other
  | some s => if words.contains s then return s else throw (.stop .usage)

/-- The one value of an option as an integer. -/
def intOf? (r : Reading) (name : String) : Except Failure (Option Int) := do
  match ← textOf? r name with
  | none => return none
  | some s => match Numeral.readInt s with
    | .ok n => return some n
    | .error _ => throw (.stop .usage)

/-- The one value of an option as a double, zero if it is not given. -/
def realOf (r : Reading) (name : String) : Except Failure Binary64 := do
  match ← textOf? r name with
  | none => return .zero
  | some s => match Numeral.readReal? s with
    | some x => return x
    | none => throw (.stop .usage)

/-- The words of a vocabulary. -/
def wordsOf (α : Type) [Vocabulary α] : List String :=
  (Vocabulary.members : List α).map Vocabulary.word

/-! ## Reading commands -/

def choiceGrammar : List (String × Arity) :=
  [("--verbs", .several), ("--gravity", .one), ("--world", .one), ("--difficulty", .one),
   ("--pace", .one), ("--chaos", .one)]

def encodeGrammar : Grammar := ⟨choiceGrammar ++ [("--seed", .one)], false⟩

def decodeGrammar : Grammar := ⟨[], true⟩

def generateGrammar : Grammar := ⟨choiceGrammar ++ [("--seed", .one), ("--json", .nothing)], false⟩

def playGrammar : Grammar := ⟨[("--events", .any), ("--tick", .one)], true⟩

/-- A command line read by a grammar. -/
def readBy (g : Grammar) (args : List String) : Except Failure Reading :=
  (Reading.ofArguments g args).mapError .stop

def choiceOptions (r : Reading) : Except Failure ChoiceOptions := do
  return {
    verbs := ← listOf r "--verbs" (wordsOf Verb) ["jump"]
    gravity := ← wordOf r "--gravity" (wordsOf Gravity) "normal"
    world := (← textOf? r "--world").getD "colors_alive"
    difficulty := ← wordOf r "--difficulty" (wordsOf Difficulty) "steady"
    pace := ← wordOf r "--pace" (wordsOf Pace) "medium"
    chaos := (← intOf? r "--chaos").getD 0 }

/-- The command of a name and its arguments. -/
def Command.ofArguments (name : String) (args : List String) : Except Failure Command :=
  match name with
  | "encode" => do
    let r ← readBy encodeGrammar args
    return .encode (← choiceOptions r) ((← intOf? r "--seed").getD 0)
  | "decode" => do
    let r ← readBy decodeGrammar args
    return .decode (r.operand.getD "")
  | "generate" => do
    let r ← readBy generateGrammar args
    return .generate (← choiceOptions r) (← intOf? r "--seed") (r.last? "--json").isSome
  | "play" => do
    let r ← readBy playGrammar args
    return .play (r.operand.getD "") ((valuesOf r "--events").getD []) (← realOf r "--tick")
  | _ => .error (.stop .usage)

/-- The grammar of what stands before a command. -/
def frontGrammar : Grammar := ⟨[("--log-level", .one)], false⟩

/-- A log level and a command.  A word left over in front spoils the line. -/
def readFront (spoilt : Bool) (level : Option String) :
    List String → Except Failure (Option String × Command)
  | [] => .error (.stop .usage)
  | "--" :: _ => .error (.stop .usage)
  | s :: rest => do
    match ← (frontGrammar.classify s).mapError .stop with
    | .help => throw (.stop .help)
    | .stray => readFront true level rest
    | .option _ .one (some v) => readFront spoilt (some v) rest
    | .option _ .one none =>
      match rest with
      | v :: rest =>
        match ← (frontGrammar.classify v).mapError .stop with
        | .value v =>
          if v = "--" then throw (.stop .usage) else readFront spoilt (some v) rest
        | _ => throw (.stop .usage)
      | [] => throw (.stop .usage)
    | .value name =>
      let command ← Command.ofArguments name rest
      if spoilt then throw (.stop .usage)
      return (level, command)
    | _ => throw (.stop .usage)

/-! ## Carrying out -/

namespace ChoiceOptions

/-- The choices that options ask for. -/
def choices (o : ChoiceOptions) : Except Fault Choices :=
  (Choices.read (.record [("verbs", .list (o.verbs.map .text)), ("gravity", .text o.gravity),
    ("world_difference", .text o.world), ("difficulty_style", .text o.difficulty),
    ("game_pace", .text o.pace), ("chaos_level", .int o.chaos)])).toExcept

end ChoiceOptions

/-- The blocks of a report as a terminal shows them, one after another. -/
def report (terminal : Terminal) (blocks : List Block) : Except Fault Output := do
  return .report (← blocks.mapM (·.shown terminal))

def encode (settings : Settings) (terminal : Terminal) (o : ChoiceOptions) (seed : Int) :
    Except Fault Answer := do
  let c ← o.choices
  let code ← SeedCode.encode c.heading (.int seed)
  return ⟨0, ← report terminal [.panel "Seed Code"
    ("[bold]" ++ code ++ "[/bold]\n" ++ SeedCode.shareAddress settings.sharePrefix code)]⟩

/-- The fields of a code, the unknown ones said to be so. -/
def fieldRows (r : SeedCode.Recovered) : List (List String) :=
  r.fields.map fun (name, d) => [name, match d with
    | .null => "[dim]unknown[/dim]"
    | d => d.plain]

def decode (terminal : Terminal) (code : String) : Except Fault Answer := do
  let r := SeedCode.decode code
  let output ← report terminal [.table ("Decoded " ++ code) ["Field", "Value"] (fieldRows r)]
  return ⟨if r.isBlank then 1 else 0, output⟩

def gamePanel (g : Game) : Block :=
  .panel "Generated Game" (Text.joinWith "\n" ["[bold]" ++ g.name ++ "[/bold]", "",
    "Seed Code: " ++ g.code, "Rules: " ++ toString g.rules.length,
    "Chaos: " ++ toString g.chaos.level ++ " (" ++ Vocabulary.word g.chaos.tier ++ "), " ++
      toString g.chaos.mutations.length ++ " mutations eligible",
    "Loops: " ++ toString g.loops.positive.length ++ " positive, " ++
      toString g.loops.negative.length ++ " negative"])

def ruleTable (rules : List Rule) : Block :=
  .table "Rules" ["Trigger", "Condition", "Action", "Effect"]
    (rules.map fun r => [r.trigger, r.condition.getD "", r.action, r.effect])

def generate (settings : Settings) (terminal : Terminal) (o : ChoiceOptions) (seed : Option Int)
    (asRecord : Bool) (entropy : UInt32) : Except Fault Answer := do
  let c ← o.choices
  let g ← Game.create settings c (seed.map .int) entropy
  if asRecord then return ⟨0, .text (Json.write false 0 g.dump ++ "\n")⟩
  return ⟨0, ← report terminal ([gamePanel g, ruleTable g.rules] ++
    g.review.warnings.map (fun w => .line ("[yellow]⚠️  " ++ w ++ "[/yellow]")) ++
    g.review.suggestions.map (fun s => .line ("[dim]- " ++ s ++ "[/dim]")))⟩

/-- An effect in short. -/
def effectText (e : Effect) : String := e.type ++ e.operatorText ++ e.value.plain

/-- One event played, and the clock moved unless the step is zero; the lines it gives.  Each is
shown before anything else happens. -/
def playEvent (terminal : Terminal) (tick : Binary64) (event : String) :
    Attempt Session (List Block) := do
  let effects ← Session.handle (.text event)
  let outcome := if effects.isEmpty then "[dim]no rule[/dim]"
    else Text.joinWith ", " (effects.map effectText)
  let first ← Attempt.lift ((Block.line (event ++ ": " ++ outcome)).shown terminal)
  if tick.isZero then return [first]
  match ← Session.tick (.real tick) with
  | some a =>
    let second ← Attempt.lift
      ((Block.line ("  [magenta]chaos: " ++ a.id ++ "[/magenta]")).shown terminal)
    return [first, second]
  | none => return [first]

/-- Events played one after another. -/
def playEvents (terminal : Terminal) (tick : Binary64) :
    List String → Attempt Session (List Block)
  | [] => return []
  | e :: es => do return (← playEvent terminal tick e) ++ (← playEvents terminal tick es)

/-- Words in a row, a dash for none. -/
def wordRow (words : List String) : String :=
  if words.isEmpty then "-" else Text.joinWith ", " words

/-- The flags that are up. -/
def flagsUp (flags : Datum) : List String :=
  match flags with
  | .record fs => (fs.filter (·.2.isPresent)).map (·.1)
  | _ => []

def sessionPanel (s : Session) : Block :=
  .panel ("Session " ++ s.game.code)
    (Text.joinWith "\n"
      ["Score: " ++ s.state.score.plain ++ "  Health: " ++ s.state.health.plain ++
        "  Level: " ++ s.state.level.plain,
       "Flags: " ++ wordRow (flagsUp s.state.flags),
       "Chaos tier: " ++ Vocabulary.word s.chaos.tier ++ "  Active: " ++
        wordRow (s.chaos.active.map (·.id))])

def play (settings : Settings) (terminal : Terminal) (code : String) (events : List String)
    (tick : Binary64) : Except Fault Answer := do
  let s ← Session.start (← Game.restore settings code) settings.strict
  match playEvents terminal tick events s with
  | .ok blocks s => return ⟨0, .report (blocks ++ [← (sessionPanel s).shown terminal])⟩
  | .error e _ => throw e

/-- A command carried out; `entropy` stands in for a seed that is not given. -/
def Command.run (settings : Settings) (terminal : Terminal) (entropy : UInt32) :
    Command → Except Fault Answer
  | .encode o seed => CommandLine.encode settings terminal o seed
  | .decode code => CommandLine.decode terminal code
  | .generate o seed asRecord =>
    CommandLine.generate settings terminal o seed asRecord entropy
  | .play code events tick => CommandLine.play settings terminal code events tick

/-- A whole command line carried out. -/
def run (settings : Settings) (entropy : UInt32) (args : List String)
    (terminal : Terminal := .bare) : Except Fault Answer :=
  match readFront false none args with
  | .error (.stop .usage) => .ok ⟨2, .nothing⟩
  | .error (.stop .help) => .ok ⟨0, .nothing⟩
  | .error (.fault e) => .error e
  | .ok (level, command) => do
    discard (Logging.levelOfDatum settings ((level.map .text).getD .null))
    command.run settings terminal entropy

end SeededPlay.CommandLine

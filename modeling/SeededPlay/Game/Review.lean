/-
# `SeededPlay.Game.Review` — is a game worth playing

A review lists warnings and suggestions; only warnings make a game invalid.

*Meaningful play.*  Every verb should be heard by some rule, and some rule that a
verb is linked to should move the score.  A verb is linked to a rule when the
trigger, the action or the condition holds one of its keywords.

*Difficulty.*  A curve should start accessible, span a range, give the player a
dip now and then, and never rise too steeply in one step.
-/
import SeededPlay.Game.Loops
import SeededPlay.Rules.Lint

namespace SeededPlay

structure Review where
  valid : Bool := true
  warnings : List String := []
  suggestions : List String := []
deriving DecidableEq, Repr, Inhabited

namespace Review

/-- A review that is valid when it warns of nothing. -/
def ofFindings (warnings suggestions : List String) : Review :=
  ⟨warnings.isEmpty, warnings, suggestions⟩

/-- The findings of several reviews, one after another. -/
def merge (reviews : List Review) : Review :=
  ofFindings (reviews.flatMap (·.warnings)) (reviews.flatMap (·.suggestions))

def read : Datum → Check Review :=
  Record.ofFields "ValidationSummary" fun fs =>
    Review.mk <$> Record.optionalField fs "valid" Record.bool true
      <*> Record.optionalField fs "warnings" (Record.list Record.text) []
      <*> Record.optionalField fs "suggestions" (Record.list Record.text) []

def dump (r : Review) : Datum :=
  .record [("valid", .bool r.valid), ("warnings", .list (r.warnings.map .text)),
    ("suggestions", .list (r.suggestions.map .text))]

/-- A finding that is listed only if it applies. -/
def findingIf (applies : Bool) (finding : String) : List String :=
  if applies then [finding] else []

end Review

/-! ## Meaningful play -/

/-- The words that link a rule to a verb. -/
def Verb.keywords : Verb → List String
  | .jump => ["jump", "stomp", "fall", "land", "goal"]
  | .shoot => ["shoot", "bullet", "projectile", "kill"]
  | .collect => ["collect", "coin", "item", "powerup", "key"]
  | .dodge => ["dodge", "near_miss", "survive", "dash"]
  | .build => ["build", "block", "place", "chain"]
  | .explore => ["explore", "discover", "area", "map"]
  | .push => ["push", "crate", "boulder"]
  | .activate => ["activate", "switch", "lever", "trigger"]
  | .craft => ["craft", "recipe", "material"]
  | .defend => ["defend", "wave", "shield", "base"]
  | .dash => ["dash", "boost", "speed"]

namespace Rule

/-- Whether a text in lower case holds one of some words. -/
def holdsAny (words : List String) (text : List Char) : Bool :=
  words.any fun w => Text.occursIn w.toList text

/-- The text of a rule in which verbs are looked for. -/
def linkText (r : Rule) : List Char :=
  let parts := [r.trigger, r.action, r.condition.getD ""].filter (!·.isEmpty)
  Text.lowerChars (Text.joinWith " " parts).toList

/-- Whether a rule is linked to a verb. -/
def isLinked (r : Rule) (v : Verb) : Bool := holdsAny v.keywords r.linkText

/-- Whether a rule moves the score. -/
def scores (r : Rule) : Bool :=
  Text.beginsWith "score".toList (Text.lowerChars r.effect.toList)

/-- The words of forward motion. -/
def progressWords : List String :=
  ["level", "unlock", "progress", "advance", "next", "complete", "win", "stage"]

/-- Whether a rule moves the game forward. -/
def progresses (r : Rule) : Bool :=
  holdsAny progressWords (Text.lowerChars (r.action ++ " " ++ r.effect).toList)

end Rule

namespace Review

def unheardVerb (v : Verb) : String :=
  "Verb \"" ++ Vocabulary.word v ++ "\" has no rule reacting to it. " ++
    "The player will press the button and nothing will happen."

def noScoring : String :=
  "No scoring rule is linked to any player verb. " ++
    "Actions will feel pointless because they do not affect the score."

def noProgress : String :=
  "No rule connects to a progression mechanic (level advance, unlock, etc.). " ++
    "The game may lack a sense of forward motion."

def noLoops : String :=
  "No feedback loops defined. Adding at least one positive and one negative loop " ++
    "improves the feeling that actions have consequences."

/-- What becomes of a text outside the rule language. -/
def fate : ExpressionKind → String
  | .condition => "treated as always true"
  | .effect => "passed through as a custom signal"

def outsideLanguage (u : Unparsable) : String :=
  "Rule " ++ u.kind.word ++ " " ++ Text.quoted u.text ++ " is not in the rule language " ++
    "and will be " ++ fate u.kind ++ "."

/-- The review of what the verbs of a game come to. -/
def ofPlay (verbs : List Verb) (rules : List Rule) (loops : LoopSet) : Except Fault Review := do
  let unheard := verbs.filter fun v => !rules.any (·.isLinked v)
  let scored := (rules.filter Rule.scores).any fun r => verbs.any r.isLinked
  let problems ← Lint.rules rules
  return ofFindings
    (unheard.map unheardVerb ++ findingIf (!scored) noScoring)
    (findingIf (!rules.any Rule.progresses) noProgress ++
      findingIf (loops.positive.isEmpty && loops.negative.isEmpty) noLoops ++
      problems.map outsideLanguage)

/-! ## Difficulty -/

/-- The highest accessible start. -/
def startLimit : Binary64 := .ofDecimal 4 (-1)

/-- The least range that does not feel flat. -/
def leastRange : Binary64 := .ofDecimal 15 (-2)

/-- The steepest comfortable step. -/
def steepestStep : Binary64 := .ofDecimal 35 (-2)

/-- The longest climb that needs no dip. -/
def longestClimb : Nat := 5

/-- The longest run of a climb that has come `current` points so far, the longest
before being `longest`, from the point `x` on. -/
def climbFrom (longest current : Nat) (x : Binary64) : List Binary64 → Nat
  | [] => longest
  | y :: ys =>
    let current := if x.lt y then current + 1 else 1
    climbFrom (max longest current) current y ys

/-- How many points the longest strictly rising stretch has; none below two points. -/
def longestRise : List Binary64 → Nat
  | x :: y :: ys => climbFrom 1 1 x (y :: ys)
  | _ => 0

/-- The steps from each point to the next. -/
def steps : List Binary64 → List Binary64
  | x :: y :: ys => y.sub x :: steps (y :: ys)
  | _ => []

/-- Whether some point is below the one before it. -/
def hasDip : List Binary64 → Bool
  | x :: y :: ys => y.lt x || hasDip (y :: ys)
  | _ => false

/-- The greatest of a point and some others, the earliest of equal ones. -/
def greatest (x : Binary64) (xs : List Binary64) : Binary64 := xs.foldl Binary64.max x

/-- The least of a point and some others, the earliest of equal ones. -/
def least (x : Binary64) (xs : List Binary64) : Binary64 := xs.foldl Binary64.min x

/-- The steepest step, zero if none rises. -/
def steepest (curve : List Binary64) : Binary64 :=
  match steps curve with
  | [] => .zero
  | s :: ss => greatest s (ss ++ [.zero])

def emptyCurve : String :=
  "Difficulty curve is empty. The game has no difficulty progression at all."

def shortCurve (n : Nat) : String :=
  "Difficulty curve has only " ++ toString n ++ " point(s). " ++
    "Consider at least 5 points for a meaningful progression arc."

def hardStart (x : Binary64) : String :=
  "Initial difficulty is " ++ x.fixedText 2 ++ ", above the accessibility threshold of " ++
    startLimit.text ++ ". New players may feel overwhelmed."

def flatCurve (range : Binary64) : String :=
  "Difficulty curve range is only " ++ range.fixedText 2 ++ ". " ++
    "A range below " ++ leastRange.text ++ " feels flat and boring."

def longRise (n : Nat) : String :=
  "The curve has a run of " ++ toString n ++ " consecutively increasing levels. " ++
    "Consider inserting a dip or plateau to let the player recover."

def noDip : String :=
  "The difficulty curve never decreases. Players need occasional \"breathing rooms\" " ++
    "where pressure eases before climbing again."

def steepRise (step : Binary64) : String :=
  "The largest single-step difficulty increase is " ++ step.fixedText 2 ++ ". " ++
    "Steps above " ++ steepestStep.text ++ " can feel like hitting a wall."

/-- The review of a difficulty curve. -/
def ofCurve : List Binary64 → Review
  | [] => ofFindings [emptyCurve] []
  | x :: xs =>
    let curve := x :: xs
    let range := (greatest x xs).sub (least x xs)
    let rise := longestRise curve
    let step := steepest curve
    ofFindings
      (findingIf (startLimit.lt x) (hardStart x) ++
        findingIf (range.lt leastRange) (flatCurve range) ++
        findingIf (5 ≤ curve.length && !hasDip curve) noDip)
      (findingIf (curve.length < 3) (shortCurve curve.length) ++
        findingIf (longestClimb < rise) (longRise rise) ++
        findingIf (steepestStep.lt step) (steepRise step))

end Review

end SeededPlay

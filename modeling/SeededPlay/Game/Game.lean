/-
# `SeededPlay.Game.Game` — generated games

A game is everything that play needs, worked out from choices and a seed: the
world, the rules, the feedback loops, the difficulty, the chaos, and a review of
it all.  The same settings, choices and seed always give the same game, and a seed
code alone gives the game of what it carries.
-/
import SeededPlay.Game.Seed
import SeededPlay.Game.Difficulty
import SeededPlay.Game.Review
import SeededPlay.Chaos.Config
import SeededPlay.Rules.Bundle

namespace SeededPlay

structure Game where
  id : String
  code : String
  name : String
  description : String := ""
  genre : Genre := .action
  visualStyle : VisualStyle := .pixel
  verbs : List Verb := []
  world : World := {}
  rules : List Rule := []
  loops : LoopSet := ⟨[], []⟩
  difficulty : DifficultyPlan := {}
  chaos : ChaosConfig := {}
  seed : Int := 0
  review : Review := {}
deriving DecidableEq, Repr, Inhabited

namespace Choices

/-! ## What choices come to -/

/-- The rules that gravity brings. -/
def gravityRules (c : Choices) : List Rule :=
  match c.gravity with
  | .shifting => [.always "gravity_shift" "invert_gravity" "gravity:invert"]
  | .reverse => [.always "player_on_ceiling" "ceiling_walk" "spawn:particle_sparkle"]
  | _ => []

/-- The rules that chaos brings. -/
def chaosRules (c : Choices) : List Rule :=
  if 0 < c.chaos.value then
    [.always "player_collect_chaos_orb" "trigger_chaos" "chaos:trigger"]
  else []

def rules (c : Choices) : List Rule :=
  Bundle.combined (c.verbs.map Vocabulary.word) ++ c.gravityRules ++ c.chaosRules

/-- The code of the choices and a seed. -/
def code (c : Choices) (seed : Nat) : String := SeedCode.write c.heading seed

def archetypeTitle : Archetype → String
  | .explorer => "The Wanderer"
  | .guardian => "The Sentinel"
  | .fugitive => "The Runaway"
  | .collector => "The Hoarder"

def gameName (c : Choices) : String :=
  archetypeTitle c.archetype ++ "'s " ++
    Text.joinWith " & " (c.verbs.map fun v => (Vocabulary.word v).capitalize) ++ " World"

def gameDescription (c : Choices) : String :=
  "A " ++ Vocabulary.word c.difficulty ++ " " ++ Vocabulary.word c.genre ++ " game (" ++
    Text.joinWith ", " (c.verbs.map Vocabulary.word) ++ ") in a world where " ++
    String.ofList (c.world.toList.map fun x => if x = '_' then ' ' else x)

end Choices

namespace Game

/-- The name of a seed among game ids. -/
def idOf (seed : Nat) : String := "game_" ++ String.ofList (Nat.toDigits 16 seed)

/-- The game of choices and a seed, before it is reviewed. -/
def draft (settings : Settings) (c : Choices) (seed : Nat) : Game where
  id := idOf seed
  code := c.code seed
  name := c.gameName
  description := c.gameDescription
  genre := c.genre
  visualStyle := c.visualStyle
  verbs := c.verbs
  world := .ofChoices c
  rules := c.rules
  loops := Loops.both c.verbs c.difficulty
  difficulty := .ofChoices settings c
  chaos := .ofLevel c.chaos
  seed := seed

def playReview (g : Game) : Except Fault Review := Review.ofPlay g.verbs g.rules g.loops

def difficultyReview (g : Game) : Review := Review.ofCurve g.difficulty.curve

/-- The game of choices and a seed. -/
def generate (settings : Settings) (c : Choices) (seed : Nat) : Except Fault Game := do
  let g := draft settings c seed
  let play ← g.playReview
  return { g with review := Review.merge [play, g.difficultyReview] }

/-- The game of choices and a raw seed; random bits stand in for a missing one. -/
def create (settings : Settings) (c : Choices) (seed : Option Datum) (entropy : UInt32) :
    Except Fault Game :=
  match seed with
  | none => generate settings c (c.seedOf entropy)
  | some d => (SeedCode.normalizeSeed d).bind (generate settings c)

/-- The game of what a seed code carries. -/
def ofRecovered (settings : Settings) (r : SeedCode.Recovered) : Except Fault Game :=
  generate settings (.ofRecovered r) r.seed

/-- The game of a seed code alone. -/
def restore (settings : Settings) (code : String) : Except Fault Game :=
  ofRecovered settings (SeedCode.decode code)

/-! ## As a record -/

def read : Datum → Check Game :=
  Record.ofFields "GeneratedGame" fun fs =>
    Game.mk <$> Record.required fs "id" Record.text
      <*> Record.required fs "seed_code" Record.text
      <*> Record.required fs "name" Record.text
      <*> Record.optionalField fs "description" Record.text ""
      <*> Record.optionalField fs "genre" Record.term .action
      <*> Record.optionalField fs "visual_style" Record.term .pixel
      <*> Record.optionalField fs "verbs" (Record.list Record.term) []
      <*> Record.optionalField fs "world" World.read {}
      <*> Record.optionalField fs "rules" (Record.list Rule.read) []
      <*> Record.optionalField fs "feedback_loops" LoopSet.read ⟨[], []⟩
      <*> Record.optionalField fs "difficulty" DifficultyPlan.read {}
      <*> Record.optionalField fs "chaos" ChaosConfig.read {}
      <*> Record.optionalField fs "internal_seed" Record.int 0
      <*> Record.optionalField fs "validation" Review.read {}

def dump (g : Game) : Datum :=
  .record [("id", .text g.id), ("seed_code", .text g.code), ("name", .text g.name),
    ("description", .text g.description), ("genre", Vocabulary.datum g.genre),
    ("visual_style", Vocabulary.datum g.visualStyle),
    ("verbs", .list (g.verbs.map Vocabulary.datum)), ("world", g.world.dump),
    ("rules", .list (g.rules.map Rule.dump)), ("feedback_loops", g.loops.dump),
    ("difficulty", g.difficulty.dump), ("chaos", g.chaos.dump),
    ("internal_seed", .int g.seed), ("validation", g.review.dump)]

end Game

end SeededPlay

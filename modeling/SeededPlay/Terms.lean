/-
# `SeededPlay.Terms` — the words of the game

The closed lists a game is described with: how it looks and plays, what the
player does, how the world behaves, and how chaos is graded.
-/
import SeededPlay.Vocabulary

namespace SeededPlay

open Vocabulary

inductive Genre where
  | action | narrative | card | board | puzzleLogic | rhythm
deriving DecidableEq, Repr, Inhabited

instance : Vocabulary Genre where
  members := [.action, .narrative, .card, .board, .puzzleLogic, .rhythm]
  word
    | .action => "action"
    | .narrative => "narrative"
    | .card => "card"
    | .board => "board"
    | .puzzleLogic => "puzzle_logic"
    | .rhythm => "rhythm"

inductive VisualStyle where
  | pixel | neon | minimal | watercolor | retroCrt
deriving DecidableEq, Repr, Inhabited

instance : Vocabulary VisualStyle where
  members := [.pixel, .neon, .minimal, .watercolor, .retroCrt]
  word
    | .pixel => "pixel"
    | .neon => "neon"
    | .minimal => "minimal"
    | .watercolor => "watercolor"
    | .retroCrt => "retro_crt"

/-- What a player does. -/
inductive Verb where
  | jump | shoot | collect | dodge | build | explore | push | activate | craft | defend | dash
deriving DecidableEq, Repr, Inhabited

instance : Vocabulary Verb where
  members := [.jump, .shoot, .collect, .dodge, .build, .explore, .push, .activate, .craft,
    .defend, .dash]
  word
    | .jump => "jump"
    | .shoot => "shoot"
    | .collect => "collect"
    | .dodge => "dodge"
    | .build => "build"
    | .explore => "explore"
    | .push => "push"
    | .activate => "activate"
    | .craft => "craft"
    | .defend => "defend"
    | .dash => "dash"

inductive ObjectType where
  | platform | enemy | puzzle | resource
deriving DecidableEq, Repr, Inhabited

instance : Vocabulary ObjectType where
  members := [.platform, .enemy, .puzzle, .resource]
  word
    | .platform => "platform"
    | .enemy => "enemy"
    | .puzzle => "puzzle"
    | .resource => "resource"

inductive Gravity where
  | normal | low | shifting | reverse
deriving DecidableEq, Repr, Inhabited

instance : Vocabulary Gravity where
  members := [.normal, .low, .shifting, .reverse]
  word
    | .normal => "normal"
    | .low => "low"
    | .shifting => "shifting"
    | .reverse => "reverse"

inductive Boundary where
  | walled | loop | infinite
deriving DecidableEq, Repr, Inhabited

instance : Vocabulary Boundary where
  members := [.walled, .loop, .infinite]
  word
    | .walled => "walled"
    | .loop => "loop"
    | .infinite => "infinite"

/-- What surfaces are like. -/
inductive Surface where
  | elastic | slippery | sticky
deriving DecidableEq, Repr, Inhabited

instance : Vocabulary Surface where
  members := [.elastic, .slippery, .sticky]
  word
    | .elastic => "elastic"
    | .slippery => "slippery"
    | .sticky => "sticky"

inductive Archetype where
  | explorer | guardian | fugitive | collector
deriving DecidableEq, Repr, Inhabited

instance : Vocabulary Archetype where
  members := [.explorer, .guardian, .fugitive, .collector]
  word
    | .explorer => "explorer"
    | .guardian => "guardian"
    | .fugitive => "fugitive"
    | .collector => "collector"

inductive Difficulty where
  | relaxed | steady | hardcore | rollercoaster
deriving DecidableEq, Repr, Inhabited

instance : Vocabulary Difficulty where
  members := [.relaxed, .steady, .hardcore, .rollercoaster]
  word
    | .relaxed => "relaxed"
    | .steady => "steady"
    | .hardcore => "hardcore"
    | .rollercoaster => "rollercoaster"

inductive Pace where
  | fast | medium | slow
deriving DecidableEq, Repr, Inhabited

instance : Vocabulary Pace where
  members := [.fast, .medium, .slow]
  word
    | .fast => "fast"
    | .medium => "medium"
    | .slow => "slow"

/-- How much skill decides against luck. -/
inductive SkillBalance where
  | pureSkill | skillHeavy | balanced | luckHeavy
deriving DecidableEq, Repr, Inhabited

instance : Vocabulary SkillBalance where
  members := [.pureSkill, .skillHeavy, .balanced, .luckHeavy]
  word
    | .pureSkill => "pure_skill"
    | .skillHeavy => "skill_heavy"
    | .balanced => "balanced"
    | .luckHeavy => "luck_heavy"

/-- The five grades of chaos. -/
inductive Tier where
  | order | mild | emergent | wild | surreal
deriving DecidableEq, Repr, Inhabited

instance : Vocabulary Tier where
  members := [.order, .mild, .emergent, .wild, .surreal]
  word
    | .order => "order"
    | .mild => "mild"
    | .emergent => "emergent"
    | .wild => "wild"
    | .surreal => "surreal"

/-- The five kinds of mutation. -/
inductive Category where
  | visual | physics | entity | rule | narrative
deriving DecidableEq, Repr, Inhabited

instance : Vocabulary Category where
  members := [.visual, .physics, .entity, .rule, .narrative]
  word
    | .visual => "visual"
    | .physics => "physics"
    | .entity => "entity"
    | .rule => "rule"
    | .narrative => "narrative"

/-- Whether a feedback loop feeds success or resists it. -/
inductive LoopKind where
  | positive | negative
deriving DecidableEq, Repr, Inhabited

instance : Vocabulary LoopKind where
  members := [.positive, .negative]
  word
    | .positive => "positive"
    | .negative => "negative"

end SeededPlay

/-
# `SeededPlay.Game.Choices` — what a player chooses

Everything that creating a game asks for, with the default of each field.  Reading
choices drops repeated verbs, wants one to three of them, and takes any value for
the chaos level.  A seed code carries a few of the fields; the others go back to
their defaults when choices are recovered from one.
-/
import SeededPlay.Record.Check
import SeededPlay.SeedCode.Code

namespace SeededPlay

structure Choices where
  genre : Genre := .action
  visualStyle : VisualStyle := .pixel
  /-- The first verb leads the seed code. -/
  verbs : List Verb := [.jump]
  objects : List ObjectType := [.platform, .enemy]
  customElement : String := ""
  gravity : Gravity := .normal
  boundary : Boundary := .walled
  surface : Surface := .elastic
  customPhysics : String := ""
  /-- A known template or free text. -/
  world : String := "colors_alive"
  archetype : Archetype := .explorer
  difficulty : Difficulty := .steady
  pace : Pace := .medium
  balance : SkillBalance := .skillHeavy
  chaos : ChaosLevel := .none
deriving DecidableEq, Repr, Inhabited

namespace Choices

/-! ## As a record -/

/-- The items that are not the same as one before them. -/
def distinctFrom : List Datum → List Datum → List Datum
  | _, [] => []
  | seen, d :: ds =>
    if Datum.occursIn d seen then distinctFrom seen ds
    else d :: distinctFrom (d :: seen) ds

/-- A list without repeated items; any other value as it is. -/
def dropRepeated : Datum → Datum
  | .list ds => .list (distinctFrom [] ds)
  | d => d

/-- One to three verbs, repetitions not counted. -/
def readVerbs (d : Datum) : Check (List Verb) := Record.sizedList Record.term 1 3 (dropRepeated d)

def readChaos (d : Datum) : Check ChaosLevel := .valid (.ofDatum d)

def read : Datum → Check Choices :=
  Record.ofFields "UserChoices" fun fs =>
    Choices.mk <$> Record.optionalField fs "genre" Record.term .action
      <*> Record.optionalField fs "visual_style" Record.term .pixel
      <*> Record.optionalField fs "verbs" readVerbs [.jump]
      <*> Record.optionalField fs "object_types" (Record.list Record.term) [.platform, .enemy]
      <*> Record.optionalField fs "custom_element" Record.text ""
      <*> Record.optionalField fs "gravity" Record.term .normal
      <*> Record.optionalField fs "boundary" Record.term .walled
      <*> Record.optionalField fs "special_physics" Record.term .elastic
      <*> Record.optionalField fs "custom_physics" Record.text ""
      <*> Record.optionalField fs "world_difference" Record.text "colors_alive"
      <*> Record.optionalField fs "character_archetype" Record.term .explorer
      <*> Record.optionalField fs "difficulty_style" Record.term .steady
      <*> Record.optionalField fs "game_pace" Record.term .medium
      <*> Record.optionalField fs "skill_luck_ratio" Record.term .skillHeavy
      <*> Record.optionalField fs "chaos_level" readChaos .none

def dump (c : Choices) : Datum :=
  .record [("genre", Vocabulary.datum c.genre), ("visual_style", Vocabulary.datum c.visualStyle),
    ("verbs", .list (c.verbs.map Vocabulary.datum)),
    ("object_types", .list (c.objects.map Vocabulary.datum)),
    ("custom_element", .text c.customElement), ("gravity", Vocabulary.datum c.gravity),
    ("boundary", Vocabulary.datum c.boundary),
    ("special_physics", Vocabulary.datum c.surface), ("custom_physics", .text c.customPhysics),
    ("world_difference", .text c.world),
    ("character_archetype", Vocabulary.datum c.archetype),
    ("difficulty_style", Vocabulary.datum c.difficulty), ("game_pace", Vocabulary.datum c.pace),
    ("skill_luck_ratio", Vocabulary.datum c.balance), ("chaos_level", c.chaos.datum)]

/-! ## As a seed code -/

/-- What a seed code says of the choices. -/
def heading (c : Choices) : SeedCode.Heading where
  verb := c.verbs.head?.getD .jump
  gravity := c.gravity
  world := .ofText c.world
  digit := c.chaos.digit

/-- The choices that a seed code stands for, defaults wherever it is silent. -/
def ofRecovered (r : SeedCode.Recovered) : Choices where
  verbs := (r.verb.map fun v => [v]).getD [.jump]
  gravity := r.gravity.getD .normal
  world := (r.world.map WorldMark.word).getD "colors_alive"
  chaos := .clamp r.chaos

end Choices

end SeededPlay

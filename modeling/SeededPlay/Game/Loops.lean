/-
# `SeededPlay.Game.Loops` — feedback loops

Every verb comes with a loop that feeds success and one that resists it, and two
further loops hold for every game.  They are descriptions for tuning; nothing
runs them.  The difficulty decides which are listed, never their wording:
hardcore games lose the universal rewarding loop, relaxed games keep only the
universal resisting one.
-/
import SeededPlay.Record.Check
import SeededPlay.Numeric
import SeededPlay.Terms

namespace SeededPlay

structure FeedbackLoop where
  kind : LoopKind
  description : String
  quantities : List String
  mechanic : String
deriving DecidableEq, Repr, Inhabited

structure LoopSet where
  positive : List FeedbackLoop
  negative : List FeedbackLoop
deriving DecidableEq, Repr, Inhabited

/-- What a loop says: a sentence, and the quantities it is about. -/
structure LoopText where
  description : String
  quantities : List String

namespace Loops

/-! ## The tables -/

def universalRewarding : LoopText :=
  ⟨"Successive successful actions increase combo multiplier, yielding more points per action",
    ["combo_multiplier", "score_rate", "player_confidence"]⟩

def universalResisting : LoopText :=
  ⟨"As the player scores higher, enemy spawn rate and speed increase proportionally",
    ["player_score", "enemy_spawn_rate", "enemy_speed"]⟩

/-- The loop by which success at a verb feeds itself. -/
def rewarding : Verb → LoopText
  | .jump =>
    ⟨"Consecutive precision jumps grant a speed boost, making it easier to reach platforms",
      ["jump_streak", "movement_speed", "platform_reach"]⟩
  | .shoot =>
    ⟨"Kill streaks increase fire rate temporarily, making it easier to extend the streak",
      ["kill_streak", "fire_rate", "score_per_kill"]⟩
  | .collect =>
    ⟨"Collecting items increases magnet radius, making nearby items easier to collect",
      ["items_collected", "collect_radius", "collection_speed"]⟩
  | .dodge =>
    ⟨"Successful dodges charge a power meter that slows time, making dodging even easier",
      ["dodge_streak", "time_slow_factor", "dodge_window"]⟩
  | .build =>
    ⟨"Building structures grants resource bonuses, enabling more building",
      ["blocks_placed", "resource_generation", "build_speed"]⟩
  | .explore =>
    ⟨"Discovering new areas reveals more of the map, making the next discovery faster",
      ["areas_discovered", "map_reveal_radius", "travel_speed"]⟩
  | .push =>
    ⟨"Pushing objects into place opens shortcuts, freeing time to solve the next push",
      ["objects_placed", "shortcut_count", "push_strength"]⟩
  | .activate =>
    ⟨"Each activated switch powers nearby mechanisms, making later switches easier to reach",
      ["switches_active", "powered_radius", "activation_speed"]⟩
  | .craft =>
    ⟨"Crafted tools speed up gathering, which feeds more crafting",
      ["items_crafted", "gather_rate", "recipe_unlocks"]⟩
  | .defend =>
    ⟨"Successful defenses earn upgrades that make the next wave easier to hold",
      ["waves_held", "defense_upgrades", "base_integrity"]⟩
  | .dash =>
    ⟨"Chained dashes refund stamina, allowing even longer dash chains",
      ["dash_chain", "stamina_refund", "dash_distance"]⟩

/-- The loop by which success at a verb is resisted. -/
def resisting : Verb → LoopText
  | .jump =>
    ⟨"As the player progresses, platforms become smaller and gaps wider",
      ["levels_cleared", "platform_width", "gap_distance"]⟩
  | .shoot =>
    ⟨"Enemies killed increase the health and armour of subsequent spawns",
      ["total_kills", "enemy_health", "enemy_armor"]⟩
  | .collect =>
    ⟨"More items collected causes remaining items to move or hide more aggressively",
      ["collection_progress", "item_evasion_speed", "item_hide_chance"]⟩
  | .dodge =>
    ⟨"Successful dodges cause enemies to attack in tighter, faster patterns",
      ["dodge_count", "attack_frequency", "attack_pattern_complexity"]⟩
  | .build =>
    ⟨"More structures built attract more enemies and environmental hazards",
      ["structure_count", "enemy_aggression", "hazard_frequency"]⟩
  | .explore =>
    ⟨"Distant areas hold fewer resources and stronger guardians",
      ["distance_from_start", "resource_density", "guardian_strength"]⟩
  | .push =>
    ⟨"Heavier objects appear as more of them are moved into place",
      ["objects_placed", "object_weight", "push_resistance"]⟩
  | .activate =>
    ⟨"Active switches time out faster as more of them are lit",
      ["switches_active", "switch_timeout", "sequence_length"]⟩
  | .craft =>
    ⟨"Recipes cost more materials the more items have been crafted",
      ["items_crafted", "recipe_cost", "material_scarcity"]⟩
  | .defend =>
    ⟨"Each wave held brings a larger, faster wave next",
      ["waves_held", "wave_size", "enemy_speed"]⟩
  | .dash =>
    ⟨"Frequent dashing lengthens the dash cooldown",
      ["dash_count", "dash_cooldown", "stamina_drain"]⟩

/-! ## The advice -/

def loop (kind : LoopKind) (mechanic : String) (text : LoopText) : FeedbackLoop :=
  ⟨kind, text.description, text.quantities, mechanic⟩

/-- The loops of the chosen verbs, in the order of the vocabulary. -/
def ofVerbs (kind : LoopKind) (texts : Verb → LoopText) (verbs : List Verb) : List FeedbackLoop :=
  ((Vocabulary.members : List Verb).filter verbs.contains).map fun v =>
    loop kind (Vocabulary.word v) (texts v)

def positive (verbs : List Verb) (difficulty : Difficulty) : List FeedbackLoop :=
  let own := ofVerbs .positive rewarding verbs
  if difficulty = .hardcore then own else loop .positive "universal" universalRewarding :: own

def negative (verbs : List Verb) (difficulty : Difficulty) : List FeedbackLoop :=
  let universal := loop .negative "universal" universalResisting
  if difficulty = .relaxed then [universal] else universal :: ofVerbs .negative resisting verbs

def both (verbs : List Verb) (difficulty : Difficulty) : LoopSet :=
  ⟨positive verbs difficulty, negative verbs difficulty⟩

/-- The verbs that a raw list names; other items are passed over. -/
def verbsOf (verbs : Datum) : Except Fault (List Verb) :=
  if verbs.isPresent then verbs.elements.map fun ds => ds.filterMap Vocabulary.ofDatum?
  else .ok []

/-- The difficulty that a raw value names; anything else is steady. -/
def difficultyOf (difficulty : Datum) : Difficulty :=
  (Vocabulary.ofDatum? difficulty).getD .steady

end Loops

/-! ## Records -/

namespace FeedbackLoop

def read : Datum → Check FeedbackLoop :=
  Record.ofFields "FeedbackLoop" fun fs =>
    FeedbackLoop.mk <$> Record.required fs "type" Record.term
      <*> Record.required fs "description" Record.text
      <*> Record.optionalField fs "variables" (Record.list Record.text) []
      <*> Record.optionalField fs "mechanic" Record.text "universal"

def dump (l : FeedbackLoop) : Datum :=
  .record [("type", Vocabulary.datum l.kind), ("description", .text l.description),
    ("variables", .list (l.quantities.map .text)), ("mechanic", .text l.mechanic)]

end FeedbackLoop

namespace LoopSet

def read : Datum → Check LoopSet :=
  Record.ofFields "FeedbackLoopSet" fun fs =>
    LoopSet.mk <$> Record.optionalField fs "positive" (Record.list FeedbackLoop.read) []
      <*> Record.optionalField fs "negative" (Record.list FeedbackLoop.read) []

def dump (s : LoopSet) : Datum :=
  .record [("positive", .list (s.positive.map FeedbackLoop.dump)),
    ("negative", .list (s.negative.map FeedbackLoop.dump))]

end LoopSet

end SeededPlay

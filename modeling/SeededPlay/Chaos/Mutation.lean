/-
# `SeededPlay.Chaos.Mutation` — the catalog of mutations

A mutation changes the world while it is active: it writes parameters, and some
have a twist that changes rules or moves the goal besides.  The catalog is
closed, in a fixed order, and graded by the chaos level from which on a mutation
may occur.
-/
import SeededPlay.Rules.Rule
import SeededPlay.Numeric
import SeededPlay.Terms

namespace SeededPlay

inductive Mutation where
  | colorInvert | pixelMega | mirrorWorld
  | gravityFlip | frictionIce | gravityFloat | frictionHoney | bounceExtreme
  | enemyFriend | platformMoving | bulletPlatform | collectibleTrap
  | timeWarp | scoreReverse | cursedCoins | voidMercy
  | textMonster | goalShift | narratorChaos
deriving DecidableEq, Repr, Inhabited

instance : Vocabulary Mutation where
  members := [.colorInvert, .pixelMega, .mirrorWorld, .gravityFlip, .frictionIce, .gravityFloat,
    .frictionHoney, .bounceExtreme, .enemyFriend, .platformMoving, .bulletPlatform,
    .collectibleTrap, .timeWarp, .scoreReverse, .cursedCoins, .voidMercy, .textMonster,
    .goalShift, .narratorChaos]
  word
    | .colorInvert => "color_invert"
    | .pixelMega => "pixel_mega"
    | .mirrorWorld => "mirror_world"
    | .gravityFlip => "gravity_flip"
    | .frictionIce => "friction_ice"
    | .gravityFloat => "gravity_float"
    | .frictionHoney => "friction_honey"
    | .bounceExtreme => "bounce_extreme"
    | .enemyFriend => "enemy_friend"
    | .platformMoving => "platform_moving"
    | .bulletPlatform => "bullet_platform"
    | .collectibleTrap => "collectible_trap"
    | .timeWarp => "time_warp"
    | .scoreReverse => "score_reverse"
    | .cursedCoins => "cursed_coins"
    | .voidMercy => "void_mercy"
    | .textMonster => "text_monster"
    | .goalShift => "goal_shift"
    | .narratorChaos => "narrator_chaos"

/-- How a parameter is written over. -/
inductive Override where
  /-- With a value. -/
  | put (value : Datum)
  /-- With its negative; a missing parameter counts as the fallback. -/
  | negate (fallback : Int)
deriving Repr

namespace Override

/-- The new value of a parameter. -/
def apply (o : Override) (current : Option Datum) : Except Fault Datum :=
  match o with
  | .put value => .ok value
  | .negate fallback => (current.getD (.int fallback)).toNumber.map fun n => .number n.neg

end Override

/-- What a mutation does besides writing parameters. -/
inductive Twist where
  | nothing
  /-- Score gains become losses and losses gains. -/
  | reverseScore
  /-- Rules are added; their actions mark them. -/
  | addRules (added : List Rule)
  /-- The rules of a trigger give way to others, marked by their actions. -/
  | replaceTrigger (trigger : String) (added : List Rule)
  /-- The goal becomes another one. -/
  | shiftGoal
  /-- Score and health are shown with an offset. -/
  | misreport
deriving DecidableEq, Repr

/-- What the catalog says about a mutation. -/
structure MutationCard where
  title : String
  description : String
  category : Category
  minLevel : Nat
  /-- In milliseconds; a mutation without a duration stays until it is reverted. -/
  duration : Option Nat
  overrides : List (String × Override)
deriving Repr

namespace Mutation

/-! ## The catalog -/

def visualCard (title description : String) (minLevel duration : Nat)
    (overrides : List (String × Override)) : MutationCard :=
  ⟨title, description, .visual, minLevel, some duration, overrides⟩

def physicsCard (title description : String) (minLevel duration : Nat)
    (overrides : List (String × Override)) : MutationCard :=
  ⟨title, description, .physics, minLevel, some duration, overrides⟩

def entityCard (title description : String) (minLevel duration : Nat)
    (overrides : List (String × Override)) : MutationCard :=
  ⟨title, description, .entity, minLevel, some duration, overrides⟩

def ruleCard (title description : String) (minLevel duration : Nat)
    (overrides : List (String × Override)) : MutationCard :=
  ⟨title, description, .rule, minLevel, some duration, overrides⟩

def narrativeCard (title description : String) (minLevel : Nat) (duration : Option Nat)
    (overrides : List (String × Override)) : MutationCard :=
  ⟨title, description, .narrative, minLevel, duration, overrides⟩

/-- A parameter that is switched on. -/
def on (name : String) : String × Override := (name, .put (.bool true))

def putInt (name : String) (n : Int) : String × Override := (name, .put (.int n))

/-- A parameter put to a decimal fraction. -/
def putReal (name : String) (digits : Nat) (exponent : Int) : String × Override :=
  (name, .put (.real (.ofDecimal digits exponent)))

def putText (name word : String) : String × Override := (name, .put (.text word))

def card : Mutation → MutationCard
  | .colorInvert =>
    visualCard "Negative World" "All colors invert to their complements" 1 15000
      [on "color_invert"]
  | .pixelMega =>
    visualCard "Mega Pixels" "Everything becomes huge chunky pixels" 10 12000
      [putInt "pixel_scale" 8]
  | .mirrorWorld =>
    visualCard "Mirror World" "The entire world flips horizontally" 15 15000 [on "mirror_x"]
  | .gravityFlip =>
    physicsCard "Gravity Flip" "Gravity reverses direction" 5 15000
      [("gravity_y", .negate 800)]
  | .frictionIce =>
    physicsCard "Ice World" "All surfaces become slippery as ice" 10 20000
      [putReal "friction" 2 (-2)]
  | .gravityFloat =>
    physicsCard "Zero-G Float" "Gravity nearly vanishes, everything floats" 15 12000
      [putInt "gravity_y" 50]
  | .frictionHoney =>
    physicsCard "Honey World" "Everything moves through thick honey" 15 15000
      [putReal "friction" 98 (-2)]
  | .bounceExtreme =>
    physicsCard "Trampoline World" "Everything bounces with extreme force" 20 18000
      [putReal "bounciness" 15 (-1)]
  | .enemyFriend =>
    entityCard "Frenemies" "Enemies become friendly and follow you around" 26 20000
      [putText "enemy_behavior" "friendly", putText "enemy_color" "#44FF44"]
  | .platformMoving =>
    entityCard "Restless Ground" "All static platforms begin moving" 26 20000
      [on "platforms_moving", putInt "platform_move_speed" 60, putInt "platform_move_range" 80]
  | .bulletPlatform =>
    entityCard "Bullet Platforms" "Bullets freeze in place and become platforms" 35 25000
      [putText "bullet_behavior" "platform", on "bullet_solid",
       putInt "bullet_lifetime_ms" 5000]
  | .collectibleTrap =>
    entityCard "Trick Treasures" "Some collectibles become traps" 40 20000
      [putReal "collectible_trap_chance" 4 (-1), putInt "trap_damage" 1]
  | .timeWarp =>
    ruleCard "Time Warp" "Game speed oscillates between slow-motion and fast-forward" 51 20000
      [on "time_warp", putReal "time_warp_min_scale" 3 (-1),
       putReal "time_warp_max_scale" 25 (-1), putInt "time_warp_period_ms" 4000]
  | .scoreReverse =>
    ruleCard "Score Reversal" "Gaining points now costs points and losing points gains them"
      55 15000 [on "score_reversed"]
  | .cursedCoins =>
    ruleCard "Cursed Coins" "Coins bite back: collecting one also costs health" 60 15000
      [on "coins_cursed"]
  | .voidMercy =>
    ruleCard "Merciful Void" "Falling out of the world pays points instead of hurting"
      65 15000 [on "void_merciful"]
  | .textMonster =>
    narrativeCard "Text Monster" "UI text comes alive and chases the player" 76 (some 20000)
      [on "text_monster", putInt "text_monster_speed" 120, putInt "text_monster_damage" 1]
  | .goalShift =>
    narrativeCard "Goal Shift" "The level goal changes mid-game" 80 none [on "goal_shifted"]
  | .narratorChaos =>
    narrativeCard "Unreliable Narrator" "The narrator lies and the HUD shows wrong information"
      85 (some 25000) [on "narrator_chaos", putReal "fake_death_chance" 2 (-1)]

/-- The rule that makes coins costly. -/
def cursedCoin : Rule := .when "player_collect_coin" "health>1" "chaos_cursed_coin" "health-1"

/-- The rule that pays for a fall. -/
def paidFall : Rule := .always "player_fall_out" "chaos_void_mercy" "score+1"

def twist : Mutation → Twist
  | .scoreReverse => .reverseScore
  | .cursedCoins => .addRules [cursedCoin]
  | .voidMercy => .replaceTrigger "player_fall_out" [paidFall]
  | .goalShift => .shiftGoal
  | .narratorChaos => .misreport
  | _ => .nothing

/-! ## Reading the catalog -/

def id (m : Mutation) : String := Vocabulary.word m

def category (m : Mutation) : Category := m.card.category

def minLevel (m : Mutation) : Nat := m.card.minLevel

def duration (m : Mutation) : Option Nat := m.card.duration

def overrides (m : Mutation) : List (String × Override) := m.card.overrides

/-- The parameters that a mutation writes; two that share one are never active together. -/
def touches (m : Mutation) : List String := m.overrides.map (·.1)

/-- Whether two mutations write a parameter in common. -/
def clashes (m n : Mutation) : Bool := m.touches.any n.touches.contains

def catalog : List Mutation := Vocabulary.members

/-- The mutations of a category. -/
def ofCategory (c : Category) : List Mutation := catalog.filter (·.category = c)

/-- The mutations that may occur at a raw level. -/
def upTo (level : Datum) : Except Fault (List Mutation) :=
  level.toNumber.map fun n => catalog.filter fun m => (Number.int m.minLevel).le n

/-- The mutation of a raw name; lists and records cannot be names. -/
def find (name : Datum) : Except Fault (Option Mutation) :=
  match name with
  | .list _ => .error .wrongKind
  | .record _ => .error .wrongKind
  | name => .ok (Vocabulary.ofDatum? name)

/-- What tools show of a mutation; no duration is shown as minus one. -/
def summary (m : Mutation) : List (String × Datum) :=
  [("id", .text m.id), ("name", .text m.card.title), ("description", .text m.card.description),
   ("category", Vocabulary.datum m.category), ("min_chaos_level", .int m.minLevel),
   ("duration_ms", .int ((m.duration.map Int.ofNat).getD (-1))),
   ("touches", .list ((m.touches.mergeSort fun a b => decide (a ≤ b)).map .text))]

end Mutation

end SeededPlay

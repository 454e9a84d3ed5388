/-
# `SeededPlay.Rules.Bundle` — the rules that verbs bring

Each verb that plays by rules of its own brings a bundle of them.  The baseline
bundle is always in; the bundles of the chosen verbs follow in a fixed order,
whatever the order of the choice.  Of rules with one key the first one stays.
-/
import SeededPlay.Rules.Rule
import SeededPlay.Numeric

namespace SeededPlay

structure Bundle where
  name : String
  title : String
  description : String
  rules : List Rule
deriving Repr, Inhabited

/-- The items without those whose key has been seen. -/
def distinctFrom {α κ : Type} [DecidableEq κ] (key : α → κ) : List κ → List α → List α
  | _, [] => []
  | seen, x :: xs =>
    if key x ∈ seen then distinctFrom key seen xs
    else x :: distinctFrom key (key x :: seen) xs

/-- The items whose key is new, in order. -/
def distinctBy {α κ : Type} [DecidableEq κ] (key : α → κ) (xs : List α) : List α :=
  distinctFrom key [] xs

/-- The triggers of some rules, each once. -/
def Rule.triggers (rules : List Rule) : List String :=
  distinctBy id (rules.map (·.trigger))

namespace Bundle

def triggers (b : Bundle) : List String := Rule.triggers b.rules

/-- What authoring tools show of a bundle. -/
def summary (b : Bundle) : List (String × Datum) :=
  [("verb", .text b.name), ("display_name", .text b.title),
   ("description", .text b.description), ("rule_count", .int b.rules.length),
   ("triggers", .list (b.triggers.map .text))]

/-! ## The bundles -/

def baseline : Bundle where
  name := "platformer"
  title := "Platformer Basics"
  description := "Universal movement mechanics, always included"
  rules := [
    .always "player_fall_out" "damage_player" "health-1",
    .always "player_collect_coin" "add_score" "score+1",
    .always "player_stomp_enemy" "kill_enemy_and_score" "score+2",
    .always "player_stomp_enemy" "destroy_enemy" "spawn:particle_burst",
    .when "enemy_touch_player" "health>0" "damage_player" "health-1",
    .always "player_reach_goal" "complete_level" "level+1"]

def shooter : Bundle where
  name := "shoot"
  title := "Shooter"
  description := "Bullets score on hit; enemy fire hurts; streaks pay a bonus"
  rules := [
    .always "bullet_hit_enemy" "kill_enemy_and_score" "score+3",
    .always "bullet_hit_enemy" "destroy_enemy" "spawn:particle_burst",
    .when "enemy_bullet_hit_player" "health>0" "damage_player" "health-1",
    .when "enemy_touch_player" "health>0" "damage_player" "health-1",
    .always "kill_streak_5" "bonus_score" "score+10",
    .always "player_shoot" "spawn_bullet" "spawn:player_bullet"]

def collector : Bundle where
  name := "collect"
  title := "Collector"
  description := "Items score; power-ups and keys set flags; collecting everything clears the level"
  rules := [
    .always "player_collect_item" "add_score" "score+1",
    .always "player_collect_powerup" "apply_powerup" "flag=powerup_active",
    .always "player_collect_key" "unlock_gate" "flag=key_collected",
    .always "all_items_collected" "complete_level" "level+1",
    .always "player_collect_health" "heal_player" "health+1",
    .when "enemy_touch_player" "health>0" "damage_player" "health-1"]

def dodger : Bundle where
  name := "dodge"
  title := "Dodger"
  description := "Avoiding danger scores; surviving pays a bonus"
  rules := [
    .always "player_dodge_enemy" "dodge_score" "score+2",
    .when "enemy_touch_player" "health>0" "damage_player" "health-1",
    .always "near_miss" "near_miss_bonus" "score+3",
    .always "survive_10s" "survival_bonus" "score+5",
    .always "player_dash" "trigger_invincibility" "flag=invincible"]

def builder : Bundle where
  name := "build"
  title := "Builder"
  description := "Placing blocks spawns them; good placements and chains score"
  rules := [
    .always "player_place_block" "create_block" "spawn:block",
    .always "block_supports_player" "valid_placement" "score+1",
    .always "enemy_hit_block" "destroy_block" "spawn:particle_burst",
    .always "player_reach_goal" "complete_level" "level+1",
    .always "block_chain_complete" "chain_bonus" "score+5"]

/-- The bundles of verbs, in the order in which they are merged. -/
def ofVerbs : List Bundle := [shooter, collector, dodger, builder]

def all : List Bundle := baseline :: ofVerbs

/-- The bundle of a raw name, in any case. -/
def find (name : Datum) : Except Fault Bundle :=
  match all.find? (·.name == Text.lower name.plain) with
  | some b => .ok b
  | none => .error (.unknownBundle name (all.map (·.name)))

/-! ## Merging -/

/-- The rules of the baseline and of the bundles with the given names. -/
def merged (names : List String) : List Rule :=
  baseline.rules ++ (ofVerbs.filter fun b => names.contains b.name).flatMap (·.rules)

/-- The merged rules of verbs in any case, without repetitions. -/
def combined (verbs : List String) : List Rule :=
  distinctBy Rule.key (merged (verbs.map Text.lower))

/-- The merged rules of a raw list of verbs. -/
def combinedDatum (verbs : Datum) : Except Fault (List Rule) :=
  if verbs.isPresent then verbs.elements.map fun ds => combined (ds.map Datum.plain)
  else .ok (combined [])

end Bundle

end SeededPlay

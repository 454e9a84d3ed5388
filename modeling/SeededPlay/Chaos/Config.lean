/-
# `SeededPlay.Chaos.Config` — what a chaos level permits

A level falls into one of five tiers.  Each tier keeps the categories of the ones
below it, fires at least as often and allows at least as many mutations at once.
The configuration of a level is a function of the level alone; stored games carry
one too, with whatever values were stored.
-/
import SeededPlay.Chaos.Level
import SeededPlay.Chaos.Mutation

namespace SeededPlay

namespace Tier

/-- The tier of a level. -/
def ofLevel (level : ChaosLevel) : Tier :=
  if level.value ≤ 0 then .order
  else if level.value ≤ 25 then .mild
  else if level.value ≤ 50 then .emergent
  else if level.value ≤ 75 then .wild
  else .surreal

/-- The categories of a tier with their weights. -/
def weighted : Tier → List (Category × Nat)
  | .order => []
  | .mild => [(.visual, 3), (.physics, 1)]
  | .emergent => [(.visual, 3), (.physics, 2), (.entity, 2)]
  | .wild => [(.visual, 2), (.physics, 2), (.entity, 2), (.rule, 3)]
  | .surreal => [(.visual, 2), (.physics, 2), (.entity, 2), (.rule, 3), (.narrative, 3)]

def categories (t : Tier) : List Category := t.weighted.map (·.1)

/-- The milliseconds between two timed mutations; none if there are no timed ones. -/
def period : Tier → Option Nat
  | .order => none
  | .mild => some 90000
  | .emergent => some 60000
  | .wild => some 30000
  | .surreal => some 15000

/-- How many mutations may be active at once. -/
def cap : Tier → Nat
  | .order => 0
  | .mild => 1
  | .emergent => 2
  | .wild => 3
  | .surreal => 999

/-- The score between two milestones; none if there are no milestones. -/
def milestone : Tier → Option Nat
  | .order => none
  | .mild => some 500
  | .emergent => some 250
  | .wild => some 100
  | .surreal => some 50

/-- The level by which a tier is known. -/
def presetLevel : Tier → ChaosLevel
  | .order => .clamp 0
  | .mild => .clamp 25
  | .emergent => .clamp 50
  | .wild => .clamp 75
  | .surreal => .clamp 100

end Tier

namespace ChaosLevel

def tier (level : ChaosLevel) : Tier := .ofLevel level

/-- The mutations that a level permits, in catalog order. -/
def eligible (level : ChaosLevel) : List Mutation :=
  Mutation.catalog.filter fun m =>
    m.minLevel ≤ level.value && level.tier.categories.contains m.category

end ChaosLevel

/-- A stored chaos configuration. -/
structure ChaosConfig where
  level : Int := 0
  tier : Tier := .order
  categories : List Category := []
  weights : Fields Int := []
  mutations : List String := []
  period : Option Int := none
  cap : Int := 0
  milestone : Option Int := none
deriving Repr, DecidableEq, Inhabited

namespace ChaosConfig

/-- The configuration of a level. -/
def ofLevel (level : ChaosLevel) : ChaosConfig where
  level := level.value
  tier := level.tier
  categories := level.tier.categories
  weights := level.tier.weighted.map fun (c, w) => (Vocabulary.word c, (w : Int))
  mutations := level.eligible.map Mutation.id
  period := level.tier.period.map Int.ofNat
  cap := level.tier.cap
  milestone := level.tier.milestone.map Int.ofNat

/-- The configuration by which a raw label is known, in any case. -/
def preset (label : Datum) : Except Fault ChaosConfig :=
  match (Vocabulary.ofWord? (Text.lower label.plain) : Option Tier) with
  | some t => .ok (ofLevel t.presetLevel)
  | none => .error (.unknownPreset label ((Vocabulary.members : List Tier).map Vocabulary.word))

def read : Datum → Check ChaosConfig :=
  Record.ofFields "ChaosConfig" fun fs =>
    ChaosConfig.mk <$> Record.optionalField fs "level" Record.int 0
      <*> Record.optionalField fs "tier" Record.term .order
      <*> Record.optionalField fs "allowed_categories" (Record.list Record.term) []
      <*> Record.optionalField fs "category_weights" (Record.fields Record.int) []
      <*> Record.optionalField fs "mutations" (Record.list Record.text) []
      <*> Record.optionalField fs "mutation_frequency_ms" (Record.optional Record.int) none
      <*> Record.optionalField fs "max_active_mutations" Record.int 0
      <*> Record.optionalField fs "milestone_interval" (Record.optional Record.int) none

def dump (c : ChaosConfig) : Datum :=
  .record [("level", .int c.level), ("tier", Vocabulary.datum c.tier),
    ("allowed_categories", .list (c.categories.map Vocabulary.datum)),
    ("category_weights", .record (c.weights.map fun (name, w) => (name, .int w))),
    ("mutations", .list (c.mutations.map .text)),
    ("mutation_frequency_ms", (c.period.map .int).getD .null),
    ("max_active_mutations", .int c.cap),
    ("milestone_interval", (c.milestone.map .int).getD .null)]

end ChaosConfig

end SeededPlay

/-
# `SeededPlay.Game.World` — the world of a game

Gravity, boundary and surface, the size, and the numeric parameters that chaos
changes at play time.
-/
import SeededPlay.Game.Choices

namespace SeededPlay

structure World where
  gravity : Gravity := .normal
  boundary : Boundary := .walled
  surface : Surface := .elastic
  width : Int := 1600
  height : Int := 900
  /-- The parameters without any mutation. -/
  physics : Fields Binary64 := []
deriving DecidableEq, Repr, Inhabited

/-- The downward pull. -/
def Gravity.pull : Gravity → Binary64
  | .normal => .ofInt 800
  | .low => .ofInt 300
  | .shifting => .ofInt 800
  | .reverse => .ofInt (-800)

def Surface.friction : Surface → Binary64
  | .elastic => .ofDecimal 3 (-1)
  | .slippery => .ofDecimal 2 (-2)
  | .sticky => .ofDecimal 9 (-1)

def Surface.bounciness : Surface → Binary64
  | .elastic => .ofDecimal 8 (-1)
  | .slippery => .ofDecimal 2 (-1)
  | .sticky => .ofDecimal 5 (-2)

/-- How fast a pace is, a medium pace being one. -/
def Pace.speed : Pace → Binary64
  | .fast => .ofDecimal 13 (-1)
  | .medium => .one
  | .slow => .ofDecimal 7 (-1)

namespace World

/-- The world that choices ask for. -/
def ofChoices (c : Choices) : World where
  gravity := c.gravity
  boundary := c.boundary
  surface := c.surface
  physics := [("gravity_y", c.gravity.pull), ("friction", c.surface.friction),
    ("bounciness", c.surface.bounciness),
    ("move_speed", ((Binary64.ofInt 200).mul c.pace.speed).roundPlaces 2),
    ("jump_force", .ofInt 350), ("pixel_scale", .one), ("time_scale", .one)]

def read : Datum → Check World :=
  Record.ofFields "WorldConfig" fun fs =>
    World.mk <$> Record.optionalField fs "gravity" Record.term .normal
      <*> Record.optionalField fs "boundary" Record.term .walled
      <*> Record.optionalField fs "special_physics" Record.term .elastic
      <*> Record.optionalField fs "width" Record.int 1600
      <*> Record.optionalField fs "height" Record.int 900
      <*> Record.optionalField fs "physics" (Record.fields Record.real) []

/-- The parameters as raw values. -/
def params (w : World) : Fields Datum := w.physics.map fun (name, x) => (name, .real x)

def dump (w : World) : Datum :=
  .record [("gravity", Vocabulary.datum w.gravity), ("boundary", Vocabulary.datum w.boundary),
    ("special_physics", Vocabulary.datum w.surface), ("width", .int w.width),
    ("height", .int w.height), ("physics", .record w.params)]

end World

end SeededPlay

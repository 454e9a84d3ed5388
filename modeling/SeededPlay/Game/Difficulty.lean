/-
# `SeededPlay.Game.Difficulty` — how hard a game gets

A difficulty curve is a list of samples from start to end, each between zero and
one.  Faster games climb quicker; the rollercoaster adds two full waves to its
climb.  Samples are rounded to four decimal places.
-/
import SeededPlay.Number.Sine
import SeededPlay.Game.World
import SeededPlay.Settings

namespace SeededPlay

structure DifficultyPlan where
  style : Difficulty := .steady
  pace : Pace := .medium
  balance : SkillBalance := .skillHeavy
  curve : List Binary64 := []
deriving DecidableEq, Repr, Inhabited

namespace Difficulty

/-- A start and a climb that grows with time and speed. -/
def climb (start slope t speed : Binary64) : Binary64 := start.add ((slope.mul t).mul speed)

/-- The double nearest to the circle constant. -/
def pi : Binary64 := .ofDecimal 3141592653589793 (-15)

/-- Two full waves while time runs from zero to one. -/
def waves (t : Binary64) : Binary64 :=
  (Binary64.ofDecimal 2 (-1)).mul ((t.mul pi).mul (.ofInt 4)).sine

/-- The difficulty at a time between zero and one, before it is clamped and rounded. -/
def intensity (style : Difficulty) (speed t : Binary64) : Binary64 :=
  match style with
  | .relaxed => climb (.ofDecimal 2 (-1)) (.ofDecimal 3 (-1)) t speed
  | .steady => climb (.ofDecimal 3 (-1)) (.ofDecimal 5 (-1)) t speed
  | .hardcore => climb (.ofDecimal 6 (-1)) (.ofDecimal 35 (-2)) t speed
  | .rollercoaster => (climb (.ofDecimal 35 (-2)) (.ofDecimal 25 (-2)) t speed).add (waves t)

/-- A difficulty as it is listed: between zero and one, to four places. -/
def sample (d : Binary64) : Binary64 :=
  (Binary64.max .zero (Binary64.min .one d)).roundPlaces 4

/-- The curve of a style and a pace with a number of samples, at least three. -/
def curve (style : Difficulty) (pace : Pace) (points : Int) : List Binary64 :=
  let count := (max 3 points).toNat
  (List.range count).map fun i => sample (style.intensity pace.speed (.ofRatio i (count - 1)))

/-- The member of a vocabulary that a raw value names. -/
def listed {α : Type} [Vocabulary α] (title : String) (d : Datum) : Except Fault α :=
  match Vocabulary.ofDatum? d with
  | some a => .ok a
  | none => .error (.notListed title d)

/-- The curve of a raw style, a raw pace and a raw number of samples, which the
settings give if it is missing. -/
def curveOf (settings : Settings) (style pace : Datum) (points : Option Datum) :
    Except Fault (List Binary64) := do
  let points ← match points with
    | some d => d.toInt
    | none => .ok settings.curvePoints
  let pace ← listed "GamePace" pace
  let style ← listed "DifficultyStyle" style
  return curve style pace points

end Difficulty

namespace DifficultyPlan

/-- The plan that choices ask for. -/
def ofChoices (settings : Settings) (c : Choices) : DifficultyPlan where
  style := c.difficulty
  pace := c.pace
  balance := c.balance
  curve := Difficulty.curve c.difficulty c.pace settings.curvePoints

def read : Datum → Check DifficultyPlan :=
  Record.ofFields "DifficultyConfig" fun fs =>
    DifficultyPlan.mk <$> Record.optionalField fs "style" Record.term .steady
      <*> Record.optionalField fs "pace" Record.term .medium
      <*> Record.optionalField fs "skill_luck_ratio" Record.term .skillHeavy
      <*> Record.optionalField fs "curve" (Record.list Record.real) []

def dump (p : DifficultyPlan) : Datum :=
  .record [("style", Vocabulary.datum p.style), ("pace", Vocabulary.datum p.pace),
    ("skill_luck_ratio", Vocabulary.datum p.balance),
    ("curve", .list (p.curve.map .real))]

end DifficultyPlan

end SeededPlay

/-
# `SeededPlay.Play.State` — the state of a play-through

Five numbers, the entities on screen, the flags that are set, the abilities of
the player, and any further named values.  The fields are raw: what a renderer
puts into them stays as it is until a condition reads it or an effect changes it.
-/
import SeededPlay.Numeric

namespace SeededPlay

structure GameState where
  score : Datum := .int 0
  health : Datum := .int 3
  combo : Datum := .int 0
  level : Datum := .int 1
  elapsed : Datum := .int 0
  entities : Datum := .list []
  flags : Datum := .record []
  abilities : Datum := .list []
  extra : Datum := .record []
deriving Repr, Inhabited

namespace GameState

/-- The state as it is shown: the five numbers as they are, entities and abilities
by their items, flags and further values by their names. -/
def dump (s : GameState) : Except Fault Datum := do
  return .record [("score", s.score), ("health", s.health), ("combo", s.combo),
    ("level", s.level), ("elapsed_ms", s.elapsed), ("entities", .list (← s.entities.elements)),
    ("flags", .record (← s.flags.toFields)), ("abilities", .list (← s.abilities.elements)),
    ("extra", .record (← s.extra.toFields))]

/-- The state with a field replaced; none for a name that is no field. -/
def setField? (s : GameState) (name : String) (d : Datum) : Option GameState :=
  match name with
  | "score" => some { s with score := d }
  | "health" => some { s with health := d }
  | "combo" => some { s with combo := d }
  | "level" => some { s with level := d }
  | "elapsed_ms" => some { s with elapsed := d }
  | "entities" => some { s with entities := d }
  | "flags" => some { s with flags := d }
  | "abilities" => some { s with abilities := d }
  | "extra" => some { s with extra := d }
  | _ => none

/-- The state with known fields replaced; other names change nothing. -/
def assign (s : GameState) (fields : List (String × Datum)) : GameState :=
  fields.foldl (fun s f => (s.setField? f.1 f.2).getD s) s

/-- The state with the given fields and defaults elsewhere; an unknown name is refused. -/
def ofFields (fields : List (String × Datum)) : Except Fault GameState :=
  fields.foldlM (fun s f => match s.setField? f.1 f.2 with
    | some s => .ok s
    | none => .error .wrongKind) {}

/-- The value under a name in a raw record. -/
def member (d : Datum) (name : String) : Except Fault (Option Datum) :=
  match d with
  | .record fields => .ok (Fields.get? fields name)
  | _ => .error .noMembers

/-- The value that a condition means by a name: one of the five numbers, or a
further named value; none when there is no such value. -/
def valueOf (s : GameState) (name : String) : Except Fault (Option Datum) :=
  match name with
  | "score" => .ok (some s.score)
  | "health" => .ok (some s.health)
  | "combo" => .ok (some s.combo)
  | "level" => .ok (some s.level)
  | "elapsed_ms" => .ok (some s.elapsed)
  | _ => member s.extra name

/-- The state clock moved forward; what is no positive amount moves nothing. -/
def advance (s : GameState) (delta : Datum) : Except Fault GameState := do
  if !delta.isPresent then return s
  let delta ← delta.toNumber
  if (Number.int 0).lt delta then return { s with elapsed := ← s.elapsed.plus delta }
  else return s

end GameState

end SeededPlay

/-
# `SeededPlay.Chaos.Undo` — mutations applied and taken back

Applying a mutation writes its parameters one after another, then does its twist,
and leaves a record of what was there before.  Taking it back undoes the twist
first and then puts the parameters back.

Reversing the score flips the sign of every rule that adds to the score or takes
from it.  Only the rules flipped on the way in are flipped back, each as often as
it was flipped, so that rules added in between keep their sign.
-/
import SeededPlay.Chaos.Mutation
import SeededPlay.Draw.Stream
import SeededPlay.Play.Scene

namespace SeededPlay

/-- What is needed to take a mutation back. -/
structure Undo where
  /-- The parameters written, with what they were; none if they were missing. -/
  params : List (String × Option Datum) := []
  /-- The keys of the flipped rules. -/
  flipped : List (String × String × String) := []
  /-- The rules that gave way. -/
  removed : List Rule := []
  /-- The goal before, none if there was none. -/
  goal : Option Datum := none
deriving Repr, Inhabited

namespace Rule

/-- The rule with the sign of its score effect flipped; none if it has no such effect. -/
def flipScore? (r : Rule) : Except Fault (Option Rule) := do
  match ← Effect.parse false r.effect with
  | .arithmetic "score" sign n =>
    return some { r with effect := "score" ++ String.singleton sign.flip.char ++ n.text }
  | _ => return none

/-- The rules with all score effects flipped, and the keys of those that were. -/
def flipAll : List Rule → Except Fault (List Rule × List (String × String × String))
  | [] => .ok ([], [])
  | r :: rs => do
    let flipped ← r.flipScore?
    let (rest, keys) ← flipAll rs
    return match flipped with
      | some f => (f :: rest, f.key :: keys)
      | none => (r :: rest, keys)

/-- The rules with the score effects of pending keys flipped, each key used once. -/
def flipPending : List (String × String × String) → List Rule → Except Fault (List Rule)
  | _, [] => .ok []
  | pending, r :: rs =>
    if r.key ∈ pending then do
      let flipped ← r.flipScore?
      return flipped.getD r :: (← flipPending (pending.erase r.key) rs)
    else do return r :: (← flipPending pending rs)

end Rule

namespace Twist

/-- The goals there are. -/
def goals : List String := ["score_threshold", "survive_time", "collect_all", "reach_goal"]

/-- The goals other than the one in force. -/
def otherGoals (current : Option Datum) : List String :=
  match current with
  | some (.text goal) => goals.filter (· ≠ goal)
  | some _ => goals
  | none => goals.filter (· ≠ "reach_goal")

/-- The parameter that names the goal. -/
def goalParam : String := "goal_type"

/-- Rules that carry none of the actions of others. -/
def unmarked (added rules : List Rule) : List Rule :=
  rules.filter fun r => !(added.map (·.action)).contains r.action

/-- The twist done; `shown` says whether the state may be touched. -/
def apply (t : Twist) (stream : Stream) (nonce : Datum) (shown : Bool) : Attempt Scene Undo :=
  match t with
  | .nothing => return {}
  | .reverseScore => do
    let (rules, flipped) ← Attempt.lift (Rule.flipAll (← get).rules.rules)
    Scene.setRules rules
    return { flipped }
  | .addRules added => do
    Scene.addRules added
    return {}
  | .replaceTrigger trigger added => do
    let removed ← Scene.removeTrigger trigger
    Scene.addRules added
    return { removed }
  | .shiftGoal => do
    let goal := (← get).params.get? goalParam
    let next ← Attempt.lift (Draw.pick (stream.word nonce "goal_shift") (otherGoals goal))
    Scene.setParam goalParam ((next.map .text).getD .null)
    if shown then discard (Scene.applyDatum (.text "flag=goal_shifted"))
    return { goal }
  | .misreport => do
    let score ← Attempt.lift (Draw.between (stream.word nonce "narrator_score") (-100) 99)
    Scene.setParam "score_display_offset" (.int score)
    let health ← Attempt.lift (Draw.between (stream.word nonce "narrator_health") (-1) 1)
    Scene.setParam "health_display_offset" (.int health)
    return {}

/-- The twist taken back. -/
def revert (t : Twist) (undo : Undo) : Attempt Scene Unit :=
  match t with
  | .nothing => return ()
  | .reverseScore => do
    let rules ← Attempt.lift (Rule.flipPending undo.flipped (← get).rules.rules)
    Scene.setRules rules
  | .addRules added => do
    Scene.setRules (unmarked added (← get).rules.rules)
  | .replaceTrigger _ added => do
    Scene.setRules (unmarked added (← get).rules.rules)
    Scene.addRules undo.removed
  | .shiftGoal => Scene.restoreParam goalParam undo.goal
  | .misreport => do
    Scene.restoreParam "score_display_offset" none
    Scene.restoreParam "health_display_offset" none

end Twist

namespace Mutation

/-- Parameters written over one after another; what they were is returned. -/
def overwrite : List (String × Override) → Attempt Scene (List (String × Option Datum))
  | [] => return []
  | (name, o) :: rest => do
    let current := (← get).params.get? name
    Scene.setParam name (← Attempt.lift (o.apply current))
    return (name, current) :: (← overwrite rest)

/-- Parameters put back one after another. -/
def restore : List (String × Option Datum) → Attempt Scene Unit
  | [] => return ()
  | (name, earlier) :: rest => do
    Scene.restoreParam name earlier
    restore rest

/-- The mutation applied. -/
def apply (m : Mutation) (stream : Stream) (nonce : Datum) (shown : Bool) :
    Attempt Scene Undo := do
  let params ← overwrite m.overrides
  let undo ← m.twist.apply stream nonce shown
  return { undo with params }

/-- The mutation taken back. -/
def revert (m : Mutation) (undo : Undo) : Attempt Scene Unit := do
  m.twist.revert undo
  restore undo.params

end Mutation

end SeededPlay

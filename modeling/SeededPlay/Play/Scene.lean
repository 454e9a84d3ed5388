/-
# `SeededPlay.Play.Scene` — what is live during play

The rules in force, the parameters of the world, and the state.  Events run rules
against the state; mutations change all three.
-/
import SeededPlay.Rules.Engine

namespace SeededPlay

structure Scene where
  rules : Engine
  params : Fields Datum
  state : GameState
deriving Inhabited

namespace Scene

/-- A change of the state, made in the scene. -/
def onState {α : Type} (x : Attempt GameState α) : Attempt Scene α :=
  x.within Scene.state fun s state => { s with state }

/-- A parameter put to a value. -/
def setParam (name : String) (value : Datum) : Attempt Scene Unit :=
  modify fun s => { s with params := s.params.set name value }

/-- A parameter put back to what it was, or taken out if it was not there. -/
def restoreParam (name : String) (earlier : Option Datum) : Attempt Scene Unit :=
  modify fun s => match earlier with
    | some value => { s with params := s.params.set name value }
    | none => { s with params := s.params.erase name }

/-- Other rules in place of those in force. -/
def setRules (rules : List Rule) : Attempt Scene Unit := do
  let engine ← Attempt.lift ((← get).rules.setRules rules)
  modify fun s => { s with rules := engine }

/-- Rules behind those in force. -/
def addRules (rules : List Rule) : Attempt Scene Unit := do
  let engine ← Attempt.lift ((← get).rules.addRules rules)
  modify fun s => { s with rules := engine }

/-- The rules of a trigger taken out of force. -/
def removeTrigger (trigger : String) : Attempt Scene (List Rule) := do
  let (engine, removed) := (← get).rules.removeTrigger trigger
  modify fun s => { s with rules := engine }
  return removed

/-- A raw effect applied to the state. -/
def applyDatum (effect : Datum) : Attempt Scene Effect := do
  let s ← get
  let (effect, state) ← Attempt.lift (s.rules.applyDatum effect s.state)
  modify fun s => { s with state }
  return effect

/-- The effects of a raw trigger. -/
def dispatchDatum (trigger : Datum) : Attempt Scene (List Effect) := do
  onState ((← get).rules.dispatchDatum trigger)

/-- The clock of the state moved forward. -/
def advance (delta : Datum) : Attempt Scene Unit := do
  let state ← Attempt.lift ((← get).state.advance delta)
  modify fun s => { s with state }

end Scene

end SeededPlay

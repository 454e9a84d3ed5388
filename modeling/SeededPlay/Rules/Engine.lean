/-
# `SeededPlay.Rules.Engine` — the active rules

An engine owns the rules in force, each with its condition and effect read once.
Rules enter only through `compile`, so what is stored beside a rule is always what
its texts mean.  A set of rules is read completely before it replaces anything.

An event runs the rules of its trigger in order, each against the state that the
ones before it left.  When a rule fails, the state it was reached with remains.
-/
import SeededPlay.Rules.Bundle
import SeededPlay.Rules.Effect
import SeededPlay.Rules.Condition
import SeededPlay.Attempt

namespace SeededPlay

/-- A rule with what its texts mean. -/
structure CompiledRule where
  rule : Rule
  condition : Condition
  effect : Effect
deriving DecidableEq, Repr, Inhabited

namespace CompiledRule

/-- A rule read; the condition is read first. -/
def ofRule (strict : Bool) (rule : Rule) : Except Fault CompiledRule := do
  let condition ← Condition.parseOption strict rule.condition
  let effect ← Effect.parse strict rule.effect
  return ⟨rule, condition, effect⟩

/-- The rule tried on a state: its effect, if its condition holds. -/
def attempt (c : CompiledRule) : Attempt GameState (Option Effect) := do
  if ← .lift (c.condition.holds (← get)) then
    set (← Attempt.lift (c.effect.apply (← get)))
    return some c.effect
  else
    return none

end CompiledRule

/-- The rules in force. -/
structure Engine where
  strict : Bool
  compiled : List CompiledRule
deriving DecidableEq, Repr, Inhabited

namespace Engine

/-- Rules read one after another, up to the first that is refused. -/
def compile (strict : Bool) (rules : List Rule) : Except Fault (List CompiledRule) :=
  rules.mapM (CompiledRule.ofRule strict)

/-- Raw rules read one after another: each as a record, then its texts. -/
def compileRaw (strict : Bool) (rules : List Datum) : Except Fault (List CompiledRule) :=
  rules.mapM fun d => do CompiledRule.ofRule strict (← (Rule.read d).toExcept)

def empty (strict : Bool) : Engine := ⟨strict, []⟩

def ofRules (strict : Bool) (rules : List Rule) : Except Fault Engine :=
  (compile strict rules).map (Engine.mk strict)

/-- The rules in force, in order. -/
def rules (e : Engine) : List Rule := e.compiled.map (·.rule)

def size (e : Engine) : Nat := e.compiled.length

/-- The triggers with rules, each once. -/
def triggers (e : Engine) : List String := Rule.triggers e.rules

/-! ## Changing the rules -/

def setRules (e : Engine) (rules : List Rule) : Except Fault Engine :=
  (compile e.strict rules).map fun compiled => { e with compiled }

def addRules (e : Engine) (rules : List Rule) : Except Fault Engine :=
  (compile e.strict rules).map fun compiled => { e with compiled := e.compiled ++ compiled }

/-- The rules replaced by raw ones. -/
def setRaw (e : Engine) (rules : List Datum) : Except Fault Engine :=
  (compileRaw e.strict rules).map fun compiled => { e with compiled }

/-- Raw rules put behind the others. -/
def addRaw (e : Engine) (rules : List Datum) : Except Fault Engine :=
  (compileRaw e.strict rules).map fun compiled => { e with compiled := e.compiled ++ compiled }

/-- The engine without the rules of a trigger, and those rules. -/
def removeTrigger (e : Engine) (trigger : String) : Engine × List Rule :=
  ({ e with compiled := e.compiled.filter fun c => c.rule.trigger ≠ trigger },
    e.rules.filter fun r => r.trigger = trigger)

/-! ## Running -/

/-- Whether the condition of a rule, read anew, holds. -/
def holds (e : Engine) (rule : Rule) (s : GameState) : Except Fault Bool := do
  (← Condition.parseOption e.strict rule.condition).holds s

/-- A raw effect read and applied. -/
def applyDatum (e : Engine) (effect : Datum) (s : GameState) :
    Except Fault (Effect × GameState) := do
  let effect ← Effect.parseDatum e.strict effect
  return (effect, ← effect.apply s)

/-- Rules run in order; those whose condition holds give their effects. -/
def run : List CompiledRule → Attempt GameState (List Effect)
  | [] => pure []
  | c :: cs => do
    let effect ← c.attempt
    let rest ← run cs
    return effect.toList ++ rest

/-- The effects of an event. -/
def dispatch (e : Engine) (trigger : String) : Attempt GameState (List Effect) :=
  run (e.compiled.filter fun c => c.rule.trigger = trigger)

/-- The effects of a raw trigger; only texts trigger anything. -/
def dispatchDatum (e : Engine) (trigger : Datum) : Attempt GameState (List Effect) :=
  match trigger with
  | .text t => e.dispatch t
  | _ => pure []

end Engine

end SeededPlay

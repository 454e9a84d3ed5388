/-
# `SeededPlay.Rules.Lint` — rule texts outside the language

Linting reads the condition and the effect of every rule strictly and lists the
texts that are refused, in the order of the rules, the condition first.
-/
import SeededPlay.Rules.Rule
import SeededPlay.Rules.Effect
import SeededPlay.Rules.Condition

namespace SeededPlay.Lint

/-- The refusal of a strict reading, if it is one; other faults remain faults. -/
def refusal {α : Type} : Except Fault α → Except Fault (List Unparsable)
  | .ok _ => .ok []
  | .error (.unparsable u) => .ok [u]
  | .error e => .error e

/-- The refused texts of one rule. -/
def rule (r : Rule) : Except Fault (List Unparsable) := do
  let condition ← refusal (Condition.parseOption true r.condition)
  let effect ← refusal (Effect.parse true r.effect)
  return condition ++ effect

/-- The refused texts of some rules. -/
def rules : List Rule → Except Fault (List Unparsable)
  | [] => .ok []
  | r :: rs => do return (← rule r) ++ (← rules rs)

/-- The refused texts of raw rules, each read when its turn comes. -/
def rawRules : List Datum → Except Fault (List Unparsable)
  | [] => .ok []
  | d :: ds => do
    let r ← (Rule.read d).toExcept
    return (← rule r) ++ (← rawRules ds)

end SeededPlay.Lint

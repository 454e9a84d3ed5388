/-
# `SeededPlay.Rules.Rule` — rules

When the trigger fires and the condition holds, the action produces the effect.
Condition and effect are texts of the rule language; nothing here looks into
them.
-/
import SeededPlay.Record.Check

namespace SeededPlay

structure Rule where
  trigger : String
  condition : Option String
  action : String
  effect : String
deriving DecidableEq, Repr, Inhabited

namespace Rule

/-- What tells two rules apart when rule sets are merged. -/
def key (rule : Rule) : String × String × String := (rule.trigger, rule.action, rule.effect)

def read : Datum → Check Rule :=
  Record.ofFields "RuleDef" fun fs =>
    Rule.mk <$> Record.required fs "trigger" Record.text
      <*> Record.optionalField fs "condition" (Record.optional Record.text) none
      <*> Record.required fs "action" Record.text
      <*> Record.required fs "effect" Record.text

/-- The fields of a rule as a raw record. -/
def dump (rule : Rule) : Datum :=
  .record [("trigger", .text rule.trigger),
    ("condition", (rule.condition.map .text).getD .null),
    ("action", .text rule.action), ("effect", .text rule.effect)]

/-- A rule without a condition. -/
def always (trigger action effect : String) : Rule := ⟨trigger, none, action, effect⟩

/-- A rule with a condition. -/
def when (trigger condition action effect : String) : Rule :=
  ⟨trigger, some condition, action, effect⟩

end Rule

end SeededPlay

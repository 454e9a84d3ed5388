/-
# `SeededPlay.Proofs.Play.Interpreter` — dispatch is interpreting the rule texts

An engine reads its rules once, when they come in, and an event runs what was read.
The reference is the loop that knows only the texts: it walks through all rules in
order, and for each rule of the trigger reads the condition anew, tries it on the state
that the rules before have left, and reads and applies the effect (`Rule.interpretAll`).

The two agree because what is stored beside a rule is what its texts mean
(`Engine.Sound`), and every change of an engine keeps it that way: new rules, rules
taken out, and mutations applied and taken back, with whatever record they are taken
back by, whether the change succeeds or fails half way (`Engine.Change.faithful_on`).  By
induction it holds after any number of changes (`Engine.faithful_after`).  The rest is an
induction over the rules, carried out for every state at once, since the effects of one
rule decide about the conditions of the next.

## Changes that fail

A change that succeeds gives a faithful engine, and one that fails leaves the engine as it
was or has already put a faithful one in its place (`Faithful.getD`).  Mutations are sequences
of such changes, and what they keep follows from what their parts keep, so neither applying
nor taking back has to be opened here.  Raw rules, too, are stored with what their texts mean
(`ofRule_of_compileRaw`).

The effects of an event that succeeds, applied in order, are what happened to the state
(`applyAll_of_run`).  This needs no faithfulness, only that a rule changes the state by its
effect, if it has one, and by nothing else (`applyAll_of_attempt`).
-/
import SeededPlay.Proofs.Chaos.Undo

namespace SeededPlay

open Attempt (reached Keeps)

/-! ## Interpreting texts -/

namespace Rule

/-- Whether a rule is one of a raw trigger; only texts trigger anything. -/
def hears (r : Rule) : Datum → Bool
  | .text trigger => r.trigger = trigger
  | _ => false

/-- A rule tried on a state, its texts read as they are needed. -/
def interpret (strict : Bool) (r : Rule) : Attempt GameState (Option Effect) := do
  let condition ← Attempt.lift (Condition.parseOption strict r.condition)
  if ← .lift (condition.holds (← get)) then
    let effect ← Attempt.lift (Effect.parse strict r.effect)
    set (← Attempt.lift (effect.apply (← get)))
    return some effect
  else
    return none

/-- All rules in order, those of the trigger tried. -/
def interpretAll (strict : Bool) (trigger : Datum) : List Rule → Attempt GameState (List Effect)
  | [] => pure []
  | r :: rs =>
    if r.hears trigger then do
      let effect ← r.interpret strict
      let rest ← interpretAll strict trigger rs
      return effect.toList ++ rest
    else interpretAll strict trigger rs

end Rule

/-- Effects applied one after another. -/
def Effect.applyAll (effects : List Effect) (s : GameState) : Except Fault GameState :=
  effects.foldlM (fun s e => e.apply s) s

/-! ## One rule -/

namespace CompiledRule

/-- What is stored beside a rule does what its texts do. -/
theorem interpret_eq_attempt {strict : Bool} {c : CompiledRule} (h : ofRule strict c.rule = .ok c) :
    c.rule.interpret strict = c.attempt := by
  obtain ⟨hcondition, heffect, -⟩ := ofRule_eq_ok.mp h
  unfold Rule.interpret attempt
  rw [hcondition, heffect]
  rfl

theorem attempt_apply (c : CompiledRule) (s : GameState) :
    c.attempt s = match c.condition.holds s with
      | .error f => .error f s
      | .ok false => .ok none s
      | .ok true => match c.effect.apply s with
        | .error f => .error f s
        | .ok s' => .ok (some c.effect) s' := by
  unfold attempt
  simp only [Attempt.bind_apply, Attempt.get_apply]
  cases c.condition.holds s with
  | error f => rfl
  | ok b =>
    cases b with
    | false => rfl
    | true =>
      simp only [Attempt.lift_ok, if_true, Attempt.bind_apply, Attempt.get_apply]
      cases c.effect.apply s <;> rfl

theorem applyAll_of_attempt {c : CompiledRule} {s s' : GameState} {effect : Option Effect}
    (h : c.attempt s = .ok effect s') : Effect.applyAll effect.toList s = .ok s' := by
  rw [attempt_apply] at h
  split at h
  · cases h
  · obtain ⟨rfl, rfl⟩ := EStateM.Result.ok.inj h
    rfl
  · split at h
    · cases h
    · rename_i happly
      obtain ⟨rfl, rfl⟩ := EStateM.Result.ok.inj h
      unfold Effect.applyAll
      rw [Option.toList_some, List.foldlM_cons, happly]
      rfl

theorem keeps_attempt {P : GameState → Prop} (c : CompiledRule)
    (hP : ∀ {s s'}, c.effect.apply s = .ok s' → P s → P s') : Keeps P c.attempt := by
  intro s hs
  rw [attempt_apply]
  split
  · exact hs
  · exact hs
  · split
    · exact hs
    · rename_i happly
      exact hP happly hs

end CompiledRule

namespace Engine

/-! ## All rules -/

theorem run_cons (c : CompiledRule) (cs : List CompiledRule) (s : GameState) :
    run (c :: cs) s = match c.attempt s with
      | .error f s' => .error f s'
      | .ok effect s' => match run cs s' with
        | .error f s'' => .error f s''
        | .ok effects s'' => .ok (effect.toList ++ effects) s'' := by
  rw [run, Attempt.bind_apply]
  cases c.attempt s with
  | error f s' => rfl
  | ok effect s' =>
    simp only [Attempt.bind_apply]
    cases run cs s' <;> rfl

theorem keeps_run {P : GameState → Prop}
    (hP : ∀ {e : Effect} {s s'}, e.apply s = .ok s' → P s → P s') (rules : List CompiledRule) :
    Keeps P (run rules) := by
  induction rules with
  | nil => exact Keeps.pure _
  | cons c rules ih =>
    exact Keeps.bind (c.keeps_attempt hP) fun _ => Keeps.bind ih fun _ => Keeps.pure _

/-- Running what was read is interpreting the texts, whatever the state. -/
theorem run_eq_interpretAll {strict : Bool} (trigger : String) {cs : List CompiledRule}
    (h : ∀ c ∈ cs, CompiledRule.ofRule strict c.rule = .ok c) :
    run (cs.filter fun c => c.rule.trigger = trigger) =
      Rule.interpretAll strict (.text trigger) (cs.map (·.rule)) := by
  induction cs with
  | nil => rfl
  | cons c cs ih =>
    have hrest := ih fun d hd => h d (List.mem_cons_of_mem c hd)
    have hhears : c.rule.hears (.text trigger) = decide (c.rule.trigger = trigger) := rfl
    rw [List.filter_cons, List.map_cons, Rule.interpretAll, hhears,
      CompiledRule.interpret_eq_attempt (h c List.mem_cons_self), ← hrest]
    split
    · rw [run]
    · rfl

theorem interpretAll_of_deaf {strict : Bool} {trigger : Datum} {rules : List Rule}
    (h : ∀ r ∈ rules, r.hears trigger = false) :
    Rule.interpretAll strict trigger rules = pure [] := by
  induction rules with
  | nil => rfl
  | cons r rules ih =>
    rw [Rule.interpretAll, h r List.mem_cons_self, if_neg Bool.false_ne_true]
    exact ih fun r' hr' => h r' (List.mem_cons_of_mem r hr')

theorem Sound.dispatchDatum_eq {e : Engine} (h : e.Sound) (trigger : Datum) :
    e.dispatchDatum trigger = Rule.interpretAll e.strict trigger e.rules := by
  cases trigger with
  | text t => exact run_eq_interpretAll t h
  | _ => exact (interpretAll_of_deaf fun _ _ => rfl).symm

theorem applyAll_of_run {cs : List CompiledRule} {s s' : GameState} {effects : List Effect}
    (h : run cs s = .ok effects s') : Effect.applyAll effects s = .ok s' := by
  induction cs generalizing s effects with
  | nil =>
    obtain ⟨rfl, rfl⟩ := EStateM.Result.ok.inj h
    rfl
  | cons c cs ih =>
    rw [run_cons] at h
    split at h
    · cases h
    · rename_i effect s₁ hattempt
      split at h
      · cases h
      · rename_i rest s₂ hrun
        obtain ⟨rfl, rfl⟩ := EStateM.Result.ok.inj h
        unfold Effect.applyAll
        rw [List.foldlM_append]
        exact bind_eq_ok.mpr ⟨s₁, CompiledRule.applyAll_of_attempt hattempt, ih hrun⟩

theorem applyAll_of_dispatchDatum {e : Engine} {trigger : Datum} {s s' : GameState}
    {effects : List Effect} (h : e.dispatchDatum trigger s = .ok effects s') :
    Effect.applyAll effects s = .ok s' := by
  cases trigger with
  | text t => exact applyAll_of_run h
  | _ =>
    obtain ⟨rfl, rfl⟩ := EStateM.Result.ok.inj h
    rfl

/-- The engine with its first rules only. -/
def first (e : Engine) (k : Nat) : Engine := { e with compiled := e.compiled.take k }

theorem rules_first (e : Engine) (k : Nat) : (e.first k).rules = e.rules.take k := List.map_take

theorem Sound.first {e : Engine} (h : e.Sound) (k : Nat) : (e.first k).Sound :=
  fun c hc => h c (List.mem_of_mem_take hc)

/-! ## Changes of an engine -/

/-- What can be done to the rules of an engine. -/
inductive Change where
  | setRules (rules : List Rule)
  | addRules (rules : List Rule)
  | setRaw (rules : List Datum)
  | addRaw (rules : List Datum)
  | removeTrigger (trigger : String)
  /-- A mutation applied in a scene with the engine in it. -/
  | apply (m : Mutation) (stream : Stream) (nonce : Datum) (shown : Bool)
    (params : Fields Datum) (state : GameState)
  /-- A mutation taken back by some record, its own or not. -/
  | revert (m : Mutation) (undo : Undo) (params : Fields Datum) (state : GameState)

/-- The engine that a change leaves, also if it failed. -/
def Change.on (e : Engine) : Change → Engine
  | .setRules rules => (e.setRules rules).toOption.getD e
  | .addRules rules => (e.addRules rules).toOption.getD e
  | .setRaw rules => (e.setRaw rules).toOption.getD e
  | .addRaw rules => (e.addRaw rules).toOption.getD e
  | .removeTrigger trigger => (e.removeTrigger trigger).1
  | .apply m stream nonce shown params state =>
    (reached (m.apply stream nonce shown ⟨e, params, state⟩)).rules
  | .revert m undo params state => (reached (m.revert undo ⟨e, params, state⟩)).rules

/-- An engine after some changes. -/
def after (e : Engine) (changes : List Change) : Engine := changes.foldl Change.on e

/-- A sound engine that is as strict as it should be. -/
def Faithful (strict : Bool) (e : Engine) : Prop := e.Sound ∧ e.strict = strict

theorem ofRule_of_compileRaw {strict : Bool} {rules : List Datum} {cs : List CompiledRule}
    (h : compileRaw strict rules = .ok cs) : ∀ c ∈ cs, CompiledRule.ofRule strict c.rule = .ok c := by
  intro c hc
  have hread := List.mem_map_of_mem (f := Except.ok (ε := Fault)) hc
  rw [← mapM_eq_ok.mp h] at hread
  obtain ⟨d, -, hd⟩ := List.mem_map.mp hread
  obtain ⟨r, -, hr⟩ := bind_eq_ok.mp hd
  obtain rfl : c.rule = r := (CompiledRule.ofRule_eq_ok.mp hr).2.2
  exact hr

theorem Faithful.getD {strict : Bool} {e : Engine} {x : Except Fault Engine}
    (h : e.Faithful strict) (hx : ∀ e', x = .ok e' → e'.Faithful strict) :
    (x.toOption.getD e).Faithful strict := by
  cases x with
  | error f => exact h
  | ok e' => exact hx e' rfl

end Engine

namespace Scene

open Engine (Faithful)

theorem keeps_setRules_faithful {strict : Bool} (rules : List Rule) :
    Keeps (fun s => s.rules.Faithful strict) (setRules rules) := by
  intro s hs
  cases he : s.rules.setRules rules with
  | error f =>
    rw [setRules_error he]
    exact hs
  | ok e =>
    obtain ⟨hstrict, -, hsound⟩ := Engine.setRules_spec he
    rw [setRules_ok he]
    exact ⟨hsound, hstrict.trans hs.2⟩

theorem keeps_addRules_faithful {strict : Bool} (rules : List Rule) :
    Keeps (fun s => s.rules.Faithful strict) (addRules rules) := by
  intro s hs
  cases he : s.rules.addRules rules with
  | error f =>
    rw [addRules_error he]
    exact hs
  | ok e =>
    obtain ⟨hstrict, -, hsound⟩ := Engine.addRules_spec hs.1 he
    rw [addRules_ok he]
    exact ⟨hsound, hstrict.trans hs.2⟩

theorem keeps_restoreParam_faithful {strict : Bool} (name : String) (earlier : Option Datum) :
    Keeps (fun s => s.rules.Faithful strict) (restoreParam name earlier) := by
  intro s hs
  rw [restoreParam_apply]
  exact hs

end Scene

theorem Mutation.keeps_apply {strict : Bool} (m : Mutation) (stream : Stream) (nonce : Datum)
    (shown : Bool) : Keeps (fun s => s.rules.Faithful strict) (m.apply stream nonce shown) := by
  intro s hs
  have hout := m.apply_outcome stream nonce shown hs.1
  cases hr : m.apply stream nonce shown s with
  | ok undo s' =>
    rw [hr] at hout
    cases hout with
    | done _ hsound hstrict _ _ => exact ⟨hsound, hstrict.trans hs.2⟩
  | error f s' =>
    rw [hr] at hout
    cases hout with
    | failed _ hsound hstrict => exact ⟨hsound, hstrict.trans hs.2⟩

namespace Engine

/-- Every change keeps an engine faithful, also one that fails. -/
theorem Change.faithful_on {strict : Bool} {e : Engine} (h : e.Faithful strict) (c : Change) :
    (c.on e).Faithful strict := by
  cases c with
  | setRules rules =>
    refine h.getD fun e' he => ?_
    obtain ⟨hstrict, -, hsound⟩ := setRules_spec he
    exact ⟨hsound, hstrict.trans h.2⟩
  | addRules rules =>
    refine h.getD fun e' he => ?_
    obtain ⟨hstrict, -, hsound⟩ := addRules_spec h.1 he
    exact ⟨hsound, hstrict.trans h.2⟩
  | setRaw rules =>
    refine h.getD fun e' he => ?_
    obtain ⟨cs, hcs, rfl⟩ := map_eq_ok.mp he
    exact ⟨ofRule_of_compileRaw hcs, h.2⟩
  | addRaw rules =>
    refine h.getD fun e' he => ?_
    obtain ⟨cs, hcs, rfl⟩ := map_eq_ok.mp he
    refine ⟨fun c hc => ?_, h.2⟩
    rcases List.mem_append.mp hc with hc | hc
    · exact h.1 c hc
    · exact ofRule_of_compileRaw hcs c hc
  | removeTrigger trigger =>
    obtain ⟨hstrict, -, hsound, -⟩ := removeTrigger_spec h.1 trigger
    exact ⟨hsound, hstrict.trans h.2⟩
  | apply m stream nonce shown params state =>
    exact m.keeps_apply stream nonce shown ⟨e, params, state⟩ h
  | revert m undo params state =>
    exact m.keeps_revert Scene.keeps_setRules_faithful Scene.keeps_addRules_faithful
      Scene.keeps_restoreParam_faithful undo ⟨e, params, state⟩ h

theorem faithful_after {strict : Bool} {e : Engine} (h : e.Faithful strict) (changes : List Change) :
    (e.after changes).Faithful strict := by
  induction changes generalizing e with
  | nil => exact h
  | cons c changes ih => exact ih (c.faithful_on h)

/-- What an engine does for a trigger is what interpreting its rule texts does.  That
holds after any changes, for every trigger and state, with the same effects and the same
state at the end, or with the same failure; and as it holds of the first rules, however
many, the rule that fails is the same.  The effects of an event that succeeds, applied in
order to the state before it, give the state after it. -/
theorem dispatch_eq_interpret {strict : Bool} {rules : List Rule} {e : Engine}
    (h : ofRules strict rules = .ok e) (changes : List Change) (trigger : Datum) (s : GameState) :
    (e.after changes).dispatchDatum trigger s =
        Rule.interpretAll strict trigger (e.after changes).rules s ∧
      (∀ k, ((e.after changes).first k).dispatchDatum trigger s =
        Rule.interpretAll strict trigger ((e.after changes).rules.take k) s) ∧
      ∀ effects s', (e.after changes).dispatchDatum trigger s = .ok effects s' →
        Effect.applyAll effects s = .ok s' := by
  obtain ⟨hstrict, -, hsound⟩ := ofRules_spec h
  obtain ⟨hafter, hsame⟩ := faithful_after ⟨hsound, hstrict⟩ changes
  refine ⟨?_, fun k => ?_, fun _ _ => applyAll_of_dispatchDatum⟩
  · rw [hafter.dispatchDatum_eq, hsame]
  · rw [(hafter.first k).dispatchDatum_eq, rules_first]
    show Rule.interpretAll (e.after changes).strict _ _ _ = _
    rw [hsame]

theorem dispatch_reversed_coin :
    ∃ e, ofRules false [.always "player_collect_coin" "add_score" "score+1"] = .ok e ∧
      ∀ trigger s, let e' := e.after [.apply .scoreReverse ⟨.int 7, "chaos"⟩ (.int 0) true [] {},
          .addRules [.always "player_collect_coin" "shine" "spawn:particle_sparkle"]]
        e'.dispatchDatum trigger s = Rule.interpretAll false trigger e'.rules s := by
  have he := ofRules_point false .plus "player_collect_coin" "add_score"
  exact ⟨_, he, fun trigger s => (dispatch_eq_interpret he _ trigger s).1⟩

end Engine

end SeededPlay

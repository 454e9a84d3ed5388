/-
# `SeededPlay.Proofs.Play.Registration` — linting says what registering will do

A rule has two texts, and reading either of them can fail.  The faults of some rules
are those of their texts, in the order in which the texts are read (`Rule.faults`).
Registering rules stops at the first fault (`Engine.stops_compile`), linting goes on
past refusals and lists them (`Lint.collects_rules`).  Both go through the same list,
so a strict engine takes rules exactly when linting lists nothing, and what it raises
otherwise is what linting lists first (`Engine.registers_as_linted`).

What is no refusal stops the one as it stops the other: a whole numeral of more than
4300 digits (`Rule.Overlong`), which no reader reads.  Rules with such a numeral are
registered by no engine, be it strict or not, and cannot be linted.

## Two ways through one list

`Stops` says of a reading that it succeeds if there are no faults and raises the first one
otherwise; `Collects` says of a list of refusals that it is all of the faults, in order, or
that it is not drawn up because of the first fault that is no refusal.  Both are closed under appending faults, so both go along with
the recursion over the rules.  Then everything is a comparison of two properties of one list
of faults: linting completes unless a numeral is too long (`exists_rules_iff`), and lists
nothing exactly when strict readers have nothing to object to (`rules_eq_nil_iff`); an engine
is built from rules, or a scene takes them, exactly when they have no faults for it
(`exists_ofRules_iff`, `exists_run_iff`).  Permissive readers have no faults but numerals that
are too long (`Rule.faults_permissive`).
-/
import SeededPlay.Proofs.Rules.Conditions
import SeededPlay.Proofs.Rules.Engine
import SeededPlay.Proofs.Chaos.Undo
import SeededPlay.Rules.Lint

namespace SeededPlay

variable {α β : Type}

/-! ## The faults of rules -/

/-- The fault of a reading, if it has one. -/
def faultsOf : Except Fault α → List Fault
  | .ok _ => []
  | .error f => [f]

theorem mem_faultsOf {x : Except Fault α} {f : Fault} : f ∈ faultsOf x ↔ x = .error f := by
  cases x with
  | ok a => exact ⟨fun h => absurd h List.not_mem_nil, nofun⟩
  | error g =>
    rw [faultsOf, List.mem_singleton, Except.error.injEq]
    exact eq_comm

namespace Rule

/-- The faults of the texts of a rule, that of the condition first. -/
def faults (strict : Bool) (r : Rule) : List Fault :=
  faultsOf (Condition.parseOption strict r.condition) ++ faultsOf (Effect.parse strict r.effect)

/-- A text of the rule writes a number that is in the language with more digits than are
read, `n` of them. -/
def Overlong (r : Rule) (n : Nat) : Prop :=
  (∃ text, r.condition = some text ∧ ∃ name op numeral,
      WritesComparison text name op numeral ∧ Phrase.TooLong numeral ∧
        numeral.toList.length = n) ∨
    ∃ name sign numeral, WritesAmount r.effect name sign numeral ∧ Phrase.TooLong numeral ∧
      numeral.toList.length = n

/-- Every fault is a refusal, which only strict readers raise, or a numeral that is too
long for all of them. -/
theorem of_mem_faults {strict : Bool} {r : Rule} {f : Fault} (h : f ∈ r.faults strict) :
    (strict = true ∧ ∃ u, f = .unparsable u) ∨ ∃ n, r.Overlong n ∧ f = .integer (.tooLong n) := by
  rcases List.mem_append.mp h with h | h
  · have herror := mem_faultsOf.mp h
    cases hc : r.condition with
    | none =>
      rw [hc] at herror
      cases herror
    | some text =>
      rw [hc] at herror
      rcases Condition.parse_eq_error.mp herror with
        ⟨hs, hf, -⟩ | ⟨name, op, numeral, hw, hlong, hf⟩
      · exact .inl ⟨hs, _, hf⟩
      · exact .inr ⟨_, .inl ⟨text, hc, name, op, numeral, hw, hlong, rfl⟩, hf⟩
  · rcases Effect.parse_eq_error.mp (mem_faultsOf.mp h) with
      ⟨hs, hf, -⟩ | ⟨name, sign, numeral, hw, hlong, hf⟩
    · exact .inl ⟨hs, _, hf⟩
    · exact .inr ⟨_, .inr ⟨name, sign, numeral, hw, hlong, rfl⟩, hf⟩

theorem Overlong.mem_faults {r : Rule} {n : Nat} (h : r.Overlong n) (strict : Bool) :
    .integer (.tooLong n) ∈ r.faults strict := by
  rcases h with ⟨text, hc, name, op, numeral, hw, hlong, rfl⟩ |
    ⟨name, sign, numeral, hw, hlong, rfl⟩
  · refine List.mem_append_left _ (mem_faultsOf.mpr ?_)
    rw [hc]
    exact Condition.parse_eq_error.mpr (.inr ⟨name, op, numeral, hw, hlong, rfl⟩)
  · exact List.mem_append_right _
      (mem_faultsOf.mpr (Effect.parse_eq_error.mpr (.inr ⟨name, sign, numeral, hw, hlong, rfl⟩)))

end Rule

/-! ## Stopping at the first fault -/

/-- A reading that runs into faults: it succeeds when there are none, and otherwise it
fails with the first. -/
inductive Stops : Except Fault α → List Fault → Prop
  | ok (a : α) : Stops (.ok a) []
  | error (f : Fault) (rest : List Fault) : Stops (.error f) (f :: rest)

namespace Stops

variable {x : Except Fault α} {fs gs : List Fault}

theorem of_faults (x : Except Fault α) : Stops x (faultsOf x) := by
  cases x with
  | ok a => exact .ok a
  | error f => exact .error f []

theorem bind {k : α → Except Fault β} (hx : Stops x fs) (hk : ∀ a, x = .ok a → Stops (k a) gs) :
    Stops (x >>= k) (fs ++ gs) := by
  cases hx with
  | ok a => exact hk a rfl
  | error f rest => exact .error f (rest ++ gs)

theorem map (hx : Stops x fs) (k : α → β) : Stops (x.map k) fs := by
  cases hx with
  | ok a => exact .ok (k a)
  | error f rest => exact .error f rest

theorem exists_ok_iff (hx : Stops x fs) : (∃ a, x = .ok a) ↔ fs = [] := by
  cases hx with
  | ok a => exact ⟨fun _ => rfl, fun _ => ⟨a, rfl⟩⟩
  | error f rest => exact ⟨nofun, nofun⟩

theorem eq_error {f : Fault} (hx : Stops x (f :: fs)) : x = .error f := by
  cases hx
  rfl

theorem mem {f : Fault} (hx : Stops x fs) (h : x = .error f) : f ∈ fs := by
  cases hx with
  | ok a => cases h
  | error g rest =>
    obtain rfl := Except.error.inj h
    exact List.mem_cons_self

end Stops

theorem CompiledRule.stops_ofRule (strict : Bool) (r : Rule) :
    Stops (ofRule strict r) (r.faults strict) := by
  refine (Stops.of_faults _).bind fun condition _ => ?_
  rw [← List.append_nil (faultsOf _)]
  exact (Stops.of_faults _).bind fun effect _ => .ok _

theorem Engine.stops_compile (strict : Bool) (rules : List Rule) :
    Stops (compile strict rules) (rules.flatMap (Rule.faults strict)) := by
  unfold compile
  induction rules with
  | nil =>
    rw [List.mapM_nil]
    exact .ok []
  | cons r rules ih =>
    rw [List.mapM_cons, List.flatMap_cons]
    refine (CompiledRule.stops_ofRule strict r).bind fun c _ => ?_
    rw [← List.append_nil (rules.flatMap _)]
    exact ih.bind fun cs _ => .ok (c :: cs)

/-! ## Collecting refusals -/

namespace Lint

/-- A list of refusals drawn up along faults: all of them when they are refusals, and
otherwise the first that is none. -/
inductive Collects : Except Fault (List Unparsable) → List Fault → Prop
  | ok (us : List Unparsable) : Collects (.ok us) (us.map .unparsable)
  | error (us : List Unparsable) (f : Fault) (rest : List Fault) :
      (∀ u, f ≠ .unparsable u) → Collects (.error f) (us.map .unparsable ++ f :: rest)

namespace Collects

variable {x y : Except Fault (List Unparsable)} {fs gs : List Fault}

theorem of_refusal (x : Except Fault α) : Collects (refusal x) (faultsOf x) := by
  cases x with
  | ok a => exact .ok []
  | error f =>
    cases f with
    | unparsable u => exact .ok [u]
    | _ => exact .error [] _ [] (fun u => Fault.noConfusion)

theorem append (hx : Collects x fs) (hy : Collects y gs) :
    Collects (do return (← x) ++ (← y)) (fs ++ gs) := by
  cases hx with
  | error us f rest hf =>
    rw [List.append_assoc]
    exact .error us f (rest ++ gs) hf
  | ok us =>
    cases hy with
    | ok vs =>
      rw [← List.map_append]
      exact .ok (us ++ vs)
    | error vs f rest hf =>
      rw [← List.append_assoc, ← List.map_append]
      exact .error (us ++ vs) f rest hf

theorem eq_map {us : List Unparsable} (hx : Collects (.ok us) fs) : fs = us.map .unparsable := by
  cases hx
  rfl

theorem exists_ok_iff (hx : Collects x fs) :
    (∃ us, x = .ok us) ↔ ∀ f ∈ fs, ∃ u, f = .unparsable u := by
  cases hx with
  | ok us =>
    refine ⟨fun _ f hf => ?_, fun _ => ⟨us, rfl⟩⟩
    obtain ⟨u, -, rfl⟩ := List.mem_map.mp hf
    exact ⟨u, rfl⟩
  | error us f rest hf =>
    refine ⟨nofun, fun h => ?_⟩
    obtain ⟨u, hu⟩ := h f (List.mem_append_right _ List.mem_cons_self)
    exact absurd hu (hf u)

end Collects

/-- Linting lists the refusals of the rules in the order in which they are read. -/
theorem collects_rules (rs : List Rule) :
    Collects (rules rs) (rs.flatMap (Rule.faults true)) := by
  induction rs with
  | nil => exact .ok []
  | cons r rs ih =>
    rw [List.flatMap_cons]
    exact ((Collects.of_refusal _).append (.of_refusal _)).append ih

theorem exists_rules_iff (rs : List Rule) :
    (∃ us, rules rs = .ok us) ↔ ∀ r ∈ rs, ∀ n, ¬r.Overlong n := by
  rw [(collects_rules rs).exists_ok_iff]
  constructor
  · intro h r hr n hlong
    obtain ⟨u, hu⟩ := h _ (List.mem_flatMap.mpr ⟨r, hr, hlong.mem_faults true⟩)
    cases hu
  · intro h f hf
    obtain ⟨r, hr, hf⟩ := List.mem_flatMap.mp hf
    rcases Rule.of_mem_faults hf with ⟨-, hu⟩ | ⟨n, hlong, -⟩
    · exact hu
    · exact absurd hlong (h r hr n)

theorem rules_eq_nil_iff (rs : List Rule) :
    rules rs = .ok [] ↔ rs.flatMap (Rule.faults true) = [] := by
  have hcollects := collects_rules rs
  constructor
  · intro h
    rw [h] at hcollects
    exact hcollects.eq_map
  · intro h
    obtain ⟨us, hus⟩ := hcollects.exists_ok_iff.mpr (by rw [h]; nofun)
    rw [hus, h] at hcollects
    rw [hus, List.map_eq_nil_iff.mp hcollects.eq_map.symm]

end Lint

/-! ## Registering rules -/

/-- The two ways in which rules come into force during play. -/
inductive Registration where
  | replace
  | append
deriving DecidableEq, Repr

namespace Registration

/-- The rules registered. -/
def run : Registration → List Rule → Attempt Scene Unit
  | .replace => Scene.setRules
  | .append => Scene.addRules

/-- The rules in force afterwards, from those before and those that are registered. -/
def after : Registration → List Rule → List Rule → List Rule
  | .replace, _, new => new
  | .append, old, new => old ++ new

/-- What the engine of the scene makes of the rules. -/
def engine : Registration → Engine → List CompiledRule → Engine
  | .replace, e, compiled => { e with compiled }
  | .append, e, compiled => { e with compiled := e.compiled ++ compiled }

theorem run_apply (how : Registration) (rules : List Rule) (s : Scene) :
    how.run rules s = match Engine.compile s.rules.strict rules with
      | .ok compiled => .ok ⟨⟩ { s with rules := how.engine s.rules compiled }
      | .error f => .error f s := by
  cases hc : Engine.compile s.rules.strict rules with
  | ok compiled =>
    cases how with
    | replace => exact Scene.setRules_ok (by rw [Engine.setRules, hc]; rfl)
    | append => exact Scene.addRules_ok (by rw [Engine.addRules, hc]; rfl)
  | error f =>
    cases how with
    | replace => exact Scene.setRules_error (by rw [Engine.setRules, hc]; rfl)
    | append => exact Scene.addRules_error (by rw [Engine.addRules, hc]; rfl)

variable {how : Registration} {rules : List Rule} {s s' : Scene} {f : Fault}

theorem run_eq_ok : how.run rules s = .ok ⟨⟩ s' ↔
    ∃ compiled, Engine.compile s.rules.strict rules = .ok compiled ∧
      s' = { s with rules := how.engine s.rules compiled } := by
  rw [run_apply]
  cases Engine.compile s.rules.strict rules with
  | ok compiled =>
    constructor
    · intro h
      exact ⟨compiled, rfl, (EStateM.Result.ok.inj h).2.symm⟩
    · rintro ⟨_, hc, rfl⟩
      rw [Except.ok.inj hc]
  | error f => exact ⟨nofun, nofun⟩

theorem run_eq_error : how.run rules s = .error f s' ↔
    Engine.compile s.rules.strict rules = .error f ∧ s' = s := by
  rw [run_apply]
  cases Engine.compile s.rules.strict rules with
  | ok compiled => exact ⟨nofun, nofun⟩
  | error g =>
    rw [EStateM.Result.error.injEq, Except.error.injEq]
    exact and_congr_right fun _ => eq_comm

theorem exists_run_iff : (∃ s', how.run rules s = .ok ⟨⟩ s') ↔
    rules.flatMap (Rule.faults s.rules.strict) = [] := by
  rw [← (Engine.stops_compile s.rules.strict rules).exists_ok_iff]
  constructor
  · rintro ⟨s', h⟩
    obtain ⟨compiled, hc, -⟩ := run_eq_ok.mp h
    exact ⟨compiled, hc⟩
  · rintro ⟨compiled, hc⟩
    exact ⟨_, run_eq_ok.mpr ⟨compiled, hc, rfl⟩⟩

theorem after_of_run (h : how.run rules s = .ok ⟨⟩ s') :
    s'.rules.rules = how.after s.rules.rules rules ∧ s'.rules.strict = s.rules.strict ∧
      s'.params = s.params ∧ s'.state = s.state := by
  obtain ⟨compiled, hc, rfl⟩ := run_eq_ok.mp h
  have hrules := (Engine.compile_eq_ok.mp hc).1
  cases how with
  | replace => exact ⟨hrules, rfl, rfl, rfl⟩
  | append =>
    refine ⟨?_, rfl, rfl, rfl⟩
    show (s.rules.compiled ++ compiled).map (·.rule) = _
    rw [List.map_append, hrules]
    rfl

end Registration

/-- Permissive readers have no faults but numerals that are too long. -/
theorem Rule.faults_permissive (rules : List Rule) :
    rules.flatMap (Rule.faults false) = [] ↔ ∀ r ∈ rules, ∀ n, ¬r.Overlong n := by
  rw [List.flatMap_eq_nil_iff]
  refine forall₂_congr fun r _ => ⟨fun h n hlong => ?_, fun h => ?_⟩
  · have hmem := hlong.mem_faults false
    rw [h] at hmem
    exact absurd hmem List.not_mem_nil
  · refine List.eq_nil_iff_forall_not_mem.mpr fun f hf => ?_
    rcases Rule.of_mem_faults hf with ⟨hs, -⟩ | ⟨n, hlong, -⟩
    · cases hs
    · exact h n hlong

namespace Engine

theorem exists_ofRules_iff {strict : Bool} {rules : List Rule} :
    (∃ e, ofRules strict rules = .ok e) ↔ rules.flatMap (Rule.faults strict) = [] :=
  ((stops_compile strict rules).map _).exists_ok_iff

/-- Registering and linting agree.  A strict engine takes rules, at its beginning or
later, exactly when linting lists nothing; otherwise it raises what linting lists first
and the rules in force stay what they were.  A permissive engine takes all rules but
those with a numeral of more than 4300 digits, which no engine takes and which cannot be
linted.  What is taken is stored as it is. -/
theorem registers_as_linted (rules : List Rule) :
    ((∃ us, Lint.rules rules = .ok us) ↔ ∀ r ∈ rules, ∀ n, ¬r.Overlong n) ∧
    (∀ (how : Registration) (s : Scene), s.rules.strict = true →
      ((∃ s', how.run rules s = .ok ⟨⟩ s') ↔ Lint.rules rules = .ok []) ∧
      ∀ u us, Lint.rules rules = .ok (u :: us) → how.run rules s = .error (.unparsable u) s) ∧
    ((∃ e, ofRules true rules = .ok e) ↔ Lint.rules rules = .ok []) ∧
    (∀ u us, Lint.rules rules = .ok (u :: us) → ofRules true rules = .error (.unparsable u)) ∧
    (∀ (how : Registration) (s : Scene), s.rules.strict = false →
      ((∃ s', how.run rules s = .ok ⟨⟩ s') ↔ ∀ r ∈ rules, ∀ n, ¬r.Overlong n) ∧
      ∀ f s', how.run rules s = .error f s' →
        ∃ r ∈ rules, ∃ n, r.Overlong n ∧ f = .integer (.tooLong n)) ∧
    ((∃ e, ofRules false rules = .ok e) ↔ ∀ r ∈ rules, ∀ n, ¬r.Overlong n) ∧
    (∀ (how : Registration) (s s' : Scene), how.run rules s = .ok ⟨⟩ s' →
      s'.rules.rules = how.after s.rules.rules rules ∧ s'.rules.strict = s.rules.strict ∧
        s'.params = s.params ∧ s'.state = s.state) ∧
    (∀ (how : Registration) (s : Scene) (f : Fault) (s' : Scene),
      how.run rules s = .error f s' → s' = s) ∧
    ∀ (strict : Bool) (e : Engine), ofRules strict rules = .ok e →
      e.strict = strict ∧ e.rules = rules := by
  -- what is listed first is the first fault that the strict reader comes upon
  have hfirst : ∀ u us, Lint.rules rules = .ok (u :: us) →
      compile true rules = .error (.unparsable u) := by
    intro u us hlint
    have hcollects := Lint.collects_rules rules
    rw [hlint] at hcollects
    have hstops := stops_compile true rules
    rw [hcollects.eq_map] at hstops
    exact hstops.eq_error
  refine ⟨Lint.exists_rules_iff rules, fun how s hs => ⟨?_, fun u us hlint => ?_⟩, ?_,
    fun u us hlint => ?_, fun how s hs => ⟨?_, fun f s' h => ?_⟩, ?_,
    fun _ _ _ => Registration.after_of_run, fun _ _ _ _ h => (Registration.run_eq_error.mp h).2,
    fun strict e h => ?_⟩
  · rw [Registration.exists_run_iff, hs, Lint.rules_eq_nil_iff]
  · exact Registration.run_eq_error.mpr ⟨by rw [hs]; exact hfirst u us hlint, rfl⟩
  · rw [exists_ofRules_iff, Lint.rules_eq_nil_iff]
  · rw [ofRules, hfirst u us hlint]
    rfl
  · rw [Registration.exists_run_iff, hs, Rule.faults_permissive]
  · obtain ⟨hc, -⟩ := Registration.run_eq_error.mp h
    rw [hs] at hc
    obtain ⟨r, hr, hf⟩ := List.mem_flatMap.mp ((stops_compile false rules).mem hc)
    rcases Rule.of_mem_faults hf with ⟨hs', -⟩ | hlong
    · cases hs'
    · exact ⟨r, hr, hlong⟩
  · rw [exists_ofRules_iff, Rule.faults_permissive]
  · obtain ⟨hstrict, hrules, -⟩ := ofRules_spec h
    exact ⟨hstrict, hrules⟩

theorem compile_of_effect {strict : Bool} {trigger action effect : String} {f : Fault}
    (h : Effect.parse strict effect = .error f) (rules : List Rule) :
    compile strict (.always trigger action effect :: rules) = .error f := by
  have hfaults : (Rule.always trigger action effect).faults strict = [f] := congrArg faultsOf h
  have hstops := stops_compile strict (.always trigger action effect :: rules)
  rw [List.flatMap_cons, hfaults] at hstops
  exact hstops.eq_error

/-- The rule that adds one to the score, the one written with 4301 digits. -/
def paddedRule : Rule :=
  .always "goal" "gain" ("score" ++ String.singleton Sign.plus.char ++ Effect.paddedOne)

/-- The rule is in the language, but a permissive engine refuses it with a fault that is no
refusal, at its beginning and later, and it cannot be linted either. -/
theorem registers_paddedRule :
    InLanguage paddedRule.effect ∧
      ofRules false [paddedRule] = .error (.integer (.tooLong 4301)) ∧
      (∀ how : Registration,
        how.run [paddedRule] { rules := empty false, params := [], state := {} } =
          .error (.integer (.tooLong 4301)) { rules := empty false, params := [], state := {} }) ∧
      ∀ us, Lint.rules [paddedRule] ≠ .ok us := by
  have hlist : Effect.paddedOne.toList = List.replicate 4300 '0' ++ ['1'] := String.toList_ofList
  have hlength : Effect.paddedOne.toList.length = 4301 := by
    rw [hlist, List.length_append, List.length_replicate, List.length_singleton]
  have hdigits : ∀ c ∈ Effect.paddedOne.toList, Text.isDigit c = true := by
    rw [hlist]
    exact fun c hc => Text.isDigit_of_ascii (Effect.isDigit_paddedOne c hc)
  have hne : Effect.paddedOne.toList ≠ [] := List.ne_nil_of_length_pos (by rw [hlength]; decide)
  have hw : WritesAmount paddedRule.effect "score" .plus Effect.paddedOne :=
    ⟨rfl, by decide, IsNumeral.whole hne hdigits⟩
  have hlong : Phrase.TooLong Effect.paddedOne :=
    ⟨Phrase.not_mem_of_digits hdigits, by rw [hlength]; decide⟩
  have hparse : Effect.parse false paddedRule.effect = .error (.integer (.tooLong 4301)) :=
    Effect.parse_eq_error.mpr (.inr ⟨_, _, _, hw, hlong, by rw [hlength]⟩)
  have hcompile : compile false [paddedRule] = .error (.integer (.tooLong 4301)) :=
    compile_of_effect hparse []
  refine ⟨.inl ⟨_, _, _, hw⟩, ?_, fun how => Registration.run_eq_error.mpr ⟨hcompile, rfl⟩,
    fun us hus => ?_⟩
  · exact congrArg _ hcompile
  · exact (Lint.exists_rules_iff _).mp ⟨us, hus⟩ _ (List.mem_singleton.mpr rfl) _
      (.inr ⟨_, _, _, hw, hlong, hlength⟩)

end Engine

end SeededPlay

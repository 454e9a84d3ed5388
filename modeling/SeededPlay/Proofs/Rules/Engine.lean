/-
# `SeededPlay.Proofs.Rules.Engine` — engines hold what their rules mean

Every way of changing the rules of an engine goes through `compile`, so that what is
stored beside a rule is what its texts mean (`Engine.Sound`).  A sound engine is
known by its rules alone: two of them that agree on the rules of a trigger give the
same effects for it, whatever else they hold and in which order
(`dispatch_congr`).

Whether a list of rules is taken is decided rule by rule (`Rule.Readable`).

Rules are read one by one (`compile_eq_ok`), and they are taken when each of them can be read;
rules put in place of others are the rules in force, or nothing changes (`setRules_spec`).
-/
import SeededPlay.Proofs.Attempt
import SeededPlay.Rules.Engine

namespace SeededPlay

/-! ## Reading one rule -/

/-- Whether the texts of a rule can be read. -/
def Rule.Readable (strict : Bool) (r : Rule) : Prop :=
  ∃ c, CompiledRule.ofRule strict r = .ok c

namespace CompiledRule

theorem ofRule_eq_ok {strict : Bool} {r : Rule} {c : CompiledRule} :
    ofRule strict r = .ok c ↔ Condition.parseOption strict r.condition = .ok c.condition ∧
      Effect.parse strict r.effect = .ok c.effect ∧ c.rule = r := by
  unfold ofRule
  constructor
  · intro h
    obtain ⟨condition, hcond, h⟩ := bind_eq_ok.mp h
    obtain ⟨effect, heff, h⟩ := bind_eq_ok.mp h
    obtain rfl := Except.ok.inj h
    exact ⟨hcond, heff, rfl⟩
  · rintro ⟨hcond, heff, rfl⟩
    exact bind_eq_ok.mpr ⟨_, hcond, bind_eq_ok.mpr ⟨_, heff, rfl⟩⟩

end CompiledRule

theorem Rule.readable_iff {strict : Bool} {r : Rule} :
    r.Readable strict ↔ (∃ c, Condition.parseOption strict r.condition = .ok c) ∧
      ∃ e, Effect.parse strict r.effect = .ok e := by
  constructor
  · rintro ⟨c, hc⟩
    obtain ⟨hcond, heff, -⟩ := CompiledRule.ofRule_eq_ok.mp hc
    exact ⟨⟨_, hcond⟩, ⟨_, heff⟩⟩
  · rintro ⟨⟨c, hc⟩, ⟨e, he⟩⟩
    exact ⟨⟨r, c, e⟩, CompiledRule.ofRule_eq_ok.mpr ⟨hc, he, rfl⟩⟩

namespace Engine

/-! ## Reading many rules -/

theorem compile_eq_ok {strict : Bool} {rules : List Rule} {cs : List CompiledRule} :
    compile strict rules = .ok cs ↔
      cs.map (·.rule) = rules ∧ ∀ c ∈ cs, CompiledRule.ofRule strict c.rule = .ok c := by
  unfold compile
  induction rules generalizing cs with
  | nil =>
    rw [List.mapM_nil]
    constructor
    · intro h
      obtain rfl := Except.ok.inj h
      exact ⟨rfl, fun c hc => absurd hc List.not_mem_nil⟩
    · rintro ⟨hrules, -⟩
      obtain rfl := List.map_eq_nil_iff.mp hrules
      rfl
  | cons r rules ih =>
    rw [List.mapM_cons]
    constructor
    · intro h
      obtain ⟨c, hc, h⟩ := bind_eq_ok.mp h
      obtain ⟨rest, hrest, h⟩ := bind_eq_ok.mp h
      obtain rfl := Except.ok.inj h
      obtain ⟨hrules, hread⟩ := ih.mp hrest
      have hrule : c.rule = r := (CompiledRule.ofRule_eq_ok.mp hc).2.2
      refine ⟨by rw [List.map_cons, hrule, hrules], fun d hd => ?_⟩
      rcases List.mem_cons.mp hd with rfl | hd
      · rw [hrule]
        exact hc
      · exact hread d hd
    · rintro ⟨hrules, hread⟩
      cases cs with
      | nil => cases hrules
      | cons c cs =>
        rw [List.map_cons] at hrules
        obtain ⟨rfl, htail⟩ := List.cons.inj hrules
        rw [hread c List.mem_cons_self,
          ih.mpr ⟨htail, fun d hd => hread d (List.mem_cons_of_mem c hd)⟩]
        rfl

theorem exists_compile {strict : Bool} {rules : List Rule} (h : ∀ r ∈ rules, r.Readable strict) :
    ∃ cs, compile strict rules = .ok cs := by
  induction rules with
  | nil => exact ⟨[], rfl⟩
  | cons r rules ih =>
    obtain ⟨c, hc⟩ := h r List.mem_cons_self
    obtain ⟨cs, hcs⟩ := ih fun r' hr' => h r' (List.mem_cons_of_mem r hr')
    obtain ⟨hrules, hread⟩ := compile_eq_ok.mp hcs
    have hrule : c.rule = r := (CompiledRule.ofRule_eq_ok.mp hc).2.2
    refine ⟨c :: cs, compile_eq_ok.mpr ⟨by rw [List.map_cons, hrule, hrules], fun d hd => ?_⟩⟩
    rcases List.mem_cons.mp hd with rfl | hd
    · rw [hrule]
      exact hc
    · exact hread d hd

/-! ## Sound engines -/

/-- What is stored beside each rule is what its texts mean. -/
def Sound (e : Engine) : Prop :=
  ∀ c ∈ e.compiled, CompiledRule.ofRule e.strict c.rule = .ok c

theorem Sound.readable {e : Engine} (h : e.Sound) : ∀ r ∈ e.rules, r.Readable e.strict := by
  intro r hr
  obtain ⟨c, hc, rfl⟩ := List.mem_map.mp hr
  exact ⟨c, h c hc⟩

theorem ofRules_spec {strict : Bool} {rules : List Rule} {e : Engine}
    (h : ofRules strict rules = .ok e) : e.strict = strict ∧ e.rules = rules ∧ e.Sound := by
  obtain ⟨cs, hc, rfl⟩ := map_eq_ok.mp h
  obtain ⟨hrules, hread⟩ := compile_eq_ok.mp hc
  exact ⟨rfl, hrules, hread⟩

theorem ofRules_singleton {strict : Bool} {r : Rule} {c : CompiledRule}
    (h : CompiledRule.ofRule strict r = .ok c) : ofRules strict [r] = .ok ⟨strict, [c]⟩ := by
  obtain rfl : c.rule = r := (CompiledRule.ofRule_eq_ok.mp h).2.2
  refine map_eq_ok.mpr ⟨[c], compile_eq_ok.mpr ⟨rfl, fun d hd => ?_⟩, rfl⟩
  rw [List.mem_singleton.mp hd]
  exact h

/-- Rules put in place of others are the rules in force, or nothing changes. -/
theorem setRules_spec {e e' : Engine} {rules : List Rule} (h : e.setRules rules = .ok e') :
    e'.strict = e.strict ∧ e'.rules = rules ∧ e'.Sound := by
  obtain ⟨cs, hc, rfl⟩ := map_eq_ok.mp h
  obtain ⟨hrules, hread⟩ := compile_eq_ok.mp hc
  exact ⟨rfl, hrules, hread⟩

theorem exists_setRules {e : Engine} {rules : List Rule} (h : ∀ r ∈ rules, r.Readable e.strict) :
    ∃ e', e.setRules rules = .ok e' := by
  obtain ⟨cs, hcs⟩ := exists_compile h
  exact ⟨_, map_eq_ok.mpr ⟨cs, hcs, rfl⟩⟩

theorem addRules_spec {e e' : Engine} {rules : List Rule} (he : e.Sound)
    (h : e.addRules rules = .ok e') :
    e'.strict = e.strict ∧ e'.rules = e.rules ++ rules ∧ e'.Sound := by
  obtain ⟨cs, hc, rfl⟩ := map_eq_ok.mp h
  obtain ⟨hrules, hread⟩ := compile_eq_ok.mp hc
  refine ⟨rfl, ?_, fun c hm => ?_⟩
  · show (e.compiled ++ cs).map (·.rule) = _
    rw [List.map_append, hrules]
    rfl
  · rcases List.mem_append.mp hm with hm | hm
    · exact he c hm
    · exact hread c hm

theorem exists_addRules {e : Engine} {rules : List Rule} (h : ∀ r ∈ rules, r.Readable e.strict) :
    ∃ e', e.addRules rules = .ok e' := by
  obtain ⟨cs, hcs⟩ := exists_compile h
  exact ⟨_, map_eq_ok.mpr ⟨cs, hcs, rfl⟩⟩

theorem removeTrigger_spec {e : Engine} (he : e.Sound) (trigger : String) :
    (e.removeTrigger trigger).1.strict = e.strict ∧
      (e.removeTrigger trigger).1.rules = e.rules.filter (·.trigger ≠ trigger) ∧
      (e.removeTrigger trigger).1.Sound ∧
      (e.removeTrigger trigger).2 = e.rules.filter (·.trigger = trigger) := by
  refine ⟨rfl, ?_, fun c hc => he c (List.mem_filter.mp hc).1, rfl⟩
  show (e.compiled.filter fun c => c.rule.trigger ≠ trigger).map (·.rule) = _
  unfold rules
  rw [List.filter_map]
  rfl

/-! ## What a trigger sets off -/

theorem Sound.compile_trigger {e : Engine} (h : e.Sound) (trigger : String) :
    Engine.compile e.strict (e.rules.filter (·.trigger = trigger)) =
      .ok (e.compiled.filter fun c => c.rule.trigger = trigger) := by
  refine compile_eq_ok.mpr ⟨?_, fun c hc => h c (List.mem_filter.mp hc).1⟩
  unfold rules
  rw [List.filter_map]
  rfl

/-- Engines with the same rules for a trigger do the same when it fires. -/
theorem dispatch_congr {e e' : Engine} (h : e.Sound) (h' : e'.Sound) (hs : e'.strict = e.strict)
    {trigger : String}
    (hr : e'.rules.filter (·.trigger = trigger) = e.rules.filter (·.trigger = trigger)) :
    e'.dispatch trigger = e.dispatch trigger := by
  have hc := h'.compile_trigger trigger
  rw [hs, hr, h.compile_trigger trigger] at hc
  unfold dispatch
  rw [Except.ok.inj hc]

end Engine

end SeededPlay

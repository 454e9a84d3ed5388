/-
# `SeededPlay.Proofs.Chaos.Undo` — what mutations do to a scene

Applying a mutation and taking it back are sequences of small changes; here each is
said as a whole.  When a mutation could be applied, the scene holds the rules that its
twist makes of the earlier ones, every parameter that the mutation does not write is
as it was, and the record left behind is a function of the earlier scene
(`Mutation.Outcome`).  Taking a mutation back never fails while the record is usable
(`Undo.Usable`), and then the parameters named in the record are put back and the
rules are the ones that `Twist.rulesBack` gives (`Mutation.revert_spec`).

A mutation that fails part way leaves a sound engine, too, and one that is as strict as it
was; which of its rules are in force then is not said here.

## Steps and records

The section on steps says what each change of a scene does, in both outcomes where there are
two; an effect changes nothing but the state (`applyDatum_spec`).  Parameters are handled as
partial maps.  `putBackAll` puts names back to what a function gives them and leaves the
others (`get?_putBackAll`), and writing over returns exactly what such a function needs
(`overwrite_spec`).

## Twists and mutations

There are five kinds of twist beside the one that does nothing, and each has a lemma about
applying it.  They meet in `Outcome`: a twist that was done has its record, its rules and the
parameters that it does not write, and one that failed has left a sound engine.  Flipping
reads the rules first, so a failure there changes nothing; a replaced trigger loses its rules
before the engine is asked to take the others; a goal is written before its flag is raised.

A mutation writes its parameters and then does its twist.  The record of the twist does not
depend on the parameters that were written before (`record_twist`), so the record of the
whole is a function of the earlier scene.

Two lemmas are for invariants.  Applying keeps what the parts keep (`keeps_apply`,
`keeps_steps`), and taking back keeps, whatever the record says, what other rules and
parameters keep (`keeps_revert`).
-/
import SeededPlay.Proofs.Chaos.Flip
import SeededPlay.Proofs.Draw.Place

namespace SeededPlay

open Effect (Flips)
open Attempt (Keeps)

/-! ## Steps on a scene -/

namespace Scene

theorem setRules_ok {s : Scene} {rules : List Rule} {e : Engine}
    (h : s.rules.setRules rules = .ok e) : setRules rules s = .ok ⟨⟩ { s with rules := e } := by
  unfold setRules
  simp only [Attempt.bind_apply, Attempt.get_apply, h, Attempt.lift_ok, Attempt.modify_apply]

theorem setRules_error {s : Scene} {rules : List Rule} {f : Fault}
    (h : s.rules.setRules rules = .error f) : setRules rules s = .error f s := by
  unfold setRules
  simp only [Attempt.bind_apply, Attempt.get_apply, h, Attempt.lift_error]

theorem addRules_ok {s : Scene} {rules : List Rule} {e : Engine}
    (h : s.rules.addRules rules = .ok e) : addRules rules s = .ok ⟨⟩ { s with rules := e } := by
  unfold addRules
  simp only [Attempt.bind_apply, Attempt.get_apply, h, Attempt.lift_ok, Attempt.modify_apply]

theorem addRules_error {s : Scene} {rules : List Rule} {f : Fault}
    (h : s.rules.addRules rules = .error f) : addRules rules s = .error f s := by
  unfold addRules
  simp only [Attempt.bind_apply, Attempt.get_apply, h, Attempt.lift_error]

theorem setParam_apply (name : String) (value : Datum) (s : Scene) :
    setParam name value s = .ok ⟨⟩ { s with params := s.params.set name value } := rfl

theorem removeTrigger_apply (trigger : String) (s : Scene) :
    removeTrigger trigger s = .ok (s.rules.removeTrigger trigger).2
      { s with rules := (s.rules.removeTrigger trigger).1 } := rfl

theorem applyDatum_spec (effect : Datum) (s : Scene) :
    ∃ state, Attempt.reached (applyDatum effect s) = { s with state } := by
  unfold applyDatum
  simp only [Attempt.bind_apply, Attempt.get_apply]
  cases s.rules.applyDatum effect s.state with
  | error f => exact ⟨s.state, rfl⟩
  | ok r => exact ⟨r.2, rfl⟩

end Scene

/-! ## Parameters written and put back -/

namespace Fields

/-- A name put back to what it had, or taken out if it had nothing. -/
def putBack (fields : Fields Datum) (name : String) (earlier : Option Datum) : Fields Datum :=
  match earlier with
  | some value => fields.set name value
  | none => fields.erase name

theorem get?_putBack (fields : Fields Datum) (name other : String) (earlier : Option Datum) :
    (fields.putBack name earlier).get? other = if name = other then earlier else fields.get? other := by
  cases earlier with
  | some value => exact get?_set fields name other value
  | none => exact get?_erase fields name other

/-- Names put back one after another. -/
def putBackAll : List (String × Option Datum) → Fields Datum → Fields Datum
  | [], fields => fields
  | (name, earlier) :: rest, fields => putBackAll rest (fields.putBack name earlier)

theorem get?_putBackAll (names : List String) (v : String → Option Datum) (fields : Fields Datum)
    (k : String) :
    (putBackAll (names.map fun n => (n, v n)) fields).get? k =
      if k ∈ names then v k else fields.get? k := by
  induction names generalizing fields with
  | nil => rfl
  | cons name names ih =>
    rw [List.map_cons, putBackAll, ih, get?_putBack]
    by_cases hk : k ∈ names
    · rw [if_pos hk, if_pos (List.mem_cons_of_mem name hk)]
    · rw [if_neg hk]
      by_cases hn : name = k
      · rw [if_pos hn, if_pos (List.mem_cons.mpr (Or.inl hn.symm)), hn]
      · rw [if_neg hn, if_neg]
        intro hmem
        rcases List.mem_cons.mp hmem with h | h
        · exact hn h.symm
        · exact hk h

end Fields

namespace Scene

theorem restoreParam_apply (name : String) (earlier : Option Datum) (s : Scene) :
    restoreParam name earlier s = .ok ⟨⟩ { s with params := s.params.putBack name earlier } := by
  cases earlier <;> rfl

end Scene

namespace Mutation

theorem restore_apply (earlier : List (String × Option Datum)) (s : Scene) :
    restore earlier s = .ok ⟨⟩ { s with params := s.params.putBackAll earlier } := by
  induction earlier generalizing s with
  | nil => rfl
  | cons e rest ih =>
    obtain ⟨name, value⟩ := e
    unfold restore
    rw [Attempt.bind_apply, Scene.restoreParam_apply]
    exact ih _

/-- Parameters written over: the others stay, and what is returned is what they were.
It fails only where a parameter cannot take its new value. -/
theorem overwrite_spec {os : List (String × Override)} (hnd : (os.map Prod.fst).Nodup) (s : Scene) :
    ∃ params : Fields Datum, (∀ k ∉ os.map Prod.fst, params.get? k = s.params.get? k) ∧
      (overwrite os s = .ok (os.map fun o => (o.1, s.params.get? o.1)) { s with params } ∨
        (∃ o ∈ os, ∃ f, o.2.apply (s.params.get? o.1) = .error f) ∧
          ∃ f, overwrite os s = .error f { s with params }) := by
  induction os generalizing s with
  | nil => exact ⟨s.params, fun _ _ => rfl, Or.inl rfl⟩
  | cons o os ih =>
    obtain ⟨name, o⟩ := o
    obtain ⟨hname, hnd⟩ := List.nodup_cons.mp hnd
    unfold overwrite
    simp only [Attempt.bind_apply, Attempt.get_apply]
    cases ho : o.apply (s.params.get? name) with
    | error f =>
      exact ⟨s.params, fun _ _ => rfl,
        Or.inr ⟨⟨(name, o), List.mem_cons_self, f, ho⟩, f, rfl⟩⟩
    | ok v =>
      have hother : ∀ o' ∈ os, (s.params.set name v).get? o'.1 = s.params.get? o'.1 := by
        intro o' ho'
        refine Fields.get?_set_of_ne _ _ fun he => hname ?_
        rw [he]
        exact List.mem_map.mpr ⟨o', ho', rfl⟩
      obtain ⟨params, hsame, hres⟩ := ih hnd { s with params := s.params.set name v }
      refine ⟨params, fun k hk => ?_, ?_⟩
      · rw [List.map_cons, List.mem_cons, not_or] at hk
        rw [hsame k hk.2]
        exact Fields.get?_set_of_ne _ _ (Ne.symm hk.1)
      · rcases hres with hok | ⟨⟨o', ho', f, hf⟩, g, hg⟩
        · refine Or.inl ?_
          simp only [Attempt.lift_ok, Scene.setParam_apply, hok, List.map_cons,
            List.map_congr_left fun o' ho' => congrArg (Prod.mk o'.1) (hother o' ho')]
          rfl
        · refine Or.inr ⟨⟨o', List.mem_cons_of_mem _ ho', f, ?_⟩, g, ?_⟩
          · rw [← hother o' ho']
            exact hf
          · simp only [Attempt.lift_ok, Scene.setParam_apply, hg]

end Mutation

/-! ## Twists -/

namespace Twist

/-- The parameters that a twist writes. -/
def writes : Twist → List String
  | .shiftGoal => [goalParam]
  | .misreport => ["score_display_offset", "health_display_offset"]
  | _ => []

/-- The rules that a twist brings. -/
def added : Twist → List Rule
  | .addRules added => added
  | .replaceTrigger _ added => added
  | _ => []

/-- The rules that a twist makes of those in force. -/
def rulesIn : Twist → List Rule → List Rule
  | .reverseScore, rules => rules.map Rule.flipped
  | .addRules added, rules => rules ++ added
  | .replaceTrigger trigger added, rules => rules.filter (·.trigger ≠ trigger) ++ added
  | _, rules => rules

/-- The rules that are in force when a twist has been taken back. -/
def rulesBack : Twist → Undo → List Rule → Except Fault (List Rule)
  | .reverseScore, undo, rules => Rule.flipPending undo.flipped rules
  | .addRules added, _, rules => .ok (unmarked added rules)
  | .replaceTrigger _ added, undo, rules => .ok (unmarked added rules ++ undo.removed)
  | _, _, rules => .ok rules

/-- What a twist leaves behind of a scene, in order to be taken back. -/
def record : Twist → Scene → Undo
  | .reverseScore, s =>
    { flipped := ((s.rules.rules.filter Rule.changesScore).map Rule.flipped).map Rule.key }
  | .replaceTrigger trigger _, s => { removed := s.rules.rules.filter (·.trigger = trigger) }
  | .shiftGoal, s => { goal := s.params.get? goalParam }
  | _, _ => {}

/-- What comes of a twist: it is done, or it failed and left a sound engine. -/
inductive Outcome (t : Twist) (s : Scene) : EStateM.Result Fault Scene Undo → Prop
  | done {undo : Undo} {s' : Scene} : undo = t.record s → s'.rules.Sound →
      s'.rules.strict = s.rules.strict → s'.rules.rules = t.rulesIn s.rules.rules →
      (∀ k ∉ t.writes, s'.params.get? k = s.params.get? k) → Outcome t s (.ok undo s')
  | failed {s' : Scene} (f : Fault) : s'.rules.Sound → s'.rules.strict = s.rules.strict →
      Outcome t s (.error f s')

section

variable (stream : Stream) (nonce : Datum) (shown : Bool) {s : Scene}

theorem apply_reverseScore (hread : ∀ r ∈ s.rules.rules, r.Readable s.rules.strict) :
    apply .reverseScore stream nonce shown s =
      match s.rules.setRules (s.rules.rules.map Rule.flipped) with
      | .error f => .error f s
      | .ok rules => .ok (record .reverseScore s) { s with rules } := by
  unfold apply
  simp only [Attempt.bind_apply, Attempt.get_apply, Rule.flipAll_eq hread, Attempt.lift_ok]
  cases he : s.rules.setRules (s.rules.rules.map Rule.flipped) with
  | error f => rw [Scene.setRules_error he]
  | ok e =>
    rw [Scene.setRules_ok he]
    rfl

theorem apply_addRules (added : List Rule) :
    apply (.addRules added) stream nonce shown s =
      match s.rules.addRules added with
      | .error f => .error f s
      | .ok rules => .ok {} { s with rules } := by
  unfold apply
  simp only [Attempt.bind_apply]
  cases he : s.rules.addRules added with
  | error f => rw [Scene.addRules_error he]
  | ok e =>
    rw [Scene.addRules_ok he]
    rfl

/-- The rules that gave way are gone even if the engine does not take the other ones. -/
theorem apply_replaceTrigger (trigger : String) (added : List Rule) :
    apply (.replaceTrigger trigger added) stream nonce shown s =
      match (s.rules.removeTrigger trigger).1.addRules added with
      | .error f => .error f { s with rules := (s.rules.removeTrigger trigger).1 }
      | .ok rules => .ok { removed := (s.rules.removeTrigger trigger).2 } { s with rules } := by
  unfold apply
  simp only [Attempt.bind_apply, Scene.removeTrigger_apply]
  cases he : (s.rules.removeTrigger trigger).1.addRules added with
  | error f => rw [Scene.addRules_error he]
  | ok e =>
    rw [Scene.addRules_ok he]
    rfl

theorem apply_shiftGoal :
    apply .shiftGoal stream nonce shown s =
      match Draw.pick (stream.word nonce "goal_shift") (otherGoals (s.params.get? goalParam)) with
      | .error f => .error f s
      | .ok next =>
        let shifted : Scene :=
          { s with params := s.params.set goalParam ((next.map .text).getD .null) }
        if shown then
          match Scene.applyDatum (.text "flag=goal_shifted") shifted with
          | .error f s' => .error f s'
          | .ok _ s' => .ok (record .shiftGoal s) s'
        else .ok (record .shiftGoal s) shifted := by
  unfold apply
  simp only [Attempt.bind_apply, Attempt.get_apply]
  cases Draw.pick (stream.word nonce "goal_shift") (otherGoals (s.params.get? goalParam)) with
  | error f => rfl
  | ok next =>
    simp only [Attempt.lift_ok, Scene.setParam_apply]
    cases shown with
    | false => rfl
    | true =>
      simp only [if_true, Attempt.bind_apply, Attempt.discard_apply]
      cases Scene.applyDatum (.text "flag=goal_shifted")
        { s with params := s.params.set goalParam ((next.map .text).getD .null) } <;> rfl

theorem apply_misreport : ∃ score health : Int,
    apply .misreport stream nonce shown s =
      .ok {} { s with
        params := (s.params.set "score_display_offset" (.int score)).set "health_display_offset"
          (.int health) } := by
  obtain ⟨score, hscore⟩ := Draw.exists_between (stream.word nonce "narrator_score")
    (-100) 99 (by decide) (by decide)
  obtain ⟨health, hhealth⟩ := Draw.exists_between (stream.word nonce "narrator_health")
    (-1) 1 (by decide) (by decide)
  refine ⟨score, health, ?_⟩
  unfold apply
  simp only [Attempt.bind_apply, hscore, hhealth, Attempt.lift_ok, Scene.setParam_apply]
  rfl

theorem outcome_shiftGoal (hs : s.rules.Sound) :
    Outcome .shiftGoal s (apply .shiftGoal stream nonce shown s) := by
  have hparams : ∀ v : Datum, ∀ k ∉ writes .shiftGoal,
      (s.params.set goalParam v).get? k = s.params.get? k := fun v k hk =>
    Fields.get?_set_of_ne _ _ fun he => hk (List.mem_singleton.mpr he.symm)
  rw [apply_shiftGoal]
  split
  · exact Outcome.failed _ hs rfl
  · rename_i next _
    cases shown with
    | false => exact Outcome.done rfl hs rfl rfl (hparams _)
    | true =>
      obtain ⟨state, hstate⟩ := Scene.applyDatum_spec (.text "flag=goal_shifted")
        { s with params := s.params.set goalParam ((next.map .text).getD .null) }
      simp only [if_true]
      split
      · rename_i f s' happly
        obtain rfl : s' = _ := (congrArg Attempt.reached happly).symm.trans hstate
        exact Outcome.failed f hs rfl
      · rename_i a s' happly
        obtain rfl : s' = _ := (congrArg Attempt.reached happly).symm.trans hstate
        exact Outcome.done rfl hs rfl rfl (hparams _)

end

theorem apply_outcome (t : Twist) (stream : Stream) (nonce : Datum) (shown : Bool) {s : Scene}
    (hs : s.rules.Sound) : t.Outcome s (t.apply stream nonce shown s) := by
  cases t with
  | nothing => exact Outcome.done rfl hs rfl rfl fun _ _ => rfl
  | reverseScore =>
    rw [apply_reverseScore stream nonce shown hs.readable]
    split
    · exact Outcome.failed _ hs rfl
    · rename_i rules hset
      obtain ⟨hstrict, hrules, hsound⟩ := Engine.setRules_spec hset
      exact Outcome.done rfl hsound hstrict hrules fun _ _ => rfl
  | addRules added =>
    rw [apply_addRules]
    split
    · exact Outcome.failed _ hs rfl
    · rename_i rules hadd
      obtain ⟨hstrict, hrules, hsound⟩ := Engine.addRules_spec hs hadd
      exact Outcome.done rfl hsound hstrict hrules fun _ _ => rfl
  | replaceTrigger trigger added =>
    obtain ⟨hstrict, hrules, hsound, hremoved⟩ := Engine.removeTrigger_spec hs trigger
    rw [apply_replaceTrigger, hremoved]
    split
    · exact Outcome.failed _ hsound hstrict
    · rename_i rules hadd
      obtain ⟨hstrict', hrules', hsound'⟩ := Engine.addRules_spec hsound hadd
      rw [hrules] at hrules'
      exact Outcome.done rfl hsound' (hstrict'.trans hstrict) hrules' fun _ _ => rfl
  | shiftGoal => exact outcome_shiftGoal stream nonce shown hs
  | misreport =>
    obtain ⟨score, health, happly⟩ := apply_misreport stream nonce shown (s := s)
    rw [happly]
    refine Outcome.done rfl hs rfl rfl fun k hk => ?_
    obtain ⟨hs, hh⟩ := not_or.mp fun h => hk (List.mem_pair.mpr h)
    simp only [Fields.get?_set_of_ne _ _ (Ne.symm hh), Fields.get?_set_of_ne _ _ (Ne.symm hs)]

/-- A twist keeps what other rules keep and what writing its parameters keeps, and where the
goal is shifted in view of the state what raising the flag keeps. -/
theorem keeps_apply {P : Scene → Prop} (hset : ∀ rules, Keeps P (Scene.setRules rules))
    (hadd : ∀ rules, Keeps P (Scene.addRules rules))
    (hremove : ∀ trigger, Keeps P (Scene.removeTrigger trigger)) (t : Twist)
    (hparam : ∀ name ∈ t.writes, ∀ value, Keeps P (Scene.setParam name value)) (stream : Stream)
    (nonce : Datum) (shown : Bool) (hgoal : t = .shiftGoal → shown = true →
      Keeps P (Scene.applyDatum (.text "flag=goal_shifted"))) :
    Keeps P (t.apply stream nonce shown) := by
  cases t with
  | nothing => exact Keeps.pure _
  | reverseScore =>
    refine Keeps.bind Keeps.get fun s => ?_
    refine Keeps.bind (Keeps.lift _) fun r => ?_
    exact Keeps.bind (hset r.1) fun _ => Keeps.pure _
  | addRules added => exact Keeps.bind (hadd added) fun _ => Keeps.pure _
  | replaceTrigger trigger added =>
    refine Keeps.bind (hremove trigger) fun removed => ?_
    exact Keeps.bind (hadd added) fun _ => Keeps.pure _
  | shiftGoal =>
    refine Keeps.bind Keeps.get fun s => ?_
    refine Keeps.bind (Keeps.lift _) fun next => ?_
    refine Keeps.bind (hparam _ (List.mem_singleton.mpr rfl) _) fun _ => ?_
    cases shown with
    | false => exact Keeps.pure _
    | true => exact Keeps.bind (Keeps.discard (hgoal rfl rfl)) fun _ => Keeps.pure _
  | misreport =>
    refine Keeps.bind (Keeps.lift _) fun score => ?_
    refine Keeps.bind (hparam _ (List.mem_pair.mpr (.inl rfl)) _) fun _ => ?_
    refine Keeps.bind (Keeps.lift _) fun health => ?_
    exact Keeps.bind (hparam _ (List.mem_pair.mpr (.inr rfl)) _) fun _ => Keeps.pure _

/-- The parameters when a twist has been taken back. -/
def paramsBack : Twist → Undo → Fields Datum → Fields Datum
  | .shiftGoal, undo, params => params.putBack goalParam undo.goal
  | .misreport, _, params =>
    (params.putBack "score_display_offset" none).putBack "health_display_offset" none
  | _, _, params => params

end Twist

/-- Whether a record can still be used: its flipped rules can be flipped back, the
rules that gave way can be read again. -/
def Undo.Usable (strict : Bool) (undo : Undo) : Prop :=
  (∀ k ∈ undo.flipped, Flips strict k.2.2) ∧ ∀ r ∈ undo.removed, r.Readable strict

namespace Twist

theorem readable_unmarked {strict : Bool} {rules : List Rule} (added : List Rule)
    (h : ∀ r ∈ rules, r.Readable strict) : ∀ r ∈ unmarked added rules, r.Readable strict :=
  fun r hr => h r (List.mem_filter.mp hr).1

theorem revert_spec (t : Twist) {undo : Undo} {s : Scene} (hs : s.rules.Sound)
    (hu : undo.Usable s.rules.strict) :
    ∃ e : Engine, t.revert undo s = .ok ⟨⟩ ⟨e, t.paramsBack undo s.params, s.state⟩ ∧ e.Sound ∧
      e.strict = s.rules.strict ∧ t.rulesBack undo s.rules.rules = .ok e.rules := by
  have hread := hs.readable
  cases t with
  | nothing => exact ⟨s.rules, rfl, hs, rfl, rfl⟩
  | reverseScore =>
    obtain ⟨rules, hflip, -⟩ := Rule.flipPending_spec (fun _ => False) hread
      undo.flipped fun _ _ hf => hf.elim
    obtain ⟨e, he⟩ := Engine.exists_setRules (Rule.readable_of_flipPending hread hu.1 hflip)
    obtain ⟨hstrict, hrules, hsound⟩ := Engine.setRules_spec he
    refine ⟨e, ?_, hsound, hstrict, hflip.trans (congrArg _ hrules.symm)⟩
    unfold revert
    simp only [Attempt.bind_apply, Attempt.get_apply, hflip, Attempt.lift_ok, Scene.setRules_ok he]
    rfl
  | addRules added =>
    obtain ⟨e, he⟩ := Engine.exists_setRules (readable_unmarked added hread)
    obtain ⟨hstrict, hrules, hsound⟩ := Engine.setRules_spec he
    refine ⟨e, ?_, hsound, hstrict, congrArg _ hrules.symm⟩
    unfold revert
    simp only [Attempt.bind_apply, Attempt.get_apply, Scene.setRules_ok he]
    rfl
  | replaceTrigger trigger added =>
    obtain ⟨e, he⟩ := Engine.exists_setRules (readable_unmarked added hread)
    obtain ⟨hstrict, hrules, hsound⟩ := Engine.setRules_spec he
    obtain ⟨e', he'⟩ : ∃ e', e.addRules undo.removed = .ok e' := by
      refine Engine.exists_addRules ?_
      rw [hstrict]
      exact hu.2
    obtain ⟨hstrict', hrules', hsound'⟩ := Engine.addRules_spec hsound he'
    refine ⟨e', ?_, hsound', hstrict'.trans hstrict, ?_⟩
    · unfold revert
      simp only [Attempt.bind_apply, Attempt.get_apply, Scene.setRules_ok he]
      rw [Scene.addRules_ok (s := { s with rules := e }) he']
      rfl
    · rw [hrules', hrules]
      rfl
  | shiftGoal => exact ⟨s.rules, Scene.restoreParam_apply _ _ s, hs, rfl, rfl⟩
  | misreport => exact ⟨s.rules, rfl, hs, rfl, rfl⟩

theorem keeps_revert {P : Scene → Prop} (hset : ∀ rules, Keeps P (Scene.setRules rules))
    (hadd : ∀ rules, Keeps P (Scene.addRules rules))
    (hparam : ∀ name earlier, Keeps P (Scene.restoreParam name earlier)) (t : Twist) (undo : Undo) :
    Keeps P (t.revert undo) := by
  cases t with
  | nothing => exact Keeps.pure _
  | reverseScore =>
    exact Keeps.bind Keeps.get fun s => Keeps.bind (Keeps.lift _) fun rules => hset rules
  | addRules added => exact Keeps.bind Keeps.get fun s => hset _
  | replaceTrigger trigger added =>
    exact Keeps.bind Keeps.get fun s => Keeps.bind (hset _) fun _ => hadd _
  | shiftGoal => exact hparam _ _
  | misreport => exact Keeps.bind (hparam _ _) fun _ => hparam _ _

theorem usable_record (t : Twist) {s s' : Scene} (hs : s.rules.Sound) (hs' : s'.rules.Sound)
    (hstrict : s'.rules.strict = s.rules.strict)
    (hrules : s'.rules.rules = t.rulesIn s.rules.rules) :
    (t.record s).Usable s.rules.strict := by
  cases t with
  | reverseScore =>
    refine ⟨fun k hk => ?_, fun r hr => absurd hr List.not_mem_nil⟩
    obtain ⟨f, hf, rfl⟩ := List.mem_map.mp hk
    obtain ⟨r, hr, rfl⟩ := List.mem_map.mp hf
    obtain ⟨hmem, hchanges⟩ := List.mem_filter.mp hr
    refine Rule.flips_flipped hchanges ?_
    rw [← hstrict]
    refine hs'.readable _ ?_
    rw [hrules]
    exact List.mem_map_of_mem hmem
  | replaceTrigger trigger added =>
    exact ⟨fun k hk => absurd hk List.not_mem_nil,
      fun r hr => hs.readable r (List.mem_filter.mp hr).1⟩
  | _ =>
    exact ⟨fun k hk => absurd hk List.not_mem_nil, fun r hr => absurd hr List.not_mem_nil⟩

end Twist

/-! ## Mutations -/

namespace Mutation

/-- The parameters that a mutation writes, its twist included. -/
def writes (m : Mutation) : List String := m.touches ++ m.twist.writes

/-- What a mutation leaves behind of a scene, in order to be taken back. -/
def record (m : Mutation) (s : Scene) : Undo :=
  { m.twist.record s with params := m.touches.map fun k => (k, s.params.get? k) }

/-- The parameters when a mutation has been taken back. -/
def paramsBack (m : Mutation) (undo : Undo) (params : Fields Datum) : Fields Datum :=
  (m.twist.paramsBack undo params).putBackAll undo.params

theorem nodup_touches (m : Mutation) : m.touches.Nodup := by
  cases m <;> decide +kernel

theorem goalParam_not_mem_touches (m : Mutation) : Twist.goalParam ∉ m.touches := by
  cases m <;> decide +kernel

/-- What comes of a mutation: it is applied, or it failed and left a sound engine. -/
inductive Outcome (m : Mutation) (s : Scene) : EStateM.Result Fault Scene Undo → Prop
  | done {undo : Undo} {s' : Scene} : undo = m.record s → s'.rules.Sound →
      s'.rules.strict = s.rules.strict → s'.rules.rules = m.twist.rulesIn s.rules.rules →
      (∀ k ∉ m.writes, s'.params.get? k = s.params.get? k) → Outcome m s (.ok undo s')
  | failed {s' : Scene} (f : Fault) : s'.rules.Sound → s'.rules.strict = s.rules.strict →
      Outcome m s (.error f s')

/-- The record of a twist does not depend on the parameters that the mutation writes over. -/
theorem record_twist (m : Mutation) (s : Scene) {params : Fields Datum}
    (h : ∀ k ∉ m.touches, params.get? k = s.params.get? k) :
    m.twist.record { s with params } = m.twist.record s := by
  have hgoal := h _ m.goalParam_not_mem_touches
  cases m.twist with
  | shiftGoal => exact congrArg (fun goal => ({ goal } : Undo)) hgoal
  | _ => rfl

theorem apply_outcome (m : Mutation) (stream : Stream) (nonce : Datum) (shown : Bool) {s : Scene}
    (hs : s.rules.Sound) : m.Outcome s (m.apply stream nonce shown s) := by
  obtain ⟨params, hsame, hover⟩ := overwrite_spec m.nodup_touches s
  have hmap : (m.overrides.map fun o => (o.1, s.params.get? o.1)) =
      m.touches.map fun k => (k, s.params.get? k) := by
    unfold touches
    rw [List.map_map]
    rfl
  unfold apply
  rw [Attempt.bind_apply]
  rcases hover with hok | ⟨-, f, hf⟩
  · rw [hok]
    have htwist := m.twist.apply_outcome stream nonce shown (s := { s with params }) hs
    simp only [Attempt.bind_apply]
    cases hr : m.twist.apply stream nonce shown { s with params } with
    | error f s' =>
      rw [hr] at htwist
      cases htwist with
      | failed _ hsound hstrict => exact Outcome.failed f hsound hstrict
    | ok undo s' =>
      rw [hr] at htwist
      cases htwist with
      | done hundo hsound hstrict hrules hparams =>
        refine Outcome.done ?_ hsound hstrict hrules fun k hk => ?_
        · rw [hundo, m.record_twist s hsame, hmap]
          rfl
        · obtain ⟨htouches, hwrites⟩ := not_or.mp fun h => hk (List.mem_append.mpr h)
          rw [hparams k hwrites]
          exact hsame k htouches
  · rw [hf]
    exact Outcome.failed f hs rfl

theorem keeps_overwrite {P : Scene → Prop} {os : List (String × Override)}
    (h : ∀ o ∈ os, ∀ current value, o.2.apply current = .ok value →
      Keeps P (Scene.setParam o.1 value)) : Keeps P (overwrite os) := by
  induction os with
  | nil => exact Keeps.pure _
  | cons o os ih =>
    refine Keeps.bind Keeps.get fun s => ?_
    refine Keeps.lift_bind fun value hvalue => ?_
    refine Keeps.bind (h o List.mem_cons_self _ value hvalue) fun _ => ?_
    exact Keeps.bind (ih fun o' ho' => h o' (List.mem_cons_of_mem o ho')) fun _ => Keeps.pure _

theorem keeps_steps {P : Scene → Prop} {m : Mutation} {stream : Stream} {nonce : Datum}
    {shown : Bool} (hover : Keeps P (overwrite m.overrides))
    (htwist : Keeps P (m.twist.apply stream nonce shown)) :
    Keeps P (m.apply stream nonce shown) :=
  Keeps.bind hover fun _ => Keeps.bind htwist fun _ => Keeps.pure _

/-- Taking a mutation back never fails while its record is usable. -/
theorem revert_spec (m : Mutation) {undo : Undo} {s : Scene} (hs : s.rules.Sound)
    (hu : undo.Usable s.rules.strict) :
    ∃ e : Engine, m.revert undo s = .ok ⟨⟩ ⟨e, m.paramsBack undo s.params, s.state⟩ ∧ e.Sound ∧
      e.strict = s.rules.strict ∧ m.twist.rulesBack undo s.rules.rules = .ok e.rules := by
  obtain ⟨e, hrevert, hrest⟩ := m.twist.revert_spec hs hu
  refine ⟨e, ?_, hrest⟩
  unfold revert
  rw [Attempt.bind_apply, hrevert]
  exact restore_apply _ _

theorem keeps_revert {P : Scene → Prop} (hset : ∀ rules, Keeps P (Scene.setRules rules))
    (hadd : ∀ rules, Keeps P (Scene.addRules rules))
    (hparam : ∀ name earlier, Keeps P (Scene.restoreParam name earlier)) (m : Mutation)
    (undo : Undo) : Keeps P (m.revert undo) := by
  refine Keeps.bind (Twist.keeps_revert hset hadd hparam m.twist undo) fun _ => ?_
  induction undo.params with
  | nil => exact Keeps.pure _
  | cons e rest ih => exact Keeps.bind (hparam e.1 e.2) fun _ => ih

theorem usable_record (m : Mutation) {s s' : Scene} (hs : s.rules.Sound) (hs' : s'.rules.Sound)
    (hstrict : s'.rules.strict = s.rules.strict)
    (hrules : s'.rules.rules = m.twist.rulesIn s.rules.rules) :
    (m.record s).Usable s.rules.strict :=
  m.twist.usable_record hs hs' hstrict hrules

end Mutation

end SeededPlay

/-
# `SeededPlay.Proofs.Chaos.Success` — when mutations cannot fail

A mutation can fail half way, and then the scheduler forgets it while a part of its
changes stays.  As long as the callers keep to the kinds of values that they declare,
times that count as numbers and states whose flags are a record (`GameState.Typed`),
two things are left that can go wrong.  The gravity, which one mutation negates, must
count as a number or be missing, and where the score is reversed the engine must take
the flipped rules (`Mutation.apply_succeeds`).  A permissive engine takes all of them.

## What can stand in the way

Writing a parameter over succeeds unless the value is to be negated and does not count as a
number (`apply_ok`), and only the gravity is ever negated (`isPut_or_gravity`).  Only a
shifted goal looks at the state (`apply_shown`); it raises a flag, which takes flags that
are a record (`Effect.raiseFlag_eq_ok`), and there is always another goal to shift to.  The
rules that mutations bring can be read, so adding them never fails, and rules that are
flipped are taken by every permissive engine (`Engine.Sound.flipped`).

A mutation has two steps, the parameters and the twist, so what has been established for
the first must hold in the state in between.  The lemmas of that section say that a mutation
keeps what raising a flag keeps (`Mutation.keeps_state`), and in particular that a state of
the declared kinds stays one.
-/
import SeededPlay.Proofs.Chaos.Scheduler
import SeededPlay.Proofs.Rules.Conditions

namespace SeededPlay

open Attempt (reached Keeps)

/-! ## The texts of the catalog -/

theorem parse_health (strict : Bool) :
    Effect.parse strict "health-1" = .ok (.arithmetic "health" .minus 1) := by
  have hname : IsName "health".toList := by decide
  exact Effect.parse_eq_arithmetic.mpr ⟨"1", ⟨rfl, hname, Phrase.isNumeral_one⟩, Phrase.numberOf_one⟩

theorem parse_health_above (strict : Bool) {numeral : String} {n : Number}
    (hnumeral : IsNumeral numeral.toList) (hn : Phrase.numberOf numeral = .ok n) :
    Condition.parse strict ("health>" ++ numeral) =
      .ok (.compare "health" .gt n ("health>" ++ numeral)) := by
  have hname : IsName "health".toList := by decide
  have htext : "health>" ++ numeral = "health" ++ String.ofList Comparator.gt.chars ++ numeral := rfl
  rw [Condition.parse_comparison strict ⟨htext, hname, hnumeral⟩, hn]
  rfl

theorem parse_goal (strict : Bool) :
    Effect.parse strict "flag=goal_shifted" = .ok (.flag "goal_shifted") := by
  have hname : IsName "flag".toList := by decide
  have hgoal : IsWord "goal_shifted".toList := by decide
  exact Effect.parse_eq_flag.mpr ⟨"flag", rfl, hname, hgoal⟩

theorem readable_added (strict : Bool) (m : Mutation) : ∀ r ∈ m.twist.added, r.Readable strict := by
  have hcoin : Mutation.cursedCoin.Readable strict :=
    Rule.readable_iff.mpr ⟨⟨_, parse_health_above strict Phrase.isNumeral_one Phrase.numberOf_one⟩,
      ⟨_, parse_health strict⟩⟩
  have hfall : Mutation.paidFall.Readable strict :=
    Rule.readable_iff.mpr ⟨⟨_, rfl⟩, ⟨_, Effect.parse_scoreText_one strict .plus⟩⟩
  intro r hr
  cases m with
  | cursedCoins => exact List.mem_singleton.mp hr ▸ hcoin
  | voidMercy => exact List.mem_singleton.mp hr ▸ hfall
  | _ => exact absurd hr List.not_mem_nil

theorem Engine.Sound.flipped {e : Engine} (h : e.Sound) (hp : e.strict = false) :
    ∀ r ∈ e.rules, r.flipped.Readable e.strict := by
  intro r hr
  have hread := h.readable r hr
  rw [hp] at hread ⊢
  exact hread.flipped fun _ _ hscore => Effect.parse_flipped hscore

/-! ## What callers declare -/

/-- A value that counts as a number. -/
def Datum.Numeric (d : Datum) : Prop := ∃ n, d.number? = some n

/-- A state whose clock counts as a number or is missing, and whose flags are a record. -/
structure GameState.Typed (s : GameState) : Prop where
  elapsed : s.elapsed = .null ∨ s.elapsed.Numeric
  flags : ∃ fields, s.flags = .record fields

theorem Datum.Numeric.toNumber {d : Datum} (h : d.Numeric) : ∃ n, d.toNumber = .ok n := by
  obtain ⟨n, hn⟩ := h
  unfold Datum.toNumber
  rw [hn]
  exact ⟨n, rfl⟩

theorem Effect.raiseFlag_eq_ok {s s' : GameState} {word : String} :
    raiseFlag s word = .ok s' ↔ ∃ fields, s.flags = .record fields ∧
      s' = { s with flags := .record (Fields.set fields word (.bool true)) } := by
  unfold raiseFlag
  constructor
  · intro h
    split at h
    · rename_i fields hfields
      exact ⟨fields, hfields, (Except.ok.inj h).symm⟩
    · cases h
  · rintro ⟨fields, hfields, rfl⟩
    rw [hfields]

theorem GameState.Typed.exists_raiseFlag {s : GameState} (h : s.Typed) (word : String) :
    ∃ s', Effect.raiseFlag s word = .ok s' := by
  obtain ⟨fields, hfields⟩ := h.flags
  exact ⟨_, Effect.raiseFlag_eq_ok.mpr ⟨fields, hfields, rfl⟩⟩

theorem Scene.applyDatum_goal (s : Scene) :
    Scene.applyDatum (.text "flag=goal_shifted") s =
      match Effect.raiseFlag s.state "goal_shifted" with
      | .error f => .error f s
      | .ok state => .ok (.flag "goal_shifted") { s with state } := by
  have happly : s.rules.applyDatum (.text "flag=goal_shifted") s.state =
      (Effect.raiseFlag s.state "goal_shifted").map fun state => (.flag "goal_shifted", state) := by
    have hparse : Effect.parseDatum s.rules.strict (.text "flag=goal_shifted") =
        .ok (.flag "goal_shifted") := parse_goal s.rules.strict
    unfold Engine.applyDatum
    rw [hparse]
    show (Effect.raiseFlag s.state "goal_shifted" >>= fun state => pure _) = _
    cases Effect.raiseFlag s.state "goal_shifted" <;> rfl
  unfold Scene.applyDatum
  simp only [Attempt.bind_apply, Attempt.get_apply, happly]
  cases Effect.raiseFlag s.state "goal_shifted" <;> rfl

namespace Twist

theorem length_otherGoals (current : Option Datum) : (otherGoals current).length ≤ 4 := by
  unfold otherGoals
  split
  · exact List.length_filter_le _ goals
  · exact Nat.le_refl 4
  · exact List.length_filter_le _ goals

theorem otherGoals_ne_nil (current : Option Datum) : otherGoals current ≠ [] := by
  unfold otherGoals
  split
  · rename_i goal
    intro h
    have hnone := List.filter_eq_nil_iff.mp h
    have hfirst : "score_threshold" = goal := by simpa using hnone "score_threshold" (by decide)
    have hsecond : "survive_time" = goal := by simpa using hnone "survive_time" (by decide)
    exact absurd (hfirst.trans hsecond.symm) (by decide)
  · exact List.cons_ne_nil _ _
  · decide

theorem apply_succeeds (m : Mutation) (stream : Stream) (nonce : Datum) {shown : Bool} {s : Scene}
    (hs : s.rules.Sound)
    (hflip : m.twist = .reverseScore → ∀ r ∈ s.rules.rules, r.flipped.Readable s.rules.strict)
    (hstate : shown = true → ∃ state, Effect.raiseFlag s.state "goal_shifted" = .ok state) :
    ∃ undo s', m.twist.apply stream nonce shown s = .ok undo s' := by
  have hadded := readable_added s.rules.strict m
  cases ht : m.twist with
  | nothing => exact ⟨_, _, rfl⟩
  | reverseScore =>
    obtain ⟨e, he⟩ := Engine.exists_setRules (List.forall_mem_map.mpr (hflip ht))
    rw [apply_reverseScore stream nonce shown hs.readable, he]
    exact ⟨_, _, rfl⟩
  | addRules added =>
    rw [ht] at hadded
    obtain ⟨e, he⟩ : ∃ e, s.rules.addRules added = .ok e := Engine.exists_addRules hadded
    rw [apply_addRules, he]
    exact ⟨_, _, rfl⟩
  | replaceTrigger trigger added =>
    rw [ht] at hadded
    obtain ⟨e, he⟩ : ∃ e, (s.rules.removeTrigger trigger).1.addRules added = .ok e := by
      refine Engine.exists_addRules ?_
      rw [(Engine.removeTrigger_spec hs trigger).1]
      exact hadded
    rw [apply_replaceTrigger, he]
    exact ⟨_, _, rfl⟩
  | shiftGoal =>
    obtain ⟨next, -, hpick⟩ := Draw.exists_pick (stream.word nonce "goal_shift")
      (otherGoals_ne_nil (s.params.get? goalParam))
      ((length_otherGoals _).trans (by decide))
    rw [apply_shiftGoal, hpick]
    cases shown with
    | false => exact ⟨_, _, rfl⟩
    | true =>
      obtain ⟨state, hstate⟩ := hstate rfl
      simp only [if_true, Scene.applyDatum_goal, hstate]
      exact ⟨_, _, rfl⟩
  | misreport =>
    obtain ⟨score, health, happly⟩ := apply_misreport stream nonce shown (s := s)
    exact ⟨_, _, happly⟩

end Twist

namespace Override

/-- Whether the new value does not depend on the old one. -/
def isPut : Override → Bool
  | .put _ => true
  | .negate _ => false

theorem apply_ok (o : Override) {current : Option Datum}
    (h : o.isPut = true ∨ ∀ d ∈ current, d.Numeric) : ∃ v, o.apply current = .ok v := by
  cases o with
  | put v => exact ⟨v, rfl⟩
  | negate fallback =>
    have hnumeric : (current.getD (.int fallback)).Numeric := by
      cases current with
      | none => exact ⟨_, rfl⟩
      | some d => exact h.resolve_left Bool.false_ne_true d rfl
    obtain ⟨n, hn⟩ := hnumeric.toNumber
    exact ⟨_, map_eq_ok.mpr ⟨n, hn, rfl⟩⟩

end Override

namespace Mutation

theorem isPut_or_gravity (m : Mutation) :
    ∀ o ∈ m.overrides, o.2.isPut = true ∨ o.1 = "gravity_y" := by
  have hall : m.overrides.all (fun o => o.2.isPut || o.1 == "gravity_y") = true := by
    cases m <;> rfl
  intro o ho
  have h := List.all_eq_true.mp hall o ho
  rwa [Bool.or_eq_true, beq_iff_eq] at h

theorem apply_shown {m : Mutation} (h : m ≠ .goalShift) (stream : Stream) (nonce : Datum)
    (shown : Bool) : m.apply stream nonce shown = m.apply stream nonce false := by
  cases m with
  | goalShift => exact absurd rfl h
  | _ => rfl

/-- With a gravity that counts as a number, and an engine that takes the rules flipped if
they are to be, a mutation is applied. -/
theorem apply_succeeds (m : Mutation) (stream : Stream) (nonce : Datum) {shown : Bool} {s : Scene}
    (hs : s.rules.Sound)
    (hflip : m.twist = .reverseScore → ∀ r ∈ s.rules.rules, r.flipped.Readable s.rules.strict)
    (hstate : shown = true → ∃ state, Effect.raiseFlag s.state "goal_shifted" = .ok state)
    (hgravity : "gravity_y" ∈ m.touches → ∀ d ∈ s.params.get? "gravity_y", d.Numeric) :
    ∃ undo s', m.apply stream nonce shown s = .ok undo s' := by
  obtain ⟨params, -, hok | ⟨⟨o, ho, f, hf⟩, -⟩⟩ := overwrite_spec m.nodup_touches s
  · obtain ⟨undo, s', htwist⟩ :=
      Twist.apply_succeeds m stream nonce (s := { s with params }) hs hflip hstate
    unfold apply
    simp only [Attempt.bind_apply, hok, htwist]
    exact ⟨_, _, rfl⟩
  · have hval : o.2.isPut = true ∨ ∀ d ∈ s.params.get? o.1, d.Numeric := by
      rcases m.isPut_or_gravity o ho with h | h
      · exact Or.inl h
      · refine Or.inr ?_
        have hmem : o.1 ∈ m.touches := List.mem_map.mpr ⟨o, ho, rfl⟩
        rw [h] at hmem ⊢
        exact hgravity hmem
    obtain ⟨v, hv⟩ := o.2.apply_ok hval
    rw [hv] at hf
    cases hf

end Mutation

/-! ## The state in between -/

namespace Scene

variable {P : GameState → Prop}

theorem keeps_setRules (rules : List Rule) : Keeps (fun s => P s.state) (setRules rules) :=
  Keeps.bind Keeps.get fun _ => Keeps.bind (Keeps.lift _) fun _ => Keeps.modify fun _ h => h

theorem keeps_addRules (rules : List Rule) : Keeps (fun s => P s.state) (addRules rules) :=
  Keeps.bind Keeps.get fun _ => Keeps.bind (Keeps.lift _) fun _ => Keeps.modify fun _ h => h

theorem keeps_setParam (name : String) (value : Datum) :
    Keeps (fun s => P s.state) (setParam name value) := Keeps.modify fun _ h => h

theorem keeps_goal
    (hP : ∀ {s s'}, Effect.raiseFlag s "goal_shifted" = .ok s' → P s → P s') :
    Keeps (fun s => P s.state) (applyDatum (.text "flag=goal_shifted")) := by
  intro s hs
  rw [applyDatum_goal]
  cases hr : Effect.raiseFlag s.state "goal_shifted" with
  | error f => exact hs
  | ok state => exact hP hr hs

end Scene

/-- Only a shifted goal changes the state, and only a state that is shown: it raises a
flag.  What that keeps is kept by every mutation. -/
theorem Mutation.keeps_state {P : GameState → Prop} (m : Mutation) (stream : Stream)
    (nonce : Datum) (shown : Bool) (hP : m.twist = .shiftGoal → shown = true →
      ∀ {s s'}, Effect.raiseFlag s "goal_shifted" = .ok s' → P s → P s') :
    Keeps (fun s => P s.state) (m.apply stream nonce shown) := by
  refine keeps_steps (keeps_overwrite fun _ _ _ _ _ => Scene.keeps_setParam _ _) ?_
  refine Twist.keeps_apply Scene.keeps_setRules Scene.keeps_addRules (fun _ _ h => h) m.twist
    (fun _ _ _ => Scene.keeps_setParam _ _) stream nonce shown fun htwist hshown => ?_
  exact Scene.keeps_goal (hP htwist hshown)

theorem Mutation.keeps_typed (m : Mutation) (stream : Stream) (nonce : Datum) (shown : Bool) :
    Keeps (fun s => s.state.Typed) (m.apply stream nonce shown) := by
  refine m.keeps_state stream nonce shown fun _ _ s s' hr hs => ?_
  obtain ⟨fields, -, rfl⟩ := Effect.raiseFlag_eq_ok.mp hr
  exact ⟨hs.elapsed, _, rfl⟩

/-! ## Beginnings -/

namespace Scheduler

theorem typed_begin {s : Scheduler} (m : Mutation) (shown : Bool) (h : s.scene.state.Typed) :
    (reached (begin m shown s)).scene.state.Typed :=
  keeps_begin (fun stream nonce => m.keeps_typed stream nonce shown) s h

theorem numeric_now {s : Scheduler} {shown : Bool} (hclock : s.clock.Numeric)
    (hstate : shown = true → s.scene.state.Typed) : (s.now shown).Numeric := by
  unfold now
  cases shown with
  | false => exact hclock
  | true =>
    rw [if_pos rfl]
    split
    · exact hclock
    · rename_i hnull
      exact (hstate rfl).elapsed.resolve_left hnull

theorem exists_expiry (m : Mutation) {now : Datum} (h : now.Numeric) :
    ∃ expires, expiry m now = .ok expires := by
  unfold expiry
  cases hd : m.duration with
  | none => exact ⟨none, rfl⟩
  | some d =>
    have hall : ∀ d ∈ m.duration, d < 2 ^ 53 := by
      cases m <;> decide
    obtain ⟨n, hn⟩ := h.toNumber
    have hsum : ∃ t, n.add? (.int d) = some t := by
      cases n with
      | int a => exact ⟨_, rfl⟩
      | real x =>
        refine ⟨.real (x.add (.finite false (d * Binary64.unitsPerOne))), ?_⟩
        show (Number.real x).toReal?.bind (fun a => (Number.int d).toReal?.bind fun b =>
          some (Number.real (a.add b))) = _
        rw [show (Number.int d).toReal? = _ from Binary64.ofInt?_exact (hall d hd)]
        rfl
    obtain ⟨t, ht⟩ := hsum
    refine ⟨some t, bind_eq_ok.mpr ⟨n, hn, ?_⟩⟩
    rw [ht]
    rfl

/-- With times and states of the declared kinds, a gravity that counts as a number, and an
engine that takes the rules flipped if they are to be, a mutation that is to begin does. -/
theorem begin_succeeds {s : Scheduler} (h : s.Intact) {m : Mutation} {shown : Bool}
    (hflip : m.twist = .reverseScore →
      ∀ r ∈ s.scene.rules.rules, r.flipped.Readable s.scene.rules.strict)
    (hclock : s.clock.Numeric) (hstate : shown = true → s.scene.state.Typed)
    (hgravity : "gravity_y" ∈ m.touches → ∀ d ∈ s.scene.params.get? "gravity_y", d.Numeric) :
    ∃ scene expires, m.Outcome s.scene (.ok (m.record s.scene) scene) ∧
      begin m shown s = .ok (s.entry m shown (m.record s.scene) expires)
        (s.begun scene (s.entry m shown (m.record s.scene) expires)) := by
  obtain ⟨undo, scene, happly⟩ := m.apply_succeeds s.stream (.int s.activations) h.sound hflip
    (fun hshown => (hstate hshown).exists_raiseFlag _) hgravity
  obtain ⟨expires, hexpires⟩ := exists_expiry m (numeric_now hclock hstate)
  have hout := m.apply_outcome s.stream (.int s.activations) shown h.sound
  rw [happly] at hout
  cases hout with
  | done hundo hsound hstrict hrules hparams =>
    refine ⟨scene, expires, .done rfl hsound hstrict hrules hparams, ?_⟩
    rw [begin_eq, happly, ← hundo]
    simp only [hexpires]

end Scheduler

end SeededPlay

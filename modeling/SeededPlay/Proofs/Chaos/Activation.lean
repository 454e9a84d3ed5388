/-
# `SeededPlay.Proofs.Chaos.Activation` — an activation happens whole or not at all

An activation that comes to something puts one new mutation at the end of the list; the
oldest is gone if the cap was reached, and the count and the history are one longer.  One
that comes to nothing, or fails, leaves the scheduler as it was (`Whole`).  All that can
fail is checked before anything is changed, with one exception.  When the score is to be
reversed, a strict engine may refuse a flipped rule: an amount that was written as
`0.00001` is written as `1e-05` when it is flipped, and that is no amount of the language.
By then room has been made and a parameter has been written (`Refused`, `refusal`).

A permissive engine refuses nothing, so under it there is no exception.  The case is
spelled out in `activate_whole`, with everything that such an activation leaves behind.

## How the cases are split

What an activation does is decided by the draw.  Without a mutation that is drawn nothing
changes (`activate_of_not_drawn`).  With one, room is made and the mutation begins
(`activate_of_drawn`); as at most the cap is active, what stays is everything, or
everything but the oldest (`Fits.staying_eq`).  Beginning fails in one way only, which is
the reversal that is refused, and then its residue can be written down
(`activate_of_refused`).  Everything else is whole (`whole_of_not_refused`).

The exception is no mere possibility.  A rule with an amount of `0.00001` is taken by a
strict engine, and on it the activation fails with its parameter written
(`not_whole_fraction`).
-/
import SeededPlay.Proofs.Chaos.Promises

namespace SeededPlay

open Attempt (reached)
open Effect (scoreText)

/-! ## A reversal that is refused -/

theorem Engine.setRules_eq_error {e : Engine} {rules : List Rule}
    (h : ∃ r ∈ rules, ¬r.Readable e.strict) : ∃ f, e.setRules rules = .error f := by
  cases hset : e.setRules rules with
  | error f => exact ⟨f, rfl⟩
  | ok e' =>
    obtain ⟨hstrict, hrules, hsound⟩ := setRules_spec hset
    obtain ⟨r, hr, hnot⟩ := h
    rw [← hrules] at hr
    rw [← hstrict] at hnot
    exact absurd (hsound.readable r hr) hnot

/-- The parameter that tells of a reversed score. -/
def reversedParam : String := "score_reversed"

/-- Where a rule cannot be flipped, reversing the score fails, and its parameter stays
written. -/
theorem Mutation.apply_refused {s : Scene} (hs : s.rules.Sound)
    (h : ∃ r ∈ s.rules.rules, ¬r.flipped.Readable s.rules.strict) (stream : Stream) (nonce : Datum)
    (shown : Bool) : ∃ f, Mutation.apply .scoreReverse stream nonce shown s =
      .error f { s with params := s.params.set reversedParam (.bool true) } := by
  obtain ⟨r, hr, hnot⟩ := h
  obtain ⟨f, hf⟩ : ∃ f, s.rules.setRules (s.rules.rules.map Rule.flipped) = .error f :=
    Engine.setRules_eq_error ⟨r.flipped, List.mem_map_of_mem hr, hnot⟩
  have hover : overwrite Mutation.scoreReverse.overrides s =
      .ok [(reversedParam, s.params.get? reversedParam)]
        { s with params := s.params.set reversedParam (.bool true) } := rfl
  have htwist : Mutation.scoreReverse.twist = .reverseScore := rfl
  have hset : Scene.setRules (s.rules.rules.map Rule.flipped)
      { s with params := s.params.set reversedParam (.bool true) } =
        .error f { s with params := s.params.set reversedParam (.bool true) } :=
    Scene.setRules_error hf
  refine ⟨f, ?_⟩
  unfold apply Twist.apply
  simp only [Attempt.bind_apply, hover, htwist, Attempt.get_apply,
    Rule.flipAll_eq hs.readable, Attempt.lift_ok, hset]

namespace Scheduler

/-- The next activation is refused half way: the score is to be reversed, and in the end a
rule cannot be flipped. -/
structure Refused (s : Scheduler) : Prop where
  permits : s.cap ≠ 0
  drawn : s.drawMutation = .ok (some .scoreReverse)
  rule : ∃ r ∈ (reached (makeRoom s)).scene.rules.rules,
    ¬r.flipped.Readable (reached (makeRoom s)).scene.rules.strict

/-- The scheduler that a refused activation leaves behind. -/
def refusal (s : Scheduler) : Scheduler :=
  let room := reached (makeRoom s)
  { room with
    scene := { room.scene with params := room.scene.params.set reversedParam (.bool true) } }

/-! ## What an activation comes to -/

/-- A new mutation at the end of the list, or no change at all. -/
inductive Whole (s : Scheduler) :
    EStateM.Result Fault Scheduler (Option ActiveMutation) → Prop
  | activated {a : ActiveMutation} {s' : Scheduler} :
      s'.active = (if s.active.length = s.cap then s.active.tail else s.active) ++ [a] →
      a.nonce = s.activations → s'.activations = s.activations + 1 →
      s'.history = s.history ++ [a.mutation.category] → Whole s (.ok (some a) s')
  | nothing : Whole s (.ok none s)
  | failed (f : Fault) : Whole s (.error f s)

theorem Fits.staying_eq {s : Scheduler} (h : s.Fits) :
    s.staying = if s.active.length = s.cap then s.active.tail else s.active := by
  have hfew := h.few
  have hiff : s.isFull = true ↔ s.active.length = s.cap := by
    unfold isFull
    rw [decide_eq_true_eq]
    omega
  unfold staying
  rw [List.drop_one]
  exact if_congr hiff rfl rfl

theorem activate_of_not_drawn {s : Scheduler} (h : s.cap = 0 ∨ ∀ m, s.drawMutation ≠ .ok (some m))
    (shown : Bool) : activate shown s = .ok none s ∨ ∃ f, activate shown s = .error f s := by
  unfold activate
  simp only [Attempt.bind_apply, Attempt.get_apply]
  by_cases hcap : s.cap = 0
  · rw [if_pos hcap]
    exact .inl rfl
  · rw [if_neg hcap]
    cases hdraw : s.drawMutation with
    | error f => exact .inr ⟨f, rfl⟩
    | ok m? =>
      cases m? with
      | none => exact .inl rfl
      | some m => exact absurd hdraw (h.resolve_left hcap m)

theorem activate_of_drawn {s : Scheduler} (h : s.Intact) (hcap : s.cap ≠ 0) {m : Mutation}
    (hdraw : s.drawMutation = .ok (some m)) (shown : Bool) :
    activate shown s = match begin m shown (reached (makeRoom s)) with
      | .ok a s' => .ok (some a) s'
      | .error f s' => .error f s' := by
  obtain ⟨scene, -, hroom, -⟩ := makeRoom_spec h
  unfold activate
  simp only [Attempt.bind_apply, Attempt.get_apply, if_neg hcap, hdraw, Attempt.lift_ok, hroom,
    Attempt.reached_ok]
  cases begin m shown { s with scene, active := s.staying } <;> rfl

theorem whole_of_not_refused {s : Scheduler} (hs : s.Consistent) (hclock : s.clock.Numeric)
    (hroom : (reached (makeRoom s)).Grounded) {shown : Bool}
    (hstate : shown = true → s.scene.state.Typed) (hnot : ¬s.Refused) :
    Whole s (activate shown s) := by
  by_cases hdrawn : s.cap = 0 ∨ ∀ m, s.drawMutation ≠ .ok (some m)
  · rcases activate_of_not_drawn hdrawn shown with heq | ⟨f, heq⟩
    · rw [heq]
      exact .nothing
    · rw [heq]
      exact .failed f
  · rw [not_or, not_forall] at hdrawn
    obtain ⟨hcap, m, hdraw⟩ := hdrawn
    rw [not_not] at hdraw
    obtain ⟨scene, hsame, hreached, hintact⟩ := makeRoom_spec hs.intact
    rw [hreached, Attempt.reached_ok] at hroom
    have hflip : m.twist = .reverseScore →
        ∀ r ∈ scene.rules.rules, r.flipped.Readable scene.rules.strict := by
      intro htwist r hr
      by_contra hread
      obtain rfl : m = .scoreReverse := by
        cases m <;> first | rfl | exact nomatch htwist
      exact hnot ⟨hcap, hdraw, r, by rw [hreached]; exact hr, by rw [hreached]; exact hread⟩
    obtain ⟨scene', expires, -, hbegin⟩ := begin_succeeds hintact hflip hclock
      (fun hshown => hsame ▸ hstate hshown) fun _ => hroom.scene
    rw [activate_of_drawn hs.intact hcap hdraw, hreached, Attempt.reached_ok, hbegin]
    exact .activated (congrArg (· ++ [_]) hs.fits.staying_eq) rfl rfl rfl

theorem begin_of_error {s : Scheduler} {m : Mutation} {shown : Bool} {f : Fault} {scene : Scene}
    (h : m.apply s.stream (.int s.activations) shown s.scene = .error f scene) :
    begin m shown s = .error f { s with scene } := by
  rw [begin_eq, h]

theorem activate_of_refused {s : Scheduler} (hs : s.Intact) (h : s.Refused) (shown : Bool) :
    ∃ f, activate shown s = .error f s.refusal := by
  obtain ⟨scene, -, hreached, hintact⟩ := makeRoom_spec hs
  have hrule := h.rule
  rw [hreached] at hrule
  obtain ⟨f, hf⟩ := Mutation.apply_refused hintact.sound hrule (stream s) (.int s.activations) shown
  have hbegin : begin .scoreReverse shown { s with scene, active := s.staying } =
      .error f { s with
        scene := { scene with params := scene.params.set reversedParam (.bool true) }
        active := s.staying } := begin_of_error hf
  refine ⟨f, ?_⟩
  rw [activate_of_drawn hs h.permits h.drawn, refusal, hreached, Attempt.reached_ok, hbegin]

/-! ## Every run -/

theorem Refused.strict {s : Scheduler} (h : s.Refused)
    (hsound : (reached (makeRoom s)).scene.rules.Sound) :
    (reached (makeRoom s)).scene.rules.strict = true := by
  by_contra hp
  obtain ⟨r, hr, hnot⟩ := h.rule
  exact hnot (hsound.flipped (Bool.not_eq_true _ ▸ hp) r hr)

/-- After every run, under a strict or permissive engine with any rules that it takes,
whatever the weights, and with a gravity that counts as a number, an activation happens
whole or not at all, unless it is refused.  Only a strict engine can refuse it, when it
was to reverse the score and a rule cannot be flipped.  Then it fails, and what is left
behind is no new mutation, but the oldest is gone if the cap was reached, and the
parameter tells of a reversed score. -/
theorem activate_whole {strict : Bool} {rules : List Rule} {e : Engine}
    (he : Engine.ofRules strict rules = .ok e) (level : ChaosLevel) (seed : Nat)
    {base : Fields Datum} (state : GameState) (hgravity : ∀ d ∈ base.get? "gravity_y", d.Numeric)
    {calls : List Call} (hcalls : ∀ c ∈ calls, c.Keeps Datum.Numeric GameState.Typed)
    {shown : Option GameState} (hshown : ∀ st ∈ shown, st.Typed) :
    let s := reached (present shown ((start level seed e base state).runAll calls))
    (¬s.Refused → Whole s (activate shown.isSome s)) ∧
      (s.Refused → strict = true ∧ (∃ f, activate shown.isSome s = .error f s.refusal) ∧
        s.refusal.active = (if s.active.length = s.cap then s.active.tail else s.active) ∧
        s.refusal.params.get? "score_reversed" = some (.bool true) ∧
        s.refusal.history = s.history ∧ s.refusal.activations = s.activations ∧
        s.refusal.state = s.state) := by
  intro s
  obtain ⟨hstrict, -, hsound⟩ := Engine.ofRules_spec he
  have hstart := Consistent.start hsound level seed base state
  have hinv := (clock_invariant.and grounded_invariant).and (strict_invariant strict)
  have hground := Grounded.start hgravity level seed e state
  -- Showing a state and making room are steps like all others.
  have hduring := hinv.present hshown
    (hinv.runAll hcalls ⟨⟨⟨hstart, _, rfl⟩, hstart, hground⟩, hstart, hstrict⟩)
  obtain ⟨⟨⟨-, -, hroom⟩, hconsistent, hmode⟩, -⟩ := hinv.keeps_makeRoom _ s hduring
  obtain ⟨⟨⟨⟨hs, hclock⟩, -⟩, -⟩, htyped⟩ := hduring
  refine ⟨whole_of_not_refused hs hclock hroom htyped, fun hrefused => ?_⟩
  obtain ⟨scene, hstate, hreached, -⟩ := makeRoom_spec hs.intact
  refine ⟨hmode.symm.trans (hrefused.strict hconsistent.intact.sound),
    activate_of_refused hs.intact hrefused _, ?_, ?_, ?_, ?_, ?_⟩
  · exact (congrArg (·.active) (congrArg reached hreached)).trans hs.fits.staying_eq
  · exact Fields.get?_set_self _ _ _
  · exact congrArg (·.history) (congrArg reached hreached)
  · exact congrArg (·.activations) (congrArg reached hreached)
  · exact (congrArg (·.scene.state) (congrArg reached hreached)).trans hstate

theorem activate_whole_coin :
    let coin : Rule := .always "player_collect_coin" "add_score" "score+1"
    let e : Engine := ⟨true, [⟨coin, .always, .arithmetic "score" .plus 1⟩]⟩
    let calls : List Call := [.setWeights [("visual", .int (-1)), ("rule", .int 2)]]
    let s := reached (present (some {}) ((start (.clamp 60) 7 e [] {}).runAll calls))
    Engine.ofRules true [coin] = .ok e ∧
      (∀ c ∈ calls, c.Keeps Datum.Numeric GameState.Typed) ∧ GameState.Typed {} ∧ ¬s.Refused ∧
      Whole s (activate true s) := by
  intro coin e calls s
  have hparse : ∀ sign, Effect.parse true (scoreText sign "1") = .ok (.arithmetic "score" sign 1) :=
    fun sign => Effect.parse_scoreText_one true sign
  have he : Engine.ofRules true [coin] = .ok e := Engine.ofRules_point true .plus _ _
  have hcalls : ∀ c ∈ calls, c.Keeps Datum.Numeric GameState.Typed := by
    intro c hc
    obtain rfl := List.mem_singleton.mp hc
    trivial
  have htyped : GameState.Typed {} := ⟨.inr ⟨_, rfl⟩, _, rfl⟩
  have hnot : ¬s.Refused := by
    rintro ⟨-, -, r, hr, hnot⟩
    obtain rfl : r = coin := List.mem_singleton.mp hr
    have hflipped : coin.flipped = .always "player_collect_coin" "add_score" "score-1" := by
      decide +kernel
    have hread : coin.flipped.Readable true := by
      rw [hflipped]
      exact Rule.readable_iff.mpr ⟨⟨_, rfl⟩, _, hparse .minus⟩
    exact hnot hread
  have hgravity : ∀ d ∈ Fields.get? ([] : Fields Datum) "gravity_y", d.Numeric := by
    intro d hd
    cases hd
  refine ⟨he, hcalls, htyped, hnot, ?_⟩
  exact (activate_whole he (.clamp 60) 7 {} hgravity hcalls
    fun st hst => Option.some.inj hst ▸ htyped).1 hnot

/-- Not every activation is whole.  An amount of `0.00001` is taken by a strict engine, but
flipped it is written as `1e-05`, and an activation that is to flip it fails when the
parameter has been written already. -/
theorem not_whole_fraction :
    let r : Rule := .always "bonus" "add_bonus" "score+0.00001"
    let e : Engine := ⟨true, [⟨r, .always, .arithmetic "score" .plus (.real (.ofDecimal 1 (-5)))⟩]⟩
    let s := start (.clamp 60) 6 e [] {}
    Engine.ofRules true [r] = .ok e ∧ (∃ f s', activate true s = .error f s' ∧ s' ≠ s) ∧
      ¬Whole s (activate true s) := by
  intro r e s
  have hparse : Effect.parse true "score+0.00001" =
      .ok (.arithmetic "score" .plus (.real (.ofDecimal 1 (-5)))) :=
    eq_ok_of_toOption (by decide +kernel)
  have hrule : CompiledRule.ofRule true r =
      .ok ⟨r, .always, .arithmetic "score" .plus (.real (.ofDecimal 1 (-5)))⟩ :=
    CompiledRule.ofRule_eq_ok.mpr ⟨rfl, hparse, rfl⟩
  have he : Engine.ofRules true [r] = .ok e := Engine.ofRules_singleton hrule
  have hunread : ¬r.flipped.Readable true := by
    rintro ⟨c, hc⟩
    have htext : r.flipped.effect = "score-1e-05" := by decide +kernel
    have hread := (CompiledRule.ofRule_eq_ok.mp hc).2.1
    have hrefuse : (Effect.parse true "score-1e-05").toOption = none := by decide +kernel
    rw [htext] at hread
    rw [hread] at hrefuse
    cases hrefuse
  have hdrawn : s.drawMutation = .ok (some .scoreReverse) :=
    eq_ok_of_toOption (by decide +kernel)
  have hrefused : s.Refused := ⟨by decide, hdrawn, r, List.mem_cons_self, hunread⟩
  have hs := Consistent.start (Engine.ofRules_spec he).2.2 (.clamp 60) 6 [] {}
  obtain ⟨f, hf⟩ := activate_of_refused hs.intact hrefused true
  have hne : s.refusal ≠ s := by
    intro heq
    have hwritten : s.refusal.params.get? reversedParam = some (.bool true) :=
      Fields.get?_set_self _ _ _
    rw [heq] at hwritten
    cases hwritten
  refine ⟨he, ⟨f, s.refusal, hf, hne⟩, fun hwhole => ?_⟩
  rw [hf] at hwhole
  generalize hleft : s.refusal = left at hwhole
  cases hwhole
  exact hne hleft

end Scheduler

end SeededPlay

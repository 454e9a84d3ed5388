/-
# `SeededPlay.Proofs.Play.Totality` — what permissive play can stumble over

A permissive session takes every event and every tick, as long as its numbers stay within
the range of the doubles.  Where a move fails, and with what, is said exactly
(`Session.Move.Overflows`, `Session.move_limited`): a rule overflows when it is its turn;
the score that an event leaves is beyond every double, or infinite or nan where there are
milestones; the timer is to run down for the first time, and the clock is beyond every
double.  Nothing else is ever in the way, whatever has failed before.

Rules that get there are not hard to find (`Session.move_stumbles`).

## From rules to moves

A scheduler is `InPlay` if it is permissive, with the weights of its level, and shows a state
in play.  Each of its operations gets one statement about when it fails: the milestones
between two scores are counted unless the later score is lost (`limited_crossed`), the timer
is read unless it is to run down for the first time and the clock is beyond every double
(`limited_isDue`), it beats or does not unless it cannot be read (`limited_beat`).
Activations happen or are not called for, and what the effects of an event set off happens
(`exists_signalChaos`).

A move fails with what it was doing half done, and the session goes on from there.  So besides
when it fails there is what it keeps: rules that are run, to the end or not, leave a scheduler
in play (`keeps_inPlay_dispatch`), and so does every move (`Move.keeps_inPlay`).
-/
import SeededPlay.Proofs.Chaos.Milestones
import SeededPlay.Proofs.Chaos.Permissive
import SeededPlay.Proofs.Play.Clock
import SeededPlay.Proofs.Play.Limits

namespace SeededPlay

open Attempt (reached outcome Keeps)

/-! ## Looking at the score -/

/-- The score is beyond every double, or infinite or nan where there are milestones. -/
def GameState.ScoreOverflows (st : GameState) (tier : Tier) : Prop :=
  ∃ n, st.score = .number n ∧ (n.Beyond ∨ tier.milestone ≠ none ∧ n.IsLost)

theorem Fields.grounded_map (fields : Fields Binary64) :
    Fields.Grounded (fields.map fun (name, x) => (name, Datum.real x)) := by
  induction fields with
  | nil => exact nofun
  | cons field fields ih =>
    intro d hd
    rw [List.map_cons, Option.mem_def] at hd
    unfold Fields.get? at hd
    split at hd
    · obtain rfl := Option.some.inj hd
      exact ⟨_, rfl⟩
    · exact ih d hd

theorem World.grounded_params (w : World) : w.params.Grounded := Fields.grounded_map w.physics

namespace Scheduler

theorem milestoneAt_lost {interval : Nat} (hhigh : interval < 2 ^ 53) {score : Binary64}
    (h : score.floor? = none) : ∃ f, milestoneAt interval score = .error f ∧ f.IsRange := by
  have hnone := Binary64.floor?_div_ofInt h hhigh
  unfold milestoneAt Datum.floor
  split
  · exact ⟨.nanToInteger, rfl, trivial⟩
  · rw [hnone]
    exact ⟨.outOfRange, rfl, trivial⟩

/-- The milestones between two scores are counted, unless the later score is lost. -/
theorem limited_crossed {interval : Nat} (hlow : 4 ≤ interval) (hhigh : interval < 2 ^ 53)
    {previous score : Binary64} {lost : Prop} (hprevious : ¬lost → previous.IsFinite)
    (hscore : lost ∧ score.floor? = none ∨ ¬lost ∧ score.IsFinite) :
    Limited lost (crossed interval previous score) := by
  rcases hscore with ⟨hlost, hfloor⟩ | ⟨hkept, hfinite⟩
  · obtain ⟨f, hf, hrange⟩ := milestoneAt_lost hhigh hfloor
    have hcrossed : crossed interval previous score = .error f := by
      unfold crossed
      rw [hf]
      rfl
    rw [hcrossed]
    exact .stopped hlost hrange
  · obtain ⟨after, hafter⟩ := exists_milestoneAt hlow hhigh hfinite
    obtain ⟨before, hbefore⟩ := exists_milestoneAt hlow hhigh (hprevious hkept)
    have hcrossed : crossed interval previous score = .ok (after - before) :=
      bind_eq_ok.mpr ⟨after, hafter, bind_eq_ok.mpr ⟨before, hbefore, rfl⟩⟩
    rw [hcrossed]
    exact .done _ hkept

/-! ## Schedulers in play -/

/-- A scheduler as it is in permissive play. -/
structure InPlay (s : Scheduler) : Prop where
  permissive : s.Permissive
  weights : s.weights = weightsOf s.level
  counted : s.state.Counted
  beat : ∃ b, s.lastTrigger.StandsAt b
  /-- The score that was last seen is finite, unless the score is lost. -/
  seen : s.lastScore.IsFinite ∨ s.state.Lost

namespace InPlay

variable {s : Scheduler}

theorem start {e : Engine} (h : e.Sound) (hstrict : e.strict = false) {base : Fields Datum}
    (hbase : base.Grounded) (level : ChaosLevel) (seed : Nat) {state : GameState}
    (hcounted : state.Counted) : (start level seed e base state).InPlay where
  permissive := .start h hstrict hbase level seed state
  weights := rfl
  counted := hcounted
  beat := ⟨0, .inr ⟨rfl, rfl⟩⟩
  seen := .inl Binary64.isFinite_zero

theorem noted (h : s.InPlay) {state : GameState} {clock lastTrigger : Datum}
    {lastScore : Binary64} (hcounted : state.Counted) (hclock : clock.Numeric)
    (hbeat : ∃ b, lastTrigger.StandsAt b) (hseen : lastScore.IsFinite ∨ state.Lost) :
    InPlay { s with scene := { s.scene with state }, clock, lastTrigger, lastScore } where
  permissive := ⟨h.permissive.consistent.noted, hclock,
    ⟨h.permissive.grounded.base, h.permissive.grounded.scene, h.permissive.grounded.records⟩,
    h.permissive.strict⟩
  weights := h.weights
  counted := hcounted
  beat := hbeat
  seen := hseen

theorem activate (h : s.InPlay) : ∃ a? s', Scheduler.activate true s = .ok a? s' ∧ s'.InPlay ∧
    s'.state.score = s.state.score ∧ s'.tier = s.tier := by
  obtain ⟨a?, s', hactivate, -⟩ := h.permissive.activate h.weights fun _ => h.counted.typed
  have hpermissive : s'.Permissive := ((permissive_invariant.keeps_activate true).of_ok hactivate
    ⟨h.permissive, fun _ => h.counted.typed⟩).1
  obtain ⟨hcounted, hscore⟩ := (keeps_raised_activate
    (P := fun st => st.Counted ∧ st.score = s.state.score) (fun hraise ⟨hst, hscore⟩ => by
      obtain ⟨fields, -, rfl⟩ := Effect.raiseFlag_eq_ok.mp hraise
      exact ⟨hst.raise hraise, hscore⟩) true).of_ok hactivate ⟨h.counted, rfl⟩
  obtain ⟨scene, active, history, activations, hframe⟩ :=
    activate_frame h.permissive.consistent true
  rw [hactivate, Attempt.reached_ok] at hframe
  subst hframe
  refine ⟨a?, _, hactivate, ⟨hpermissive, h.weights, hcounted, h.beat, ?_⟩, hscore, rfl⟩
  refine h.seen.imp_right ?_
  rintro ⟨n, hn, hlost⟩
  exact ⟨n, hscore.trans hn, hlost⟩

theorem activateTimes (h : s.InPlay) (n : Nat) : ∃ as s',
    Scheduler.activateTimes true n s = .ok as s' ∧ s'.InPlay := by
  induction n generalizing s with
  | zero => exact ⟨[], s, rfl, h⟩
  | succ n ih =>
    obtain ⟨a?, t, hfirst, ht, -, -⟩ := h.activate
    obtain ⟨as, s', hrest, hs'⟩ := ih ht
    refine ⟨a?.toList ++ as, s', ?_, hs'⟩
    unfold Scheduler.activateTimes
    rw [Attempt.bind_apply, hfirst]
    simp only [Attempt.bind_apply, hrest, Attempt.pure_apply]

theorem observe (h : s.InPlay) :
    Limited (s.state.ScoreOverflows s.tier) (outcome (Scheduler.observe true s)) ∧
      (reached (Scheduler.observe true s)).InPlay := by
  obtain ⟨n, hn, hvalid⟩ := h.counted.score
  have hover : s.state.ScoreOverflows s.tier ↔ n.Beyond ∨ s.tier.milestone ≠ none ∧ n.IsLost := by
    constructor
    · rintro ⟨m, hm, hover⟩
      obtain rfl := Datum.number.inj (hn.symm.trans hm)
      exact hover
    · exact fun hover => ⟨n, hn, hover⟩
  rw [hover]
  unfold Scheduler.observe
  simp only [Attempt.bind_apply, Attempt.get_apply, scoreOf_eq, hn]
  rcases Datum.seen_number hvalid with ⟨hbeyond, hseen⟩ | ⟨hnot, x, hseen, hx⟩
  · rw [hseen]
    exact ⟨.stopped (.inl hbeyond) trivial, h⟩
  · rw [hseen]
    have hnoted : InPlay { s with lastScore := x } := h.noted h.counted h.permissive.clock h.beat
      (hx.symm.imp And.right fun hlost => ⟨n, hn, hlost.1⟩)
    simp only [Attempt.lift_ok, Attempt.modify_apply]
    cases hmilestone : s.tier.milestone with
    | none => exact ⟨.done [] fun hover => hover.elim hnot fun hover => hover.1 rfl, hnoted⟩
    | some interval =>
      obtain ⟨hlow, hhigh⟩ := s.tier.milestone_bounds interval hmilestone
      have hlast : ¬n.IsLost → s.lastScore.IsFinite := fun hkept => by
        refine h.seen.resolve_right ?_
        rintro ⟨m, hm, hlost⟩
        obtain rfl := Datum.number.inj (hn.symm.trans hm)
        exact hkept hlost
      have hcount := limited_crossed hlow hhigh hlast hx
      simp only [Attempt.bind_apply]
      generalize crossed interval s.lastScore x = count at hcount ⊢
      cases hcount with
      | stopped hlost hrange => exact ⟨.stopped (.inr ⟨nofun, hlost⟩) hrange, hnoted⟩
      | done k hkept =>
        obtain ⟨as, s', htimes, hs'⟩ := hnoted.activateTimes k.toNat
        simp only [Attempt.lift_ok, htimes]
        exact ⟨.done as fun hover => hover.elim hnot fun hover => hkept hover.2, hs'⟩

end InPlay

/-- The timer is read, unless it is to run down for the first time and the clock is beyond
every double. -/
theorem limited_isDue {s : Scheduler} (t : Int) {last : Datum} (hlast : ∃ b, last.StandsAt b) :
    Limited (s.tier.period ≠ none ∧ last = .real .zero ∧ (Number.int t).Beyond)
      (s.isDue (.int t) last) := by
  unfold isDue
  cases s.tier.period with
  | none => exact .done false fun h => h.1 rfl
  | some period =>
    obtain ⟨b, rfl | ⟨rfl, -⟩⟩ := hlast
    · exact .done _ fun h => nomatch h.2.1
    · -- The clock of a scheduler starts as a double.
      have hsub : (Number.int t).sub? (.real .zero) =
          (Number.int t).toReal?.bind fun x => some (Number.real (x.sub .zero)) := rfl
      have hminus := Datum.minus_number (.int t) (.real .zero)
      rw [hsub] at hminus
      rw [← Number.toReal?_eq_none_iff]
      show Limited _ ((Datum.number (.int t)).minus (.number (.real .zero)) >>= _)
      rw [hminus]
      cases (Number.int t).toReal? with
      | none => exact .stopped ⟨nofun, rfl, rfl⟩ trivial
      | some x => exact .done _ fun h => nomatch h.2.2

namespace InPlay

variable {s : Scheduler}

/-- A state in play in which nothing is lost that was not lost before. -/
theorem move (h : s.InPlay) {state : GameState} (hcounted : state.Counted)
    (hlost : s.state.Lost → state.Lost) :
    InPlay { s with scene := { s.scene with state } } :=
  h.noted hcounted h.permissive.clock h.beat (h.seen.imp_right hlost)

theorem limited_beat (h : s.InPlay) (t : Int) :
    Limited (s.tier.period ≠ none ∧ s.lastTrigger = .real .zero ∧ (Number.int t).Beyond)
        (outcome (Scheduler.beat (.int t) s)) ∧
      (reached (Scheduler.beat (.int t) s)).InPlay := by
  have hdue := limited_isDue (s := s) t h.beat
  unfold Scheduler.beat
  rw [Attempt.bind_apply, Attempt.get_apply]
  simp only [Attempt.bind_apply]
  generalize s.isDue (.int t) s.lastTrigger = due at hdue ⊢
  cases hdue with
  | stopped hover hrange => exact ⟨.stopped hover hrange, h⟩
  | done down hnot =>
    cases down with
    | false => exact ⟨.done none hnot, h⟩
    | true =>
      have hbeat : InPlay { s with lastTrigger := .int t } :=
        h.noted h.counted h.permissive.clock ⟨t, .inl rfl⟩ h.seen
      obtain ⟨a?, s', hactivate, hs', -, -⟩ := hbeat.activate
      simp only [Attempt.lift_ok, Attempt.bind_apply, Attempt.modify_apply, if_pos, hactivate]
      exact ⟨.done a? hnot, hs'⟩

theorem tick (h : s.InPlay) {t : Int} {state : GameState} (hcounted : state.Counted)
    (hscore : state.score = s.state.score) :
    let result := Scheduler.tick (.int t) true { s with scene := { s.scene with state } }
    Limited (s.tier.period ≠ none ∧ s.lastTrigger = .real .zero ∧ (Number.int t).Beyond)
      (outcome result) ∧ (reached result).InPlay := by
  intro result
  have hseen : s.lastScore.IsFinite ∨ state.Lost := by
    refine h.seen.imp_right ?_
    rintro ⟨n, hn, hlost⟩
    exact ⟨n, hscore.trans hn, hlost⟩
  have hnow : InPlay { s with scene := { s.scene with state }, clock := .int t } :=
    h.noted hcounted ⟨_, rfl⟩ h.beat hseen
  obtain ⟨scene, hexpire, htick⟩ := tick_int
    (s := { s with scene := { s.scene with state } }) h.permissive.consistent.noted t
  have hstate : scene.state = state :=
    (keeps_state_expire (P := (· = state)) _).of_ok hexpire rfl
  have hpermissive := ((permissive_invariant.keeps_expire false (.int t)).of_ok hexpire
    (.quiet hnow.permissive)).1
  subst hstate
  have hlooked : InPlay (Scheduler.looked _ t scene) :=
    ⟨hpermissive, h.weights, hcounted, h.beat, hseen⟩
  show Limited _ (outcome (Scheduler.tick _ _ _)) ∧ (reached (Scheduler.tick _ _ _)).InPlay
  rw [htick]
  exact hlooked.limited_beat t

end InPlay

theorem keeps_inPlay_dispatch (trigger : Datum) :
    Keeps InPlay (onScene (Scene.dispatchDatum trigger)) := by
  intro s h
  have hkeeps := Engine.keeps_counted_run s.state.Lost (s.scene.rules.called trigger)
    s.state ⟨h.counted, id⟩
  rw [onScene_dispatch]
  cases hrun : Engine.run (s.scene.rules.called trigger) s.state with
  | ok effects state =>
    rw [hrun] at hkeeps
    exact h.move hkeeps.1 hkeeps.2
  | error f state =>
    rw [hrun] at hkeeps
    exact h.move hkeeps.1 hkeeps.2

end Scheduler

namespace Session

variable {s : Session}

/-! ## Moves -/

/-- A move is in the way of the doubles: an event whose rules overflow or leave a score that
does, or a tick to the first beat of the timer when the clock is beyond every double. -/
def Move.Overflows (s : Session) : Move → Prop
  | .event trigger =>
    let rules := s.chaos.scene.rules.called trigger
    Engine.Overflows rules s.state ∨
      ∃ effects state, Engine.run rules s.state = .ok effects state ∧
        state.ScoreOverflows s.chaos.tier
  | .tick delta => s.chaos.tier.period ≠ none ∧ s.chaos.lastTrigger = .real .zero ∧
    ∃ t, s.state.elapsed = .int t ∧ (Number.int (t + max 0 delta)).Beyond

/-- The session after some moves; one that fails leaves what it has reached. -/
def moved (s : Session) (moves : List Move) : Session :=
  moves.foldl (fun s move => reached (move.run s)) s

theorem outcome_onChaos {α : Type} (x : Attempt Scheduler α) (s : Session) :
    outcome (onChaos x s) = outcome (x s.chaos) := Attempt.outcome_within _ _ x s

theorem exists_signalChaos (effects : List Effect) (h : s.chaos.InPlay) :
    ∃ s', signalChaos effects s = .ok () s' ∧ s'.chaos.InPlay ∧
      s'.state.score = s.state.score ∧ s'.chaos.tier = s.chaos.tier := by
  induction effects generalizing s with
  | nil => exact ⟨s, rfl, h, rfl, rfl⟩
  | cons e effects ih =>
    unfold signalChaos
    split
    · obtain ⟨a?, chaos, hactivate, hchaos, hscore, htier⟩ := h.activate
      have hone : onChaos (Scheduler.activate true) s = .ok a? { s with chaos } := by
        unfold onChaos
        rw [Attempt.within_apply, hactivate]
      obtain ⟨s', hrest, hs', hscore', htier'⟩ := ih (s := { s with chaos }) hchaos
      refine ⟨s', ?_, hs', hscore'.trans hscore, htier'.trans htier⟩
      rw [Attempt.discard_bind, Attempt.bind_apply, hone]
      exact hrest
    · exact ih h

theorem keeps_inPlay_handle (trigger : Datum) :
    Keeps (fun s : Session => s.chaos.InPlay) (handle trigger) := by
  refine keeps_chaos_handle (Scheduler.keeps_inPlay_dispatch trigger) (fun c h => ?_)
    fun _ h => h.observe.2
  obtain ⟨a?, c', hactivate, hc', -, -⟩ := h.activate
  rw [hactivate]
  exact hc'

theorem onScene_dispatch (trigger : Datum) (s : Session) :
    onScene (Scene.dispatchDatum trigger) s =
      match Engine.run (s.chaos.scene.rules.called trigger) s.state with
      | .ok effects state => .ok effects
          { s with chaos := { s.chaos with scene := { s.chaos.scene with state } } }
      | .error f state => .error f
          { s with chaos := { s.chaos with scene := { s.chaos.scene with state } } } := by
  have hstate : s.state = s.chaos.state := rfl
  unfold onScene onChaos
  rw [hstate, Attempt.within_apply, Scheduler.onScene_dispatch]
  cases Engine.run (s.chaos.scene.rules.called trigger) s.chaos.state <;> rfl

theorem limited_handle (h : s.chaos.InPlay) (trigger : Datum) :
    Limited ((Move.event trigger).Overflows s) (outcome (handle trigger s)) := by
  have hrun : Limited (Engine.Overflows (s.chaos.scene.rules.called trigger) s.state) _ :=
    Engine.limited_run h.counted
  have hsame := onScene_dispatch trigger s
  have hdispatch : Limited (Engine.Overflows (s.chaos.scene.rules.called trigger) s.state)
      (outcome (onScene (Scene.dispatchDatum trigger) s)) := by
    rw [hsame]
    cases hresult : Engine.run (s.chaos.scene.rules.called trigger) s.state <;>
      rw [hresult] at hrun <;> exact hrun
  refine (hdispatch.bind (q := fun _ t => t.state.ScoreOverflows t.chaos.tier)
    fun effects t ht => ?_).congr ?_
  · -- Activations succeed and leave the score alone, so only looking at it can fail.
    have hinPlay := (keeps_chaos (Scheduler.keeps_inPlay_dispatch trigger)).of_ok ht h
    obtain ⟨t', hsignal, ht', hscore, htier⟩ :=
      exists_signalChaos (s := { t with events := t.events + 1 }) effects hinPlay
    have hover : t'.chaos.state.ScoreOverflows t'.chaos.tier ↔
        t.state.ScoreOverflows t.chaos.tier := by
      have hscore : t'.chaos.state.score = t.state.score := hscore
      rw [htier]
      unfold GameState.ScoreOverflows
      rw [hscore]
    have hobserve := ht'.observe.1.congr hover
    rw [← outcome_onChaos] at hobserve
    rw [Attempt.bind_apply, Attempt.modify_apply]
    show Limited _ (outcome ((signalChaos effects >>= _) { t with events := t.events + 1 }))
    rw [Attempt.bind_apply, hsignal]
    show Limited _ (outcome ((discard (onChaos (Scheduler.observe true)) >>= _) t'))
    rw [Attempt.discard_bind]
    exact hobserve.followed fun _ _ _ => ⟨_, _, rfl⟩
  · rw [hsame]
    refine or_congr_right ⟨?_, ?_⟩
    · rintro ⟨effects, t, ht, hover⟩
      split at ht
      · rename_i state hresult
        obtain ⟨rfl, rfl⟩ := EStateM.Result.ok.inj ht
        exact ⟨_, _, hresult, hover⟩
      · cases ht
    · rintro ⟨effects, state, hresult, hover⟩
      exact ⟨effects, { s with chaos := { s.chaos with scene := { s.chaos.scene with state } } },
        by rw [hresult], hover⟩

theorem limited_tick (h : s.chaos.InPlay) (delta : Int) :
    Limited ((Move.tick delta).Overflows s) (outcome (tick (.int delta) s)) ∧
      (reached (tick (.int delta) s)).chaos.InPlay := by
  obtain ⟨t, ht⟩ := h.counted.elapsed
  have hadvance := advance_int ht delta
  have hcounted : GameState.Counted { s.state with elapsed := .int (t + max 0 delta) } :=
    { h.counted with elapsed := ⟨_, rfl⟩ }
  have htick := h.tick (t := t + max 0 delta) hcounted rfl
  have hstate : s.state = s.chaos.state := rfl
  rw [tick_apply, hstate, hadvance]
  constructor
  · simp only
    rw [outcome_onChaos]
    refine htick.1.congr (and_congr_right' (and_congr_right' ⟨fun hover => ⟨t, ht, hover⟩, ?_⟩))
    rintro ⟨t', ht', hover⟩
    cases ht.symm.trans ht'
    exact hover
  · simp only
    unfold onChaos
    rw [Attempt.reached_within]
    exact htick.2

theorem Move.limited_run (move : Move) (h : s.chaos.InPlay) :
    Limited (move.Overflows s) (outcome (move.run s)) := by
  cases move with
  | event trigger => exact (limited_handle h trigger).followed fun _ _ _ => ⟨_, _, rfl⟩
  | tick delta => exact (limited_tick h delta).1.followed fun _ _ _ => ⟨_, _, rfl⟩

theorem Move.keeps_inPlay (move : Move) : Keeps (fun s : Session => s.chaos.InPlay) move.run := by
  cases move with
  | event trigger => exact keeps_chaos_event (keeps_inPlay_handle trigger)
  | tick delta => exact Keeps.bind (fun s h => (limited_tick h delta).2) fun _ => Keeps.pure _

theorem moved_inPlay (moves : List Move) (h : s.chaos.InPlay) : (s.moved moves).chaos.InPlay := by
  induction moves generalizing s with
  | nil => exact h
  | cons move moves ih => exact ih (move.keeps_inPlay s h)

theorem counted_initialState (g : Game) : (initialState g).Counted where
  score := ⟨.int 0, rfl, trivial⟩
  health := ⟨.int 3, rfl⟩
  level := ⟨.int 1, rfl⟩
  combo := ⟨.int 0, rfl⟩
  elapsed := ⟨0, rfl⟩
  flags := ⟨[], rfl⟩
  extra := rfl

theorem start_inPlay {g : Game} (hstart : start g false = .ok s) : s.chaos.InPlay := by
  obtain ⟨rules, hrules, rfl⟩ := start_spec hstart
  obtain ⟨hstrict, -, hsound⟩ := Engine.ofRules_spec hrules
  exact .start hsound hstrict g.world.grounded_params _ _ (counted_initialState g)

/-- How far permissive play is total.  Whatever has been done to a session from its start, a
move fails exactly if it overflows, and then for want of range. -/
theorem move_limited {g : Game} {s₀ : Session} (hstart : start g false = .ok s₀)
    (moves : List Move) (move : Move) :
    ((∃ entry s, move.run (s₀.moved moves) = .ok entry s) ↔ ¬move.Overflows (s₀.moved moves)) ∧
      ∀ f s, move.run (s₀.moved moves) = .error f s → f = .outOfRange ∨ f = .nanToInteger := by
  have hlimited := move.limited_run (moved_inPlay moves (start_inPlay hstart))
  constructor
  · rw [← hlimited.iff_ok]
    exact exists_congr fun entry => Attempt.outcome_eq_ok.symm
  · intro f s hf
    have hrange := hlimited.isRange (congrArg outcome hf)
    cases f with
    | outOfRange => exact .inl rfl
    | nanToInteger => exact .inr rfl
    | _ => exact hrange.elim

theorem move_limited_spark :
    let spark : CompiledRule :=
      ⟨.always "player_collect_spark" "gain" "score+1", .always, .arithmetic "score" .plus 1⟩
    let g : Game :=
      { id := "game_0", code := "", name := "Sparks", chaos := { level := 60 }
        rules := [spark.rule] }
    ∃ s₀ entry s, start g false = .ok s₀ ∧
      (Move.tick 500).run (s₀.moved [.event (.text "player_collect_spark")]) = .ok entry s := by
  intro spark g
  have hrules : Engine.ofRules false g.rules = .ok ⟨false, [spark]⟩ :=
    Engine.ofRules_point false .plus _ _
  let level : ChaosLevel := ⟨60, by decide⟩
  have hlevel : g.chaos.level = level.value := rfl
  let s₀ : Session := ⟨g, false, Scheduler.start level (SeedCode.decode g.code).seed
    ⟨false, [spark]⟩ g.world.params (initialState g), 0⟩
  have hstart : start g false = .ok s₀ :=
    start_of_read hrules hlevel
  have helapsed : Except.toOption
      (s₀.moved [.event (.text "player_collect_spark")]).state.elapsed.toNumber =
        some (.int 0) := by
    decide +kernel
  have hfits : ¬(Move.tick 500).Overflows (s₀.moved [.event (.text "player_collect_spark")]) := by
    rintro ⟨-, -, t, ht, hbeyond⟩
    rw [ht] at helapsed
    obtain rfl := Number.int.inj (Option.some.inj helapsed)
    have hreal : (Number.int 500).toReal? = some _ := Binary64.ofInt?_exact (n := 500) (by decide)
    cases hreal.symm.trans (Number.toReal?_eq_none_iff.mpr hbeyond)
  obtain ⟨entry, s, hrun⟩ := (move_limited hstart [_] (.tick 500)).1.mpr hfits
  exact ⟨s₀, entry, s, hstart, hrun⟩

/-- The first power of ten beyond every double, in 310 digits. -/
def fortune : String := String.ofList ('1' :: List.replicate 309 '0')

theorem parse_fortune (strict : Bool) :
    Effect.parse strict ("score" ++ String.singleton Sign.plus.char ++ fortune) =
      .ok (.arithmetic "score" .plus (.int (10 ^ 309))) := by
  have hascii : ∀ c ∈ '1' :: List.replicate 309 '0', c.isDigit = true := by
    refine List.forall_mem_cons.mpr ⟨by decide, fun c hc => ?_⟩
    rw [(List.mem_replicate.mp hc).2]
    decide
  have hdigits : ∀ c ∈ '1' :: List.replicate 309 '0', Text.isDigit c = true :=
    fun c hc => Text.isDigit_of_ascii (hascii c hc)
  have hvalue : Numeral.ofDigits (Numeral.asciiDigits ('1' :: List.replicate 309 '0')) =
      10 ^ 309 := by
    rw [Numeral.asciiDigits_of_ascii hascii]
    decide +kernel
  have hw : WritesAmount ("score" ++ String.singleton Sign.plus.char ++ fortune) "score"
      .plus fortune := by
    refine ⟨rfl, by decide, ?_⟩
    unfold fortune
    rw [String.toList_ofList]
    exact .whole (List.cons_ne_nil _ _) hdigits
  have hnumber : Phrase.numberOf fortune = .ok (.int (10 ^ 309)) := by
    unfold fortune
    rw [Phrase.numberOf_whole (List.cons_ne_nil _ _) hdigits, if_neg (by decide +kernel), hvalue,
      Nat.cast_pow, Nat.cast_ofNat]
  rw [Effect.parse_amount strict hw, hnumber]
  rfl

/-- Permissive play is not total: an event adds a fortune to the score, which then cannot be
looked at. -/
theorem move_stumbles :
    let goal : CompiledRule :=
      ⟨.always "goal" "gain" ("score" ++ String.singleton Sign.plus.char ++ fortune), .always,
        .arithmetic "score" .plus (.int (10 ^ 309))⟩
    let g : Game :=
      { id := "game_0", code := "", name := "Riches", chaos := { level := 0 }
        rules := [goal.rule] }
    ∃ s₀ s, (Game.read g.dump).toExcept = .ok g ∧ start g false = .ok s₀ ∧
      (Move.event (.text "goal")).run s₀ = .error .outOfRange s := by
  intro goal g
  have hgoal : CompiledRule.ofRule false goal.rule = .ok goal :=
    CompiledRule.ofRule_eq_ok.mpr ⟨rfl, parse_fortune false, rfl⟩
  have hread : (Game.read g.dump).toExcept = .ok g := eq_ok_of_toOption (by decide +kernel)
  let level : ChaosLevel := ⟨0, by decide⟩
  have hlevel : g.chaos.level = level.value := rfl
  let s₀ : Session := ⟨g, false, Scheduler.start level (SeedCode.decode g.code).seed
    ⟨false, [goal]⟩ g.world.params (initialState g), 0⟩
  have hstart : start g false = .ok s₀ :=
    start_of_read (Engine.ofRules_singleton hgoal) hlevel
  have hplay : (match (Move.event (.text "goal")).run s₀ with
      | .error f _ => f.message?.isNone
      | .ok _ _ => false) = true := by
    decide +kernel
  have hlimited := (Move.event (.text "goal")).limited_run (start_inPlay hstart)
  cases hrun : (Move.event (.text "goal")).run s₀ with
  | ok entry s =>
    rw [hrun] at hplay
    cases hplay
  | error f s =>
    rw [hrun] at hplay
    have hrange := hlimited.isRange (congrArg outcome hrun)
    cases f with
    | outOfRange => exact ⟨s₀, s, hread, hstart, hrun⟩
    | nanToInteger => cases hplay
    | _ => exact hrange.elim

end Session

end SeededPlay

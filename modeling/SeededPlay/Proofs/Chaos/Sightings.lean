/-
# `SeededPlay.Proofs.Chaos.Sightings` — looking twice is looking once

A scheduler that looks at a rising score twice has passed the milestones to the first score
and then those to the second, and these are the milestones that it passes when it looks at
the second score only (`passed_add`).  So it makes the same activations, in the same order
(`activateTimes_add`).  What is left of the first look is the score, in the state and in the
note of it, and no activation sees that; the second look writes over both.

An activation that fails, for want of weights that can be added up, leaves everything as it
was, so the next one fails as well and no further look gets past it.  A falling score passes
nothing and is noted.  An integer beyond every double cannot be seen at all
(`observeAt_of_beyond`).

## One look

`observeAt` is a look at a score that the state shows.  It has four outcomes: a score that
can be seen is noted and the activations are made (`observeAt_of_seen`); one that is not
higher is noted, and nothing else happens (`observeAt_of_le`); one that is beyond every
double is not seen, and nothing is noted; and one of the activations may fail.

## Two looks

Activations lead where they would have led in one go, whether or not one of them fails
(`Permissive.reached_activateTimes`), and they leave the note and the tier alone, so the
next look counts from there (`observeAt_after`).  Two looks that pass what one look passes
therefore lead to the same (`Permissive.reached_observe_twice`), and they succeed when the
one look does, with the same mutations (`observeBoth_eq_ok`).  From the score that was last
seen up to a first and a second score both can be seen, and the milestones to the second are
those to the first and those between the two (`exists_rise`).  In every run the score that
was last seen is a double (`settled_lastScore`), so this start is always there.
-/
import SeededPlay.Proofs.Chaos.Milestones
import SeededPlay.Proofs.Chaos.Permissive
import SeededPlay.Proofs.Chaos.Setup
import SeededPlay.Proofs.Chaos.Unseen

namespace SeededPlay

open Attempt (reached Blind)

/-- A state of the declared kinds whose score is a number. -/
structure GameState.Scored (st : GameState) : Prop where
  typed : st.Typed
  score : ∃ n, st.score = .number n ∧ n.IsDouble

/-! ## Milestones passed -/

namespace Tier

variable {t : Tier} {x y z : Binary64}

/-- How many milestones are passed on the way up from one score to another. -/
def passed (t : Tier) (before after : Binary64) : Except Fault Nat :=
  match t.milestone with
  | none => .ok 0
  | some interval => (Scheduler.crossed interval before after).map Int.toNat

theorem passed_eq_ok {interval n : Nat} (h : t.milestone = some interval) :
    t.passed x y = .ok n ↔ ∃ i j, Scheduler.milestoneAt interval x = .ok i ∧
      Scheduler.milestoneAt interval y = .ok j ∧ n = (j - i).toNat := by
  unfold passed
  rw [h]
  show (Scheduler.crossed interval x y).map Int.toNat = .ok n ↔ _
  rw [map_eq_ok]
  constructor
  · rintro ⟨k, hk, rfl⟩
    obtain ⟨j, hj, hk⟩ := bind_eq_ok.mp hk
    obtain ⟨i, hi, hk⟩ := bind_eq_ok.mp hk
    obtain rfl := Except.ok.inj hk
    exact ⟨i, j, hi, hj, rfl⟩
  · rintro ⟨i, j, hi, hj, rfl⟩
    exact ⟨j - i, bind_eq_ok.mpr ⟨j, hj, bind_eq_ok.mpr ⟨i, hi, rfl⟩⟩, rfl⟩

theorem exists_passed (hx : t.milestone ≠ none → x.IsFinite)
    (hy : t.milestone ≠ none → y.IsFinite) : ∃ n, t.passed x y = .ok n := by
  cases h : t.milestone with
  | none =>
    unfold passed
    rw [h]
    exact ⟨0, rfl⟩
  | some interval =>
    rw [h] at hx hy
    obtain ⟨hlow, hhigh⟩ := t.milestone_bounds interval h
    obtain ⟨i, hi⟩ := Scheduler.exists_milestoneAt hlow hhigh (hx nofun)
    obtain ⟨j, hj⟩ := Scheduler.exists_milestoneAt hlow hhigh (hy nofun)
    exact ⟨_, (passed_eq_ok h).mpr ⟨i, j, hi, hj, rfl⟩⟩

theorem passed_of_le {n : Nat} (hyx : y.le x = true) (hn : t.passed x y = .ok n) : n = 0 := by
  cases h : t.milestone with
  | none =>
    unfold passed at hn
    rw [h] at hn
    exact (Except.ok.inj hn).symm
  | some interval =>
    obtain ⟨hlow, hhigh⟩ := t.milestone_bounds interval h
    obtain ⟨i, j, hi, hj, rfl⟩ := (passed_eq_ok h).mp hn
    have hle := Scheduler.milestoneAt_mono (by omega) hhigh hyx hj hi
    omega

/-- On the way up nothing is passed twice, and nothing is left out. -/
theorem passed_add {m n : Nat} (hxy : x.le y = true) (hyz : y.le z = true)
    (hm : t.passed x y = .ok m) (hn : t.passed y z = .ok n) : t.passed x z = .ok (m + n) := by
  cases h : t.milestone with
  | none =>
    unfold passed at hm hn ⊢
    rw [h] at hm hn ⊢
    rw [← Except.ok.inj hm, ← Except.ok.inj hn]
  | some interval =>
    obtain ⟨hlow, hhigh⟩ := t.milestone_bounds interval h
    obtain ⟨i, j, hi, hj, rfl⟩ := (passed_eq_ok h).mp hm
    obtain ⟨j', k, hj', hk, rfl⟩ := (passed_eq_ok h).mp hn
    obtain rfl := Except.ok.inj (hj.symm.trans hj')
    have hij := Scheduler.milestoneAt_mono (by omega) hhigh hxy hi hj
    have hjk := Scheduler.milestoneAt_mono (by omega) hhigh hyz hj hk
    exact (passed_eq_ok h).mpr ⟨i, k, hi, hk, by omega⟩

end Tier

namespace Scheduler

variable {s : Scheduler}

/-! ## Activations in a row -/

theorem activateTimes_add (shown : Bool) (m n : Nat) : activateTimes shown (m + n) = do
    let first ← activateTimes shown m
    let rest ← activateTimes shown n
    return first ++ rest := by
  induction m with
  | zero =>
    rw [Nat.zero_add]
    unfold activateTimes
    simp only [pure_bind, List.nil_append, bind_pure]
  | succ m ih =>
    rw [Nat.succ_add]
    show (do
      let first ← activate shown
      let rest ← activateTimes shown (m + n)
      return first.toList ++ rest) = (do
      let first ← activateTimes shown (m + 1)
      let rest ← activateTimes shown n
      return first ++ rest)
    rw [ih]
    simp only [activateTimes, bind_assoc, pure_bind, List.append_assoc]

theorem Permissive.activate_error (hs : s.Permissive) {shown : Bool}
    (hstate : shown = true → s.scene.state.Typed) {f : Fault} {t : Scheduler}
    (h : Scheduler.activate shown s = .error f t) : t = s := by
  have hroom := (permissive_invariant.keeps_makeRoom shown s ⟨hs, hstate⟩).1
  have hwhole := whole_of_not_refused hs.consistent hs.clock hroom.grounded hstate fun hrefused =>
    nomatch hroom.strict.symm.trans (hrefused.strict hroom.consistent.intact.sound)
  rw [h] at hwhole
  cases hwhole
  rfl

theorem Permissive.activateTimes_error (hs : s.Permissive) {shown : Bool}
    (hstate : shown = true → s.scene.state.Typed) {m : Nat} {f : Fault} {t : Scheduler}
    (h : Scheduler.activateTimes shown m s = .error f t) :
    Scheduler.activate shown t = .error f t := by
  induction m generalizing s with
  | zero => cases h
  | succ m ih =>
    unfold Scheduler.activateTimes at h
    rw [Attempt.bind_apply] at h
    have hnext := permissive_invariant.keeps_activate shown s ⟨hs, hstate⟩
    cases hfirst : Scheduler.activate shown s with
    | error f' t' =>
      rw [hfirst] at h
      obtain ⟨rfl, rfl⟩ := EStateM.Result.error.inj h
      obtain rfl := hs.activate_error hstate hfirst
      exact hfirst
    | ok a? s' =>
      rw [hfirst, Attempt.reached_ok] at hnext
      simp only [hfirst, Attempt.bind_apply] at h
      cases hrest : Scheduler.activateTimes shown m s' with
      | error f' t' =>
        simp only [hrest] at h
        obtain ⟨rfl, rfl⟩ := EStateM.Result.error.inj h
        exact ih hnext.1 hnext.2 hrest
      | ok as t' =>
        simp only [hrest] at h
        cases h

/-- Activations lead where they would have led in one go, whether or not one of them fails. -/
theorem Permissive.reached_activateTimes (hs : s.Permissive) {shown : Bool}
    (hstate : shown = true → s.scene.state.Typed) (m n : Nat) :
    reached (Scheduler.activateTimes shown n (reached (Scheduler.activateTimes shown m s))) =
      reached (Scheduler.activateTimes shown (m + n) s) := by
  rw [activateTimes_add, Attempt.bind_apply]
  cases hfirst : Scheduler.activateTimes shown m s with
  | ok as t =>
    simp only [Attempt.reached_ok, Attempt.bind_apply]
    cases Scheduler.activateTimes shown n t <;> rfl
  | error f t =>
    have hstuck := hs.activateTimes_error hstate hfirst
    simp only [Attempt.reached_error]
    cases n with
    | zero => rfl
    | succ n =>
      unfold Scheduler.activateTimes
      rw [Attempt.bind_apply, hstuck]
      rfl

theorem Permissive.exists_activateTimes (hs : s.Permissive) {shown : Bool}
    (hstate : shown = true → s.scene.state.Typed) (hweights : s.weights = weightsOf s.level)
    (n : Nat) : ∃ as t, Scheduler.activateTimes shown n s = .ok as t := by
  induction n generalizing s with
  | zero => exact ⟨[], s, rfl⟩
  | succ n ih =>
    obtain ⟨a?, s', hfirst, -⟩ := hs.activate hweights hstate
    have hnext := (permissive_invariant.keeps_activate shown).of_ok hfirst ⟨hs, hstate⟩
    obtain ⟨as, t, hrest⟩ :=
      ih hnext.1 hnext.2 ((ofSetup_weights.activate shown).of_ok hfirst hweights)
    refine ⟨a?.toList ++ as, t, ?_⟩
    unfold Scheduler.activateTimes
    simp only [Attempt.bind_apply, hfirst, hrest, Attempt.pure_apply]

/-! ## Looking at a score -/

/-- The scheduler with another score in its state. -/
def rescored (s : Scheduler) (score : Number) : Scheduler :=
  { s with scene := s.scene.withScore (.number score) }

/-- The scheduler looks at a state with another score, all else being the same. -/
def observeAt (score : Number) : Attempt Scheduler (List ActiveMutation) := do
  modify (rescored · score)
  observe true

/-- One look after the other, with the mutations of both. -/
def observeBoth (first second : Number) : Attempt Scheduler (List ActiveMutation) := do
  let before ← observeAt first
  let after ← observeAt second
  return before ++ after

theorem observeAt_of_seen {n : Number} {x : Binary64} (hseen : (Datum.number n).seen = .ok x) :
    observeAt n s = match s.tier.passed s.lastScore x with
      | .ok k => activateTimes true k (s.sighted (.number n) x)
      | .error f => .error f (s.sighted (.number n) x) := by
  have hscore : (s.rescored n).scoreOf true = .ok x := hseen
  have htier : (s.rescored n).tier = s.tier := rfl
  unfold observeAt observe Tier.passed
  simp only [Attempt.bind_apply, Attempt.modify_apply, Attempt.get_apply, hscore, Attempt.lift_ok,
    htier]
  cases s.tier.milestone with
  | none => rfl
  | some interval =>
    show (Attempt.lift (crossed interval s.lastScore x) >>= fun n => activateTimes true n.toNat)
      (s.sighted (.number n) x) = match (crossed interval s.lastScore x).map Int.toNat with
        | .ok k => activateTimes true k (s.sighted (.number n) x)
        | .error f => .error f (s.sighted (.number n) x)
    rw [Attempt.bind_apply]
    cases crossed interval s.lastScore x <;> rfl

theorem observeAt_of_beyond {n : Number} (h : n.Beyond) :
    observeAt n s = .error .outOfRange (s.rescored n) := by
  have hvalid : n.Valid := by
    cases n with
    | int k => trivial
    | real x => exact h.elim
  have hseen : (Datum.number n).seen = .error .outOfRange := by
    rcases Datum.seen_number hvalid with ⟨-, hseen⟩ | ⟨hnot, -⟩
    · exact hseen
    · exact absurd h hnot
  have hscore : (s.rescored n).scoreOf true = .error .outOfRange := hseen
  unfold observeAt observe
  simp only [Attempt.bind_apply, Attempt.modify_apply, Attempt.get_apply, hscore, Attempt.lift_error]

theorem observeAt_of_le {n : Number} {x : Binary64} (hseen : (Datum.number n).seen = .ok x)
    (hle : x.le s.lastScore = true) : reached (observeAt n s) = s.sighted (.number n) x ∧
      ∀ k, s.tier.passed s.lastScore x = .ok k →
        observeAt n s = .ok [] (s.sighted (.number n) x) := by
  rw [observeAt_of_seen hseen]
  cases hpassed : s.tier.passed s.lastScore x with
  | error f => exact ⟨rfl, nofun⟩
  | ok k =>
    obtain rfl := Tier.passed_of_le hle hpassed
    exact ⟨rfl, fun _ _ => rfl⟩

/-! ## Looking twice -/

theorem Permissive.sighted (hs : s.Permissive) (score : Datum) (noted : Binary64) :
    (s.sighted score noted).Permissive :=
  permissive_invariant.note (s := s) ⟨rfl, rfl, rfl, rfl, rfl, rfl, rfl, .inl rfl⟩ hs

section Twice

variable {a b : Number} {x y : Binary64} {m n : Nat}

theorem observeAt_of_passed (ha : (Datum.number a).seen = .ok x)
    (hm : s.tier.passed s.lastScore x = .ok m) :
    observeAt a s = activateTimes true m (s.sighted (.number a) x) := by
  rw [observeAt_of_seen ha, hm]

theorem observeAt_after (hb : (Datum.number b).seen = .ok y) (hn : s.tier.passed x y = .ok n) :
    let t := reached (activateTimes true m (s.sighted (.number a) x))
    observeAt b t = activateTimes true n (t.sighted (.number b) y) := by
  intro t
  have hsetup : OfSetup fun t => t.lastScore = x ∧ t.tier = s.tier := fun _ _ _ _ _ h => h
  obtain ⟨hlast, htier⟩ : t.lastScore = x ∧ t.tier = s.tier :=
    keeps_activateTimes (hsetup.activate true) m (s.sighted (.number a) x) ⟨rfl, rfl⟩
  rw [observeAt_of_seen hb, hlast, htier, hn]

/-- Two looks that pass what one look passes lead to the same.  The second writes over what
is left of the first, which no activation has seen. -/
theorem Permissive.reached_observe_twice (hs : s.Permissive) (hstate : s.scene.state.Typed)
    (ha : (Datum.number a).seen = .ok x) (hb : (Datum.number b).seen = .ok y)
    (hm : s.tier.passed s.lastScore x = .ok m) (hn : s.tier.passed x y = .ok n)
    (hmn : s.tier.passed s.lastScore y = .ok (m + n)) :
    reached (observeAt b (reached (observeAt a s))) = reached (observeAt b s) := by
  have hblind : (reached (activateTimes true m (s.sighted (.number a) x))).sighted (.number b) y =
      reached (activateTimes true m (s.sighted (.number b) y)) :=
    ((blind_activateTimes (.number b) y true m).reached _).symm
  have htyped : true = true → (s.sighted (.number b) y).scene.state.Typed :=
    fun _ => ⟨hstate.elapsed, hstate.flags⟩
  rw [observeAt_of_passed ha hm, observeAt_of_passed hb hmn, observeAt_after hb hn, hblind]
  exact (hs.sighted (.number b) y).reached_activateTimes htyped m n

theorem observeBoth_eq_ok (ha : (Datum.number a).seen = .ok x)
    (hb : (Datum.number b).seen = .ok y) (hm : s.tier.passed s.lastScore x = .ok m)
    (hn : s.tier.passed x y = .ok n) (hmn : s.tier.passed s.lastScore y = .ok (m + n))
    (as : List ActiveMutation) (u : Scheduler) :
    observeBoth a b s = .ok as u ↔ observeAt b s = .ok as u := by
  have hblind : activateTimes true m (s.sighted (.number b) y) = _ :=
    (blind_activateTimes (.number b) y true m).apply (s.sighted (.number a) x)
  have hafter := observeAt_after (a := a) (m := m) hb hn
  unfold observeBoth
  rw [Attempt.bind_apply, observeAt_of_passed ha hm, observeAt_of_passed hb hmn,
    activateTimes_add, Attempt.bind_apply, hblind]
  cases hlook : activateTimes true m (s.sighted (.number a) x) with
  | ok before t =>
    rw [hlook, Attempt.reached_ok] at hafter
    simp only [Attempt.bind_apply, hafter]
  | error f t => exact iff_of_false nofun nofun

theorem exists_rise (hlast : s.lastScore.IsDouble) (ha : a.IsDouble) (hb : b.IsDouble)
    (hrise : (Number.real s.lastScore).le a = true) (hfurther : a.le b = true)
    (hnotA : ¬a.Beyond) (hnotB : ¬b.Beyond)
    (hkept : s.tier.milestone ≠ none → ¬(Number.real s.lastScore).IsLost ∧ ¬b.IsLost) :
    ∃ x y m n, (Datum.number a).seen = .ok x ∧ (Datum.number b).seen = .ok y ∧
      s.tier.passed s.lastScore x = .ok m ∧ s.tier.passed x y = .ok n ∧
      s.tier.passed s.lastScore y = .ok (m + n) := by
  obtain ⟨x, hx, hxFinite⟩ := Datum.exists_seen ha hnotA
  obtain ⟨y, hy, hyFinite⟩ := Datum.exists_seen hb hnotB
  have hlow : s.lastScore.le x = true :=
    Number.RoundsTo.le (m := .real s.lastScore) hlast ha (Number.roundsTo_real _)
      (Datum.roundsTo_seen hx) hrise
  have hhigh : x.le y = true := (Datum.roundsTo_seen hx).le ha hb (Datum.roundsTo_seen hy) hfurther
  have hbetween : s.tier.milestone ≠ none → x.IsFinite := fun h =>
    hxFinite (Number.not_isLost_between hrise hfurther (hkept h).1 (hkept h).2)
  obtain ⟨m, hm⟩ := Tier.exists_passed (fun h => hlast.valid.resolve_right (hkept h).1) hbetween
  obtain ⟨n, hn⟩ := Tier.exists_passed hbetween fun h => hyFinite (hkept h).2
  exact ⟨x, y, m, n, hx, hy, hm, hn, Tier.passed_add hlow hhigh hm hn⟩

theorem exists_fall (hlast : s.lastScore.IsDouble) (ha : a.IsDouble)
    (hfall : a.lt (.real s.lastScore) = true) (hnot : ¬a.Beyond) :
    ∃ x, (Datum.number a).seen = .ok x ∧ x.le s.lastScore = true ∧
      reached (observeAt a s) = s.sighted (.number a) x ∧
      ((s.tier.milestone ≠ none → ¬(Number.real s.lastScore).IsLost ∧ ¬a.IsLost) →
        observeAt a s = .ok [] (s.sighted (.number a) x)) := by
  obtain ⟨x, hx, hxFinite⟩ := Datum.exists_seen ha hnot
  have hle : x.le s.lastScore = true :=
    (Datum.roundsTo_seen hx).le (n := .real s.lastScore) ha hlast (Number.roundsTo_real _)
      (Number.le_of_lt hfall)
  obtain ⟨hreached, hnothing⟩ := observeAt_of_le hx hle
  refine ⟨x, hx, hle, hreached, fun hkept => ?_⟩
  obtain ⟨k, hk⟩ := Tier.exists_passed (t := s.tier)
    (fun h => hlast.valid.resolve_right (hkept h).1) fun h => hxFinite (hkept h).2
  exact hnothing k hk

end Twice

/-! ## Every run -/

theorem settled_lastScore : Settled GameState.Scored fun s => s.lastScore.IsDouble where
  setup := fun _ _ _ _ _ h => h
  level := fun _ _ h => h
  times := fun _ _ _ h => h
  score := by
    intro s shown x hG hscore _
    cases shown with
    | false =>
      obtain rfl := Except.ok.inj hscore
      exact Binary64.isDouble_zero
    | true =>
      obtain ⟨n, hn, hdouble⟩ := (hG rfl).score
      rw [scoreOf_eq, hn] at hscore
      exact Datum.isDouble_seen hdouble hscore

/-- After every run of a permissive engine, whatever the weights, and with a gravity that
counts as a number: looking at a score that has risen and then at one that has risen further
leaves what looking at the second alone leaves, be it after a failure, and succeeds with the
mutations with which that succeeds: one for each milestone that is passed, as far as there is
one to be activated.  It does succeed with the weights that the level brings.  A lower score is
noted, and nothing else happens.  The scores are numbers that are not beyond every double, and
where there are milestones they are finite; one that is beyond every double is not seen, and
nothing is noted. -/
theorem observe_telescopes {rules : List Rule} {e : Engine}
    (he : Engine.ofRules false rules = .ok e) {base : Fields Datum} (hbase : base.Grounded)
    (level : ChaosLevel) (seed : Nat) (state : GameState) {calls : List Call}
    (hcalls : ∀ c ∈ calls, c.Keeps Datum.Numeric GameState.Scored) {shown : GameState}
    (hshown : shown.Typed) {a b : Number} (ha : a.IsDouble) (hb : b.IsDouble) :
    let s := reached (present (some shown) ((start level seed e base state).runAll calls))
    let last := Number.real s.lastScore
    (last.le a = true → a.le b = true → ¬a.Beyond → ¬b.Beyond →
      (s.tier.milestone ≠ none → ¬last.IsLost ∧ ¬b.IsLost) →
        reached (observeAt b (reached (observeAt a s))) = reached (observeAt b s) ∧
        (∀ as s', observeBoth a b s = .ok as s' ↔ observeAt b s = .ok as s') ∧
        (∃ y k, (Datum.number b).seen = .ok y ∧ s.tier.passed s.lastScore y = .ok k ∧
          observeAt b s = activateTimes true k (s.sighted (.number b) y)) ∧
        (s.weights = weightsOf s.level → ∃ as s', observeAt b s = .ok as s')) ∧
      (a.lt last = true → ¬a.Beyond → ∃ x, (Datum.number a).seen = .ok x ∧
        x.le s.lastScore = true ∧ reached (observeAt a s) = s.sighted (.number a) x ∧
        ((s.tier.milestone ≠ none → ¬last.IsLost ∧ ¬a.IsLost) →
          observeAt a s = .ok [] (s.sighted (.number a) x))) ∧
      (a.Beyond → observeAt a s = .error .outOfRange (s.rescored a)) := by
  intro s last
  have htypedCalls : ∀ c ∈ calls, c.Keeps Datum.Numeric GameState.Typed :=
    fun c hc => (hcalls c hc).imp (fun _ h => h) fun _ h => h.typed
  have hstate : ∀ st ∈ some shown, st.Typed := fun st hst => Option.some.inj hst ▸ hshown
  obtain ⟨hs, htyped⟩ : s.Permissive ∧ (true = true → s.scene.state.Typed) :=
    permissive_after he hbase level seed state htypedCalls hstate
  have hlast : s.lastScore.IsDouble :=
    settled_lastScore.runAll (s := start level seed e base state) hcalls
      (fun _ _ _ _ _ h => h) Binary64.isDouble_zero
  refine ⟨fun hrise hfurther hnotA hnotB hkept => ?_, exists_fall hlast ha, observeAt_of_beyond⟩
  obtain ⟨x, y, m, n, hx, hy, hm, hn, hmn⟩ :=
    exists_rise hlast ha hb hrise hfurther hnotA hnotB hkept
  refine ⟨hs.reached_observe_twice (htyped rfl) hx hy hm hn hmn,
    observeBoth_eq_ok hx hy hm hn hmn, ⟨y, m + n, hy, hmn, observeAt_of_passed hy hmn⟩,
    fun hweights => ?_⟩
  rw [observeAt_of_passed hy hmn]
  exact (hs.sighted (.number b) y).exists_activateTimes
    (fun _ => ⟨hshown.elapsed, hshown.flags⟩) hweights _

theorem observe_telescopes_hundreds :
    let calls : List Call := [.observe (some { score := .int 20 })]
    let s := reached (present (some {}) ((start (.clamp 60) 5 ⟨false, []⟩ [] {}).runAll calls))
    Engine.ofRules false [] = .ok ⟨false, []⟩ ∧
      (∀ c ∈ calls, c.Keeps Datum.Numeric GameState.Scored) ∧ GameState.Typed {} ∧
      (Number.real s.lastScore).le (.int 250) = true ∧
      (Number.int 10).lt (.real s.lastScore) = true ∧
      reached (observeAt (.int 420) (reached (observeAt (.int 250) s))) =
        reached (observeAt (.int 420) s) ∧
      (∃ as s', observeBoth (.int 250) (.int 420) s = .ok as s' ∧
        observeAt (.int 420) s = .ok as s') ∧
      ∃ x, observeAt (.int 10) s = .ok [] (s.sighted (.int 10) x) := by
  intro calls s
  have he : Engine.ofRules false [] = .ok ⟨false, []⟩ := rfl
  have htyped : GameState.Typed {} := ⟨.inr ⟨_, rfl⟩, _, rfl⟩
  have hcalls : ∀ c ∈ calls, c.Keeps Datum.Numeric GameState.Scored := by
    intro c hc
    obtain rfl := List.mem_singleton.mp hc
    intro st hst
    obtain rfl := Option.some.inj hst
    exact ⟨⟨.inr ⟨_, rfl⟩, _, rfl⟩, _, rfl, trivial⟩
  have hbase : Fields.Grounded [] := nofun
  have hrise : (Number.real s.lastScore).le (.int 250) = true := by decide +kernel
  have hfall : (Number.int 10).lt (.real s.lastScore) = true := by decide +kernel
  have hkept : ¬(Number.real s.lastScore).IsLost :=
    Number.not_isLost_between (Number.le_of_lt hfall) hrise id id
  have hnot : ∀ n : Nat, n < 2 ^ 53 → ¬(Number.int n).Beyond := fun _ => Number.not_beyond
  have hleft : ∀ c ∈ calls, c.Keeps Datum.Numeric GameState.Scored ∧ ¬c.SetsWeights :=
    fun c hc => ⟨hcalls c hc, (List.mem_singleton.mp hc).symm ▸ id⟩
  have hweights : s.weights = weightsOf s.level := ofSetup_weights.present (some {}) _
    (weights_runAll (s := start (.clamp 60) 5 ⟨false, []⟩ [] {}) hleft rfl)
  obtain ⟨htwice, -⟩ := observe_telescopes he hbase (.clamp 60) 5 {} hcalls htyped
    (a := .int 250) (b := .int 420) trivial trivial
  obtain ⟨hreached, hboth, -, hsucceeds⟩ := htwice hrise (by decide +kernel) (hnot 250 (by decide))
    (hnot 420 (by decide)) fun _ => ⟨hkept, id⟩
  obtain ⟨as, s', hobserve⟩ := hsucceeds hweights
  obtain ⟨-, hlower, -⟩ := observe_telescopes he hbase (.clamp 60) 5 {} hcalls htyped
    (a := .int 10) (b := .int 10) trivial trivial
  obtain ⟨x, -, -, -, hnothing⟩ := hlower hfall (hnot 10 (by decide))
  exact ⟨he, hcalls, htyped, hrise, hfall, hreached,
    ⟨as, s', (hboth as s').mpr hobserve, hobserve⟩, x, hnothing fun _ => ⟨hkept, id⟩⟩

/-- Not every lower score is noted: an integer that is beyond every double is not. -/
theorem not_observe_beyond :
    let s := start (.clamp 60) 5 ⟨false, []⟩ [] {}
    let a := Number.int (-10 ^ 309)
    a.lt (.real s.lastScore) = true ∧ observeAt a s = .error .outOfRange (s.rescored a) ∧
      (s.rescored a).lastScore = .zero := by
  intro s a
  have hbeyond : a.Beyond := by
    show 2 ^ 1024 - 2 ^ 970 ≤ (-10 ^ 309 : Int).natAbs
    decide +kernel
  exact ⟨by decide +kernel, observeAt_of_beyond hbeyond, rfl⟩

end Scheduler

end SeededPlay

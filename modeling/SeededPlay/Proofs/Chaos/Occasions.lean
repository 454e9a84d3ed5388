/-
# `SeededPlay.Proofs.Chaos.Occasions` — what sets activations off

On a graded level every occasion sets off exactly one activation: what is asked for
happens, because there is always a mutation left, and it moves nothing by which the next
occasion is told, which are the score, the score that was last seen, the clock and the time
of the last beat (`Activated`).  So activations add up: looking at the score sets off one
for every milestone between the score that was seen and the score that is there
(`observe_spec`), and a tick sets off one if the timer has run down (`tick_spec`), which
takes a whole period (`isDue_spec`).

Without chaos nothing is ever set off (`Idle`).

## What activations do not touch

Activations add up because they are blind to what sets them off.  A beginning that does not
fail changes the scene, but for what is seen of the state (`begun_of_begin`), so an
activation that does not fail is one more on the count and nothing else that `Activated`
speaks of (`activated_of_activate`); taking back what has run out sets nothing off.  What
is shown and what is noted down is nothing that consistency or the supply looks at, and
another score to have been seen last makes no difference to what has happened
(`Activated.see`).

The timer subtracts the last beat from the time.  Both are integers, except that before the
first beat a double stands there, which is zero; an integer below `2 ^ 53` loses nothing when
that is taken away (`Binary64.sub_zero_exact`), so the first period is a period as well.
-/
import SeededPlay.Proofs.Chaos.Activation
import SeededPlay.Proofs.Chaos.Frame
import SeededPlay.Proofs.Chaos.Supply

namespace SeededPlay

open Attempt (reached Keeps)

namespace Scheduler

/-- A scheduler that never runs out of mutations. -/
structure Supplied (s : Scheduler) : Prop where
  consistent : s.Consistent
  graded : s.level.IsGraded
  weights : s.weights = weightsOf s.level

theorem Supplied.start {e : Engine} (h : e.Sound) {level : ChaosLevel} (hlevel : level.IsGraded)
    (seed : Nat) (params : Fields Datum) (state : GameState) :
    (start level seed e params state).Supplied :=
  ⟨Consistent.start h level seed params state, hlevel, rfl⟩

theorem Consistent.noted {s : Scheduler} (hs : s.Consistent) {state : GameState}
    {clock lastTrigger : Datum} {lastScore : Binary64} :
    Consistent { s with scene := { s.scene with state }, clock, lastTrigger, lastScore } :=
  Consistent.note (T := fun _ => True) (s := s)
    ⟨rfl, rfl, rfl, rfl, rfl, rfl, rfl, .inr trivial⟩ hs

theorem Supplied.noted {s : Scheduler} (hs : s.Supplied) {state : GameState}
    {clock lastTrigger : Datum} {lastScore : Binary64} :
    Supplied { s with scene := { s.scene with state }, clock, lastTrigger, lastScore } :=
  ⟨hs.consistent.noted, hs.graded, hs.weights⟩

/-- So many activations have happened, and nothing else by which more are set off. -/
structure Activated (n : Nat) (s s' : Scheduler) : Prop where
  supplied : s'.Supplied
  count : s'.activations = s.activations + n
  level : s'.level = s.level
  lastTrigger : s'.lastTrigger = s.lastTrigger
  lastScore : s'.lastScore = s.lastScore
  score : s'.state.score = s.state.score
  elapsed : s'.state.elapsed = s.state.elapsed

namespace Activated

variable {m n : Nat} {s t u : Scheduler}

theorem refl (h : s.Supplied) : Activated 0 s s := ⟨h, rfl, rfl, rfl, rfl, rfl, rfl⟩

theorem trans (hst : Activated m s t) (htu : Activated n t u) : Activated (m + n) s u where
  supplied := htu.supplied
  count := by rw [htu.count, hst.count, Nat.add_assoc]
  level := htu.level.trans hst.level
  lastTrigger := htu.lastTrigger.trans hst.lastTrigger
  lastScore := htu.lastScore.trans hst.lastScore
  score := htu.score.trans hst.score
  elapsed := htu.elapsed.trans hst.elapsed

end Activated

variable {s s' : Scheduler}

theorem begun_of_begin {m : Mutation} {shown : Bool} {a : ActiveMutation}
    (h : begin m shown s = .ok a s') : ∃ scene, s' = s.begun scene a ∧
      scene.state.score = s.state.score ∧ scene.state.elapsed = s.state.elapsed := by
  rw [begin_eq] at h
  split at h
  · cases h
  · rename_i undo scene happly
    split at h
    · cases h
    · obtain ⟨rfl, rfl⟩ := EStateM.Result.ok.inj h
      exact ⟨scene, rfl, Mutation.view_apply happly⟩

/-- An activation that does not fail is one. -/
theorem activated_of_activate (hs : s.Supplied) {a? : Option ActiveMutation}
    (h : activate true s = .ok a? s') : a?.isSome = true ∧ Activated 1 s s' := by
  have hcap : s.cap ≠ 0 := hs.graded.cap_ne_zero
  have hconsistent : s'.Consistent :=
    ((consistent_invariant.keeps_activate true).of_ok h ⟨hs.consistent, fun _ => trivial⟩).1
  cases hdraw : s.drawMutation with
  | error f =>
    unfold activate at h
    simp only [Attempt.bind_apply, Attempt.get_apply, if_neg hcap, hdraw, Attempt.lift_error] at h
    cases h
  | ok m? =>
    cases m? with
    | none => exact absurd hdraw (drawMutation_ne_none hs.consistent hs.graded hs.weights)
    | some m =>
      obtain ⟨scene, hstate, hroom, -⟩ := makeRoom_spec hs.consistent.intact
      rw [activate_of_drawn hs.consistent.intact hcap hdraw, hroom, Attempt.reached_ok] at h
      split at h
      · rename_i a t hbegin
        obtain ⟨rfl, rfl⟩ := EStateM.Result.ok.inj h
        obtain ⟨scene', rfl, hscore, helapsed⟩ := begun_of_begin hbegin
        exact ⟨rfl, ⟨hconsistent, hs.graded, hs.weights⟩, rfl, rfl, rfl, rfl,
          hscore.trans (congrArg GameState.score hstate),
          helapsed.trans (congrArg GameState.elapsed hstate)⟩
      · cases h

theorem activated_of_activateTimes (hs : s.Supplied) {n : Nat} {as : List ActiveMutation}
    (h : activateTimes true n s = .ok as s') : Activated n s s' := by
  induction n generalizing s as with
  | zero =>
    obtain ⟨-, rfl⟩ := Attempt.pure_eq_ok.mp h
    exact .refl hs
  | succ n ih =>
    obtain ⟨first, t, hfirst, h⟩ := Attempt.bind_eq_ok.mp h
    obtain ⟨rest, t', hrest, h⟩ := Attempt.bind_eq_ok.mp h
    obtain ⟨-, rfl⟩ := Attempt.pure_eq_ok.mp h
    have hone := (activated_of_activate hs hfirst).2
    rw [Nat.add_comm]
    exact hone.trans (ih hone.supplied hrest)

theorem activated_of_expire (hs : s.Supplied) {elapsed : Datum} {gone : List Mutation}
    (h : expire elapsed s = .ok gone s') : Activated 0 s s' := by
  have hstate : s'.scene.state = s.scene.state :=
    (keeps_state_expire (P := (· = s.scene.state)) elapsed).of_ok h rfl
  have hconsistent : s'.Consistent :=
    ((consistent_invariant.keeps_expire true elapsed).of_ok h ⟨hs.consistent, fun _ => trivial⟩).1
  obtain ⟨c, t, hget, h⟩ := Attempt.bind_eq_ok.mp h
  obtain ⟨rfl, rfl⟩ := EStateM.Result.ok.inj hget
  obtain ⟨gone', t, hread, h⟩ := Attempt.bind_eq_ok.mp h
  obtain ⟨-, rfl⟩ := Attempt.lift_eq_ok.mp hread
  obtain ⟨u, t, hrevert, h⟩ := Attempt.bind_eq_ok.mp h
  obtain ⟨-, rfl⟩ := Attempt.pure_eq_ok.mp h
  obtain ⟨scene, heach, -⟩ := revertEach_spec hs.consistent.intact gone'
  obtain ⟨-, rfl⟩ := EStateM.Result.ok.inj (heach.symm.trans hrevert)
  exact ⟨⟨hconsistent, hs.graded, hs.weights⟩, rfl, rfl, rfl, rfl,
    congrArg GameState.score hstate, congrArg GameState.elapsed hstate⟩

/-! ## Milestones -/

theorem Activated.tier {n : Nat} (h : Activated n s s') : s'.tier = s.tier :=
  congrArg ChaosLevel.tier h.level

theorem Activated.see {n : Nat} (h : Activated n s s') (score : Binary64) :
    Activated n { s with lastScore := score } { s' with lastScore := score } where
  supplied := h.supplied.noted
  count := h.count
  level := h.level
  lastTrigger := h.lastTrigger
  lastScore := rfl
  score := h.score
  elapsed := h.elapsed

/-- Looking at the score sets off one activation for every milestone on the way up from
the score that was last seen, and the score has been seen then. -/
theorem observe_spec (hs : s.Supplied) {interval : Nat}
    (hinterval : s.tier.milestone = some interval) {as : List ActiveMutation}
    (h : observe true s = .ok as s') :
    ∃ score n, s.scoreOf true = .ok score ∧ crossed interval s.lastScore score = .ok n ∧
      Activated n.toNat { s with lastScore := score } s' := by
  obtain ⟨c, t, hget, h⟩ := Attempt.bind_eq_ok.mp h
  obtain ⟨rfl, rfl⟩ := EStateM.Result.ok.inj hget
  obtain ⟨score, t, hread, h⟩ := Attempt.bind_eq_ok.mp h
  obtain ⟨hscore, rfl⟩ := Attempt.lift_eq_ok.mp hread
  obtain ⟨u, t, hmodify, h⟩ := Attempt.bind_eq_ok.mp h
  obtain ⟨-, rfl⟩ := EStateM.Result.ok.inj hmodify
  rw [hinterval] at h
  obtain ⟨n, t, hcount, h⟩ := Attempt.bind_eq_ok.mp h
  obtain ⟨hcrossed, rfl⟩ := Attempt.lift_eq_ok.mp hcount
  have hnoted : Supplied { s with lastScore := score } := hs.noted
  exact ⟨score, n, hscore, hcrossed, activated_of_activateTimes hnoted h⟩

/-! ## The timer -/

/-- A tick notes the time, takes back what has run out, and sets off one activation if the
timer has run down, which is the time of the last beat then. -/
theorem tick_spec (hs : s.Supplied) {elapsed : Datum} {a? : Option ActiveMutation}
    (h : tick elapsed true s = .ok a? s') :
    ∃ due, s.isDue elapsed s.lastTrigger = .ok due ∧ a?.isSome = due ∧
      Activated (if due then 1 else 0)
        { s with clock := elapsed, lastTrigger := if due then elapsed else s.lastTrigger } s' := by
  obtain ⟨u, t, hmodify, h⟩ := Attempt.bind_eq_ok.mp h
  obtain ⟨-, rfl⟩ := EStateM.Result.ok.inj hmodify
  obtain ⟨v, t, hexpire, h⟩ := Attempt.bind_eq_ok.mp h
  obtain ⟨gone, hexpire⟩ := Attempt.discard_eq_ok.mp hexpire
  have hclock : Supplied { s with clock := elapsed } := hs.noted
  have hexpired := activated_of_expire hclock hexpire
  obtain ⟨c, t', hget, h⟩ := Attempt.bind_eq_ok.mp h
  obtain ⟨rfl, rfl⟩ := EStateM.Result.ok.inj hget
  obtain ⟨due, t', hread, h⟩ := Attempt.bind_eq_ok.mp h
  obtain ⟨hdue, rfl⟩ := Attempt.lift_eq_ok.mp hread
  have hsame : isDue t elapsed t.lastTrigger = s.isDue elapsed s.lastTrigger := by
    unfold isDue tier
    rw [hexpired.level, hexpired.lastTrigger]
  refine ⟨due, hsame.symm.trans hdue, ?_⟩
  cases due with
  | false =>
    obtain ⟨rfl, rfl⟩ := Attempt.pure_eq_ok.mp h
    exact ⟨rfl, hexpired⟩
  | true =>
    obtain ⟨w, t', hmodify, h⟩ := Attempt.bind_eq_ok.mp h
    obtain ⟨-, rfl⟩ := EStateM.Result.ok.inj hmodify
    have hnoted : Supplied { t with lastTrigger := elapsed } := hexpired.supplied.noted
    obtain ⟨hsome, hone⟩ := activated_of_activate hnoted h
    refine ⟨hsome, hone.supplied, hone.count.trans (congrArg (· + 1) hexpired.count),
      hone.level.trans hexpired.level, hone.lastTrigger, hone.lastScore.trans hexpired.lastScore,
      hone.score.trans hexpired.score, hone.elapsed.trans hexpired.elapsed⟩

end Scheduler

theorem Number.le_int_iff {a b : Int} : (Number.int a).le (.int b) = true ↔ a ≤ b := by
  have hone : (0 : Int) < Binary64.unitsPerOne := Int.natCast_pos.mpr Binary64.unitsPerOne_pos
  show decide (a * (Binary64.unitsPerOne : Int) ≤ b * Binary64.unitsPerOne) = true ↔ _
  rw [decide_eq_true_eq]
  exact Int.mul_le_mul_right hone

theorem Number.lt_int_iff {a b : Int} : (Number.int a).lt (.int b) = true ↔ a < b := by
  have hle := Number.le_int_iff (a := b) (b := a)
  show (!(Number.int b).le (.int a)) = true ↔ _
  rw [Bool.not_eq_true', ← Bool.not_eq_true, hle, Int.not_le]

theorem Binary64.sub_zero_exact {n : Nat} (hn : n < 2 ^ 53) :
    sub (.finite false (n * unitsPerOne)) .zero = .finite false (n * unitsPerOne) := by
  show (if ((n * unitsPerOne : Nat) : Int) + -((0 : Nat) : Int) = 0 then Binary64.finite false 0
    else ofUnits (((n * unitsPerOne : Nat) : Int) + -((0 : Nat) : Int))) = _
  rw [Int.natCast_zero, Int.neg_zero, Int.add_zero]
  split
  · rename_i hzero
    rw [Int.natCast_eq_zero.mp hzero]
  · exact ofUnits_exact hn

theorem Datum.minus_number (m n : Number) : (Datum.number m).minus (.number n) =
    match m.sub? n with
      | some difference => .ok (.number difference)
      | none => .error .outOfRange := rfl

theorem Datum.minus_start {n : Nat} (hn : n < 2 ^ 53) :
    (Datum.int n).minus (.real .zero) = .ok (.real (.finite false (n * Binary64.unitsPerOne))) := by
  have hreal : (Number.int n).toReal? = some (.finite false (n * Binary64.unitsPerOne)) :=
    Binary64.ofInt?_exact hn
  have hsub : (Number.int n).sub? (.real .zero) =
      (Number.int n).toReal?.bind fun x => some (Number.real (x.sub .zero)) := rfl
  refine (minus_number (.int n) (.real .zero)).trans ?_
  rw [hsub, hreal, Option.bind_some, Binary64.sub_zero_exact hn]
  rfl

/-- A time as an integer: itself, or the zero from which a clock starts. -/
def Datum.StandsAt (d : Datum) (t : Int) : Prop := d = .int t ∨ d = .real .zero ∧ t = 0

namespace Scheduler

variable {s : Scheduler}

/-- The timer takes a whole period to run down. -/
theorem isDue_spec {period : Nat} (hperiod : s.tier.period = some period) (hsmall : period < 2 ^ 53)
    {elapsed t : Int} (helapsed : 0 ≤ elapsed) {last : Datum} (hlast : last.StandsAt t)
    (h : s.isDue (.int elapsed) last = .ok true) : t + period ≤ elapsed := by
  unfold isDue at h
  rw [hperiod] at h
  obtain ⟨difference, hminus, h⟩ := bind_eq_ok.mp h
  obtain ⟨n, hn, h⟩ := bind_eq_ok.mp h
  have hle := Except.ok.inj h
  rcases hlast with rfl | ⟨rfl, rfl⟩
  · obtain rfl := Except.ok.inj hminus
    obtain rfl := Except.ok.inj hn
    have hle : (period : Int) ≤ elapsed - t := Number.le_int_iff.mp hle
    omega
  · -- The first beat is told in double arithmetic, which is exact below the period.
    by_contra hearly
    obtain ⟨k, rfl⟩ := Int.eq_ofNat_of_zero_le helapsed
    obtain rfl := Except.ok.inj ((Datum.minus_start (by omega)).symm.trans hminus)
    obtain rfl := Except.ok.inj hn
    have hle : (Number.int period).le (.int k) = true := hle
    exact hearly ((Int.zero_add _).trans_le (Number.le_int_iff.mp hle))

/-! ## Without chaos -/

/-- A scheduler without chaos, in which nothing has happened. -/
structure Idle (s : Scheduler) : Prop where
  order : s.tier = .order
  active : s.active = []
  still : s.activations = 0

theorem Idle.start {level : ChaosLevel} (h : level.value = 0) (seed : Nat) (e : Engine)
    (params : Fields Datum) (state : GameState) : (start level seed e params state).Idle :=
  ⟨if_pos (Nat.le_of_eq h), rfl, rfl⟩

theorem keeps_idle_onScene {α : Type} (x : Attempt Scene α) : Keeps Idle (onScene x) := by
  intro s hs
  unfold onScene Attempt.within
  split <;> exact ⟨hs.order, hs.active, hs.still⟩

theorem Idle.activate_eq (hs : s.Idle) (shown : Bool) : activate shown s = .ok none s := by
  have hcap : s.cap = 0 := congrArg Tier.cap hs.order
  unfold activate
  simp only [Attempt.bind_apply, Attempt.get_apply, if_pos hcap]
  rfl

theorem keeps_idle_revert (m : Mutation) : Keeps Idle (revert m) := by
  intro s hs
  unfold revert
  simp only [Attempt.bind_apply, Attempt.get_apply, hs.active, List.find?_nil]
  exact hs

theorem keeps_idle_activate (shown : Bool) : Keeps Idle (activate shown) := by
  intro s hs
  rw [hs.activate_eq]
  exact hs

theorem keeps_idle_observe (shown : Bool) : Keeps Idle (observe shown) :=
  keeps_observe (keeps_idle_activate shown) fun _ _ hs => ⟨hs.order, hs.active, hs.still⟩

theorem keeps_idle_tick (elapsed : Datum) (shown : Bool) : Keeps Idle (tick elapsed shown) :=
  keeps_tick (keeps_idle_activate shown) keeps_idle_revert
    (fun _ hs => ⟨hs.order, hs.active, hs.still⟩) fun _ hs => ⟨hs.order, hs.active, hs.still⟩

end Scheduler

end SeededPlay

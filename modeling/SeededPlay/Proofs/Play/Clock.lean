/-
# `SeededPlay.Proofs.Play.Clock` — no mutation outlives its duration

The state of a session has a clock, and so has its scheduler.  Events leave both alone;
a tick moves the first and then puts the second to it.  So between steps the two agree,
and the scheduler is `Scheduler.OnTime` whatever is done to the session, with failing
steps included: a step that fails has stopped at a point where nothing is late
(`Session.Step.onTime`).

Mutations asked for with another state in view go by the clock of that state, which may
show anything; such steps are left out here (`Session.Step.IsOwn`).

The last beat of the timer is in the past for the same reason: a beat notes the time of the
tick that it happens in.
-/
import SeededPlay.Proofs.Chaos.Lifetimes
import SeededPlay.Proofs.Play.Causes

namespace SeededPlay

open Attempt (reached Keeps)
open Scheduler (OnTime)

/-! ## Events leave the clock alone -/

theorem Engine.keeps_elapsed_run (d : Datum) (rules : List CompiledRule) :
    Keeps (fun st : GameState => st.elapsed = d) (run rules) :=
  keeps_run (fun happly hst => (Effect.apply_spec happly).elapsed.trans hst) rules

/-- The rules that a raw trigger calls. -/
def Engine.called (e : Engine) : Datum → List CompiledRule
  | .text t => e.compiled.filter fun c => c.rule.trigger = t
  | _ => []

theorem Engine.dispatchDatum_eq_run (e : Engine) (trigger : Datum) :
    e.dispatchDatum trigger = run (e.called trigger) := by
  cases trigger <;> rfl

namespace Scheduler

variable {t : Int}

theorem onScene_dispatch (trigger : Datum) (s : Scheduler) :
    onScene (Scene.dispatchDatum trigger) s =
      match Engine.run (s.scene.rules.called trigger) s.state with
      | .ok effects state => .ok effects { s with scene := { s.scene with state } }
      | .error f state => .error f { s with scene := { s.scene with state } } := by
  have hstate : s.state = s.scene.state := rfl
  unfold onScene Scene.dispatchDatum Scene.onState
  rw [hstate, Attempt.within_apply, Attempt.bind_apply, Attempt.get_apply,
    ← Engine.dispatchDatum_eq_run]
  simp only [Attempt.within_apply]
  cases s.scene.rules.dispatchDatum trigger s.scene.state <;> rfl

theorem keeps_onTime_dispatch (trigger : Datum) :
    Keeps (OnTime t) (onScene (Scene.dispatchDatum trigger)) := by
  intro s h
  have helapsed := Engine.keeps_elapsed_run (.int t) (s.scene.rules.called trigger) s.state
    h.elapsed
  rw [onScene_dispatch]
  cases hrun : Engine.run (s.scene.rules.called trigger) s.state with
  | ok effects state =>
    rw [hrun] at helapsed
    exact h.move helapsed
  | error f state =>
    rw [hrun] at helapsed
    exact h.move helapsed

end Scheduler

namespace Session

/-- A step that brings no state of its own, and moves the clock by whole milliseconds. -/
def Step.IsOwn : Step → Prop
  | .tick delta => ∃ n : Int, delta = .int n
  | .activateFor _ => False
  | _ => True

/-- The session after some steps; one that fails leaves what it has reached. -/
def runAll (s : Session) (steps : List Step) : Session :=
  steps.foldl (fun s step => reached (step.run s)) s

variable {t : Int} {s : Session}

theorem keeps_onTime_handle (trigger : Datum) :
    Keeps (fun s : Session => s.chaos.OnTime t) (handle trigger) :=
  keeps_chaos_handle (Scheduler.keeps_onTime_dispatch trigger) (fun _ h => h.activate true)
    (OnTime.keeps_observe true)

/-- A tick takes the session to a time that is not earlier. -/
theorem exists_onTime_tick (h : s.chaos.OnTime t) (delta : Int) :
    ∃ t', t ≤ t' ∧ (reached (tick (.int delta) s)).chaos.OnTime t' := by
  rw [tick_apply]
  cases hadvance : s.state.advance (.int delta) with
  | error f => exact ⟨t, Int.le_refl t, h⟩
  | ok state =>
    obtain ⟨t', rfl, hle⟩ := exists_elapsed hadvance h.elapsed
    refine ⟨t', hle, ?_⟩
    show (reached (onChaos _ _)).chaos.OnTime t'
    unfold onChaos
    rw [Attempt.reached_within]
    exact h.tick hle rfl

theorem Step.onTime {step : Step} (hown : step.IsOwn) (h : s.chaos.OnTime t) :
    ∃ t', t ≤ t' ∧ (reached (step.run s)).chaos.OnTime t' := by
  have hstill : ∀ {x : Attempt Session (List Effect)},
      Keeps (fun s : Session => s.chaos.OnTime t) x →
      ∃ t', t ≤ t' ∧ (reached (x s)).chaos.OnTime t' :=
    fun hx => ⟨t, Int.le_refl t, hx s h⟩
  cases step with
  | event trigger => exact hstill (keeps_onTime_handle trigger)
  | tick delta =>
    obtain ⟨n, rfl⟩ := hown
    obtain ⟨t', hle, htick⟩ := exists_onTime_tick h n
    refine ⟨t', hle, ?_⟩
    show (reached ((discard (Session.tick (.int n)) >>= fun _ => pure []) s)).chaos.OnTime t'
    rw [Attempt.discard_bind, Attempt.bind_apply]
    cases hrun : Session.tick (.int n) s with
    | ok a s' =>
      rw [hrun] at htick
      exact htick
    | error f s' =>
      rw [hrun] at htick
      exact htick
  | activate shown =>
    exact hstill (Keeps.bind (Keeps.discard (keeps_chaos fun _ h => h.activate shown))
      fun _ => Keeps.pure _)
  | activateFor other => exact hown.elim
  | setLevel level =>
    exact hstill (Keeps.bind (keeps_chaos fun _ h => h.setLevel _) fun _ => Keeps.pure _)

theorem onTime_runAll {steps : List Step} (hown : ∀ step ∈ steps, step.IsOwn)
    (h : s.chaos.OnTime t) : ∃ t', t ≤ t' ∧ (s.runAll steps).chaos.OnTime t' := by
  induction steps generalizing s t with
  | nil => exact ⟨t, Int.le_refl t, h⟩
  | cons step steps ih =>
    obtain ⟨t₁, hle₁, h₁⟩ := step.onTime (hown step List.mem_cons_self) h
    obtain ⟨t₂, hle₂, h₂⟩ := ih (fun x hx => hown x (List.mem_cons_of_mem step hx)) h₁
    exact ⟨t₂, Int.le_trans hle₁ hle₂, h₂⟩

/-- No mutation outlives its duration, whatever is done to a session from its start.  What
is active began no later than the clock of the state shows, in the order of the list, and
if it has a duration it runs out when that has passed since then, which is still to come.
The last beat of the timer is in the past. -/
theorem active_within_duration {g : Game} {strict : Bool} {s₀ : Session}
    (hstart : start g strict = .ok s₀) {steps : List Step} (hown : ∀ step ∈ steps, step.IsOwn) :
    ∃ elapsed : Int, (s₀.runAll steps).state.elapsed = .int elapsed ∧
      (∀ a ∈ (s₀.runAll steps).chaos.active, ∃ started ≤ elapsed, a.started.StandsAt started ∧
        ∀ d ∈ a.mutation.duration, ∃ e ∈ a.expires,
          e.same (.int (started + d)) = true ∧ (Number.int elapsed).lt e = true) ∧
      ((s₀.runAll steps).chaos.active.Pairwise fun a b =>
        ∃ x y, a.started.StandsAt x ∧ b.started.StandsAt y ∧ x ≤ y) ∧
      ∃ beat ≤ elapsed, (s₀.runAll steps).chaos.lastTrigger.StandsAt beat := by
  obtain ⟨rules, hrules, rfl⟩ := start_spec hstart
  have helapsed : (initialState g).elapsed = .int 0 := rfl
  have hinitial := OnTime.start (Engine.ofRules_spec hrules).2.2
    (.ofDatum (.int g.chaos.level)) (SeedCode.decode g.code).seed g.world.params helapsed
  obtain ⟨elapsed, -, h⟩ := onTime_runAll (s := ⟨g, strict, _, 0⟩) hown hinitial
  refine ⟨elapsed, h.elapsed, fun a ha => ?_, ?_, h.beat⟩
  · obtain ⟨started, hle, hspans⟩ := h.timely.spans a ha
    refine ⟨started, hle, hspans.begins, fun d hd => ?_⟩
    obtain ⟨e, he, hsame⟩ := hspans.ends d hd
    have hlater := h.timely.outlasts a ha started hspans d hd
    exact ⟨e, he, hsame, (Number.int_lt_of_same hsame).mpr hlater⟩
  · exact h.timely.sorted.imp fun ⟨x, y, hx, hy, hle⟩ => ⟨x, y, hx.begins, hy.begins, hle⟩

theorem active_within_duration_late :
    let g : Game := { id := "game_0", code := "", name := "Waits", chaos := { level := 60 } }
    let steps : List Step := [.activate true, .tick (.int (-7)), .tick (.int 19999)]
    ∃ s₀ a, start g false = .ok s₀ ∧ (∀ step ∈ steps, step.IsOwn) ∧
      (s₀.runAll steps).chaos.active.head? = some a ∧ a.mutation.duration = some 20000 ∧
      ∃ elapsed, (s₀.runAll steps).state.elapsed = .int elapsed ∧
        ∃ started ≤ elapsed, a.started.StandsAt started ∧
          ∃ e ∈ a.expires, (Number.int elapsed).lt e = true := by
  intro g steps
  let level : ChaosLevel := ⟨60, by decide⟩
  have hlevel : g.chaos.level = level.value := rfl
  let s₀ : Session := ⟨g, false, Scheduler.start level (SeedCode.decode g.code).seed
    ⟨false, []⟩ g.world.params (initialState g), 0⟩
  have hstart : start g false = .ok s₀ := start_of_read rfl hlevel
  have hown : ∀ step ∈ steps, step.IsOwn :=
    List.forall_mem_cons.mpr ⟨trivial, List.forall_mem_cons.mpr ⟨⟨-7, rfl⟩,
      List.forall_mem_singleton.mpr ⟨19999, rfl⟩⟩⟩
  have hplay : ((s₀.runAll steps).chaos.active.head?.map fun a => a.mutation.duration) =
      some (some 20000) := by decide +kernel
  obtain ⟨a, ha, hduration⟩ := Option.map_eq_some_iff.mp hplay
  obtain ⟨elapsed, helapsed, hactive, -⟩ := active_within_duration hstart hown
  obtain ⟨started, hle, hbegan, hends⟩ := hactive a (List.mem_of_mem_head? ha)
  obtain ⟨e, he, -, hlater⟩ := hends 20000 hduration
  exact ⟨s₀, a, hstart, hown, ha, hduration, elapsed, helapsed, started, hle, hbegan, e, he, hlater⟩

end Session

end SeededPlay

/-
# `SeededPlay.Proofs.Chaos.Setup` — what mutations leave alone in the scheduler itself

A scheduler holds things that no mutation touches: its seed, the parameters it was given,
the level with its weights, the times, and the score that it saw last.  A property of those
(`OfSetup`) is kept by everything that takes mutations back or lets them begin, so all that
can break it over a run is what sets them: a new level, the notes of a tick or a look at the
score (`Settled`), or weights that are set by hand.

The weights of a level are an example: they are those of the level after every run in which
none are set by hand (`weights_runAll`).
-/
import SeededPlay.Proofs.Chaos.Calls

namespace SeededPlay

open Attempt (reached Keeps)

namespace Scheduler

/-- A property that does not depend on the scene, on what is active or on what was. -/
def OfSetup (P : Scheduler → Prop) : Prop := ∀ s scene active history activations,
  P s → P { s with scene, active, history, activations }

namespace OfSetup

variable {P : Scheduler → Prop}

theorem onScene {α : Type} (h : OfSetup P) (x : Attempt Scene α) :
    Keeps P (Scheduler.onScene x) := by
  intro s hs
  rw [Scheduler.onScene, Attempt.reached_within]
  exact h s _ s.active s.history s.activations hs

theorem revert (h : OfSetup P) (m : Mutation) : Keeps P (Scheduler.revert m) := by
  refine Keeps.bind Keeps.get fun s => ?_
  split
  · exact Keeps.pure _
  · refine Keeps.bind (h.onScene _) fun _ => ?_
    exact Keeps.bind (Keeps.modify fun s hs => h s _ _ _ _ hs) fun _ => Keeps.pure _

theorem begin (h : OfSetup P) (m : Mutation) (shown : Bool) :
    Keeps P (Scheduler.begin m shown) := by
  refine Keeps.bind Keeps.get fun s => Keeps.bind (h.onScene _) fun undo => ?_
  refine Keeps.bind (Keeps.lift _) fun expires => ?_
  exact Keeps.bind (Keeps.modify fun s hs => h s _ _ _ _ hs) fun _ => Keeps.pure _

theorem activate (h : OfSetup P) (shown : Bool) : Keeps P (Scheduler.activate shown) :=
  keeps_activate h.revert fun m => h.begin m shown

theorem present (h : OfSetup P) (state : Option GameState) : Keeps P (Scheduler.present state) :=
  Keeps.modify fun s hs => h s _ _ _ _ hs

end OfSetup

/-! ## Runs -/

/-- A call that sets the weights by hand. -/
def Call.SetsWeights : Call → Prop
  | .setWeights _ => True
  | _ => False

/-- A property of the setup that is kept when a level is set, a time is noted, or the score
of a state as promised is looked at. -/
structure Settled (G : GameState → Prop) (P : Scheduler → Prop) : Prop where
  setup : OfSetup P
  level : ∀ s level, P s → P { s with level, weights := weightsOf level }
  times : ∀ s clock lastTrigger, P s → P { s with clock, lastTrigger }
  score : ∀ s shown lastScore, (shown = true → G s.state) → s.scoreOf shown = .ok lastScore →
    P s → P { s with lastScore }

namespace Settled

variable {G : GameState → Prop} {P : Scheduler → Prop}

theorem observe (h : Settled G P) {shown : Bool} {s : Scheduler} (hG : shown = true → G s.state)
    (hs : P s) : P (reached (Scheduler.observe shown s)) :=
  reached_observe (h.setup.activate shown) hs fun score hscore =>
    h.score s shown score hG hscore hs

theorem keeps_tick (h : Settled G P) (elapsed : Datum) (shown : Bool) :
    Keeps P (Scheduler.tick elapsed shown) :=
  Scheduler.keeps_tick (h.setup.activate shown) h.setup.revert
    (fun s hs => h.times s elapsed s.lastTrigger hs) fun s hs => h.times s s.clock elapsed hs

theorem call (h : Settled G P) {T : Datum → Prop} {c : Call} (hc : c.Keeps T G)
    (hweights : c.SetsWeights → ∀ s weights, P s → P { s with weights }) : Keeps P c.run := by
  have hpresent := fun state => h.setup.present state
  cases c with
  | activate state =>
    exact Keeps.bind (hpresent state) fun _ => Keeps.discard (h.setup.activate _)
  | milestone state =>
    exact Keeps.bind (hpresent state) fun _ => Keeps.discard (h.setup.activate _)
  | observe state =>
    intro s hs
    have hshown : state.isSome = true → G (reached (present state s)).state := by
      intro hsome
      cases state with
      | none => cases hsome
      | some st => exact hc st rfl
    exact (Attempt.reached_discard _ _).symm ▸ h.observe hshown (hpresent state s hs)
  | tick elapsed state =>
    exact Keeps.bind (hpresent state) fun _ => Keeps.discard (h.keeps_tick elapsed _)
  | expire elapsed => exact Keeps.discard (keeps_expire h.setup.revert elapsed)
  | revert id => exact Keeps.discard (keeps_revertNamed h.setup.revert id)
  | revertAll => exact keeps_revertAll h.setup.revert fun s hs => h.setup s _ _ _ _ hs
  | setLevel level => exact keeps_setLevel h.setup.revert fun s hs => h.level s _ hs
  | setWeights weights => exact Keeps.modify fun s hs => hweights trivial s weights hs

/-- What is settled stays so over every run, if it does not depend on the weights that are
set by hand. -/
theorem runAll (h : Settled G P) {T : Datum → Prop} {calls : List Call}
    (hcalls : ∀ c ∈ calls, c.Keeps T G)
    (hweights : ∀ c ∈ calls, c.SetsWeights → ∀ s weights, P s → P { s with weights })
    {s : Scheduler} (hs : P s) : P (s.runAll calls) := by
  induction calls generalizing s with
  | nil => exact hs
  | cons c calls ih =>
    have hc := h.call (hcalls c List.mem_cons_self) (hweights c List.mem_cons_self) s hs
    exact ih (fun c' hc' => hcalls c' (List.mem_cons_of_mem c hc'))
      (fun c' hc' => hweights c' (List.mem_cons_of_mem c hc')) hc

end Settled

theorem ofSetup_weights : OfSetup fun s => s.weights = weightsOf s.level :=
  fun _ _ _ _ _ h => h

theorem weights_runAll {T : Datum → Prop} {G : GameState → Prop} {calls : List Call}
    (hcalls : ∀ c ∈ calls, c.Keeps T G ∧ ¬c.SetsWeights) {s : Scheduler}
    (hs : s.weights = weightsOf s.level) :
    (s.runAll calls).weights = weightsOf (s.runAll calls).level :=
  Settled.runAll (P := fun s => s.weights = weightsOf s.level)
    ⟨ofSetup_weights, fun _ _ _ => rfl, fun _ _ _ hs => hs, fun _ _ _ _ _ hs => hs⟩
    (fun c hc => (hcalls c hc).1) (fun c hc hsets => absurd hsets (hcalls c hc).2) hs

end Scheduler

end SeededPlay

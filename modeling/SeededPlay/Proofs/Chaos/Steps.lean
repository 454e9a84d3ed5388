/-
# `SeededPlay.Proofs.Chaos.Steps` — what a scheduler keeps, from what its steps keep

The scheduler does few things to its state.  It takes a mutation back, it lets one begin, and
it notes something down; everything else it does puts these one after another.  So what is
kept when a mutation is taken back is kept by whatever takes several back, and what is kept
besides when one begins is kept by whatever activates.  The lemmas below say this for any
property of schedulers, one lemma per operation; which properties the three steps keep is
said where the properties are.

A look at the score is the one operation where reading and writing are mixed: the score is
noted, or cannot be read, and only then are activations made (`reached_observe`).
-/
import SeededPlay.Proofs.Attempt
import SeededPlay.Chaos.Scheduler

namespace SeededPlay

open Attempt (reached Keeps)

namespace Scheduler

variable {P : Scheduler → Prop}

/-! ## Taking back -/

section

variable (hrevert : ∀ m, Keeps P (revert m))

include hrevert

theorem keeps_revertNamed (id : String) : Keeps P (revertNamed id) := by
  unfold revertNamed
  split
  · exact hrevert _
  · exact Keeps.pure _

theorem keeps_revertEach (ms : List Mutation) : Keeps P (revertEach ms) := by
  induction ms with
  | nil => exact Keeps.pure _
  | cons m ms ih => exact Keeps.bind (Keeps.discard (hrevert m)) fun _ => ih

theorem keeps_revertOldest (n : Nat) : Keeps P (revertOldest n) := by
  induction n with
  | zero => exact Keeps.pure _
  | succ n ih =>
    refine Keeps.bind Keeps.get fun s => ?_
    split
    · exact Keeps.pure _
    · exact Keeps.bind (Keeps.discard (hrevert _)) fun _ => ih

theorem keeps_expire (elapsed : Datum) : Keeps P (expire elapsed) := by
  refine Keeps.bind Keeps.get fun s => Keeps.bind (Keeps.lift _) fun gone => ?_
  exact Keeps.bind (keeps_revertEach hrevert gone) fun _ => Keeps.pure _

theorem keeps_revertAll
    (hreset : ∀ s, P s → P { s with scene := { s.scene with params := s.base } }) :
    Keeps P revertAll := by
  refine Keeps.bind Keeps.get fun s => Keeps.bind (keeps_revertEach hrevert _) fun _ => ?_
  exact Keeps.modify hreset

theorem keeps_setLevel {level : ChaosLevel}
    (hlevel : ∀ s, P s → P { s with level, weights := weightsOf level }) :
    Keeps P (setLevel level) := by
  refine Keeps.bind (Keeps.modify hlevel) fun _ => ?_
  refine Keeps.bind Keeps.get fun s => Keeps.bind (keeps_revertEach hrevert _) fun _ => ?_
  exact Keeps.bind Keeps.get fun s => keeps_revertOldest hrevert _

theorem keeps_makeRoom : Keeps P makeRoom := by
  refine Keeps.bind Keeps.get fun s => ?_
  split
  · split
    · exact Keeps.discard (hrevert _)
    · exact Keeps.pure _
  · exact Keeps.pure _

/-! ## Activating -/

theorem keeps_activate {shown : Bool} (hbegin : ∀ m, Keeps P (begin m shown)) :
    Keeps P (activate shown) := by
  refine Keeps.bind Keeps.get fun s => ?_
  split
  · exact Keeps.pure _
  · refine Keeps.bind (Keeps.lift _) fun m? => ?_
    split
    · exact Keeps.pure _
    · exact Keeps.bind (keeps_makeRoom hrevert) fun _ =>
        Keeps.bind (hbegin _) fun _ => Keeps.pure _

end

section

variable {shown : Bool} (hactivate : Keeps P (activate shown))

include hactivate

theorem keeps_activateTimes (n : Nat) : Keeps P (activateTimes shown n) := by
  induction n with
  | zero => exact Keeps.pure _
  | succ n ih => exact Keeps.bind hactivate fun _ => Keeps.bind ih fun _ => Keeps.pure _

/-- A look at the score, from one state: the score is noted, or cannot be read. -/
theorem reached_observe {s : Scheduler} (hs : P s)
    (hscore : ∀ score, s.scoreOf shown = .ok score → P { s with lastScore := score }) :
    P (reached (observe shown s)) := by
  unfold observe
  rw [Attempt.bind_apply, Attempt.get_apply]
  simp only [Attempt.bind_apply]
  cases hread : s.scoreOf shown with
  | error f => exact hs
  | ok score =>
    have hnoted := hscore score hread
    simp only [Attempt.lift_ok, Attempt.modify_apply]
    cases s.tier.milestone with
    | none => exact hnoted
    | some interval =>
      exact Keeps.bind (Keeps.lift _) (fun n : Int => keeps_activateTimes hactivate n.toNat) _
        hnoted

theorem keeps_observe (hscore : ∀ s lastScore, P s → P { s with lastScore }) :
    Keeps P (observe shown) :=
  fun s hs => reached_observe hactivate hs fun score _ => hscore s score hs

theorem keeps_tick (hrevert : ∀ m, Keeps P (revert m)) {elapsed : Datum}
    (hclock : ∀ s, P s → P { s with clock := elapsed })
    (htrigger : ∀ s, P s → P { s with lastTrigger := elapsed }) :
    Keeps P (tick elapsed shown) := by
  refine Keeps.bind (Keeps.modify hclock) fun _ => ?_
  refine Keeps.bind (Keeps.discard (keeps_expire hrevert elapsed)) fun _ => ?_
  refine Keeps.bind Keeps.get fun s => Keeps.bind (Keeps.lift _) fun due => ?_
  split
  · exact Keeps.bind (Keeps.modify htrigger) fun _ => hactivate
  · exact Keeps.pure _

end

end Scheduler

end SeededPlay

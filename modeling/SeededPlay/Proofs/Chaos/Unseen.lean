/-
# `SeededPlay.Proofs.Chaos.Unseen` — activations do not see the score

An attempt that does not see a change of the state goes the same way before the change and
after it, and what it leaves behind differs by that change only (`Blind`).  To see is to
read: an attempt is blind to a change if whatever it reads is the same on both sides and
whatever it writes commutes with the change.

Mutations see rules, parameters and flags, and a scheduler sees its clock besides; nobody
looks at the score of the state before there is a milestone to be counted.  So activations
are blind to another score, and to another note of the score that was last seen.

## From attempts to activations

`Blind` is closed under sequencing, and in the whole an attempt is blind to what it is blind
to in a part (`Blind.within`); what is read of the state must be the same on both sides
(`Blind.get_bind`).  With these the walk goes up: a flag is raised whatever the score is, so
a mutation does not see the score when it is applied nor when it is taken back; with another
note of the last score the scheduler does not either; and a row of activations is blind as a
whole (`blind_activateTimes`).  After the change all goes as before, and the change is still
to be made (`Blind.apply`).
-/
import SeededPlay.Proofs.Chaos.Success

namespace SeededPlay

namespace Attempt

variable {σ τ α β : Type}

/-- Whether an attempt goes the same way before and after a change of the state. -/
def Blind (f : σ → σ) (x : Attempt σ α) : Prop := Agree (fun s t => t = f s) Eq x x

namespace Blind

variable {f : σ → σ} {x : Attempt σ α}

theorem pure (a : α) : Blind f (pure a : Attempt σ α) := Agree.pure rfl

theorem lift (r : Except Fault α) : Blind f (Attempt.lift r : Attempt σ α) := Agree.lift

theorem modify {g : σ → σ} (h : ∀ s, g (f s) = f (g s)) :
    Blind f (modify g : Attempt σ PUnit) := by
  refine Agree.modify ?_
  rintro s _ rfl
  exact h s

theorem bind {k : α → Attempt σ β} (hx : Blind f x) (hk : ∀ a, Blind f (k a)) :
    Blind f (x >>= k) :=
  Agree.bind hx fun a _ hab => hab ▸ hk a

theorem discard (hx : Blind f x) : Blind f (discard x) := Agree.discard hx

/-- What is read of the state must be the same on both sides. -/
theorem get_bind {k : σ → Attempt σ β} (hread : ∀ s, k (f s) = k s)
    (hk : ∀ s, Blind f (k s)) : Blind f (get >>= k) := by
  rintro s _ rfl
  show Same _ _ (k s s) (k (f s) (f s))
  rw [hread]
  exact hk s s _ rfl

theorem within {F : τ → τ} {part : τ → σ} {put : τ → σ → τ} (hx : Blind f x)
    (hpart : ∀ t, part (F t) = f (part t)) (hput : ∀ t s, put (F t) (f s) = F (put t s)) :
    Blind F (x.within part put) := by
  rintro t _ rfl
  have hsame := hx (part t) _ rfl
  rw [within_apply, within_apply, hpart]
  generalize x (part t) = r at hsame
  generalize x (f (part t)) = r' at hsame
  cases hsame with
  | ok hab hst =>
    subst hst
    exact .ok hab (hput t _)
  | error e hst =>
    subst hst
    exact .error e (hput t _)

/-- After the change all goes as before, and the change is still to be made. -/
theorem apply (hx : Blind f x) (s : σ) : x (f s) = match x s with
    | .ok a t => .ok a (f t)
    | .error e t => .error e (f t) := by
  have hsame := hx s _ rfl
  generalize x s = r at hsame
  generalize x (f s) = r' at hsame
  cases hsame with
  | ok hab hst =>
    subst hab hst
    rfl
  | error e hst =>
    subst hst
    rfl

theorem reached (hx : Blind f x) (s : σ) : reached (x (f s)) = f (reached (x s)) :=
  (hx s _ rfl).reached

end Blind

end Attempt

open Attempt (Blind)

/-! ## Scenes -/

theorem Effect.raiseFlag_score (score : Datum) (s : GameState) (word : String) :
    raiseFlag { s with score } word = (raiseFlag s word).map fun s => { s with score } := by
  unfold raiseFlag
  cases s.flags <;> rfl

namespace Scene

/-- The scene with another score. -/
def withScore (score : Datum) (s : Scene) : Scene := { s with state := { s.state with score } }

variable {score : Datum}

theorem blind_setRules (rules : List Rule) : Blind (withScore score) (setRules rules) :=
  Blind.get_bind (fun _ => rfl) fun _ => Blind.bind (Blind.lift _) fun _ =>
    Blind.modify fun _ => rfl

theorem blind_addRules (rules : List Rule) : Blind (withScore score) (addRules rules) :=
  Blind.get_bind (fun _ => rfl) fun _ => Blind.bind (Blind.lift _) fun _ =>
    Blind.modify fun _ => rfl

theorem blind_removeTrigger (trigger : String) :
    Blind (withScore score) (removeTrigger trigger) :=
  Blind.get_bind (fun _ => rfl) fun _ => Blind.bind (Blind.modify fun _ => rfl) fun _ =>
    Blind.pure _

theorem blind_setParam (name : String) (value : Datum) :
    Blind (withScore score) (setParam name value) := Blind.modify fun _ => rfl

theorem blind_restoreParam (name : String) (earlier : Option Datum) :
    Blind (withScore score) (restoreParam name earlier) := by
  cases earlier with
  | none => exact Blind.modify fun _ => rfl
  | some value => exact Blind.modify fun _ => rfl

theorem blind_goal : Blind (withScore score) (applyDatum (.text "flag=goal_shifted")) := by
  rintro s _ rfl
  have hraise : Effect.raiseFlag (s.withScore score).state "goal_shifted" =
      (Effect.raiseFlag s.state "goal_shifted").map fun state => { state with score } :=
    Effect.raiseFlag_score score s.state "goal_shifted"
  rw [applyDatum_goal, applyDatum_goal, hraise]
  cases Effect.raiseFlag s.state "goal_shifted" with
  | ok state => exact .ok rfl rfl
  | error f => exact .error f rfl

end Scene

variable {score : Datum}

theorem Twist.blind_apply (t : Twist) (stream : Stream) (nonce : Datum) (shown : Bool) :
    Blind (Scene.withScore score) (t.apply stream nonce shown) := by
  cases t with
  | nothing => exact Blind.pure _
  | reverseScore =>
    -- The rules that are read are the same whatever the score is, so `rfl` will do.
    refine Blind.get_bind (fun _ => rfl) fun s => Blind.bind (Blind.lift _) fun r => ?_
    exact Blind.bind (Scene.blind_setRules r.1) fun _ => Blind.pure _
  | addRules added => exact Blind.bind (Scene.blind_addRules added) fun _ => Blind.pure _
  | replaceTrigger trigger added =>
    refine Blind.bind (Scene.blind_removeTrigger trigger) fun removed => ?_
    exact Blind.bind (Scene.blind_addRules added) fun _ => Blind.pure _
  | shiftGoal =>
    refine Blind.get_bind (fun _ => rfl) fun s => Blind.bind (Blind.lift _) fun next => ?_
    refine Blind.bind (Scene.blind_setParam _ _) fun _ => ?_
    cases shown with
    | false => exact Blind.pure _
    | true => exact Blind.bind (Blind.discard Scene.blind_goal) fun _ => Blind.pure _
  | misreport =>
    refine Blind.bind (Blind.lift _) fun _ => Blind.bind (Scene.blind_setParam _ _) fun _ => ?_
    refine Blind.bind (Blind.lift _) fun _ => Blind.bind (Scene.blind_setParam _ _) fun _ => ?_
    exact Blind.pure _

theorem Twist.blind_revert (t : Twist) (undo : Undo) :
    Blind (Scene.withScore score) (t.revert undo) := by
  cases t with
  | nothing => exact Blind.pure _
  | reverseScore =>
    refine Blind.get_bind (fun _ => rfl) fun s => Blind.bind (Blind.lift _) fun rules => ?_
    exact Scene.blind_setRules rules
  | addRules added => exact Blind.get_bind (fun _ => rfl) fun s => Scene.blind_setRules _
  | replaceTrigger trigger added =>
    refine Blind.get_bind (fun _ => rfl) fun s => Blind.bind (Scene.blind_setRules _) fun _ => ?_
    exact Scene.blind_addRules _
  | shiftGoal => exact Scene.blind_restoreParam _ _
  | misreport =>
    exact Blind.bind (Scene.blind_restoreParam _ _) fun _ => Scene.blind_restoreParam _ _

namespace Mutation

theorem blind_overwrite (os : List (String × Override)) :
    Blind (Scene.withScore score) (overwrite os) := by
  induction os with
  | nil => exact Blind.pure _
  | cons o os ih =>
    refine Blind.get_bind (fun _ => rfl) fun s => Blind.bind (Blind.lift _) fun value => ?_
    refine Blind.bind (Scene.blind_setParam _ _) fun _ => ?_
    exact Blind.bind ih fun _ => Blind.pure _

theorem blind_restore (params : List (String × Option Datum)) :
    Blind (Scene.withScore score) (restore params) := by
  induction params with
  | nil => exact Blind.pure _
  | cons p params ih => exact Blind.bind (Scene.blind_restoreParam _ _) fun _ => ih

theorem blind_apply (m : Mutation) (stream : Stream) (nonce : Datum) (shown : Bool) :
    Blind (Scene.withScore score) (m.apply stream nonce shown) :=
  Blind.bind (blind_overwrite _) fun _ =>
    Blind.bind (Twist.blind_apply m.twist stream nonce shown) fun _ => Blind.pure _

theorem blind_revert (m : Mutation) (undo : Undo) :
    Blind (Scene.withScore score) (m.revert undo) :=
  Blind.bind (Twist.blind_revert m.twist undo) fun _ => blind_restore _

end Mutation

/-! ## Schedulers -/

namespace Scheduler

/-- The scheduler as if it had seen a score: the state has it, and the note is made. -/
def sighted (score : Datum) (noted : Binary64) (s : Scheduler) : Scheduler :=
  { s with scene := s.scene.withScore score, lastScore := noted }

variable {noted : Binary64}

theorem blind_onScene {α : Type} {x : Attempt Scene α} (hx : Blind (Scene.withScore score) x) :
    Blind (sighted score noted) (onScene x) :=
  Blind.within hx (fun _ => rfl) fun _ _ => rfl

theorem blind_revert (m : Mutation) : Blind (sighted score noted) (revert m) := by
  refine Blind.get_bind (fun _ => rfl) fun s => ?_
  split
  · exact Blind.pure _
  · refine Blind.bind (blind_onScene (Mutation.blind_revert m _)) fun _ => ?_
    exact Blind.bind (Blind.modify fun _ => rfl) fun _ => Blind.pure _

theorem blind_makeRoom : Blind (sighted score noted) makeRoom := by
  refine Blind.get_bind (fun _ => rfl) fun s => ?_
  split
  · split
    · exact Blind.discard (blind_revert _)
    · exact Blind.pure _
  · exact Blind.pure _

theorem blind_begin (m : Mutation) (shown : Bool) :
    Blind (sighted score noted) (begin m shown) := by
  refine Blind.get_bind (fun _ => rfl) fun s => ?_
  refine Blind.bind (blind_onScene (m.blind_apply _ _ shown)) fun undo => ?_
  refine Blind.bind (Blind.lift _) fun expires => ?_
  exact Blind.bind (Blind.modify fun _ => rfl) fun _ => Blind.pure _

theorem blind_activate (shown : Bool) : Blind (sighted score noted) (activate shown) := by
  refine Blind.get_bind (fun _ => rfl) fun s => ?_
  split
  · exact Blind.pure _
  · refine Blind.bind (Blind.lift _) fun m? => ?_
    split
    · exact Blind.pure _
    · refine Blind.bind blind_makeRoom fun _ => ?_
      exact Blind.bind (blind_begin _ shown) fun _ => Blind.pure _

/-- Activations do not see the score, nor what was noted of it. -/
theorem blind_activateTimes (score : Datum) (noted : Binary64) (shown : Bool) (n : Nat) :
    Blind (sighted score noted) (activateTimes shown n) := by
  induction n with
  | zero => exact Blind.pure _
  | succ n ih =>
    exact Blind.bind (blind_activate shown) fun _ => Blind.bind ih fun _ => Blind.pure _

end Scheduler

end SeededPlay

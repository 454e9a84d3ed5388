/-
# `SeededPlay.Proofs.Chaos.Frame` — what chaos does to the state

Almost nothing.  A mutation that shifts the goal raises a flag if the state is in view
(`Mutation.raised_of_goalShift`); every other mutation leaves the state alone, and so do
taking back, a new level, and whatever goes on without the state in view.  These are
stated for any property of the state, so that they say at once that the state stays and
that what is known of it stays known.

A mutation that begins changes the list of what is active and, perhaps, that one flag
(`begin_spec`); an activation that succeeds is one such beginning, or changes nothing
(`activate_spec`).  Where no state is in view an activation leaves the state alone, and so
does taking a mutation back, whatever its record says.
-/
import SeededPlay.Proofs.Chaos.Steps
import SeededPlay.Proofs.Chaos.Success

namespace SeededPlay

open Attempt (Keeps)

/-- The flag that a shifted goal raises. -/
def goalFlag : String := "goal_shifted"

theorem Twist.raised_of_shiftGoal {stream : Stream} {nonce : Datum} {s s' : Scene} {undo : Undo}
    (h : Twist.apply .shiftGoal stream nonce true s = .ok undo s') :
    Effect.raiseFlag s.state goalFlag = .ok s'.state := by
  rw [apply_shiftGoal] at h
  split at h
  · cases h
  · -- Up to the flag only parameters are read and written.
    simp only [if_true, Scene.applyDatum_goal] at h
    unfold goalFlag
    cases hraise : Effect.raiseFlag s.state "goal_shifted" with
    | error f =>
      simp only [hraise] at h
      cases h
    | ok state =>
      simp only [hraise] at h
      obtain ⟨-, rfl⟩ := EStateM.Result.ok.inj h
      rfl

namespace Mutation

theorem twist_eq_shiftGoal {m : Mutation} : m.twist = .shiftGoal ↔ m = .goalShift := by
  cases m <;> decide

theorem raised_of_goalShift {stream : Stream} {nonce : Datum} {s s' : Scene} {undo : Undo}
    (h : Mutation.apply .goalShift stream nonce true s = .ok undo s') :
    Effect.raiseFlag s.state goalFlag = .ok s'.state := by
  unfold apply at h
  obtain ⟨earlier, t, hover, h⟩ := Attempt.bind_eq_ok.mp h
  obtain ⟨goal, t', htwist, h⟩ := Attempt.bind_eq_ok.mp h
  obtain ⟨-, rfl⟩ := Attempt.pure_eq_ok.mp h
  have hstate : t.state = s.state :=
    (keeps_overwrite fun _ _ _ _ _ =>
      Scene.keeps_setParam (P := (· = s.state)) _ _).of_ok hover rfl
  rw [← hstate]
  exact Twist.raised_of_shiftGoal htwist

theorem view_apply {m : Mutation} {stream : Stream} {nonce : Datum} {shown : Bool} {s s' : Scene}
    {undo : Undo} (h : m.apply stream nonce shown s = .ok undo s') :
    s'.state.score = s.state.score ∧ s'.state.elapsed = s.state.elapsed := by
  refine (m.keeps_state (P := fun st => st.score = s.state.score ∧ st.elapsed = s.state.elapsed)
    stream nonce shown fun _ _ st st' hraise hst => ?_).of_ok h ⟨rfl, rfl⟩
  obtain ⟨fields, -, rfl⟩ := Effect.raiseFlag_eq_ok.mp hraise
  exact hst

theorem keeps_state_revert {P : GameState → Prop} (m : Mutation) (undo : Undo) :
    Keeps (fun s => P s.state) (m.revert undo) := by
  have hparam : ∀ name earlier, Keeps (fun s => P s.state) (Scene.restoreParam name earlier) := by
    intro name earlier s hs
    rw [Scene.restoreParam_apply]
    exact hs
  exact m.keeps_revert Scene.keeps_setRules Scene.keeps_addRules hparam undo

end Mutation

namespace Scheduler

variable {P : GameState → Prop}

theorem keeps_state_revert (m : Mutation) :
    Keeps (fun c : Scheduler => P c.scene.state) (revert m) := by
  refine Keeps.bind Keeps.get fun c => ?_
  split
  · exact Keeps.pure _
  · rename_i a ha
    have hback : Keeps (fun s => P s.state) (m.revert a.undo) := m.keeps_state_revert a.undo
    refine Keeps.bind (Keeps.within hback (fun _ h => h) fun _ _ h => h) fun _ => ?_
    exact Keeps.bind (Keeps.modify fun _ h => h) fun _ => Keeps.pure _

theorem keeps_state_setLevel (level : ChaosLevel) :
    Keeps (fun c : Scheduler => P c.scene.state) (setLevel level) :=
  keeps_setLevel keeps_state_revert fun _ h => h

theorem keeps_state_expire (elapsed : Datum) :
    Keeps (fun c : Scheduler => P c.scene.state) (expire elapsed) :=
  keeps_expire keeps_state_revert elapsed

theorem keeps_state_makeRoom : Keeps (fun c : Scheduler => P c.scene.state) makeRoom :=
  keeps_makeRoom keeps_state_revert

/-- A mutation that begins: what is on the list, and what has become of the state. -/
theorem begin_spec {m : Mutation} {shown : Bool} {c c' : Scheduler} {a : ActiveMutation}
    (h : begin m shown c = .ok a c') : a.mutation = m ∧
      ∃ undo, m.apply c.stream (.int c.activations) shown c.scene = .ok undo c'.scene := by
  rw [begin_eq] at h
  split at h
  · cases h
  · rename_i undo scene happly
    split at h
    · cases h
    · obtain ⟨rfl, rfl⟩ := EStateM.Result.ok.inj h
      exact ⟨rfl, undo, happly⟩

/-- An activation that succeeds lets a mutation begin in the same state, or changes
nothing. -/
theorem activate_spec {shown : Bool} {c c' : Scheduler} {a? : Option ActiveMutation}
    (h : activate shown c = .ok a? c') : a? = none ∧ c' = c ∨
      ∃ a m c'', a? = some a ∧ c''.state = c.state ∧ begin m shown c'' = .ok a c' := by
  unfold activate at h
  obtain ⟨s, t, hget, h⟩ := Attempt.bind_eq_ok.mp h
  obtain ⟨rfl, rfl⟩ := EStateM.Result.ok.inj hget
  split at h
  · obtain ⟨rfl, rfl⟩ := Attempt.pure_eq_ok.mp h
    exact .inl ⟨rfl, rfl⟩
  · obtain ⟨m?, t, hdraw, h⟩ := Attempt.bind_eq_ok.mp h
    obtain ⟨-, rfl⟩ := Attempt.lift_eq_ok.mp hdraw
    cases m? with
    | none =>
      obtain ⟨rfl, rfl⟩ := Attempt.pure_eq_ok.mp h
      exact .inl ⟨rfl, rfl⟩
    | some m =>
      obtain ⟨u, t, hroom, h⟩ := Attempt.bind_eq_ok.mp h
      obtain ⟨a, t', hbegin, h⟩ := Attempt.bind_eq_ok.mp h
      obtain ⟨rfl, rfl⟩ := Attempt.pure_eq_ok.mp h
      have hstate : t.scene.state = c.scene.state :=
        (keeps_state_makeRoom (P := (· = c.scene.state))).of_ok hroom rfl
      exact .inr ⟨a, m, t, rfl, hstate, hbegin⟩

theorem keeps_state_activate : Keeps (fun c : Scheduler => P c.scene.state) (activate false) :=
  keeps_activate keeps_state_revert fun m => keeps_begin fun stream nonce =>
    m.keeps_state stream nonce false fun _ hshown => Bool.noConfusion hshown

/-- An activation for a state of its own: whatever happens to that state, the one in play
stays. -/
def activateFor (other : GameState) : Attempt Scheduler (Option ActiveMutation) :=
  (activate true).within (fun c => { c with scene := { c.scene with state := other } })
    fun c c' => { c' with scene := { c'.scene with state := c.scene.state } }

theorem keeps_state_activateFor (other : GameState) :
    Keeps (fun c : Scheduler => P c.scene.state) (activateFor other) := by
  intro c hc
  unfold activateFor Attempt.within
  split <;> exact hc

end Scheduler

end SeededPlay

/-
# `SeededPlay.Proofs.Play.Flags` — a flag that is set is seen, and stays set

An effect `name=word` raises the flag of the word, and the condition `flag:word` asks for it.
The two texts are read by different readers, but a word is a word to both of them, be it of
digits or of any script (`GameState.writesFlag`).

Nothing takes a flag down.  What happens to a state in play is written out as a turn
(`Turn`): events and effects under any rules, movements of the clock, calls of any chaos, and
mutations on their own, each of which may fail part way.  Of all these only effects write
flags, and all they write is that a flag is up (`IsUp.next`); so by induction on the turns a
flag that is up stays up (`IsUp.after`).

Raising a flag does not touch the other ones, so the conditions of other words hold as much
as before.  Chaos is covered by what a scheduler keeps: what raising a flag keeps of the
state, every call keeps that shows such a state (`keeps_raised_call`).
-/
import Mathlib
import SeededPlay.Proofs.Rules.Conditions
import SeededPlay.Proofs.Chaos.Permissive
import SeededPlay.Proofs.Play.Ledger

namespace SeededPlay

open Attempt (reached Keeps)

/-! ## Turns -/

/-- The call of a chaos in which the state at hand is shown, if the call shows any. -/
def Scheduler.Call.on (s : GameState) : Scheduler.Call → Scheduler.Call
  | .activate state => .activate (state.map fun _ => s)
  | .milestone state => .milestone (state.map fun _ => s)
  | .observe state => .observe (state.map fun _ => s)
  | .tick elapsed state => .tick elapsed (state.map fun _ => s)
  | call => call

/-- What can happen to a state in play. -/
inductive Turn where
  /-- An event under some rules. -/
  | event (rules : Engine) (trigger : Datum)
  /-- A raw effect, applied by some engine. -/
  | effect (rules : Engine) (effect : Datum)
  /-- An effect that has been read before. -/
  | parsed (effect : Effect)
  | clock (delta : Datum)
  /-- A call of some chaos that has the state in its scene. -/
  | chaos (scheduler : Scheduler) (call : Scheduler.Call)
  /-- A mutation applied in some scene. -/
  | mutate (m : Mutation) (stream : Stream) (nonce : Datum) (shown : Bool) (scene : Scene)
  /-- A mutation taken back in some scene, with whatever record. -/
  | takeBack (m : Mutation) (undo : Undo) (scene : Scene)

/-- The state that a turn leaves behind, whether it fails or not. -/
def Turn.next (s : GameState) : Turn → GameState
  | .event rules trigger => reached (rules.dispatchDatum trigger s)
  | .effect rules d => (rules.applyDatum d s).toOption.elim s (·.2)
  | .parsed e => (e.apply s).toOption.getD s
  | .clock delta => (s.advance delta).toOption.getD s
  | .chaos c call =>
    (reached ((call.on s).run { c with scene := { c.scene with state := s } })).scene.state
  | .mutate m stream nonce shown scene =>
    (reached (m.apply stream nonce shown { scene with state := s })).state
  | .takeBack m undo scene => (reached (m.revert undo { scene with state := s })).state

/-- The state after some turns. -/
def GameState.after (s : GameState) (turns : List Turn) : GameState := turns.foldl Turn.next s

/-! ## What chaos keeps -/

namespace Scheduler

variable {P : GameState → Prop}

theorem keeps_present {state : Option GameState} (h : ∀ st ∈ state, P st) :
    Keeps (fun c : Scheduler => P c.scene.state) (present state) := by
  refine Keeps.modify fun c hc => ?_
  cases state with
  | none => exact hc
  | some st => exact h st rfl

theorem keeps_raised_call (hP : ∀ {s s'}, Effect.raiseFlag s goalFlag = .ok s' → P s → P s')
    {call : Call} (hcall : call.Keeps (fun _ => True) P) :
    Keeps (fun c : Scheduler => P c.scene.state) call.run := by
  have hactivate := keeps_raised_activate hP
  cases call with
  | activate state => exact Keeps.bind (keeps_present hcall) fun _ => Keeps.discard (hactivate _)
  | milestone state => exact Keeps.bind (keeps_present hcall) fun _ => Keeps.discard (hactivate _)
  | observe state =>
    exact Keeps.bind (keeps_present hcall) fun _ =>
      Keeps.discard (keeps_observe (hactivate _) fun _ _ h => h)
  | tick elapsed state =>
    exact Keeps.bind (keeps_present hcall.2) fun _ =>
      Keeps.discard (keeps_tick (hactivate _) keeps_state_revert (fun _ h => h) fun _ h => h)
  | expire elapsed => exact Keeps.discard (keeps_state_expire elapsed)
  | revert id => exact Keeps.discard (keeps_revertNamed keeps_state_revert id)
  | revertAll => exact keeps_revertAll keeps_state_revert fun _ h => h
  | setLevel level => exact keeps_state_setLevel _
  | setWeights weights => exact Keeps.modify fun _ h => h

theorem Call.keeps_on {s : GameState} (h : P s) (call : Call) :
    (call.on s).Keeps (fun _ => True) P := by
  have hshown : ∀ state : Option GameState, ∀ st ∈ state.map fun _ => s, P st := by
    intro state st hst
    obtain ⟨_, -, rfl⟩ := Option.map_eq_some_iff.mp hst
    exact h
  cases call with
  | activate state => exact hshown state
  | milestone state => exact hshown state
  | observe state => exact hshown state
  | tick elapsed state => exact ⟨trivial, hshown state⟩
  | _ => trivial

end Scheduler

/-! ## Flags that are up -/

namespace GameState

variable {s s' : GameState} {word : String}

theorem isUp_raise (hraise : Effect.raiseFlag s word = .ok s') : s'.IsUp word := by
  obtain ⟨fields, -, rfl⟩ := Effect.raiseFlag_eq_ok.mp hraise
  exact congrArg Except.ok (Fields.get?_set_self _ _ _)

theorem member_raise (hraise : Effect.raiseFlag s word = .ok s') {other : String}
    (hne : other ≠ word) : member s'.flags other = member s.flags other := by
  obtain ⟨fields, hfields, rfl⟩ := Effect.raiseFlag_eq_ok.mp hraise
  rw [hfields]
  exact congrArg Except.ok (Fields.get?_set_of_ne _ _ hne.symm)

namespace IsUp

theorem raise (h : s.IsUp word) {other : String} (hraise : Effect.raiseFlag s other = .ok s') :
    s'.IsUp word := by
  by_cases hword : word = other
  · exact hword ▸ isUp_raise hraise
  · exact (member_raise hraise hword).trans h

theorem apply (h : s.IsUp word) {e : Effect} (happly : e.apply s = .ok s') : s'.IsUp word := by
  rcases (Effect.apply_spec happly).flags with ⟨other, -, hraise⟩ | ⟨-, hflags⟩
  · exact h.raise hraise
  · rw [IsUp, hflags]
    exact h

/-- No turn takes a flag down. -/
theorem next (h : s.IsUp word) (turn : Turn) : (turn.next s).IsUp word := by
  have hgoal : ∀ {st st' : GameState}, Effect.raiseFlag st goalFlag = .ok st' →
      st.IsUp word → st'.IsUp word := fun hraise hst => hst.raise hraise
  cases turn with
  | event rules trigger =>
    have hrun : ∀ cs, Keeps (fun st : GameState => st.IsUp word) (Engine.run cs) :=
      Engine.keeps_run fun happly hst => hst.apply happly
    have hevent : Keeps (fun st : GameState => st.IsUp word) (rules.dispatchDatum trigger) := by
      cases trigger with
      | text t => exact hrun _
      | _ => exact Keeps.pure _
    exact hevent s h
  | effect rules d =>
    rw [Turn.next]
    cases happlied : rules.applyDatum d s with
    | error f => exact h
    | ok result =>
      obtain ⟨e, -, happlied⟩ := bind_eq_ok.mp happlied
      obtain ⟨s', happly, hresult⟩ := bind_eq_ok.mp happlied
      obtain rfl := Except.ok.inj hresult
      exact h.apply happly
  | parsed e =>
    rw [Turn.next]
    cases happly : e.apply s with
    | error f => exact h
    | ok s' => exact h.apply happly
  | clock delta =>
    rw [Turn.next]
    cases hadvance : s.advance delta with
    | error f => exact h
    | ok s' =>
      have hflags : s'.flags = s.flags := by rw [(advance_spec hadvance).2]
      show s'.IsUp word
      rw [IsUp, hflags]
      exact h
  | chaos c call =>
    have hcall := Scheduler.keeps_raised_call hgoal (Scheduler.Call.keeps_on h call)
    exact hcall { c with scene := { c.scene with state := s } } h
  | mutate m stream nonce shown scene =>
    have hmutate := m.keeps_state stream nonce shown fun _ _ => hgoal
    exact hmutate { scene with state := s } h
  | takeBack m undo scene =>
    have hback := m.keeps_state_revert (P := fun st => st.IsUp word) undo
    exact hback { scene with state := s } h

theorem after (h : s.IsUp word) (turns : List Turn) : (s.after turns).IsUp word := by
  induction turns generalizing s with
  | nil => exact h
  | cons turn turns ih => exact ih (h.next turn)

end IsUp

theorem IsUp.holds (h : s.IsUp word) : (Condition.flag word).holds s = .ok true := by
  rw [Condition.holds, h]
  rfl

theorem writesFlag {word : String} (h : IsWord word.toList) (strict : Bool) :
    Condition.parse strict ("flag:" ++ word) = .ok (.flag word) := by
  have hname : "flag" ++ String.singleton ':' = "flag:" := by decide
  exact Condition.parse_flag strict ⟨by rw [hname], by decide, h⟩

end GameState

/-! ## Effects and conditions -/

/-- What an effect sets, a condition sees.  If a text is read as the flag of a word, applying
it succeeds in exactly the states whose flags are a record.  The condition of the word is read
as such, holds then, and goes on to hold through all turns, while the conditions of other
words hold as much as before. -/
theorem Engine.flag_holds_after {e : Engine} {text word : String}
    (hread : Effect.parse e.strict text = .ok (.flag word)) (s : GameState) :
    (∀ strict, Condition.parse strict ("flag:" ++ word) = .ok (.flag word)) ∧
    ((∃ result, e.applyDatum (.text text) s = .ok result) ↔
      ∃ fields, s.flags = .record fields) ∧
    ∀ effect s', e.applyDatum (.text text) s = .ok (effect, s') → effect = .flag word ∧
      (∀ turns, (Condition.flag word).holds (s'.after turns) = .ok true) ∧
      ∀ other : String, IsWord other.toList → other ≠ word →
        (∀ strict, Condition.parse strict ("flag:" ++ other) = .ok (.flag other)) ∧
        (Condition.flag other).holds s' = (Condition.flag other).holds s := by
  obtain ⟨name, -, -, hword⟩ := Effect.parse_eq_flag.mp hread
  have happlied : e.applyDatum (.text text) s =
      (Effect.raiseFlag s word).map fun s' => (.flag word, s') := by
    have hdatum : Effect.parseDatum e.strict (.text text) = .ok (.flag word) := hread
    have happly : (Effect.flag word).apply s = Effect.raiseFlag s word := rfl
    rw [applyDatum, hdatum]
    simp only [bind, Except.bind, happly]
    cases Effect.raiseFlag s word <;> rfl
  refine ⟨GameState.writesFlag hword, ?_, ?_⟩
  · rw [happlied]
    constructor
    · rintro ⟨result, hresult⟩
      obtain ⟨s', hraise, -⟩ := map_eq_ok.mp hresult
      obtain ⟨fields, hfields, -⟩ := Effect.raiseFlag_eq_ok.mp hraise
      exact ⟨fields, hfields⟩
    · rintro ⟨fields, hfields⟩
      exact ⟨_, map_eq_ok.mpr ⟨_, Effect.raiseFlag_eq_ok.mpr ⟨fields, hfields, rfl⟩, rfl⟩⟩
  · intro effect s' hresult
    rw [happlied] at hresult
    obtain ⟨st, hraise, hpair⟩ := map_eq_ok.mp hresult
    obtain ⟨rfl, rfl⟩ := Prod.mk.inj hpair
    refine ⟨rfl, fun turns => ((GameState.isUp_raise hraise).after turns).holds, ?_⟩
    intro other hother hne
    refine ⟨GameState.writesFlag hother, ?_⟩
    rw [Condition.holds, Condition.holds, GameState.member_raise hraise hne]

theorem Engine.flag_holds_after_door :
    Effect.parse false "door=7" = .ok (.flag "7") ∧
      ∃ s', (Engine.empty false).applyDatum (.text "door=7") {} = .ok (.flag "7", s') ∧
        ∀ turns, (Condition.flag "7").holds (s'.after turns) = .ok true := by
  have hread : Effect.parse (Engine.empty false).strict "door=7" = .ok (.flag "7") :=
    Effect.parse_eq_flag.mpr ⟨"door", by decide, by decide, by decide⟩
  obtain ⟨-, hsucceeds, hafter⟩ := Engine.flag_holds_after hread {}
  obtain ⟨⟨effect, s'⟩, happlied⟩ := hsucceeds.mpr ⟨[], rfl⟩
  obtain ⟨rfl, hholds, -⟩ := hafter effect s' happlied
  exact ⟨hread, s', happlied, hholds⟩

end SeededPlay

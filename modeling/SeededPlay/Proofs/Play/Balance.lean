/-
# `SeededPlay.Proofs.Play.Balance` — a session balances

Whatever is done to a session between two resets, its state is what the ledger says, with
the effects that the events returned (`Session.play_balances`).

What events return does not tell which mutations have begun meanwhile.  So each step is
also stated in full, with the mutations that began with the state in view; it is the same
step (`Session.Step.run_eq`).  A step enters what it returns in full
(`Session.Step.ledger_runFull`), and a run enters what its steps enter, whatever the chaos
layer makes of the rules in between (`Session.ledger_playFull`).

## Entering

An attempt enters what it lets begin (`Enters`).  Attempts that run one after another enter
what both let begin (`Enters.append`), and what happens before, without touching the state,
does not matter (`Enters.bind`).  So the mutations of an activation, of a row of them, of a
look at the score and of a tick are entered one by one, in the order in which they began.

## Steps and runs

An event enters the effects that it returned and what began upon them
(`ledger_handleFull`), a tick its amount and what the timer has set off (`ledger_tick`), and
whatever leaves the state alone and returns nothing enters nothing (`ledger_still`).  The
game and the strictness of a session stay under every step (`Step.keeps_game`), which is why
a reset can start over from them.
-/
import SeededPlay.Proofs.Play.Ledger
import SeededPlay.Proofs.SeedCode.Code

namespace SeededPlay

open Attempt (Keeps done? done?_eq_some)

/-! ## Entering what has begun -/

/-- An attempt whose outcome tells which mutations it let begin with the state in view, and
that has done nothing else to the state. -/
def Enters {σ α : Type} (view : σ → GameState) (told : α → List ActiveMutation)
    (x : Attempt σ α) : Prop :=
  ∀ ⦃g deltas effects begun s a s'⦄, x s = .ok a s' → Ledger g deltas effects begun (view s) →
    Ledger g deltas effects (begun ++ told a) (view s')

namespace Enters

variable {σ α β : Type} {view : σ → GameState} {told : α → List ActiveMutation}

theorem pure {a : α} (ha : told a = []) : Enters view told (pure a) := by
  intro g deltas effects begun s b s' hx h
  obtain ⟨rfl, rfl⟩ := Attempt.pure_eq_ok.mp hx
  rw [ha, List.append_nil]
  exact h

/-- What happens before, without touching the state, does not matter. -/
theorem bind {w : Attempt σ β} {f : β → Attempt σ α}
    (hw : ∀ P : GameState → Prop, Keeps (fun s => P (view s)) w)
    (hf : ∀ b, Enters view told (f b)) : Enters view told (w >>= f) := by
  intro g deltas effects begun s a s' hx h
  obtain ⟨b, t, hfirst, hrest⟩ := Attempt.bind_eq_ok.mp hx
  exact hf b hrest ((hw (Ledger g deltas effects begun)).of_ok hfirst h)

theorem append {x : Attempt σ α} {y : Attempt σ (List ActiveMutation)} (hx : Enters view told x)
    (hy : Enters view id y) : Enters view id (do return told (← x) ++ (← y)) := by
  intro g deltas effects begun s more s' hxy h
  obtain ⟨a, t, hfirst, hxy⟩ := Attempt.bind_eq_ok.mp hxy
  obtain ⟨rest, t', hrest, hxy⟩ := Attempt.bind_eq_ok.mp hxy
  obtain ⟨rfl, rfl⟩ := Attempt.pure_eq_ok.mp hxy
  show Ledger g deltas effects (begun ++ (told a ++ rest)) (view t')
  rw [← List.append_assoc]
  exact hy hrest (hx hfirst h)

end Enters

namespace Scheduler

theorem enters_activate : Enters state Option.toList (activate true) := by
  intro g deltas effects begun c a? c' hactivate h
  rcases activate_spec hactivate with ⟨rfl, rfl⟩ | ⟨a, m, c'', rfl, hstate, hbegin⟩
  · rw [Option.toList_none, List.append_nil]
    exact h
  · obtain ⟨rfl, undo, happly⟩ := begin_spec hbegin
    rw [← hstate] at h
    refine h.begin (fun hgoal => ?_) fun hother => ?_
    · rw [hgoal] at happly
      exact Mutation.raised_of_goalShift happly
    · have hkeep := a.mutation.keeps_state (P := (· = c''.scene.state)) c''.stream
        (.int c''.activations) true fun htwist _ =>
          absurd (Mutation.twist_eq_shiftGoal.mp htwist) hother
      exact hkeep.of_ok happly rfl

theorem enters_activateTimes (n : Nat) : Enters state id (activateTimes true n) := by
  induction n with
  | zero => exact Enters.pure rfl
  | succ n ih => exact Enters.append enters_activate ih

theorem enters_observe : Enters state id (observe true) := by
  refine Enters.bind (fun _ => Keeps.get) fun c => ?_
  refine Enters.bind (fun _ => Keeps.lift _) fun score => ?_
  refine Enters.bind (fun _ => Keeps.modify fun _ h => h) fun _ => ?_
  split
  · exact Enters.pure rfl
  · exact Enters.bind (fun _ => Keeps.lift _) fun n => enters_activateTimes _

theorem enters_tick (elapsed : Datum) : Enters state Option.toList (tick elapsed true) := by
  refine Enters.bind (fun _ => Keeps.modify fun _ h => h) fun _ => ?_
  refine Enters.bind (fun _ => Keeps.discard (keeps_state_expire elapsed)) fun _ => ?_
  refine Enters.bind (fun _ => Keeps.get) fun c => ?_
  refine Enters.bind (fun _ => Keeps.lift _) fun due => ?_
  split
  · exact Enters.bind (fun _ => Keeps.modify fun _ h => h) fun _ => enters_activate
  · exact Enters.pure rfl

end Scheduler

/-! ## Runs of a session -/

namespace Session

/-- What is done to a session from outside between two resets. -/
inductive Step where
  | event (trigger : Datum)
  | tick (delta : Datum)
  /-- A mutation asked for, with the state in view or without. -/
  | activate (shown : Bool)
  /-- A mutation asked for with another state in view. -/
  | activateFor (other : GameState)
  | setLevel (level : Datum)

/-- What a step does; events return their effects. -/
def Step.run : Step → Attempt Session (List Effect)
  | .event trigger => handle trigger
  | .tick delta => do
    discard (Session.tick delta)
    return []
  | .activate shown => do
    discard (onChaos (Scheduler.activate shown))
    return []
  | .activateFor other => do
    discard (onChaos (Scheduler.activateFor other))
    return []
  | .setLevel level => do
    onChaos (Scheduler.setLevel (.ofDatum level))
    return []

/-- The amount by which a step moves the clock. -/
def Step.delta? : Step → Option Number
  | .tick delta => delta.positive?
  | _ => none

/-- Steps one after another, up to the first that fails; all returned effects in order. -/
def play : List Step → Attempt Session (List Effect)
  | [] => return []
  | step :: steps => do
    let effects ← step.run
    let rest ← play steps
    return effects ++ rest

/-! ### With the mutations that have begun -/

/-- The mutation that begins upon an effect, if the effect signals chaos. -/
def signalFull (e : Effect) : Attempt Session (Option ActiveMutation) :=
  if e.type = "chaos" then onChaos (Scheduler.activate true) else return none

/-- The mutations that begin upon effects. -/
def signalChaosFull : List Effect → Attempt Session (List ActiveMutation)
  | [] => return []
  | e :: es => do return (← signalFull e).toList ++ (← signalChaosFull es)

/-- An event handled: its effects, and what began upon signals and milestones. -/
def handleFull (trigger : Datum) : Attempt Session (List Effect × List ActiveMutation) := do
  let effects ← onScene (Scene.dispatchDatum trigger)
  modify fun s => { s with events := s.events + 1 }
  let signalled ← signalChaosFull effects
  let passed ← onChaos (Scheduler.observe true)
  return (effects, signalled ++ passed)

/-- A step with the mutations that it let begin with the session's state in view. -/
def Step.runFull : Step → Attempt Session (List Effect × List ActiveMutation)
  | .event trigger => handleFull trigger
  | .tick delta => do return ([], (← Session.tick delta).toList)
  | .activate true => do return ([], (← onChaos (Scheduler.activate true)).toList)
  | .activate false => do
    discard (onChaos (Scheduler.activate false))
    return ([], [])
  | .activateFor other => do
    discard (onChaos (Scheduler.activateFor other))
    return ([], [])
  | .setLevel level => do
    onChaos (Scheduler.setLevel (.ofDatum level))
    return ([], [])

/-- A run with the mutations that it let begin with the session's state in view. -/
def playFull : List Step → Attempt Session (List Effect × List ActiveMutation)
  | [] => return ([], [])
  | step :: steps => do
    let first ← step.runFull
    let rest ← playFull steps
    return (first.1 ++ rest.1, first.2 ++ rest.2)

theorem signalChaos_eq (effects : List Effect) :
    signalChaos effects = discard (signalChaosFull effects) := by
  induction effects with
  | nil => rfl
  | cons e es ih =>
    unfold signalChaos signalChaosFull signalFull
    rw [ih]
    simp only [Attempt.discard_eq_bind, bind_assoc, pure_bind]
    split
    · rfl
    · simp only [pure_bind]

theorem handle_eq (trigger : Datum) : handle trigger = Prod.fst <$> handleFull trigger := by
  unfold handle handleFull
  simp only [signalChaos_eq, Attempt.discard_bind, map_bind, map_pure]

theorem Step.run_eq (step : Step) : step.run = Prod.fst <$> step.runFull := by
  cases step with
  | event trigger => exact handle_eq trigger
  | activate shown =>
    unfold run runFull
    cases shown <;> simp only [Attempt.discard_bind, map_bind, map_pure]
  | _ =>
    unfold run runFull
    simp only [Attempt.discard_bind, map_bind, map_pure]

theorem play_eq (steps : List Step) : play steps = Prod.fst <$> playFull steps := by
  induction steps with
  | nil => rfl
  | cons step steps ih =>
    unfold play playFull
    rw [ih, step.run_eq]
    simp only [map_bind, map_pure, bind_map_left]

/-! ### What a step enters -/

theorem enters_onChaos {α : Type} {told : α → List ActiveMutation} {x : Attempt Scheduler α}
    (hx : Enters Scheduler.state told x) : Enters state told (onChaos x) := by
  intro g deltas effects begun s a s' hrun h
  obtain ⟨c, hc, rfl⟩ := Attempt.within_eq_ok.mp hrun
  exact hx hc h

theorem enters_signalChaosFull (effects : List Effect) :
    Enters state id (signalChaosFull effects) := by
  induction effects with
  | nil => exact Enters.pure rfl
  | cons e es ih =>
    refine Enters.append ?_ ih
    unfold signalFull
    split
    · exact enters_onChaos Scheduler.enters_activate
    · exact Enters.pure rfl

theorem keeps_onChaos {P : GameState → Prop} {α : Type} {x : Attempt Scheduler α}
    (hx : Keeps (fun c : Scheduler => P c.scene.state) x) :
    Keeps (fun s : Session => P s.state) (onChaos x) :=
  Keeps.within hx (fun _ h => h) fun _ _ h => h

theorem of_onScene {α : Type} {x : Attempt Scene α} {s s' : Session} {a : α}
    (h : onScene x s = .ok a s') : ∃ scene, x s.chaos.scene = .ok a scene ∧
      s' = { s with chaos := { s.chaos with scene } } := by
  unfold onScene onChaos Scheduler.onScene at h
  obtain ⟨c, hc, rfl⟩ := Attempt.within_eq_ok.mp h
  obtain ⟨scene, hscene, rfl⟩ := Attempt.within_eq_ok.mp hc
  exact ⟨scene, hscene, rfl⟩

/-- A tick moves the clock of the state, and then the scheduler looks at it. -/
theorem tick_apply (delta : Datum) (s : Session) :
    tick delta s = match s.state.advance delta with
      | .error f => .error f s
      | .ok state => onChaos (Scheduler.tick state.elapsed true)
          { s with chaos := { s.chaos with scene := { s.chaos.scene with state } } } := by
  have hstate : s.state = s.chaos.scene.state := rfl
  unfold tick onScene onChaos Scheduler.onScene Scene.advance
  rw [hstate]
  cases h : s.chaos.scene.state.advance delta with
  | error f =>
    simp only [Attempt.bind_apply, Attempt.within_apply, Attempt.get_apply, h, Attempt.lift_error]
  | ok state =>
    simp only [Attempt.bind_apply, Attempt.within_apply, Attempt.get_apply, h, Attempt.lift_ok,
      Attempt.modify_apply]
    rfl

theorem tick_eq_ok {delta : Datum} {a? : Option ActiveMutation} {s s' : Session}
    (h : tick delta s = .ok a? s') : ∃ state, s.state.advance delta = .ok state ∧
      ∃ chaos, Scheduler.tick state.elapsed true
          { s.chaos with scene := { s.chaos.scene with state } } = .ok a? chaos ∧
        s' = { s with chaos } := by
  rw [tick_apply] at h
  split at h
  · cases h
  · rename_i state hadvance
    obtain ⟨chaos, hchaos, rfl⟩ := Attempt.within_eq_ok.mp h
    exact ⟨state, hadvance, chaos, hchaos, rfl⟩

variable {g : Game} {deltas : List Number} {effects more : List Effect}
  {begun new : List ActiveMutation} {s s' : Session}

/-- The effects that an event returns are entered, and so is what began upon them. -/
theorem ledger_handleFull {trigger : Datum} (h : Ledger g deltas effects begun s.state)
    (hrun : handleFull trigger s = .ok (more, new) s') :
    Ledger g deltas (effects ++ more) (begun ++ new) s'.state := by
  unfold handleFull at hrun
  obtain ⟨es, t, hdispatch, hrun⟩ := Attempt.bind_eq_ok.mp hrun
  obtain ⟨u, t', hcount, hrun⟩ := Attempt.bind_eq_ok.mp hrun
  obtain ⟨-, rfl⟩ := EStateM.Result.ok.inj hcount
  -- The effects are entered first; what they signal begins in the state that they left.
  obtain ⟨signalled, t₁, hsignal, hrun⟩ := Attempt.bind_eq_ok.mp hrun
  obtain ⟨passed, t₂, hobserve, hrun⟩ := Attempt.bind_eq_ok.mp hrun
  obtain ⟨hreturned, rfl⟩ := Attempt.pure_eq_ok.mp hrun
  obtain ⟨rfl, rfl⟩ := Prod.mk.inj hreturned
  have hevent : Ledger g deltas (effects ++ es) begun t.state := by
    obtain ⟨scene, hscene, rfl⟩ := of_onScene hdispatch
    obtain ⟨c, t, hget, hscene⟩ := Attempt.bind_eq_ok.mp hscene
    obtain ⟨rfl, rfl⟩ := EStateM.Result.ok.inj hget
    obtain ⟨state, hstate, rfl⟩ := Attempt.within_eq_ok.mp hscene
    exact h.applyAll (Engine.applyAll_of_dispatchDatum hstate)
  have hsignalled := enters_signalChaosFull es hsignal hevent
  rw [← List.append_assoc]
  exact enters_onChaos Scheduler.enters_observe hobserve hsignalled

theorem ledger_tick {delta : Datum} {a? : Option ActiveMutation}
    (h : Ledger g deltas effects begun s.state) (hrun : Session.tick delta s = .ok a? s') :
    Ledger g (deltas ++ delta.positive?.toList) effects (begun ++ a?.toList) s'.state := by
  obtain ⟨state, hadvance, chaos, htick, rfl⟩ := tick_eq_ok hrun
  exact Scheduler.enters_tick _ htick (h.advance hadvance)

theorem ledger_still {x : Attempt Session Unit}
    (hx : ∀ P : GameState → Prop, Keeps (fun s => P s.state) x)
    (h : Ledger g deltas effects begun s.state)
    (hrun : (do x; return ([], [])) s = .ok (more, new) s') :
    Ledger g deltas (effects ++ more) (begun ++ new) s'.state := by
  obtain ⟨u, t, hdone, hrun⟩ := Attempt.bind_eq_ok.mp hrun
  obtain ⟨hreturned, rfl⟩ := Attempt.pure_eq_ok.mp hrun
  obtain ⟨rfl, rfl⟩ := Prod.mk.inj hreturned
  rw [List.append_nil, List.append_nil]
  exact (hx (Ledger g deltas effects begun)).of_ok hdone h

/-- A step enters what it returns, what it let begin, and by how much it moved the clock. -/
theorem Step.ledger_runFull {step : Step} (h : Ledger g deltas effects begun s.state)
    (hrun : step.runFull s = .ok (more, new) s') :
    Ledger g (deltas ++ step.delta?.toList) (effects ++ more) (begun ++ new) s'.state := by
  have hstill : ∀ {more new s'}, Ledger g deltas (effects ++ more) (begun ++ new) s' →
      Ledger g (deltas ++ (none : Option Number).toList) (effects ++ more) (begun ++ new) s' := by
    intro more new s' h
    rw [Option.toList_none, List.append_nil]
    exact h
  cases step with
  | event trigger => exact hstill (ledger_handleFull h hrun)
  | tick delta =>
    obtain ⟨a?, t, htick, hrun⟩ := Attempt.bind_eq_ok.mp hrun
    obtain ⟨hreturned, rfl⟩ := Attempt.pure_eq_ok.mp hrun
    obtain ⟨rfl, rfl⟩ := Prod.mk.inj hreturned
    rw [List.append_nil]
    exact ledger_tick h htick
  | activate shown =>
    cases shown with
    | true =>
      obtain ⟨a?, t, hactivate, hrun⟩ := Attempt.bind_eq_ok.mp hrun
      obtain ⟨hreturned, rfl⟩ := Attempt.pure_eq_ok.mp hrun
      obtain ⟨rfl, rfl⟩ := Prod.mk.inj hreturned
      refine hstill ?_
      rw [List.append_nil]
      exact enters_onChaos Scheduler.enters_activate hactivate h
    | false =>
      have hkeep := fun P => Keeps.discard (keeps_onChaos (Scheduler.keeps_state_activate (P := P)))
      exact hstill (ledger_still hkeep h hrun)
  | activateFor other =>
    have hkeep := fun P =>
      Keeps.discard (keeps_onChaos (Scheduler.keeps_state_activateFor (P := P) other))
    exact hstill (ledger_still hkeep h hrun)
  | setLevel level =>
    exact hstill (ledger_still (fun P => keeps_onChaos (Scheduler.keeps_state_setLevel _)) h hrun)

theorem ledger_playFull {steps : List Step} (h : Ledger g deltas effects begun s.state)
    (hrun : playFull steps s = .ok (more, new) s') :
    Ledger g (deltas ++ steps.filterMap Step.delta?) (effects ++ more) (begun ++ new) s'.state := by
  -- The entries so far are arbitrary, so that each step starts from what the last has left.
  induction steps generalizing deltas effects begun more new s with
  | nil =>
    obtain ⟨hreturned, rfl⟩ := Attempt.pure_eq_ok.mp hrun
    obtain ⟨rfl, rfl⟩ := Prod.mk.inj hreturned
    rw [List.filterMap_nil, List.append_nil, List.append_nil, List.append_nil]
    exact h
  | cons step steps ih =>
    obtain ⟨first, t, hstep, hrun⟩ := Attempt.bind_eq_ok.mp hrun
    obtain ⟨rest, t', hsteps, hrun⟩ := Attempt.bind_eq_ok.mp hrun
    obtain ⟨hreturned, rfl⟩ := Attempt.pure_eq_ok.mp hrun
    obtain ⟨rfl, rfl⟩ := Prod.mk.inj hreturned
    have hdeltas : (step :: steps).filterMap Step.delta? =
        step.delta?.toList ++ steps.filterMap Step.delta? := by
      rw [List.filterMap_cons]
      cases step.delta? <;> rfl
    rw [hdeltas, ← List.append_assoc, ← List.append_assoc, ← List.append_assoc]
    exact ih (step.ledger_runFull h hstep) hsteps

/-! ### The balance of a run -/

theorem keeps_game_onChaos {α : Type} (x : Attempt Scheduler α) (g : Game) (strict : Bool) :
    Keeps (fun s : Session => s.game = g ∧ s.strict = strict) (onChaos x) := by
  intro s hs
  unfold onChaos Attempt.within
  split <;> exact hs

theorem Step.keeps_game (step : Step) (g : Game) (strict : Bool) :
    Keeps (fun s : Session => s.game = g ∧ s.strict = strict) step.run := by
  have hchaos : ∀ {α : Type} (x : Attempt Scheduler α),
      Keeps (fun s : Session => s.game = g ∧ s.strict = strict) (onChaos x) :=
    fun x => keeps_game_onChaos x g strict
  cases step with
  | event trigger =>
    have hsignal : ∀ es, Keeps (fun s : Session => s.game = g ∧ s.strict = strict)
        (signalChaos es) := by
      intro es
      induction es with
      | nil => exact Keeps.pure _
      | cons e es ih =>
        rw [signalChaos]
        split
        · exact Keeps.bind (Keeps.discard (hchaos _)) fun _ => ih
        · exact ih
    refine Keeps.bind (hchaos _) fun es => ?_
    refine Keeps.bind (Keeps.modify fun _ h => h) fun _ => ?_
    refine Keeps.bind (hsignal es) fun _ => ?_
    exact Keeps.bind (Keeps.discard (hchaos _)) fun _ => Keeps.pure _
  | tick delta =>
    refine Keeps.bind (Keeps.discard ?_) fun _ => Keeps.pure _
    exact Keeps.bind (hchaos _) fun _ => Keeps.bind Keeps.get fun _ => hchaos _
  | setLevel level => exact Keeps.bind (hchaos _) fun _ => Keeps.pure _
  | _ => exact Keeps.bind (Keeps.discard (hchaos _)) fun _ => Keeps.pure _

theorem keeps_game (steps : List Step) (g : Game) (strict : Bool) :
    Keeps (fun s : Session => s.game = g ∧ s.strict = strict) (play steps) := by
  induction steps with
  | nil => exact Keeps.pure _
  | cons step steps ih =>
    exact Keeps.bind (step.keeps_game g strict) fun _ => Keeps.bind ih fun _ => Keeps.pure _

theorem of_start {g : Game} {strict : Bool} {s : Session} (h : start g strict = .ok s) :
    s.game = g ∧ s.strict = strict ∧ s.state = initialState g := by
  obtain ⟨rules, -, h⟩ := bind_eq_ok.mp h
  obtain rfl := Except.ok.inj h
  exact ⟨rfl, rfl, rfl⟩

theorem start_of_read {g : Game} {strict : Bool} {e : Engine} {level : ChaosLevel}
    (hrules : Engine.ofRules strict g.rules = .ok e) (hlevel : g.chaos.level = level.value) :
    start g strict = .ok ⟨g, strict, Scheduler.start level (SeedCode.decode g.code).seed e
      g.world.params (initialState g), 0⟩ := by
  have hread : ChaosLevel.ofDatum (.int g.chaos.level) = level := by
    rw [hlevel]
    exact ChaosLevel.ofDatum_datum level
  unfold start
  rw [hrules, hread]
  rfl

/-- A session balances, whatever is done to it between two resets, as long as nothing
fails: after any run its state is what the ledger of the run says, with the effects that
the events returned and the mutations that began; a flag that is up stays up in every
continuation; and a reset brings the session back to where the run began. -/
theorem play_balances {g : Game} {strict : Bool} {s₀ s : Session} {steps : List Step}
    {effects : List Effect} (hstart : start g strict = .ok s₀)
    (hrun : play steps s₀ = .ok effects s) :
    (∃ begun, playFull steps s₀ = .ok (effects, begun) s ∧
      Ledger g (steps.filterMap Step.delta?) effects begun s.state) ∧
    (∀ steps' effects' s', play steps' s = .ok effects' s' →
      ∀ word, s.state.IsUp word → s'.state.IsUp word) ∧
    s.reset = .ok s₀ := by
  obtain ⟨hgame, hstrict, hstate⟩ := of_start hstart
  have hinitial : Ledger g [] [] [] s₀.state := by
    rw [hstate]
    exact Ledger.initial g
  rw [play_eq, Attempt.map_eq_ok] at hrun
  obtain ⟨⟨es, begun⟩, hfull, rfl⟩ := hrun
  have hledger := ledger_playFull hinitial hfull
  rw [List.nil_append, List.nil_append, List.nil_append] at hledger
  refine ⟨⟨begun, hfull, hledger⟩, fun steps' effects' s' hmore word hup => ?_, ?_⟩
  · rw [play_eq, Attempt.map_eq_ok] at hmore
    obtain ⟨⟨es', begun'⟩, hfull', -⟩ := hmore
    have hlater := ledger_playFull hledger hfull'
    rw [hledger.flags.isUp_iff] at hup
    rw [hlater.flags.isUp_iff]
    exact hup.mono (List.subset_append_left _ _) (List.subset_append_left _ _)
  · have hrun : play steps s₀ = .ok es s := by
      rw [play_eq, Attempt.map_eq_ok]
      exact ⟨_, hfull, rfl⟩
    obtain ⟨hg, hs⟩ := (keeps_game steps g strict).of_ok hrun ⟨hgame, hstrict⟩
    unfold reset
    rw [hg, hs, hstart]

theorem play_balances_coin :
    let coin : CompiledRule :=
      ⟨.always "player_collect_coin" "add_score" "score+1", .always, .arithmetic "score" .plus 1⟩
    let door : CompiledRule :=
      ⟨.always "player_enter_door" "open" "set=door", .always, .flag "door"⟩
    let g : Game :=
      { id := "game_0", code := "JUMP-NORM-COLR5-0006", name := "Coins", chaos := { level := 60 }
        rules := [coin.rule, door.rule] }
    let coins : Step := .event (.text "player_collect_coin")
    let steps : List Step := [coins, coins, .event (.text "player_enter_door"), .tick (.int 500),
      .activate true, coins]
    ∃ s₀ s, start g false = .ok s₀ ∧
      play steps s₀ = .ok [.arithmetic "score" .plus 1, .arithmetic "score" .plus 1, .flag "door",
        .arithmetic "score" .minus 1] s ∧
      s.chaos.active.map (·.mutation) = [.scoreReverse] ∧ s.state.score = .int 1 ∧
      s.state.elapsed = .int 500 ∧ s.state.IsUp "door" ∧ s.reset = .ok s₀ := by
  intro coin door g coins steps
  have hcoin : CompiledRule.ofRule false coin.rule = .ok coin :=
    CompiledRule.ofRule_eq_ok.mpr ⟨rfl, eq_ok_of_toOption (by decide +kernel), rfl⟩
  have hdoor : CompiledRule.ofRule false door.rule = .ok door :=
    CompiledRule.ofRule_eq_ok.mpr ⟨rfl, eq_ok_of_toOption (by decide +kernel), rfl⟩
  have hrules : Engine.ofRules false g.rules = .ok ⟨false, [coin, door]⟩ := by
    refine map_eq_ok.mpr ⟨[coin, door], Engine.compile_eq_ok.mpr ⟨rfl, ?_⟩, rfl⟩
    exact List.forall_mem_cons.mpr ⟨hcoin, List.forall_mem_singleton.mpr hdoor⟩
  let level : ChaosLevel := ⟨60, by decide⟩
  have hlevel : g.chaos.level = level.value := rfl
  let s₀ : Session := ⟨g, false, Scheduler.start level (SeedCode.decode g.code).seed
    ⟨false, [coin, door]⟩ g.world.params (initialState g), 0⟩
  have hstart : start g false = .ok s₀ := start_of_read hrules hlevel
  have hplay : (done? (play steps) s₀).map (fun r => (r.1, r.2.chaos.active.map (·.mutation))) =
      some ([.arithmetic "score" .plus 1, .arithmetic "score" .plus 1, .flag "door",
        .arithmetic "score" .minus 1], [.scoreReverse]) := by
    decide +kernel
  obtain ⟨⟨effects, s⟩, hdone, heq⟩ := Option.map_eq_some_iff.mp hplay
  obtain ⟨rfl, hactive⟩ := Prod.mk.inj heq
  have hrun := done?_eq_some.mp hdone
  obtain ⟨⟨begun, -, hledger⟩, -, hreset⟩ := play_balances hstart hrun
  have hup : s.state.IsUp "door" := by
    rw [hledger.flags.isUp_iff]
    exact .inl (by decide)
  have hmoved : steps.filterMap Step.delta? = [.int 500] := by decide +kernel
  have helapsed := hledger.elapsed
  rw [hmoved] at helapsed
  exact ⟨s₀, s, hstart, hrun, hactive, (Except.ok.inj hledger.score).symm,
    (Except.ok.inj helapsed).symm, hup, hreset⟩

end Session

end SeededPlay

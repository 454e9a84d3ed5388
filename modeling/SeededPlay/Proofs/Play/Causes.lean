/-
# `SeededPlay.Proofs.Play.Causes` — every cause activates exactly once

A session in play is moved by events and by its clock.  What the moves return, with the
score before and after each event, is the log of a run (`Session.Entry`), and the log alone
tells how many activations there have been: one for every effect about chaos, one for every
milestone that the score has passed on its way up, one for every tick that returned a
mutation (`Session.activations_eq_causes`).  A step enters what it sets off
(`Session.Accounts.event`, `Session.Accounts.tick`), and a run what its steps enter.

The milestones are those that the scheduler sees.  As long as all scores stay below
`2 ^ 53` these are the milestones that there are; beyond, one may be missed
(`Session.milestone_missed`).

## The accounts

`Accounts` says of a session and a log that the count of activations is the sum of the three
kinds of causes in the log, and that the scheduler has seen the score which the log ends
with.  An event applies its effects, and sets off one activation for every signal among them
and for every milestone between the score that was last seen and the score that it left
(`handle_spec`).  The effects of an event move neither the clock nor the score off the
doubles (`view_applyAll`), so the next event can be entered as well.

Two ways of counting milestones that agree on the scores of a log count the same
(`passed_congr`): the count with doubles, which is what the scheduler does, and the exact one.
-/
import SeededPlay.Proofs.Chaos.Milestones
import SeededPlay.Proofs.Chaos.Occasions
import SeededPlay.Proofs.Play.Balance

namespace SeededPlay

open Attempt (reached Keeps done? done?_eq_some)
open Scheduler (Activated)

namespace Session

/-! ## Moves and their log -/

/-- What moves a session in play. -/
inductive Move where
  | event (trigger : Datum)
  | tick (delta : Int)

/-- What a move tells: an event its effects, with the score before and after; a tick the
mutation that the timer set off. -/
inductive Entry where
  | event (effects : List Effect) (before after : Datum)
  | tick (activated : Option ActiveMutation)

def Move.run : Move → Attempt Session Entry
  | .event trigger => do
    let before ← get
    let effects ← handle trigger
    let after ← get
    return .event effects before.state.score after.state.score
  | .tick delta => do return .tick (← Session.tick (.int delta))

/-- Moves one after another, up to the first that fails, with what they tell. -/
def log : List Move → Attempt Session (List Entry)
  | [] => return []
  | move :: moves => do
    let entry ← move.run
    return entry :: (← log moves)

namespace Entry

/-- The effects about chaos that an event returned. -/
def signals : Entry → Nat
  | .event effects _ _ => effects.countP (·.type = "chaos")
  | .tick _ => 0

/-- The milestones that the score passed on its way up, when they are counted in some way. -/
def passed (milestones : Datum → Int) : Entry → Int
  | .event _ before after => max 0 (milestones after - milestones before)
  | .tick _ => 0

/-- One if the timer set a mutation off. -/
def timed : Entry → Nat
  | .event .. => 0
  | .tick activated => activated.toList.length

/-- The scores that an entry speaks of. -/
def scores : Entry → List Datum
  | .event _ before after => [before, after]
  | .tick _ => []

end Entry

def signals (entries : List Entry) : Nat := (entries.map Entry.signals).sum

def passed (milestones : Datum → Int) (entries : List Entry) : Int :=
  (entries.map (Entry.passed milestones)).sum

def timed (entries : List Entry) : Nat := (entries.map Entry.timed).sum

theorem signals_concat (entries : List Entry) (entry : Entry) :
    signals (entries ++ [entry]) = signals entries + entry.signals := by
  simp only [signals, List.map_append, List.map_singleton, List.sum_append, List.sum_singleton]

theorem passed_concat (milestones : Datum → Int) (entries : List Entry) (entry : Entry) :
    passed milestones (entries ++ [entry]) =
      passed milestones entries + entry.passed milestones := by
  simp only [passed, List.map_append, List.map_singleton, List.sum_append, List.sum_singleton]

theorem timed_concat (entries : List Entry) (entry : Entry) :
    timed (entries ++ [entry]) = timed entries + entry.timed := by
  simp only [timed, List.map_append, List.map_singleton, List.sum_append, List.sum_singleton]

theorem passed_congr {f g : Datum → Int} {entries : List Entry}
    (h : ∀ entry ∈ entries, ∀ score ∈ entry.scores, f score = g score) :
    passed f entries = passed g entries := by
  unfold passed
  refine congrArg List.sum (List.map_congr_left fun entry hentry => ?_)
  have hentry := h entry hentry
  cases entry with
  | event effects before after =>
    have hbefore := hentry before List.mem_cons_self
    have hafter := hentry after (List.mem_cons_of_mem before List.mem_cons_self)
    simp only [Entry.passed, hbefore, hafter]
  | tick activated => rfl

/-! ## The accounts of a run -/

/-- What has set activations off so far, and what sets off the next. -/
structure Accounts (interval period : Nat) (entries : List Entry) (s : Session) : Prop where
  supplied : s.chaos.Supplied
  milestone : s.chaos.tier.milestone = some interval
  timer : s.chaos.tier.period = some period
  /-- The score has been seen. -/
  seen : s.state.score.seen = .ok s.chaos.lastScore
  rounded : s.state.score.IsRounded
  entered : ∀ entry ∈ entries, ∀ score ∈ entry.scores, score.IsRounded
  count : (s.chaos.activations : Int) =
    signals entries + passed (Datum.milestonesSeen interval) entries + timed entries
  /-- Every beat took a period. -/
  clock : ∃ elapsed beat : Int, s.state.elapsed = .int elapsed ∧
    s.chaos.lastTrigger.StandsAt beat ∧ timed entries * period ≤ beat ∧ beat ≤ elapsed

theorem view_applyAll {effects : List Effect} {s s' : GameState}
    (h : Effect.applyAll effects s = .ok s') :
    s'.elapsed = s.elapsed ∧ (s.score.IsRounded → s'.score.IsRounded) := by
  induction effects generalizing s with
  | nil =>
    obtain rfl := Except.ok.inj h
    exact ⟨rfl, id⟩
  | cons e effects ih =>
    unfold Effect.applyAll at h
    rw [List.foldlM_cons] at h
    obtain ⟨t, ht, h⟩ := bind_eq_ok.mp h
    obtain ⟨helapsed, hrounded⟩ := ih h
    have happlied := Effect.apply_spec ht
    refine ⟨helapsed.trans happlied.elapsed, fun hs => hrounded ?_⟩
    have hscore := happlied.score
    cases he : e.amountOn "score" with
    | none =>
      rw [he] at hscore
      rw [← Except.ok.inj hscore]
      exact hs
    | some amount =>
      rw [he, Option.toList_some, Datum.plusAll_singleton] at hscore
      exact Datum.isRounded_plus hscore

theorem activated_of_signalChaos {effects : List Effect} {s s' : Session} {u : Unit}
    (hs : s.chaos.Supplied) (h : signalChaos effects s = .ok u s') :
    Activated (effects.countP (·.type = "chaos")) s.chaos s'.chaos := by
  induction effects generalizing s with
  | nil =>
    obtain ⟨-, rfl⟩ := Attempt.pure_eq_ok.mp h
    exact .refl hs
  | cons e effects ih =>
    unfold signalChaos at h
    by_cases hchaos : e.type = "chaos"
    · rw [if_pos hchaos] at h
      obtain ⟨v, t, hactivate, h⟩ := Attempt.bind_eq_ok.mp h
      obtain ⟨a?, hactivate⟩ := Attempt.discard_eq_ok.mp hactivate
      obtain ⟨c, hc, rfl⟩ := Attempt.within_eq_ok.mp hactivate
      have hone := (Scheduler.activated_of_activate hs hc).2
      rw [List.countP_cons_of_pos (by simpa using hchaos), Nat.add_comm]
      exact hone.trans (ih hone.supplied h)
    · rw [if_neg hchaos] at h
      rw [List.countP_cons_of_neg (by simpa using hchaos)]
      exact ih hs h

variable {interval period : Nat} {entries : List Entry} {s s' : Session} {entry : Entry}

/-- An event applies its effects, and sets off one activation for every signal among them
and for every milestone between the score that was last seen and the score that it left. -/
theorem handle_spec (hs : s.chaos.Supplied) (hinterval : s.chaos.tier.milestone = some interval)
    {trigger : Datum} {effects : List Effect} (hrun : handle trigger s = .ok effects s') :
    ∃ state score n, Effect.applyAll effects s.state = .ok state ∧ state.score.seen = .ok score ∧
      Scheduler.crossed interval s.chaos.lastScore score = .ok n ∧
      Activated (effects.countP (·.type = "chaos") + n.toNat)
        { s.chaos with scene := { s.chaos.scene with state }, lastScore := score } s'.chaos := by
  unfold handle at hrun
  obtain ⟨es, t, hdispatch, hrun⟩ := Attempt.bind_eq_ok.mp hrun
  obtain ⟨u, t', hcount, hrun⟩ := Attempt.bind_eq_ok.mp hrun
  obtain ⟨-, rfl⟩ := EStateM.Result.ok.inj hcount
  obtain ⟨v, t₁, hsignal, hrun⟩ := Attempt.bind_eq_ok.mp hrun
  obtain ⟨w, t₂, hobserve, hrun⟩ := Attempt.bind_eq_ok.mp hrun
  obtain ⟨rfl, rfl⟩ := Attempt.pure_eq_ok.mp hrun
  obtain ⟨scene, hscene, rfl⟩ := of_onScene hdispatch
  obtain ⟨c, t, hget, hscene⟩ := Attempt.bind_eq_ok.mp hscene
  obtain ⟨rfl, rfl⟩ := EStateM.Result.ok.inj hget
  obtain ⟨state, hstate, rfl⟩ := Attempt.within_eq_ok.mp hscene
  have hmoved : Scheduler.Supplied { s.chaos with scene := { s.chaos.scene with state } } :=
    hs.noted
  have hsignalled := activated_of_signalChaos hmoved hsignal
  obtain ⟨as, hobserve⟩ := Attempt.discard_eq_ok.mp hobserve
  obtain ⟨c, hc, rfl⟩ := Attempt.within_eq_ok.mp hobserve
  have htier : t₁.chaos.tier.milestone = some interval :=
    (congrArg Tier.milestone hsignalled.tier).trans hinterval
  obtain ⟨score, n, hscore, hcrossed, hobserved⟩ :=
    Scheduler.observe_spec hsignalled.supplied htier hc
  rw [Scheduler.scoreOf_eq, hsignalled.score] at hscore
  rw [hsignalled.lastScore] at hcrossed
  exact ⟨state, score, n, Engine.applyAll_of_dispatchDatum hstate, hscore, hcrossed,
    (hsignalled.see score).trans hobserved⟩

/-- An event enters its signals and the milestones that the score has passed. -/
theorem Accounts.event (h : Accounts interval period entries s) {trigger : Datum}
    (hrun : (Move.event trigger).run s = .ok entry s') :
    Accounts interval period (entries ++ [entry]) s' := by
  obtain ⟨before, t, hget, hrun⟩ := Attempt.bind_eq_ok.mp hrun
  obtain ⟨rfl, rfl⟩ := EStateM.Result.ok.inj hget
  obtain ⟨effects, t, hhandle, hrun⟩ := Attempt.bind_eq_ok.mp hrun
  obtain ⟨after, t', hget', hrun⟩ := Attempt.bind_eq_ok.mp hrun
  obtain ⟨rfl, rfl⟩ := EStateM.Result.ok.inj hget'
  obtain ⟨rfl, rfl⟩ := Attempt.pure_eq_ok.mp hrun
  obtain ⟨state, score, n, happly, hseen, hcrossed, hactivated⟩ :=
    handle_spec h.supplied h.milestone hhandle
  obtain ⟨helapsed, hrounded⟩ := view_applyAll happly
  have hscore : t.state.score = state.score := hactivated.score
  have hrounded : t.state.score.IsRounded := by
    rw [hscore]
    exact hrounded h.rounded
  have hn := Datum.crossed_eq h.seen hseen hcrossed
  obtain ⟨elapsed, beat, hclock, hbeat, hperiods, hle⟩ := h.clock
  refine ⟨hactivated.supplied, ?_, ?_, ?_, hrounded, ?_, ?_, ?_⟩
  · exact (congrArg Tier.milestone hactivated.tier).trans h.milestone
  · exact (congrArg Tier.period hactivated.tier).trans h.timer
  · rw [hscore, hactivated.lastScore]
    exact hseen
  · intro entry hentry
    rcases List.mem_append.mp hentry with hentry | hentry
    · exact h.entered entry hentry
    · obtain rfl := List.mem_singleton.mp hentry
      exact List.forall_mem_cons.mpr ⟨h.rounded, List.forall_mem_singleton.mpr hrounded⟩
  · have hcount : t.chaos.activations = s.chaos.activations + (_ + n.toNat) := hactivated.count
    rw [signals_concat, passed_concat, timed_concat, hcount]
    simp only [Entry.signals, Entry.passed, Entry.timed, hscore, ← hn]
    have hmax := Int.toNat_eq_max n
    have hbefore := h.count
    omega
  · refine ⟨elapsed, beat, ?_, ?_, ?_, hle⟩
    · exact (hactivated.elapsed.trans helapsed).trans hclock
    · rw [hactivated.lastTrigger]
      exact hbeat
    · rw [timed_concat]
      exact hperiods

theorem advance_int {state : GameState} {t : Int} (hclock : state.elapsed = .int t) (delta : Int) :
    state.advance (.int delta) = .ok { state with elapsed := .int (t + max 0 delta) } := by
  have hzero : max 0 delta = 0 → .int (t + max 0 delta) = state.elapsed := by
    intro h
    rw [h, Int.add_zero, hclock]
  unfold GameState.advance
  cases hpresent : (Datum.int delta).isPresent with
  | false =>
    have hdelta : delta = 0 :=
      not_not.mp fun hne => Bool.eq_false_iff.mp hpresent (bne_iff_ne.mpr hne)
    rw [hzero (by omega)]
    rfl
  | true =>
    show (if (Number.int 0).lt (.int delta) = true then
      (state.elapsed.plus (.int delta)).map fun elapsed => { state with elapsed }
      else .ok state) = _
    split
    · rename_i hpos
      have hpos := Number.lt_int_iff.mp hpos
      rw [hclock, Int.max_eq_right (by omega)]
      rfl
    · rename_i hpos
      have hpos := mt Number.lt_int_iff.mpr hpos
      rw [hzero (by omega)]

theorem exists_elapsed {state state' : GameState} {delta elapsed : Int}
    (h : state.advance (.int delta) = .ok state') (hclock : state.elapsed = .int elapsed) :
    ∃ elapsed', state' = { state with elapsed := .int elapsed' } ∧ elapsed ≤ elapsed' := by
  have hstate := Except.ok.inj (h.symm.trans (advance_int hclock delta))
  exact ⟨_, hstate, by omega⟩

theorem Accounts.tick (h : Accounts interval period entries s) (hsmall : period < 2 ^ 53)
    {delta : Int} (hrun : (Move.tick delta).run s = .ok entry s') :
    Accounts interval period (entries ++ [entry]) s' := by
  obtain ⟨elapsed, beat, hclock, hbeat, hperiods, hle⟩ := h.clock
  obtain ⟨a?, t, htick, hrun⟩ := Attempt.bind_eq_ok.mp hrun
  obtain ⟨rfl, rfl⟩ := Attempt.pure_eq_ok.mp hrun
  obtain ⟨state, hadvance, c, hc, rfl⟩ := tick_eq_ok htick
  obtain ⟨elapsed', rfl, hlater⟩ := exists_elapsed hadvance hclock
  have hmoved : Scheduler.Supplied { s.chaos with
      scene := { s.chaos.scene with state := { s.state with elapsed := .int elapsed' } } } :=
    h.supplied.noted
  obtain ⟨due, hdue, hsome, hactivated⟩ := Scheduler.tick_spec hmoved hc
  have hscore : c.state.score = s.state.score := hactivated.score
  have htimed : (Entry.tick a?).timed = if due = true then 1 else 0 := by
    rw [← hsome]
    cases a? <;> rfl
  refine ⟨hactivated.supplied, ?_, ?_, ?_, ?_, ?_, ?_, ?_⟩
  · exact (congrArg Tier.milestone hactivated.tier).trans h.milestone
  · exact (congrArg Tier.period hactivated.tier).trans h.timer
  · show c.state.score.seen = .ok c.lastScore
    rw [hscore, hactivated.lastScore]
    exact h.seen
  · show c.state.score.IsRounded
    rw [hscore]
    exact h.rounded
  · intro entry hentry
    rcases List.mem_append.mp hentry with hentry | hentry
    · exact h.entered entry hentry
    · obtain rfl := List.mem_singleton.mp hentry
      exact fun _ hscore => absurd hscore List.not_mem_nil
  · have hcount : c.activations = s.chaos.activations + if due = true then 1 else 0 :=
      hactivated.count
    have hbefore := h.count
    show (c.activations : Int) = _
    rw [signals_concat, passed_concat, timed_concat, hcount, htimed]
    simp only [Entry.signals, Entry.passed]
    omega
  · have hstart : (0 : Int) ≤ timed entries * period :=
      Int.mul_nonneg (Int.natCast_nonneg _) (Int.natCast_nonneg _)
    rw [timed_concat, htimed]
    cases due with
    | false => exact ⟨elapsed', beat, hactivated.elapsed, hactivated.lastTrigger ▸ hbeat, hperiods,
        Int.le_trans hle hlater⟩
    | true =>
      have hdown := Scheduler.isDue_spec h.timer hsmall (by omega) hbeat hdue
      refine ⟨elapsed', elapsed', hactivated.elapsed, .inl hactivated.lastTrigger, ?_,
        Int.le_refl _⟩
      rw [if_pos rfl, Int.natCast_add, Int.natCast_one, Int.add_mul, Int.one_mul]
      omega

theorem Accounts.log (h : Accounts interval period entries s) (hsmall : period < 2 ^ 53)
    {moves : List Move} {more : List Entry} (hrun : log moves s = .ok more s') :
    Accounts interval period (entries ++ more) s' := by
  induction moves generalizing entries more s with
  | nil =>
    obtain ⟨rfl, rfl⟩ := Attempt.pure_eq_ok.mp hrun
    rw [List.append_nil]
    exact h
  | cons move moves ih =>
    obtain ⟨entry, t, hmove, hrun⟩ := Attempt.bind_eq_ok.mp hrun
    obtain ⟨rest, t', hrest, hrun⟩ := Attempt.bind_eq_ok.mp hrun
    obtain ⟨rfl, rfl⟩ := Attempt.pure_eq_ok.mp hrun
    rw [List.append_cons]
    refine ih ?_ hrest
    cases move with
    | event trigger => exact h.event hmove
    | tick delta => exact h.tick hsmall hmove

/-! ## From the start -/

theorem start_spec {g : Game} {strict : Bool} (h : start g strict = .ok s) :
    ∃ rules, Engine.ofRules strict g.rules = .ok rules ∧
      s = ⟨g, strict, Scheduler.start (.ofDatum (.int g.chaos.level)) (SeedCode.decode g.code).seed
        rules g.world.params (initialState g), 0⟩ := by
  obtain ⟨rules, hrules, h⟩ := bind_eq_ok.mp h
  exact ⟨rules, hrules, (Except.ok.inj h).symm⟩

theorem level_of_start {g : Game} {strict : Bool} (h : start g strict = .ok s)
    (hlow : 0 ≤ g.chaos.level) (hhigh : g.chaos.level ≤ 100) :
    (s.chaos.level.value : Int) = g.chaos.level := by
  obtain ⟨rules, -, rfl⟩ := start_spec h
  obtain ⟨n, hn⟩ := Int.eq_ofNat_of_zero_le hlow
  have hlevel := ChaosLevel.ofDatum_datum ⟨n, by omega⟩
  show ((ChaosLevel.ofDatum (.int g.chaos.level)).value : Int) = _
  rw [hn]
  exact congrArg (fun level : ChaosLevel => (level.value : Int)) hlevel

theorem Accounts.initial {g : Game} {strict : Bool} (h : start g strict = .ok s)
    (hgraded : s.chaos.level.IsGraded) (hinterval : s.chaos.tier.milestone = some interval)
    (hperiod : s.chaos.tier.period = some period) : Accounts interval period [] s := by
  obtain ⟨rules, hrules, rfl⟩ := start_spec h
  have hsound := (Engine.ofRules_spec hrules).2.2
  generalize ChaosLevel.ofDatum (.int g.chaos.level) = level at hgraded hinterval hperiod ⊢
  exact
    { supplied := Scheduler.Supplied.start hsound hgraded _ _ _
      milestone := hinterval
      timer := hperiod
      seen := rfl
      rounded := trivial
      entered := fun _ hentry => absurd hentry List.not_mem_nil
      count := rfl
      clock := by
        refine ⟨0, 0, rfl, .inr ⟨rfl, rfl⟩, ?_, Int.le_refl 0⟩
        rw [timed, List.map_nil, List.sum_nil, Int.natCast_zero, Int.zero_mul] }

/-! ## What a scheduler keeps -/

section

variable {Q : Scheduler → Prop}

theorem keeps_chaos {α : Type} {x : Attempt Scheduler α} (hx : Keeps Q x) :
    Keeps (fun s : Session => Q s.chaos) (onChaos x) :=
  Keeps.within hx (fun _ h => h) fun _ _ h => h

theorem keeps_chaos_handle {trigger : Datum}
    (hdispatch : Keeps Q (Scheduler.onScene (Scene.dispatchDatum trigger)))
    (hactivate : Keeps Q (Scheduler.activate true)) (hobserve : Keeps Q (Scheduler.observe true)) :
    Keeps (fun s : Session => Q s.chaos) (handle trigger) := by
  have hsignal : ∀ effects, Keeps (fun s : Session => Q s.chaos) (signalChaos effects) := by
    intro effects
    induction effects with
    | nil => exact Keeps.pure _
    | cons e effects ih =>
      unfold signalChaos
      split
      · exact Keeps.bind (Keeps.discard (keeps_chaos hactivate)) fun _ => ih
      · exact ih
  refine Keeps.bind (keeps_chaos hdispatch) fun effects => ?_
  refine Keeps.bind (Keeps.modify fun _ h => h) fun _ => Keeps.bind (hsignal effects) fun _ => ?_
  exact Keeps.bind (Keeps.discard (keeps_chaos hobserve)) fun _ => Keeps.pure _

theorem Move.keeps_chaos_event {trigger : Datum}
    (h : Keeps (fun s : Session => Q s.chaos) (handle trigger)) :
    Keeps (fun s : Session => Q s.chaos) (Move.event trigger).run :=
  Keeps.bind Keeps.get fun _ => Keeps.bind h fun _ => Keeps.bind Keeps.get fun _ => Keeps.pure _

end

/-! ## Without chaos -/

theorem Move.keeps_idle (move : Move) : Keeps (fun s : Session => s.chaos.Idle) move.run := by
  cases move with
  | event trigger => exact keeps_chaos_event (keeps_chaos_handle (Scheduler.keeps_idle_onScene _)
      (Scheduler.keeps_idle_activate true) (Scheduler.keeps_idle_observe true))
  | tick delta =>
    refine Keeps.bind ?_ fun _ => Keeps.pure _
    refine Keeps.bind (keeps_chaos (Scheduler.keeps_idle_onScene _)) fun _ => ?_
    exact Keeps.bind Keeps.get fun _ => keeps_chaos (Scheduler.keeps_idle_tick _ true)

theorem keeps_idle_log (moves : List Move) :
    Keeps (fun s : Session => s.chaos.Idle) (log moves) := by
  induction moves with
  | nil => exact Keeps.pure _
  | cons move moves ih =>
    exact Keeps.bind move.keeps_idle fun _ => Keeps.bind ih fun _ => Keeps.pure _

/-! ## Every run -/

/-- Every cause activates exactly once.  On a level from 1 to 75, after a run of events and
ticks that does not fail, there have been as many activations as the log has effects about
chaos, milestones that the score passed on its way up, and ticks that returned a mutation;
and the ticks that did have taken a period each.  The milestones are counted as the
scheduler sees them, which for moderate scores is what they are.  On level 0 there is never
an activation, whether a run fails or not. -/
theorem activations_eq_causes {g : Game} {strict : Bool} {s₀ : Session}
    (hstart : start g strict = .ok s₀) :
    (1 ≤ g.chaos.level ∧ g.chaos.level ≤ 75 → ∃ interval period,
      (s₀.chaos.level.value : Int) = g.chaos.level ∧
      s₀.chaos.tier.milestone = some interval ∧ s₀.chaos.tier.period = some period ∧
      ∀ moves entries s, log moves s₀ = .ok entries s →
        (s.chaos.activations : Int) =
          signals entries + passed (Datum.milestonesSeen interval) entries + timed entries ∧
        ((∀ entry ∈ entries, ∀ score ∈ entry.scores, score.Moderate interval) →
          (s.chaos.activations : Int) =
            signals entries + passed (Datum.milestones interval) entries + timed entries) ∧
        ∃ elapsed : Int, s.state.elapsed = .int elapsed ∧ timed entries * period ≤ elapsed) ∧
    (g.chaos.level = 0 → ∀ moves, (reached (log moves s₀)).chaos.activations = 0) := by
  constructor
  · rintro ⟨hlow, hhigh⟩
    have hlevel := level_of_start hstart (by omega) (by omega)
    have hgraded : s₀.chaos.level.IsGraded := ⟨by omega, by omega⟩
    obtain ⟨interval, period, hinterval, hperiod, ⟨hpos, hsmall⟩, hshort⟩ :=
      hgraded.exists_timetable
    refine ⟨interval, period, hlevel, hinterval, hperiod, fun moves entries s hrun => ?_⟩
    have haccounts := (Accounts.initial hstart hgraded hinterval hperiod).log hshort hrun
    rw [List.nil_append] at haccounts
    refine ⟨haccounts.count, fun hmoderate => ?_, ?_⟩
    · have hsame : passed (Datum.milestonesSeen interval) entries =
          passed (Datum.milestones interval) entries :=
        passed_congr fun entry hentry score hscore => Datum.milestonesSeen_eq hpos hsmall
          (haccounts.entered entry hentry score hscore) (hmoderate entry hentry score hscore)
      rw [← hsame]
      exact haccounts.count
    · obtain ⟨elapsed, beat, helapsed, -, hperiods, hle⟩ := haccounts.clock
      exact ⟨elapsed, helapsed, Int.le_trans hperiods hle⟩
  · intro hzero moves
    have hlevel := level_of_start hstart (by omega) (by omega)
    have hidle : s₀.chaos.Idle := by
      obtain ⟨rules, -, rfl⟩ := start_spec hstart
      refine Scheduler.Idle.start ?_ _ _ _ _
      exact Int.natCast_eq_zero.mp (hlevel.trans hzero)
    exact (keeps_idle_log moves s₀ hidle).still

theorem activations_eq_causes_spark :
    let spark : CompiledRule := ⟨.always "player_collect_spark" "light_up" "chaos:trigger", .always,
      .trigger "chaos"⟩
    let g : Game :=
      { id := "game_0", code := "", name := "Sparks", chaos := { level := 60 }
        rules := [spark.rule] }
    let moves : List Move := [.event (.text "player_collect_spark"), .tick 500]
    ∃ s₀ entries s, start g false = .ok s₀ ∧ 1 ≤ g.chaos.level ∧ g.chaos.level ≤ 75 ∧
      log moves s₀ = .ok entries s ∧ signals entries = 1 ∧ (s.chaos.activations : Int) =
        signals entries + passed (Datum.milestones 100) entries + timed entries := by
  intro spark g moves
  have hspark : CompiledRule.ofRule false spark.rule = .ok spark :=
    CompiledRule.ofRule_eq_ok.mpr ⟨rfl, eq_ok_of_toOption (by decide +kernel), rfl⟩
  let level : ChaosLevel := ⟨60, by decide⟩
  have hlevel : g.chaos.level = level.value := rfl
  let s₀ : Session := ⟨g, false, Scheduler.start level (SeedCode.decode g.code).seed
    ⟨false, [spark]⟩ g.world.params (initialState g), 0⟩
  have hstart : start g false = .ok s₀ :=
    start_of_read (Engine.ofRules_singleton hspark) hlevel
  have hplay : (done? (log moves) s₀).map (fun r => decide (signals r.1 = 1 ∧
      ∀ entry ∈ r.1, ∀ score ∈ entry.scores, score.Moderate 100)) = some true := by
    decide +kernel
  obtain ⟨⟨entries, s⟩, hdone, heq⟩ := Option.map_eq_some_iff.mp hplay
  obtain ⟨hsignals, hmoderate⟩ := of_decide_eq_true heq
  have hrun := done?_eq_some.mp hdone
  obtain ⟨interval, period, -, hinterval, -, hruns⟩ :=
    (activations_eq_causes hstart).1 ⟨by decide, by decide⟩
  obtain rfl : 100 = interval := Option.some.inj hinterval
  exact ⟨s₀, entries, s, hstart, by decide, by decide, hrun, hsignals,
    (hruns moves entries s hrun).2.1 hmoderate⟩

/-- Not every milestone that the score passes is seen.  A score below
`-10 ^ 17` that rises to it passes a milestone, but as doubles the two are the same. -/
theorem milestone_missed :
    let fall : CompiledRule := ⟨.always "fall" "lose" "score-100000000000000001", .always,
      .arithmetic "score" .minus 100000000000000001⟩
    let rise : CompiledRule :=
      ⟨.always "rise" "gain" "score+1", .always, .arithmetic "score" .plus 1⟩
    let g : Game :=
      { id := "game_0", code := "", name := "Depths", chaos := { level := 60 }
        rules := [fall.rule, rise.rule] }
    let moves : List Move := [.event (.text "fall"), .event (.text "rise")]
    ∃ s₀ entries s, start g false = .ok s₀ ∧ s₀.chaos.tier.milestone = some 100 ∧
      log moves s₀ = .ok entries s ∧ s.chaos.activations = 0 ∧ signals entries = 0 ∧
      passed (Datum.milestones 100) entries = 1 ∧ timed entries = 0 := by
  intro fall rise g moves
  have hfall : CompiledRule.ofRule false fall.rule = .ok fall :=
    CompiledRule.ofRule_eq_ok.mpr ⟨rfl, eq_ok_of_toOption (by decide +kernel), rfl⟩
  have hrise : CompiledRule.ofRule false rise.rule = .ok rise :=
    CompiledRule.ofRule_eq_ok.mpr ⟨rfl, eq_ok_of_toOption (by decide +kernel), rfl⟩
  have hrules : Engine.ofRules false g.rules = .ok ⟨false, [fall, rise]⟩ := by
    refine map_eq_ok.mpr ⟨[fall, rise], Engine.compile_eq_ok.mpr ⟨rfl, ?_⟩, rfl⟩
    exact List.forall_mem_cons.mpr ⟨hfall, List.forall_mem_singleton.mpr hrise⟩
  let level : ChaosLevel := ⟨60, by decide⟩
  have hlevel : g.chaos.level = level.value := rfl
  let s₀ : Session := ⟨g, false, Scheduler.start level (SeedCode.decode g.code).seed
    ⟨false, [fall, rise]⟩ g.world.params (initialState g), 0⟩
  have hplay : (done? (log moves) s₀).map (fun r => (r.2.chaos.activations, signals r.1,
      passed (Datum.milestones 100) r.1, timed r.1)) = some (0, 0, 1, 0) := by
    decide +kernel
  obtain ⟨⟨entries, s⟩, hdone, heq⟩ := Option.map_eq_some_iff.mp hplay
  simp only [Prod.mk.injEq] at heq
  exact ⟨s₀, entries, s, start_of_read hrules hlevel, rfl, done?_eq_some.mp hdone, heq⟩

end Session

end SeededPlay

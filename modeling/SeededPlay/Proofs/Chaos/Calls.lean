/-
# `SeededPlay.Proofs.Chaos.Calls` — what keeps an invariant through every run

A run is any sequence of calls, each with whatever state, time, level or name the
caller has at hand (`Call`).  A call can fail, and the caller may go on with what was
reached, so a run continues from the state that a call reached either way (`runAll`).

An invariant of runs need not be checked call by call.  All that a call does is to
note something down, to take mutations back, to let ready ones begin, to change the
level or to put the parameters to what they were at the start.  `Invariant` asks for
these five, and `Invariant.runAll` gives every run.

What callers promise enters as two predicates: `T` holds of the times that are passed
in and `G` of the states; the calls of a run keep to them (`Call.Keeps`).

## What is asked of an invariant, and what is not

Two invariants hold together if one of them needs no promise (`Invariant.and`), so an
invariant can build on the consistency of the scheduler without carrying it along.  What
is only noted down, beside a state that stays, is one step for all of the counters
(`During.noted`), and the state that a call is shown is put in place before anything else
happens (`present`).  Taking everything back is the one call with a step of its own:
nothing is active then, and only after that are the parameters put to what they were at
the start (`revertAll_spec`).
-/
import SeededPlay.Proofs.Chaos.Scheduler
import SeededPlay.Proofs.Chaos.Steps

namespace SeededPlay

open Attempt (reached Keeps)

namespace Scheduler

/-! ## Calls -/

/-- A call from outside.  A call that is shown a state goes by its clock and score. -/
inductive Call where
  | activate (state : Option GameState)
  | milestone (state : Option GameState)
  | observe (state : Option GameState)
  | tick (elapsed : Datum) (state : Option GameState)
  | expire (elapsed : Datum)
  | revert (id : String)
  | revertAll
  | setLevel (level : Datum)
  | setWeights (weights : Fields Datum)

/-- The state of a call put in place, if there is one. -/
def present (state : Option GameState) : Attempt Scheduler Unit :=
  modify fun s => { s with scene := { s.scene with state := state.getD s.scene.state } }

/-- What a call does. -/
def Call.run : Call → Attempt Scheduler Unit
  | .activate state => do
    present state
    discard (Scheduler.activate state.isSome)
  | .milestone state => do
    present state
    discard (Scheduler.activate state.isSome)
  | .observe state => do
    present state
    discard (Scheduler.observe state.isSome)
  | .tick elapsed state => do
    present state
    discard (Scheduler.tick elapsed state.isSome)
  | .expire elapsed => discard (Scheduler.expire elapsed)
  | .revert id => discard (revertNamed id)
  | .revertAll => Scheduler.revertAll
  | .setLevel level => Scheduler.setLevel (.ofDatum level)
  | .setWeights weights => Scheduler.setWeights weights

/-- The scheduler after some calls. -/
def runAll (s : Scheduler) (calls : List Call) : Scheduler :=
  calls.foldl (fun s c => reached (c.run s)) s

theorem runAll_append (s : Scheduler) (calls more : List Call) :
    s.runAll (calls ++ more) = (s.runAll calls).runAll more := List.foldl_append

/-- A call whose time and state are as promised. -/
def Call.Keeps (T : Datum → Prop) (G : GameState → Prop) : Call → Prop
  | .activate state => ∀ st ∈ state, G st
  | .milestone state => ∀ st ∈ state, G st
  | .observe state => ∀ st ∈ state, G st
  | .tick elapsed state => T elapsed ∧ ∀ st ∈ state, G st
  | _ => True

theorem Call.keeps_true (c : Call) : c.Keeps (fun _ => True) (fun _ => True) := by
  cases c <;> simp [Call.Keeps]

theorem Call.Keeps.imp {T T' : Datum → Prop} {G G' : GameState → Prop} (hT : ∀ t, T t → T' t)
    (hG : ∀ st, G st → G' st) {c : Call} (h : c.Keeps T G) : c.Keeps T' G' := by
  have hstates : ∀ {state : Option GameState}, (∀ st ∈ state, G st) → ∀ st ∈ state, G' st :=
    fun h st hst => hG st (h st hst)
  cases c with
  | activate state => exact hstates h
  | milestone state => exact hstates h
  | observe state => exact hstates h
  | tick elapsed state => exact ⟨hT _ h.1, hstates h.2⟩
  | _ => trivial

/-- Two schedulers that differ in what was noted down only: the state that was shown,
the weights, the last score and the times. -/
structure Note (T : Datum → Prop) (s s' : Scheduler) : Prop where
  base : s'.base = s.base
  rules : s'.scene.rules = s.scene.rules
  params : s'.scene.params = s.scene.params
  level : s'.level = s.level
  active : s'.active = s.active
  history : s'.history = s.history
  activations : s'.activations = s.activations
  clock : s'.clock = s.clock ∨ T s'.clock

/-- Intact, and within what the level allows. -/
structure Consistent (s : Scheduler) : Prop where
  intact : s.Intact
  fits : s.Fits

/-- Taking everything back leaves nothing active, and then the parameters are put to what
they were at the start. -/
theorem revertAll_spec {s : Scheduler} (h : s.Intact) :
    ∃ scene : Scene, reached (revertEach (s.active.reverse.map (·.mutation)) s) =
        { s with scene, active := [] } ∧
      reached (revertAll s) = { s with scene := { scene with params := s.base }, active := [] } := by
  obtain ⟨scene, heach, -⟩ := revertEach_spec h (s.active.reverse.map (·.mutation))
  have hnone : s.active.filter (·.mutation ∉ s.active.reverse.map (·.mutation)) = [] := by
    refine List.filter_eq_nil_iff.mpr fun a ha hnot => ?_
    have hmem : a.mutation ∈ s.active.reverse.map (·.mutation) :=
      List.mem_map_of_mem (List.mem_reverse.mpr ha)
    simp only [decide_eq_true_eq] at hnot
    exact hnot hmem
  rw [hnone] at heach
  refine ⟨scene, congrArg reached heach, ?_⟩
  unfold revertAll
  simp only [Attempt.bind_apply, Attempt.get_apply, heach, Attempt.modify_apply,
    Attempt.reached_ok]

/-! ## Invariants of runs -/

/-- What makes a property an invariant of runs. -/
structure Invariant (T : Datum → Prop) (G : GameState → Prop) (I : Scheduler → Prop) : Prop where
  consistent : ∀ {s}, I s → s.Consistent
  note : ∀ {s s'}, Note T s s' → I s → I s'
  revert : ∀ {s}, I s → ∀ m, I (reached (revert m s))
  begin : ∀ {s}, I s → ∀ {m}, Ready m s → ∀ {shown : Bool},
    (shown = true → G s.scene.state) → I (reached (Scheduler.begin m shown s))
  beginState : ∀ {s}, I s → ∀ {m}, Ready m s → G s.scene.state →
    G (reached (Scheduler.begin m true s)).scene.state
  setLevel : ∀ {s}, I s → ∀ level, I (reached (setLevel level s))
  reset : ∀ {s}, I s → s.active = [] → I { s with scene := { s.scene with params := s.base } }

namespace Invariant

variable {T : Datum → Prop} {G : GameState → Prop} {I : Scheduler → Prop}

/-- The invariant, and the promise about the state that a call is shown. -/
def During (G : GameState → Prop) (I : Scheduler → Prop) (shown : Bool) (s : Scheduler) : Prop :=
  I s ∧ (shown = true → G s.scene.state)

theorem During.quiet {s : Scheduler} (hs : I s) : During G I false s :=
  ⟨hs, fun hf => Bool.noConfusion hf⟩

theorem congr {J : Scheduler → Prop} (h : Invariant T G I) (hIJ : ∀ s, I s ↔ J s) :
    Invariant T G J := by
  obtain rfl : I = J := funext fun s => propext (hIJ s)
  exact h

theorem and {J : Scheduler → Prop} (h : Invariant T G I)
    (h' : Invariant (fun _ => True) (fun _ => True) J) : Invariant T G (fun s => I s ∧ J s) where
  consistent := fun hs => h.consistent hs.1
  note := fun hn hs => by
    refine ⟨h.note hn hs.1, h'.note ?_ hs.2⟩
    exact ⟨hn.base, hn.rules, hn.params, hn.level, hn.active, hn.history, hn.activations,
      hn.clock.imp_right fun _ => trivial⟩
  revert := fun hs m => ⟨h.revert hs.1 m, h'.revert hs.2 m⟩
  begin := fun hs _ hready _ hstate =>
    ⟨h.begin hs.1 hready hstate, h'.begin hs.2 hready fun _ => trivial⟩
  beginState := fun hs _ hready hg => h.beginState hs.1 hready hg
  setLevel := fun hs level => ⟨h.setLevel hs.1 level, h'.setLevel hs.2 level⟩
  reset := fun hs hactive => ⟨h.reset hs.1 hactive, h'.reset hs.2 hactive⟩

theorem keeps_revert (h : Invariant T G I) (shown : Bool) (m : Mutation) :
    Keeps (During G I shown) (Scheduler.revert m) := by
  intro s hs
  obtain ⟨b, scene, hstate, -, hrevert, -⟩ := revert_spec (h.consistent hs.1).intact m
  refine ⟨h.revert hs.1 m, fun hshown => ?_⟩
  rw [hrevert, Attempt.reached_ok, hstate]
  exact hs.2 hshown

theorem During.noted (h : Invariant T G I) {shown : Bool} {s s' : Scheduler}
    (hs : During G I shown s) (hnote : Note T s s') (hstate : s'.scene.state = s.scene.state) :
    During G I shown s' := by
  refine ⟨h.note hnote hs.1, fun hshown => ?_⟩
  rw [hstate]
  exact hs.2 hshown

theorem keeps_makeRoom (h : Invariant T G I) (shown : Bool) :
    Keeps (During G I shown) makeRoom := Scheduler.keeps_makeRoom (h.keeps_revert shown)

theorem keeps_activate (h : Invariant T G I) (shown : Bool) :
    Keeps (During G I shown) (Scheduler.activate shown) := by
  intro s hs
  have hc := h.consistent hs.1
  rcases activate_cases hc.intact hc.fits shown with heq | ⟨m, s', hs', -, -, hready, heq⟩
  · rw [heq]
    exact hs
  · have hroom := h.keeps_makeRoom shown s hs
    rw [hs'] at hroom
    rw [heq]
    refine ⟨h.begin hroom.1 hready hroom.2, fun hshown => ?_⟩
    subst hshown
    exact h.beginState hroom.1 hready (hroom.2 rfl)

theorem keeps_observe (h : Invariant T G I) (shown : Bool) :
    Keeps (During G I shown) (Scheduler.observe shown) :=
  Scheduler.keeps_observe (h.keeps_activate shown) fun _ _ hs =>
    hs.noted h ⟨rfl, rfl, rfl, rfl, rfl, rfl, rfl, .inl rfl⟩ rfl

theorem keeps_expire (h : Invariant T G I) (shown : Bool) (elapsed : Datum) :
    Keeps (During G I shown) (Scheduler.expire elapsed) :=
  Scheduler.keeps_expire (h.keeps_revert shown) elapsed

theorem keeps_tick (h : Invariant T G I) (shown : Bool) {elapsed : Datum} (ht : T elapsed) :
    Keeps (During G I shown) (Scheduler.tick elapsed shown) :=
  Scheduler.keeps_tick (h.keeps_activate shown) (h.keeps_revert shown)
    (fun _ hs => hs.noted h ⟨rfl, rfl, rfl, rfl, rfl, rfl, rfl, .inr ht⟩ rfl)
    fun _ hs => hs.noted h ⟨rfl, rfl, rfl, rfl, rfl, rfl, rfl, .inl rfl⟩ rfl

theorem revertAll_reached (h : Invariant T G I) {s : Scheduler} (hs : I s) :
    I (reached (Scheduler.revertAll s)) := by
  obtain ⟨scene, heach, hall⟩ := revertAll_spec (h.consistent hs).intact
  have hkeep := (keeps_revertEach (h.keeps_revert false) (s.active.reverse.map (·.mutation)) s
    (During.quiet hs)).1
  rw [heach] at hkeep
  rw [hall]
  exact h.reset hkeep rfl

/-- The state that a call is shown is put in place before anything else happens. -/
theorem present (h : Invariant T G I) {state : Option GameState} (hG : ∀ st ∈ state, G st)
    {s : Scheduler} (hs : I s) : During G I state.isSome (reached (Scheduler.present state s)) := by
  refine ⟨h.note (s := s) ⟨rfl, rfl, rfl, rfl, rfl, rfl, rfl, Or.inl rfl⟩ hs, fun hsome => ?_⟩
  cases state with
  | none => cases hsome
  | some st => exact hG st rfl

theorem present_then (h : Invariant T G I) {state : Option GameState} (hG : ∀ st ∈ state, G st)
    {α : Type} {x : Attempt Scheduler α} (hx : Keeps (During G I state.isSome) x)
    {s : Scheduler} (hs : I s) : I (reached ((Scheduler.present state >>= fun _ => discard x) s)) := by
  rw [Attempt.bind_apply]
  exact (Keeps.discard hx _ (h.present hG hs)).1

theorem call (h : Invariant T G I) {c : Call} (hc : c.Keeps T G) {s : Scheduler} (hs : I s) :
    I (reached (c.run s)) := by
  have hquiet : During G I false s := During.quiet hs
  cases c with
  | activate state => exact h.present_then hc (h.keeps_activate _) hs
  | milestone state => exact h.present_then hc (h.keeps_activate _) hs
  | observe state => exact h.present_then hc (h.keeps_observe _) hs
  | tick elapsed state => exact h.present_then hc.2 (h.keeps_tick _ hc.1) hs
  | expire elapsed => exact (Keeps.discard (h.keeps_expire false elapsed) s hquiet).1
  | revert id => exact (Keeps.discard (keeps_revertNamed (h.keeps_revert false) id) s hquiet).1
  | revertAll => exact h.revertAll_reached hs
  | setLevel level => exact h.setLevel hs _
  | setWeights weights => exact h.note (s := s) ⟨rfl, rfl, rfl, rfl, rfl, rfl, rfl, Or.inl rfl⟩ hs

/-- What is kept by every step is kept by every run. -/
theorem runAll (h : Invariant T G I) {calls : List Call} (hcalls : ∀ c ∈ calls, c.Keeps T G)
    {s : Scheduler} (hs : I s) : I (s.runAll calls) := by
  induction calls generalizing s with
  | nil => exact hs
  | cons c calls ih =>
    exact ih (fun c' hc' => hcalls c' (List.mem_cons_of_mem c hc'))
      (h.call (hcalls c List.mem_cons_self) hs)

end Invariant

end Scheduler

end SeededPlay

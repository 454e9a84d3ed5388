/-
# `SeededPlay.Proofs.Chaos.Lifetimes` — no mutation outlives its duration

A mutation that begins notes down when, and when it will have run out
(`ActiveMutation.Spans`).  A scheduler is `Timely` at a time when its clock stands there,
what is active began no later and in the order of the list, and nothing had run out at the
time of the last look.  Looking happens on ticks only, so there are two times: what is
active is known to last beyond the first, and the clock stands at the second.  Between
ticks they are the same.

A tick moves the second, and taking back what has run out lets the first catch up
(`Timely.looked`).  Everything else leaves both alone, and this is what makes it an
invariant of the two steps of a scheduler (`timely_invariant`).

## Times

Callers pass integers, and integers are added exactly however large they are.  Only the
clock of a scheduler that has not been shown any time is a double, and that one is zero:
with a duration, which is small, it adds up exactly too (`Binary64.zero_add_exact`).  So
what begins at a time runs out a duration later (`expires_of_expiry`), be that noted as an
integer or as the double that is the same number, and the same numbers compare alike.
What has run out at a time that is an integer can always be told (`expired_int`); looking
takes it back, and nothing else (`expire_int`).

## Between two ticks

The times of other calls are those of the states that they are shown.  `OnTime` says that
the clock stands where the state says; it survives every call between two ticks, another
state with the same time (`OnTime.move`) included.  The next tick comes to a list that is
as it was left, and looks before anything begins, so that what began earlier and has run
out is gone by then (`OnTime.tick`).
-/
import SeededPlay.Proofs.Chaos.Occasions

namespace SeededPlay

open Attempt (reached Keeps)

/-! ## Times as integers -/

theorem Binary64.zero_add_exact {n : Nat} (hn : n < 2 ^ 53) :
    add .zero (.finite false (n * unitsPerOne)) = .finite false (n * unitsPerOne) := by
  have hsum := add_exact (a := 0) (b := n) (by omega)
  rwa [Nat.zero_mul, Nat.zero_add] at hsum

namespace Number

theorem same_iff {m n : Number} {e : Extent} (hn : n.extent? = some e) :
    m.same n = true ↔ m.extent? = some e := by
  unfold same
  rw [hn]
  cases m.extent? with
  | none => exact ⟨nofun, nofun⟩
  | some e' =>
    show (e' == e) = true ↔ _
    rw [beq_iff_eq, Option.some.injEq]

theorem same_int_iff {m : Number} {k : Int} :
    m.same (.int k) = true ↔ m.extent? = (Number.int k).extent? := same_iff rfl

theorem same_exact (n : Nat) :
    (Number.real (.finite false (n * Binary64.unitsPerOne))).same (.int n) = true := by
  refine same_int_iff.mpr ?_
  show some (Extent.point ((n * Binary64.unitsPerOne : Nat) : Int)) = some (Binary64.extentOfInt n)
  unfold Binary64.extentOfInt
  rw [Int.natCast_mul]

theorem le_int_of_same {m : Number} {k t : Int} (h : m.same (.int k) = true) :
    m.le (.int t) = true ↔ k ≤ t := by
  have hle := le_int_iff (a := k) (b := t)
  unfold le at hle ⊢
  rwa [same_int_iff.mp h]

theorem int_lt_of_same {m : Number} {k t : Int} (h : m.same (.int k) = true) :
    (Number.int t).lt m = true ↔ t < k := by
  have hlt := lt_int_iff (a := t) (b := k)
  unfold lt at hlt ⊢
  rwa [same_int_iff.mp h]

end Number

namespace Datum.StandsAt

variable {d : Datum} {t t' : Int}

theorem unique (h : d.StandsAt t) (h' : d.StandsAt t') : t = t' := by
  rcases h with rfl | ⟨rfl, rfl⟩ <;> rcases h' with h' | ⟨h', rfl⟩ <;> first | rfl | cases h'
  rfl

end Datum.StandsAt

/-! ## Lifetimes -/

theorem Mutation.duration_bounds (m : Mutation) : ∀ d ∈ m.duration, 0 < d ∧ d < 2 ^ 53 := by
  cases m <;> decide

/-- An active mutation that began at a time, and whose time runs out when its duration has
passed. -/
structure ActiveMutation.Spans (a : ActiveMutation) (started : Int) : Prop where
  begins : a.started.StandsAt started
  ends : ∀ d ∈ a.mutation.duration, ∃ e ∈ a.expires, e.same (.int (started + d)) = true

/-- An active mutation that has not run out at a time. -/
def ActiveMutation.Outlasts (a : ActiveMutation) (t : Int) : Prop :=
  ∀ started, a.Spans started → ∀ d ∈ a.mutation.duration, t < started + d

namespace Scheduler

theorem expiry_of_add? {m : Mutation} {d : Nat} (hd : m.duration = some d) {now : Datum}
    {n sum : Number} (hnow : now.toNumber = .ok n) (hsum : n.add? (.int d) = some sum) :
    expiry m now = .ok (some sum) := by
  unfold expiry
  simp only [hd, hnow, bind, Except.bind, hsum]
  rfl

theorem expires_of_expiry {m : Mutation} {now : Datum} {t : Int} (hnow : now.StandsAt t)
    {expires : Option Number} (h : expiry m now = .ok expires) :
    ∀ d ∈ m.duration, ∃ e ∈ expires, e.same (.int (t + d)) = true := by
  intro d hd
  rcases hnow with rfl | ⟨rfl, rfl⟩
  · have hsum : (Number.int t).add? (.int d) = some (.int (t + d)) := rfl
    obtain rfl := Except.ok.inj ((expiry_of_add? hd rfl hsum).symm.trans h)
    exact ⟨_, rfl, Number.same_int_iff.mpr rfl⟩
  · -- The clock of a scheduler starts as a double.
    have hreal : (Number.int d).toReal? = some (.finite false (d * Binary64.unitsPerOne)) :=
      Binary64.ofInt?_exact (m.duration_bounds d hd).2
    have hsum : (Number.real .zero).add? (.int d) =
        some (.real (.finite false (d * Binary64.unitsPerOne))) := by
      have hzero : (Number.real .zero).toReal? = some .zero := rfl
      show ((Number.real .zero).toReal?.bind fun x =>
        (Number.int d).toReal?.bind fun y => some (Number.real (x.add y))) = _
      rw [hzero, hreal, Option.bind_some, Option.bind_some,
        Binary64.zero_add_exact (m.duration_bounds d hd).2]
    obtain rfl := Except.ok.inj ((expiry_of_add? hd rfl hsum).symm.trans h)
    rw [Int.zero_add]
    exact ⟨_, rfl, Number.same_exact d⟩

/-- The clock stands at a time, and what is active began by then, in its order, and
outlasts an earlier time. -/
structure Timely (looked t : Int) (s : Scheduler) : Prop where
  clock : s.clock.StandsAt t
  spans : ∀ a ∈ s.active, ∃ started ≤ t, a.Spans started
  outlasts : ∀ a ∈ s.active, a.Outlasts looked
  sorted : s.active.Pairwise fun a b => ∃ x y, a.Spans x ∧ b.Spans y ∧ x ≤ y

namespace Timely

variable {looked t : Int} {s : Scheduler}

theorem shrink (h : Timely looked t s) {scene : Scene} {active : List ActiveMutation}
    (hsub : active.Sublist s.active) : Timely looked t { s with scene, active } where
  clock := h.clock
  spans := fun a ha => h.spans a (hsub.subset ha)
  outlasts := fun a ha => h.outlasts a (hsub.subset ha)
  sorted := h.sorted.sublist hsub

theorem note (h : Timely looked t s) {s' : Scheduler} (hn : Note (·.StandsAt t) s s') :
    Timely looked t s' where
  clock := hn.clock.elim (fun he => he ▸ h.clock) id
  spans := hn.active ▸ h.spans
  outlasts := hn.active ▸ h.outlasts
  sorted := hn.active ▸ h.sorted

theorem noted (h : Timely looked t s) {state : GameState} {lastTrigger : Datum}
    {lastScore : Binary64} :
    Timely looked t { s with scene := { s.scene with state }, lastTrigger, lastScore } :=
  ⟨h.clock, h.spans, h.outlasts, h.sorted⟩

theorem revert (h : Timely looked t s) (hs : s.Intact) (m : Mutation) :
    Timely looked t (reached (revert m s)) := by
  obtain ⟨b, scene, -, -, hrevert, -⟩ := revert_spec hs m
  rw [hrevert]
  exact h.shrink List.filter_sublist

theorem standsAt_now (h : Timely looked t s) {shown : Bool}
    (hstate : shown = true → s.scene.state.elapsed = .int t) : (s.now shown).StandsAt t := by
  unfold now
  cases shown with
  | false => exact h.clock
  | true =>
    have helapsed : s.state.elapsed = .int t := hstate rfl
    rw [if_pos rfl, helapsed]
    exact .inl rfl

theorem begin (h : Timely looked t s) (hlooked : looked ≤ t) {m : Mutation} {shown : Bool}
    (hstate : shown = true → s.scene.state.elapsed = .int t) :
    Timely looked t (reached (begin m shown s)) := by
  have hnow := h.standsAt_now hstate
  rw [begin_eq]
  cases m.apply s.stream (.int s.activations) shown s.scene with
  | error f scene => exact h.shrink (List.Sublist.refl _)
  | ok undo scene =>
    cases hexpires : expiry m (s.now shown) with
    | error f => exact h.shrink (List.Sublist.refl _)
    | ok expires =>
      have hspans : (s.entry m shown undo expires).Spans t :=
        ⟨hnow, expires_of_expiry hnow hexpires⟩
      refine ⟨h.clock, List.forall_mem_append.mpr ⟨h.spans, ?_⟩,
        List.forall_mem_append.mpr ⟨h.outlasts, ?_⟩,
        List.pairwise_append.mpr ⟨h.sorted, List.pairwise_singleton _ _, fun a ha b hb => ?_⟩⟩
      · exact List.forall_mem_singleton.mpr ⟨t, Int.le_refl t, hspans⟩
      · refine List.forall_mem_singleton.mpr fun started hstarted d hd => ?_
        obtain rfl := hspans.begins.unique hstarted.begins
        have hpos := (m.duration_bounds d hd).1
        omega
      · rw [List.mem_singleton.mp hb]
        obtain ⟨x, hx, ha⟩ := h.spans a ha
        exact ⟨x, t, ha, hspans, hx⟩

end Timely

/-- What keeps what is active timely, as long as the clock of a state that is shown stands
where the other clock does. -/
theorem timely_invariant {looked t : Int} (hlooked : looked ≤ t) :
    Invariant (·.StandsAt t) (·.elapsed = .int t) (fun s => s.Consistent ∧ Timely looked t s) :=
  invariant_of_steps (fun hn h => h.note hn) (fun hs h m => h.revert hs m)
    (fun _ h _ _ _ hstate => h.begin hlooked hstate)
    (fun m hg => keeps_begin (P := (·.state.elapsed = .int t)) (fun stream nonce =>
      m.keeps_state (P := (·.elapsed = .int t)) stream nonce true fun _ _ _ _ hraise hs => by
        obtain ⟨fields, -, rfl⟩ := Effect.raiseFlag_eq_ok.mp hraise
        exact hs) _ hg)
    (fun _ h => ⟨h.clock, h.spans, h.outlasts, h.sorted⟩)
    fun h _ => ⟨h.clock, h.spans, h.outlasts, h.sorted⟩

/-! ## Looking -/

/-- What has run out at a time. -/
def overAt (t : Int) (active : List ActiveMutation) : List Mutation :=
  (active.filter fun a => a.expires.any fun e => e.le (.int t)).map (·.mutation)

theorem expired_int (t : Int) (active : List ActiveMutation) :
    expired (.int t) active = .ok (overAt t active) := by
  induction active with
  | nil => rfl
  | cons a rest ih =>
    have hover : a.isOver (.int t) = .ok (a.expires.any fun e => e.le (.int t)) := by
      unfold ActiveMutation.isOver
      cases a.expires <;> rfl
    unfold expired overAt
    rw [hover, ih, List.filter_cons]
    cases h : a.expires.any fun e => e.le (.int t) with
    | false => rfl
    | true => rfl

theorem outlasts_of_not_over {t : Int} {active : List ActiveMutation} {a : ActiveMutation}
    (ha : a ∈ active) (hstays : a.mutation ∉ overAt t active) : a.Outlasts t := by
  intro started hspans d hd
  by_contra hover
  obtain ⟨e, he, hsame⟩ := hspans.ends d hd
  refine hstays (List.mem_map_of_mem (List.mem_filter.mpr ⟨ha, ?_⟩))
  rw [he, Option.any_some]
  exact (Number.le_int_of_same hsame).mpr (by omega)

/-- Looking at a time that is an integer takes back what has run out, and nothing else. -/
theorem expire_int {s : Scheduler} (hs : s.Intact) (t : Int) :
    ∃ scene, expire (.int t) s = .ok (overAt t s.active)
      { s with scene, active := s.active.filter (·.mutation ∉ overAt t s.active) } := by
  obtain ⟨scene, heach, -⟩ := revertEach_spec hs (overAt t s.active)
  refine ⟨scene, ?_⟩
  unfold expire
  simp only [Attempt.bind_apply, Attempt.get_apply, expired_int, Attempt.lift_ok, heach,
    Attempt.pure_apply]

/-- The scheduler that is left when what has run out at a time is gone. -/
def looked (s : Scheduler) (t : Int) (scene : Scene) : Scheduler :=
  { s with clock := .int t, scene, active := s.active.filter (·.mutation ∉ overAt t s.active) }

/-- A beat of the timer, if it has run down. -/
def beat (elapsed : Datum) : Attempt Scheduler (Option ActiveMutation) := do
  let s ← get
  if ← Attempt.lift (s.isDue elapsed s.lastTrigger) then
    modify fun s => { s with lastTrigger := elapsed }
    activate true
  else return none

theorem tick_int {s : Scheduler} (hs : s.Consistent) (t : Int) :
    ∃ scene, expire (.int t) { s with clock := .int t } =
        .ok (overAt t s.active) (s.looked t scene) ∧
      tick (.int t) true s = beat (.int t) (s.looked t scene) := by
  have hnow : Consistent { s with clock := .int t } := hs.noted
  obtain ⟨scene, hexpire⟩ := expire_int hnow.intact t
  refine ⟨scene, hexpire, ?_⟩
  unfold tick
  rw [Attempt.bind_apply, Attempt.modify_apply]
  show (discard (expire (.int t)) >>= _) { s with clock := .int t } = _
  rw [Attempt.bind_apply, Attempt.discard_apply, hexpire]
  rfl

/-- What stays when what has run out is gone lasts longer. -/
theorem Timely.looked {earlier t : Int} {s : Scheduler}
    (h : Timely earlier t { s with clock := .int t }) {scene : Scene} :
    Timely t t (s.looked t scene) := by
  have hkept : Timely earlier t (s.looked t scene) := h.shrink List.filter_sublist
  refine ⟨hkept.clock, hkept.spans, fun a ha => ?_, hkept.sorted⟩
  obtain ⟨hmem, hstays⟩ := List.mem_filter.mp ha
  exact outlasts_of_not_over hmem (of_decide_eq_true hstays)

/-! ## Between ticks -/

theorem activate_frame {s : Scheduler} (hs : s.Consistent) (shown : Bool) :
    ∃ scene active history activations, reached (activate shown s) =
      { s with scene, active, history, activations } := by
  rcases activate_cases hs.intact hs.fits shown with heq | ⟨m, s', hs', -, -, hready, heq⟩
  · rw [heq]
    exact ⟨_, _, _, _, rfl⟩
  · obtain ⟨scene, -, hroom, -⟩ := makeRoom_spec hs.intact
    rw [hroom, Attempt.reached_ok] at hs'
    subst hs'
    rw [heq, begin_eq]
    split
    · exact ⟨_, _, _, _, rfl⟩
    · split <;> exact ⟨_, _, _, _, rfl⟩

/-- At a time, with everything noted down for it, and the last beat not after it. -/
structure OnTime (t : Int) (s : Scheduler) : Prop where
  consistent : s.Consistent
  timely : s.Timely t t
  elapsed : s.state.elapsed = .int t
  beat : ∃ b ≤ t, s.lastTrigger.StandsAt b

namespace OnTime

variable {t : Int} {s : Scheduler}

theorem start {e : Engine} (h : e.Sound) (level : ChaosLevel) (seed : Nat) (params : Fields Datum)
    {state : GameState} (helapsed : state.elapsed = .int 0) :
    (start level seed e params state).OnTime 0 where
  consistent := Consistent.start h level seed params state
  timely := ⟨.inr ⟨rfl, rfl⟩, nofun, nofun, List.Pairwise.nil⟩
  elapsed := helapsed
  beat := ⟨0, Int.le_refl 0, .inr ⟨rfl, rfl⟩⟩

theorem move (h : OnTime t s) {state : GameState} (helapsed : state.elapsed = .int t) :
    OnTime t { s with scene := { s.scene with state } } where
  consistent := h.consistent.noted
  timely := h.timely.noted
  elapsed := helapsed
  beat := h.beat

theorem activate (h : OnTime t s) (shown : Bool) :
    OnTime t (reached (Scheduler.activate shown s)) := by
  obtain ⟨⟨hconsistent, htimely⟩, hview⟩ :=
    (timely_invariant (Int.le_refl t)).keeps_activate shown s
      ⟨⟨h.consistent, h.timely⟩, fun _ => h.elapsed⟩
  refine ⟨hconsistent, htimely, ?_, ?_⟩
  · cases shown with
    | true => exact hview rfl
    | false => exact keeps_state_activate (P := (·.elapsed = .int t)) s h.elapsed
  · obtain ⟨scene, active, history, activations, heq⟩ := activate_frame h.consistent shown
    rw [heq]
    exact h.beat

theorem setLevel (h : OnTime t s) (level : ChaosLevel) :
    OnTime t (reached (Scheduler.setLevel level s)) := by
  obtain ⟨hconsistent, htimely⟩ := (timely_invariant (Int.le_refl t)).setLevel
    ⟨h.consistent, h.timely⟩ level
  refine ⟨hconsistent, htimely, ?_, ?_⟩
  · exact keeps_state_setLevel (P := (·.elapsed = .int t)) level s h.elapsed
  · obtain ⟨scene, heq, -⟩ := setLevel_spec h.consistent.intact level
    rw [heq]
    exact h.beat

theorem keeps_observe (shown : Bool) : Keeps (OnTime t) (observe shown) :=
  Scheduler.keeps_observe (fun _ h => h.activate shown) fun _ _ h =>
    ⟨h.consistent.noted, h.timely.noted, h.elapsed, h.beat⟩

/-- A tick looks before anything begins: what began earlier and has run out is gone by then. -/
theorem tick (h : OnTime t s) {t' : Int} (hle : t ≤ t') {state : GameState}
    (helapsed : state.elapsed = .int t') :
    OnTime t' (reached (Scheduler.tick (.int t') true
      { s with scene := { s.scene with state } })) := by
  let now : Scheduler := { s with scene := { s.scene with state }, clock := .int t' }
  have hnow : Timely t t' now :=
    { clock := .inl rfl
      spans := fun a ha => by
        obtain ⟨started, hstarted, hspans⟩ := h.timely.spans a ha
        exact ⟨started, Int.le_trans hstarted hle, hspans⟩
      outlasts := h.timely.outlasts
      sorted := h.timely.sorted }
  have hconsistent : now.Consistent := h.consistent.noted
  obtain ⟨b, hb, hbeat⟩ := h.beat
  obtain ⟨scene, hexpire, htick⟩ := tick_int
    (s := { s with scene := { s.scene with state } }) h.consistent.noted t'
  have hlooked : OnTime t' (Scheduler.looked _ t' scene) :=
    { consistent :=
        ((consistent_invariant.keeps_expire false (.int t')).of_ok hexpire (.quiet hconsistent)).1
      timely := hnow.looked
      elapsed := (keeps_state_expire (P := (·.elapsed = .int t')) _).of_ok hexpire helapsed
      beat := ⟨b, Int.le_trans hb hle, hbeat⟩ }
  rw [htick]
  refine Keeps.bind Keeps.get (fun s => Keeps.bind (Keeps.lift _) fun due => ?_) _ hlooked
  split
  · refine Keeps.bind (Keeps.modify fun s h => ?_) fun _ s h => h.activate true
    exact ⟨h.consistent.noted, h.timely.noted, h.elapsed, t', Int.le_refl t', .inl rfl⟩
  · exact Keeps.pure _

end OnTime

end Scheduler

end SeededPlay

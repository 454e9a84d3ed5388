/-
# `SeededPlay.Proofs.Chaos.Parameters` — the world comes back

A record holds what a parameter was when its mutation began, and putting that back is
right only because it was the value of the base: whatever else was active then, and
whatever began and ended since, wrote other parameters.  So the invariant
(`Restorable`) says two things together: a parameter that nothing active writes is
what it was at the start, and every record on the list holds values of the start.

Two twists write parameters beside the ones that are kept apart, the goal and the two
offsets of the display.  Each of these belongs to one mutation only (`owner_of_mem`),
and no mutation is active twice; the offsets are taken out instead of put back, so the
start must not have them.

## How a record is used

Taking a mutation back by a record of the start puts its parameters to what they were at
the start, except that it takes the offsets out, and leaves the others alone
(`Mutation.get?_paramsBack_writes`); where the start has no offsets, taking them out is
what puts them back.  Mutations that are kept apart write nothing in common, their twists
included (`writes_disjoint`), so whatever is ready writes parameters that are what they
were at the start (`Restorable.get?_of_ready`) and the record it leaves is one of the
start.  Nothing ever changes what the parameters were at the start (`base_invariant`), and
the level is nothing that is restored.

Taking mutations back by name, one after another, puts back what any of them had written
(`get?_runAll_reverts`), whatever the order.
-/
import SeededPlay.Proofs.Chaos.Consistency
import SeededPlay.Proofs.Chaos.Setup
import SeededPlay.Proofs.Chaos.Success

namespace SeededPlay

open Attempt (reached Keeps)

/-! ## Who writes what -/

namespace Mutation

/-- The parameters that twists write belong to one mutation each. -/
theorem owner_of_mem {m : Mutation} {k : String} (h : k ∈ m.twist.writes) :
    k = Twist.goalParam ∧ m = .goalShift ∨ k ∈ Twist.misreport.writes ∧ m = .narratorChaos := by
  cases m with
  | goalShift => exact Or.inl ⟨List.mem_singleton.mp h, rfl⟩
  | narratorChaos => exact Or.inr ⟨h, rfl⟩
  | _ => exact absurd h List.not_mem_nil

theorem goalParam_not_mem_offsets : Twist.goalParam ∉ Twist.misreport.writes := by
  decide

theorem offsets_not_mem_touches (m : Mutation) : ∀ k ∈ Twist.misreport.writes, k ∉ m.touches := by
  cases m <;> decide +kernel

theorem not_mem_touches {m n : Mutation} {k : String} (h : k ∈ m.twist.writes) : k ∉ n.touches := by
  rcases owner_of_mem h with ⟨rfl, -⟩ | ⟨hk, -⟩
  · exact n.goalParam_not_mem_touches
  · exact n.offsets_not_mem_touches k hk

theorem writes_disjoint {m n : Mutation} (hne : m ≠ n) (h : m.touches.Disjoint n.touches) :
    m.writes.Disjoint n.writes := by
  intro k hm hn
  rcases List.mem_append.mp hm with hm | hm
  · rcases List.mem_append.mp hn with hn | hn
    · exact h hm hn
    · exact not_mem_touches hn hm
  · rcases List.mem_append.mp hn with hn | hn
    · exact not_mem_touches hm hn
    · rcases owner_of_mem hm with ⟨rfl, hmo⟩ | ⟨hoff, hmo⟩ <;>
        rcases owner_of_mem hn with ⟨hgoal, hno⟩ | ⟨hoff', hno⟩
      · exact hne (hmo.trans hno.symm)
      · exact goalParam_not_mem_offsets hoff'
      · exact goalParam_not_mem_offsets (hgoal ▸ hoff)
      · exact hne (hmo.trans hno.symm)

end Mutation

/-! ## Records of the start -/

/-- A record that holds what parameters were at the start. -/
structure Undo.Holds (undo : Undo) (m : Mutation) (base : Fields Datum) : Prop where
  params : undo.params = m.touches.map fun k => (k, base.get? k)
  goal : m.twist = .shiftGoal → undo.goal = base.get? Twist.goalParam

theorem Twist.get?_paramsBack_writes (t : Twist) (undo : Undo) {params base : Fields Datum}
    (hgoal : t = .shiftGoal → undo.goal = base.get? goalParam) (k : String) :
    (t.paramsBack undo params).get? k =
      if k ∈ t.writes then if k ∈ misreport.writes then none else base.get? k
      else params.get? k := by
  cases t with
  | shiftGoal =>
    have hmem : k ∈ writes .shiftGoal ↔ k = goalParam := List.mem_singleton
    show (params.putBack goalParam undo.goal).get? k = _
    rw [Fields.get?_putBack, hgoal rfl]
    by_cases h : goalParam = k
    · rw [if_pos h, if_pos (hmem.mpr h.symm), ← h, if_neg Mutation.goalParam_not_mem_offsets]
    · rw [if_neg h, if_neg fun hk' => h (hmem.mp hk').symm]
  | misreport =>
    show ((params.putBack _ none).putBack _ none).get? k = _
    rw [Fields.get?_putBack, Fields.get?_putBack]
    by_cases hmem : k ∈ misreport.writes
    · rw [if_pos hmem, if_pos hmem]
      rcases List.mem_pair.mp hmem with rfl | rfl <;> simp
    · obtain ⟨hscore, hhealth⟩ := not_or.mp fun h => hmem (List.mem_pair.mpr h)
      rw [if_neg hmem, if_neg (Ne.symm hhealth), if_neg (Ne.symm hscore)]
  | _ => rfl

/-- Taking a mutation back by a record of the start puts its parameters to what they
were at the start, except that it takes the offsets out, and leaves the others. -/
theorem Mutation.get?_paramsBack_writes {m : Mutation} {undo : Undo} {params base : Fields Datum}
    (h : undo.Holds m base) (k : String) :
    (m.paramsBack undo params).get? k =
      if k ∈ m.writes then if k ∈ Twist.misreport.writes then none else base.get? k
      else params.get? k := by
  unfold paramsBack writes
  rw [h.params, Fields.get?_putBackAll, m.twist.get?_paramsBack_writes undo h.goal k]
  by_cases ht : k ∈ m.touches
  · rw [if_pos ht, if_pos (List.mem_append_left _ ht),
      if_neg fun hoff => m.offsets_not_mem_touches k hoff ht]
  · rw [if_neg ht]
    by_cases hw : k ∈ m.twist.writes
    · rw [if_pos hw, if_pos (List.mem_append_right _ hw)]
    · rw [if_neg hw, if_neg fun hmem => (List.mem_append.mp hmem).elim ht hw]

theorem Mutation.get?_paramsBack {m : Mutation} {undo : Undo} {params base : Fields Datum}
    (h : undo.Holds m base) {k : String} (hk : k ∈ Twist.misreport.writes → base.get? k = none) :
    (m.paramsBack undo params).get? k = if k ∈ m.writes then base.get? k else params.get? k := by
  rw [get?_paramsBack_writes h k]
  by_cases hoff : k ∈ Twist.misreport.writes
  · rw [if_pos hoff, hk hoff]
  · rw [if_neg hoff]

namespace Scheduler

/-- The parameters and the records are those of the start. -/
structure Restorable (s : Scheduler) : Prop where
  permissive : s.scene.rules.strict = false
  clock : s.clock.Numeric
  gravity : ∀ d ∈ s.base.get? "gravity_y", d.Numeric
  params : ∀ k, (∀ a ∈ s.active, k ∉ a.mutation.writes) →
    (k ∈ Twist.misreport.writes → s.base.get? k = none) → s.params.get? k = s.base.get? k
  records : ∀ a ∈ s.active, a.undo.Holds a.mutation s.base

/-! ## The two steps -/

theorem get?_revert {s : Scheduler} (hs : s.Intact) (h : s.Restorable) (m : Mutation) {k : String}
    (hk : k ∈ Twist.misreport.writes → s.base.get? k = none) :
    (reached (revert m s)).params.get? k =
      if m ∈ s.mutations ∧ k ∈ m.writes then s.base.get? k else s.params.get? k := by
  by_cases hm : m ∈ s.mutations
  · obtain ⟨a, ha, rfl⟩ := List.mem_map.mp hm
    obtain ⟨e, -, -, -, hrevert⟩ := revert_of_mem hs ha
    rw [hrevert]
    show (a.mutation.paramsBack a.undo s.scene.params).get? k = _
    rw [Mutation.get?_paramsBack (h.records a ha) hk]
    simp only [hm, true_and]
    rfl
  · rw [revert_of_not_mem hm, if_neg fun hand => hm hand.1]
    rfl

theorem Restorable.revert {s : Scheduler} (hs : s.Intact) (h : s.Restorable) (m : Mutation) :
    (reached (revert m s)).Restorable := by
  have hget := fun k hk => get?_revert hs h m (k := k) hk
  obtain ⟨b, scene, -, hstrict, hrevert, -⟩ := revert_spec hs m
  rw [hrevert] at hget ⊢
  refine ⟨hstrict.trans h.permissive, h.clock, h.gravity, fun k hout hk => ?_, fun a ha => ?_⟩
  · refine (hget k hk).trans ?_
    by_cases hand : m ∈ s.mutations ∧ k ∈ m.writes
    · rw [if_pos hand]
      rfl
    · rw [if_neg hand]
      refine h.params k (fun a ha hmem => ?_) hk
      by_cases ham : a.mutation = m
      · exact hand ⟨ham ▸ List.mem_map_of_mem ha, ham ▸ hmem⟩
      · exact hout a (List.mem_filter.mpr ⟨ha, by simpa using ham⟩) hmem
  · exact h.records a (List.mem_filter.mp ha).1

theorem Restorable.get?_of_ready {s : Scheduler} (h : s.Restorable) {m : Mutation}
    (hready : Ready m s) {k : String} (hm : k ∈ m.writes)
    (hk : k ∈ Twist.misreport.writes → s.base.get? k = none) :
    s.params.get? k = s.base.get? k := by
  refine h.params k (fun a ha hmem => ?_) hk
  have hne : m ≠ a.mutation := fun he => hready.inactive (he ▸ List.mem_map_of_mem ha)
  exact Mutation.writes_disjoint hne (hready.apart a ha) hm hmem

theorem Restorable.holds {s : Scheduler} (h : s.Restorable) {m : Mutation} (hready : Ready m s) :
    (m.record s.scene).Holds m s.base where
  params := by
    refine List.map_congr_left fun k hk => congrArg (Prod.mk k) ?_
    exact h.get?_of_ready hready (List.mem_append_left _ hk)
      fun hoff => absurd hk (m.offsets_not_mem_touches k hoff)
  goal := by
    intro ht
    have hmem : Twist.goalParam ∈ m.writes := by
      refine List.mem_append_right _ ?_
      rw [ht]
      exact List.mem_singleton.mpr rfl
    have hgoal : (m.record s.scene).goal = (m.twist.record s.scene).goal := rfl
    rw [hgoal, ht]
    exact h.get?_of_ready hready hmem fun hoff => absurd hoff Mutation.goalParam_not_mem_offsets

theorem Restorable.begins {s : Scheduler} (hs : s.Intact) (h : s.Restorable) {m : Mutation}
    (hready : Ready m s) {shown : Bool} (hstate : shown = true → s.scene.state.Typed) :
    ∃ scene expires, m.Outcome s.scene (.ok (m.record s.scene) scene) ∧
      Scheduler.begin m shown s = .ok (s.entry m shown (m.record s.scene) expires)
        (s.begun scene (s.entry m shown (m.record s.scene) expires)) := by
  refine begin_succeeds hs (fun _ => hs.sound.flipped h.permissive) h.clock hstate fun hmem => ?_
  have hget : s.scene.params.get? "gravity_y" = _ :=
    h.get?_of_ready hready (List.mem_append_left _ hmem)
      fun hoff => absurd hmem (m.offsets_not_mem_touches _ hoff)
  rw [hget]
  exact h.gravity

theorem Restorable.begin {s : Scheduler} (hs : s.Intact) (h : s.Restorable) {m : Mutation}
    (hready : Ready m s) {shown : Bool} (hstate : shown = true → s.scene.state.Typed) :
    (reached (begin m shown s)).Restorable := by
  obtain ⟨scene, expires, hout, heq⟩ := h.begins hs hready hstate
  rw [heq, Attempt.reached_ok]
  cases hout with
  | done _ _ hstrict _ hparams =>
    refine ⟨hstrict.trans h.permissive, h.clock, h.gravity, fun k hfree hk => ?_, fun a ha => ?_⟩
    · have hm := hfree (s.entry m shown (m.record s.scene) expires)
        (List.mem_append_right _ (List.mem_singleton.mpr rfl))
      refine (hparams k hm).trans (h.params k (fun a ha => ?_) hk)
      exact hfree a (List.mem_append_left _ ha)
    · rcases List.mem_append.mp ha with ha | ha
      · exact h.records a ha
      · rw [List.mem_singleton.mp ha]
        exact h.holds hready

/-! ## Every run -/

theorem Restorable.note {s s' : Scheduler} (hn : Note Datum.Numeric s s') (h : s.Restorable) :
    s'.Restorable where
  permissive := hn.rules ▸ h.permissive
  clock := hn.clock.elim (fun he => he ▸ h.clock) fun ht => ht
  gravity := hn.base ▸ h.gravity
  params := by
    have hparams : s'.params = s.params := hn.params
    rw [hn.active, hn.base, hparams]
    exact h.params
  records := hn.active ▸ hn.base ▸ h.records

theorem Restorable.setLevel {s : Scheduler} (h : s.Restorable) {level : ChaosLevel}
    {weights : Fields Datum} : Restorable { s with level, weights } :=
  ⟨h.permissive, h.clock, h.gravity, h.params, h.records⟩

theorem Restorable.reset {s : Scheduler} (h : s.Restorable) :
    Restorable { s with scene := { s.scene with params := s.base } } :=
  ⟨h.permissive, h.clock, h.gravity, fun _ _ _ => rfl, h.records⟩

theorem restorable_invariant : Invariant Datum.Numeric GameState.Typed
    (fun s => s.Consistent ∧ s.Restorable) :=
  invariant_of_steps (fun hn h => h.note hn) (fun hs h m => h.revert hs m)
    (fun hs h _ hready _ hstate => h.begin hs hready hstate) (fun m hg => typed_begin m true hg)
    (fun _ h => h.setLevel) (fun h _ => h.reset)

theorem Restorable.start {e : Engine} (h : e.strict = false) {base : Fields Datum}
    (hgravity : ∀ d ∈ base.get? "gravity_y", d.Numeric) (level : ChaosLevel) (seed : Nat)
    (state : GameState) : (start level seed e base state).Restorable where
  permissive := h
  clock := ⟨_, rfl⟩
  gravity := hgravity
  params := fun _ _ _ => rfl
  records := fun _ ha => absurd ha List.not_mem_nil

theorem base_invariant (base : Fields Datum) :
    Invariant (fun _ => True) (fun _ => True) (fun s => s.Consistent ∧ s.base = base) := by
  have hsetup : OfSetup fun s => s.base = base := fun _ _ _ _ _ h => h
  exact invariant_of_steps (fun hn h => hn.base.trans h) (fun _ h m => hsetup.revert m _ h)
    (fun _ h m _ shown _ => hsetup.begin m shown _ h) (fun _ _ => trivial) (fun _ h => h)
    fun h _ => h

/-! ## Taking back by name -/

/-- What taking a mutation back by its name does to the list and to a parameter. -/
theorem revertNamed_spec {s : Scheduler} (hs : s.Intact) (h : s.Restorable) (id : String) :
    (reached (revertNamed id s)).base = s.base ∧
      (reached (revertNamed id s)).active = s.active.filter (·.id ≠ id) ∧
      ∀ k, (k ∈ Twist.misreport.writes → s.base.get? k = none) →
        (reached (revertNamed id s)).params.get? k =
          if ∃ a ∈ s.active, a.id = id ∧ k ∈ a.mutation.writes then s.base.get? k
          else s.params.get? k := by
  unfold revertNamed
  cases hword : (Vocabulary.ofWord? id : Option Mutation) with
  | none =>
    have hne : ∀ a ∈ s.active, a.id ≠ id := by
      rintro a - rfl
      rw [show Vocabulary.ofWord? a.id = _ from Vocabulary.ofWord?_word a.mutation] at hword
      cases hword
    refine ⟨rfl, ?_, fun k _ => ?_⟩
    · exact (List.filter_eq_self.mpr fun a ha => by simpa using hne a ha).symm
    · rw [if_neg fun ⟨a, ha, hid, _⟩ => hne a ha hid]
      rfl
  | some m =>
    have hid : ∀ a : ActiveMutation, a.id = id ↔ a.mutation = m := fun a => by
      rw [← Vocabulary.word_of_ofWord? hword]
      exact ⟨fun he => id_injective he, fun he => congrArg Mutation.id he⟩
    obtain ⟨b, scene, -, -, heq, -⟩ := revert_spec hs m
    refine ⟨?_, ?_, fun k hk => ?_⟩
    · simp only [heq, Attempt.reached_ok]
    · simp only [heq, Attempt.reached_ok, ne_eq, hid]
    · refine (get?_revert hs h m hk).trans ?_
      simp only [hid]
      refine if_congr ⟨?_, ?_⟩ rfl rfl
      · rintro ⟨hm, hw⟩
        obtain ⟨a, ha, rfl⟩ := List.mem_map.mp hm
        exact ⟨a, ha, rfl, hw⟩
      · rintro ⟨a, ha, rfl, hw⟩
        exact ⟨List.mem_map_of_mem ha, hw⟩

theorem get?_runAll_reverts {s : Scheduler} (hs : s.Consistent) (h : s.Restorable)
    (ids : List String) {k : String} (hk : k ∈ Twist.misreport.writes → s.base.get? k = none) :
    (s.runAll (ids.map .revert)).params.get? k =
      if ∃ a ∈ s.active, a.id ∈ ids ∧ k ∈ a.mutation.writes then s.base.get? k
      else s.params.get? k := by
  induction ids generalizing s with
  | nil =>
    rw [if_neg fun ⟨a, _, hmem, _⟩ => List.not_mem_nil hmem]
    rfl
  | cons id ids ih =>
    have hrun : (Call.revert id).run s = discard (revertNamed id) s := rfl
    obtain ⟨hs', h'⟩ := restorable_invariant.call (c := .revert id) trivial ⟨hs, h⟩
    obtain ⟨hbase, hactive, hparams⟩ := revertNamed_spec hs.intact h id
    rw [hrun, Attempt.reached_discard] at hs' h'
    show ((reached (discard (revertNamed id) s)).runAll _).params.get? k = _
    rw [Attempt.reached_discard, ih hs' h' (hbase ▸ hk), hbase, hactive, hparams k hk]
    by_cases hfirst : ∃ a ∈ s.active, a.id = id ∧ k ∈ a.mutation.writes
    · rw [if_pos hfirst, ite_self]
      obtain ⟨a, ha, hid, hw⟩ := hfirst
      rw [if_pos ⟨a, ha, hid ▸ List.mem_cons_self, hw⟩]
    · rw [if_neg hfirst]
      refine if_congr ⟨?_, ?_⟩ rfl rfl
      · rintro ⟨a, ha, hid, hw⟩
        exact ⟨a, (List.mem_filter.mp ha).1, List.mem_cons_of_mem id hid, hw⟩
      · rintro ⟨a, ha, hid, hw⟩
        have hne : a.id ≠ id := fun he => hfirst ⟨a, ha, he, hw⟩
        refine ⟨a, List.mem_filter.mpr ⟨ha, by simpa using hne⟩, ?_, hw⟩
        exact (List.mem_cons.mp hid).resolve_left hne

/-- After every run under a permissive engine, a parameter that no active mutation
writes is what it was at the start.  So all are when nothing is active, and it does not
matter in which order mutations are taken back. -/
theorem params_restored {rules : List Rule} {e : Engine} (he : Engine.ofRules false rules = .ok e)
    (level : ChaosLevel) (seed : Nat) {base : Fields Datum} (state : GameState)
    (hgravity : ∀ d ∈ base.get? "gravity_y", d.Numeric)
    (hscore : base.get? "score_display_offset" = none)
    (hhealth : base.get? "health_display_offset" = none) {calls : List Call}
    (hcalls : ∀ c ∈ calls, c.Keeps Datum.Numeric GameState.Typed) :
    let s := (start level seed e base state).runAll calls
    (∀ k, (∀ a ∈ s.active, k ∉ a.mutation.writes) → s.params.get? k = base.get? k) ∧
      (s.active = [] → ∀ k, s.params.get? k = base.get? k) ∧
      ∀ ids ids' : List String, (∀ id, id ∈ ids ↔ id ∈ ids') → ∀ k,
        (s.runAll (ids.map .revert)).params.get? k =
          (s.runAll (ids'.map .revert)).params.get? k := by
  intro s
  obtain ⟨hstrict, -, hsound⟩ := Engine.ofRules_spec he
  have hstart : (start level seed e base state).Consistent :=
    Consistent.start hsound level seed base state
  obtain ⟨hs, h⟩ : s.Consistent ∧ s.Restorable :=
    restorable_invariant.runAll hcalls ⟨hstart, Restorable.start hstrict hgravity level seed state⟩
  have hbase : s.base = base :=
    ((base_invariant base).runAll (fun c _ => c.keeps_true) ⟨hstart, rfl⟩).2
  have hoff : ∀ k ∈ Twist.misreport.writes, s.base.get? k = none := by
    intro k hk
    rw [hbase]
    rcases List.mem_pair.mp hk with rfl | rfl
    · exact hscore
    · exact hhealth
  have hfree : ∀ k, (∀ a ∈ s.active, k ∉ a.mutation.writes) → s.params.get? k = base.get? k := by
    intro k hk
    rw [← hbase]
    exact h.params k hk (hoff k)
  refine ⟨hfree, fun hnone k => hfree k fun a ha => ?_, fun ids ids' hids k => ?_⟩
  · rw [hnone] at ha
    exact absurd ha List.not_mem_nil
  · rw [get?_runAll_reverts hs h ids (hoff k), get?_runAll_reverts hs h ids' (hoff k)]
    simp only [hids]

theorem params_restored_gravity :
    let calls : List Call := [.setLevel (.int 100), .tick (.int 20000) (some {}), .milestone none,
      .observe (some { score := .int 120 }), .expire (.int 30000), .revertAll]
    let s := (start (.clamp 40) 7 ⟨false, []⟩ [("gravity_y", .int 800)] {}).runAll calls
    Engine.ofRules false [] = .ok ⟨false, []⟩ ∧
      (∀ c ∈ calls, c.Keeps Datum.Numeric GameState.Typed) ∧
      ∀ k, (∀ a ∈ s.active, k ∉ a.mutation.writes) →
        s.params.get? k = Fields.get? [("gravity_y", .int 800)] k := by
  intro calls
  have htyped : ∀ score, GameState.Typed { score } := fun score => ⟨Or.inr ⟨_, rfl⟩, _, rfl⟩
  have hcalls : ∀ c ∈ calls, c.Keeps Datum.Numeric GameState.Typed := by
    intro c hc
    simp only [calls, List.mem_cons, List.not_mem_nil, or_false] at hc
    rcases hc with rfl | rfl | rfl | rfl | rfl | rfl
    · trivial
    · exact ⟨⟨_, rfl⟩, fun st hst => Option.some.inj hst ▸ htyped _⟩
    · exact fun st hst => nomatch hst
    · exact fun st hst => Option.some.inj hst ▸ htyped _
    · trivial
    · trivial
  have hgravity : ∀ d ∈ Fields.get? [("gravity_y", .int 800)] "gravity_y", Datum.Numeric d := by
    intro d hd
    obtain rfl : Datum.int 800 = d := Option.some.inj hd
    exact ⟨_, rfl⟩
  have he : Engine.ofRules false [] = .ok ⟨false, []⟩ := rfl
  exact ⟨he, hcalls, (params_restored he (.clamp 40) 7 {} hgravity rfl rfl hcalls).1⟩

end Scheduler

end SeededPlay

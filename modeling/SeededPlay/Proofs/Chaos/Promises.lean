/-
# `SeededPlay.Proofs.Chaos.Promises` — what was promised stays so

Mutations that begin rely on what the scheduler was started with, and on what callers
declare of the values that they pass in.  An engine stays as strict as it was, and a clock
that is put to numbers holds a number.

The gravity takes more.  One mutation negates it, whatever it is at that time: the gravity
of the start, the one that another mutation has put, or the one that a record has brought
back.  The invariant (`Grounded`) says of all three places that what they hold counts as a
number.  It asks nothing of the engine, so it holds under a strict engine too, where a
mutation can fail half way: whatever was written until then counts as a number.

## The three places

A record that holds numbers brings numbers back (`Mutation.grounded_paramsBack`).  Where the
catalog puts a gravity it puts a number, and what is written over the gravity is one of
those or the negative of a number (`Mutation.numeric_override`).  So a mutation leaves the
gravity a number in whatever way it ends (`Mutation.keeps_grounded`), and the invariant goes
through runs like any other.
-/
import SeededPlay.Proofs.Chaos.Consistency
import SeededPlay.Proofs.Chaos.Setup
import SeededPlay.Proofs.Chaos.Success
import SeededPlay.Proofs.Play.Interpreter

namespace SeededPlay

open Attempt (reached Keeps)

/-- The parameter that a mutation may negate. -/
def gravityParam : String := "gravity_y"

/-- A gravity that counts as a number or is missing. -/
def Fields.Grounded (fields : Fields Datum) : Prop :=
  ∀ d ∈ fields.get? gravityParam, d.Numeric

namespace Fields.Grounded

theorem set {fields : Fields Datum} (h : fields.Grounded) {name : String} {value : Datum}
    (hv : name = gravityParam → value.Numeric) : (fields.set name value).Grounded := by
  intro d hd
  rw [Option.mem_def, get?_set] at hd
  split at hd
  · rename_i hname
    obtain rfl := Option.some.inj hd
    exact hv hname
  · exact h d hd

theorem putBack {fields : Fields Datum} (h : fields.Grounded) {name : String}
    {earlier : Option Datum} (hv : name = gravityParam → ∀ d ∈ earlier, d.Numeric) :
    (fields.putBack name earlier).Grounded := by
  intro d hd
  rw [Option.mem_def, get?_putBack] at hd
  split at hd
  · rename_i hname
    exact hv hname d hd
  · exact h d hd

theorem putBackAll {earlier : List (String × Option Datum)} {fields : Fields Datum}
    (h : fields.Grounded) (hv : ∀ e ∈ earlier, e.1 = gravityParam → ∀ d ∈ e.2, d.Numeric) :
    (fields.putBackAll earlier).Grounded := by
  induction earlier generalizing fields with
  | nil => exact h
  | cons e earlier ih =>
    refine ih (h.putBack (hv e List.mem_cons_self)) fun e' he' => ?_
    exact hv e' (List.mem_cons_of_mem e he')

end Fields.Grounded

/-! ## Mutations -/

/-- What a record holds of the gravity counts as a number. -/
def Undo.Grounded (undo : Undo) : Prop :=
  ∀ e ∈ undo.params, e.1 = gravityParam → ∀ d ∈ e.2, d.Numeric

theorem Mutation.grounded_paramsBack (m : Mutation) {undo : Undo} (hu : undo.Grounded)
    {params : Fields Datum} (h : params.Grounded) : (m.paramsBack undo params).Grounded := by
  refine Fields.Grounded.putBackAll ?_ hu
  cases m.twist with
  | shiftGoal =>
    have hgoal : Twist.goalParam ≠ gravityParam := by decide
    exact h.putBack fun he => absurd he hgoal
  | misreport =>
    have hscore : "score_display_offset" ≠ gravityParam := by decide
    have hhealth : "health_display_offset" ≠ gravityParam := by decide
    have hback : (params.putBack "score_display_offset" none).Grounded :=
      h.putBack fun he => absurd he hscore
    show ((params.putBack _ none).putBack "health_display_offset" none).Grounded
    exact hback.putBack fun he => absurd he hhealth
  | _ => exact h

theorem Mutation.numeric_put (m : Mutation) :
    ∀ o ∈ m.overrides, o.1 = gravityParam → ∀ value, o.2 = .put value → value.Numeric := by
  have hall : m.overrides.all (fun o => o.1 ≠ gravityParam ||
      (o.2.apply none).toOption.all fun value => value.number?.isSome) = true := by
    cases m <;> rfl
  intro o ho hname value hvalue
  have h := List.all_eq_true.mp hall o ho
  rw [hname, hvalue] at h
  exact Option.isSome_iff_exists.mp h

theorem Mutation.numeric_override {m : Mutation} {o : String × Override} (ho : o ∈ m.overrides)
    {current : Option Datum} {value : Datum} (h : o.2.apply current = .ok value)
    (hname : o.1 = gravityParam) : value.Numeric := by
  cases hover : o.2 with
  | put v =>
    rw [hover] at h
    obtain rfl := Except.ok.inj h
    exact m.numeric_put o ho hname v hover
  | negate fallback =>
    rw [hover] at h
    obtain ⟨n, -, rfl⟩ := map_eq_ok.mp h
    exact ⟨_, rfl⟩

theorem Twist.gravityParam_not_mem_writes (m : Mutation) : gravityParam ∉ m.twist.writes := by
  cases m <;> decide

namespace Scene

/-- The gravity of a scene counts as a number. -/
def Grounded (s : Scene) : Prop := s.params.Grounded

theorem keeps_setRules_grounded (rules : List Rule) : Keeps Grounded (setRules rules) :=
  Keeps.bind Keeps.get fun _ => Keeps.bind (Keeps.lift _) fun _ => Keeps.modify fun _ h => h

theorem keeps_addRules_grounded (rules : List Rule) : Keeps Grounded (addRules rules) :=
  Keeps.bind Keeps.get fun _ => Keeps.bind (Keeps.lift _) fun _ => Keeps.modify fun _ h => h

theorem keeps_setParam_grounded {name : String} {value : Datum}
    (hv : name = gravityParam → value.Numeric) : Keeps Grounded (setParam name value) :=
  Keeps.modify fun _ h => h.set hv

theorem keeps_goal_grounded : Keeps Grounded (applyDatum (.text "flag=goal_shifted")) := by
  intro s hs
  obtain ⟨state, hstate⟩ := applyDatum_spec (.text "flag=goal_shifted") s
  rw [hstate]
  exact hs

end Scene

/-- A mutation leaves the gravity a number, also where it fails half way. -/
theorem Mutation.keeps_grounded (m : Mutation) (stream : Stream) (nonce : Datum) (shown : Bool) :
    Keeps Scene.Grounded (m.apply stream nonce shown) := by
  refine keeps_steps (keeps_overwrite fun o ho _ value hvalue => ?_) ?_
  · exact Scene.keeps_setParam_grounded (numeric_override ho hvalue)
  · refine Twist.keeps_apply Scene.keeps_setRules_grounded Scene.keeps_addRules_grounded
      (fun _ _ h => h) m.twist (fun name hname _ => ?_) stream nonce shown
      fun _ _ => Scene.keeps_goal_grounded
    refine Scene.keeps_setParam_grounded fun he => ?_
    exact absurd (he ▸ hname) (Twist.gravityParam_not_mem_writes m)

/-! ## Schedulers -/

namespace Scheduler

/-- Wherever the gravity is kept it counts as a number. -/
structure Grounded (s : Scheduler) : Prop where
  base : s.base.Grounded
  scene : s.scene.Grounded
  records : ∀ a ∈ s.active, a.undo.Grounded

theorem Grounded.start {base : Fields Datum} (h : base.Grounded) (level : ChaosLevel) (seed : Nat)
    (e : Engine) (state : GameState) : (start level seed e base state).Grounded where
  base := h
  scene := h
  records := fun _ ha => absurd ha List.not_mem_nil

theorem Grounded.note {T : Datum → Prop} {s s' : Scheduler} (hn : Note T s s') (h : s.Grounded) :
    s'.Grounded where
  base := hn.base ▸ h.base
  scene := by
    show s'.scene.params.Grounded
    rw [hn.params]
    exact h.scene
  records := hn.active ▸ h.records

theorem Grounded.revert {s : Scheduler} (hs : s.Intact) (h : s.Grounded) (m : Mutation) :
    (reached (revert m s)).Grounded := by
  by_cases hm : m ∈ s.mutations
  · obtain ⟨a, ha, rfl⟩ := List.mem_map.mp hm
    obtain ⟨e, -, -, -, hrevert⟩ := revert_of_mem hs ha
    rw [hrevert]
    refine ⟨h.base, ?_, fun b hb => h.records b (List.mem_filter.mp hb).1⟩
    exact a.mutation.grounded_paramsBack (h.records a ha) h.scene
  · rw [revert_of_not_mem hm]
    exact h

theorem Grounded.record {s : Scheduler} (h : s.Grounded) (m : Mutation) :
    (m.record s.scene).Grounded := by
  intro e he hname
  obtain ⟨k, -, rfl⟩ := List.mem_map.mp he
  obtain rfl : k = gravityParam := hname
  exact h.scene

theorem Grounded.begin {s : Scheduler} (hs : s.Intact) (h : s.Grounded) {m : Mutation}
    (hready : Ready m s) (shown : Bool) : (reached (begin m shown s)).Grounded := by
  have hscene : (reached (Scheduler.begin m shown s)).scene.Grounded :=
    keeps_begin (fun stream nonce => m.keeps_grounded stream nonce shown) s h.scene
  rcases begin_cases hs hready shown with ⟨scene, expires, -, heq, -⟩ | ⟨scene, heq, -⟩
  · rw [heq] at hscene ⊢
    refine ⟨h.base, hscene, fun a ha => ?_⟩
    rcases List.mem_append.mp ha with ha | ha
    · exact h.records a ha
    · rw [List.mem_singleton.mp ha]
      exact h.record m
  · rw [heq] at hscene ⊢
    exact ⟨h.base, hscene, h.records⟩

/-! ## Every run -/

/-- In every run, under strict and permissive engines alike, the gravity stays a number. -/
theorem grounded_invariant :
    Invariant (fun _ => True) (fun _ => True) (fun s => s.Consistent ∧ s.Grounded) :=
  invariant_of_steps (fun hn h => h.note hn) (fun hs h m => h.revert hs m)
    (fun hs h _ hready shown _ => h.begin hs hready shown) (fun _ _ => trivial)
    (fun _ h => ⟨h.base, h.scene, h.records⟩) fun h _ => ⟨h.base, h.base, h.records⟩

theorem strict_invariant (strict : Bool) : Invariant (fun _ => True) (fun _ => True)
    (fun s => s.Consistent ∧ s.scene.rules.strict = strict) := by
  refine invariant_of_steps (fun hn h => hn.rules ▸ h) (fun hs h m => ?_)
    (fun {s} hs h m _ shown _ => ?_) (fun _ _ => trivial) (fun _ h => h) (fun h _ => h)
  · obtain ⟨b, scene, -, hstrict, heq, -⟩ := revert_spec hs m
    rw [heq]
    exact hstrict.trans h
  · exact (keeps_begin (fun stream nonce => m.keeps_apply stream nonce shown) s ⟨hs.sound, h⟩).2

theorem clock_invariant : Invariant Datum.Numeric GameState.Typed
    (fun s => s.Consistent ∧ s.clock.Numeric) := by
  have hsetup : OfSetup fun s => s.clock.Numeric := fun _ _ _ _ _ h => h
  exact invariant_of_steps (fun hn h => hn.clock.elim (fun he => he ▸ h) fun ht => ht)
    (fun _ h m => hsetup.revert m _ h) (fun _ h m _ shown _ => hsetup.begin m shown _ h)
    (fun m hg => typed_begin m true hg) (fun _ h => h) fun h _ => h

end Scheduler

end SeededPlay

/-
# `SeededPlay.Proofs.Chaos.Permissive` — what a permissive engine lets happen, happens

With the weights that a level brings a draw cannot fail: they are small integers, so their
sum is one (`exists_drawMutation`).  A mutation that is drawn begins if the engine is
permissive, the times and states are of the declared kinds and the gravity counts as a
number.  All this stays so whatever a scheduler does (`permissive_invariant`), and so no
activation ever fails, on any level (`Permissive.activate`).

## Draws

Five quantities have to come out for a draw: the weights of the categories, their sum, the
number that is drawn, the first weight that passes it, and the pick among the candidates.
Weights that a level brings are small integers (`isSmall_weightsOf`), so categories can be
weighed, small weights have a sum that is no larger than the catalog allows
(`exists_total`), and a pick by them does not fail (`exists_pickWeighted`).  Weights that a
caller has replaced have none of this, which is why they are ruled out here.
-/
import SeededPlay.Proofs.Chaos.Activation
import SeededPlay.Proofs.Chaos.Lifetimes

namespace SeededPlay

open Attempt (reached Keeps)

/-! ## Draws that cannot fail -/

namespace Draw

/-- A weight that is an integer up to three. -/
def IsSmall (w : Number) : Prop := ∃ n : Nat, w = .int n ∧ n ≤ 3

theorem IsSmall.exists_toReal? {w : Number} (h : IsSmall w) : ∃ x, w.toReal? = some x := by
  obtain ⟨n, rfl, hn⟩ := h
  exact ⟨_, Binary64.ofInt?_exact (by omega)⟩

theorem exists_total {ws : List Number} (h : ∀ w ∈ ws, IsSmall w) :
    ∃ n : Nat, total ws = .ok (.int n) ∧ n ≤ 3 * ws.length := by
  obtain ⟨step, htotal, hstep⟩ : ∃ step : Number → Number → Except Fault Number,
      total ws = ws.foldlM step (.int 0) ∧
        ∀ m k : Int, step (.int m) (.int k) = .ok (.int (m + k)) :=
    ⟨_, rfl, fun _ _ => rfl⟩
  -- The sum of the weights before is arbitrary.
  have hfrom : ∀ m : Nat, ∃ n : Nat, ws.foldlM step (.int m) = .ok (.int n) ∧
      n ≤ m + 3 * ws.length := by
    clear htotal
    induction ws with
    | nil => exact fun m => ⟨m, rfl, Nat.le_refl m⟩
    | cons w ws ih =>
      intro m
      obtain ⟨k, rfl, hk⟩ := h w List.mem_cons_self
      obtain ⟨n, hn, hle⟩ := ih (fun w' hw' => h w' (List.mem_cons_of_mem _ hw')) (m + k)
      refine ⟨n, ?_, ?_⟩
      · rw [List.foldlM_cons, hstep]
        exact hn
      · rw [List.length_cons]
        omega
  obtain ⟨n, hn, hle⟩ := hfrom 0
  exact ⟨n, htotal.trans hn, by omega⟩

theorem exists_firstPast {α : Type} (target running : Binary64) {options : List (α × Number)}
    (h : ∀ o ∈ options, IsSmall o.2) :
    ∃ a?, firstPast target running options = .ok a? := by
  induction options generalizing running with
  | nil => exact ⟨none, rfl⟩
  | cons o options ih =>
    obtain ⟨x, hx⟩ := (h o List.mem_cons_self).exists_toReal?
    unfold firstPast
    rw [hx]
    simp only
    split
    · exact ⟨_, rfl⟩
    · exact ih _ fun o' ho' => h o' (List.mem_cons_of_mem o ho')

theorem exists_pickWeighted {α : Type} (k : UInt32) {options : List (α × Number)}
    (h : ∀ o ∈ options, IsSmall o.2) (hlen : options.length ≤ 2 ^ 21) :
    ∃ a?, pickWeighted k options = .ok a? := by
  have hpool : ∀ o ∈ options.filter fun o => (Number.int 0).lt o.2, IsSmall o.2 :=
    fun o ho => h o (List.mem_filter.mp ho).1
  have hfew := List.length_filter_le (fun o : α × Number => (Number.int 0).lt o.2) options
  unfold pickWeighted
  simp only
  generalize (options.filter fun o => (Number.int 0).lt o.2) = pool at hpool hfew
  split
  · exact ⟨none, rfl⟩
  · rename_i last hlast
    have hsmall : ∀ w ∈ pool.map (·.2), IsSmall w := List.forall_mem_map.mpr hpool
    obtain ⟨n, hn, hle⟩ := exists_total hsmall
    rw [List.length_map] at hle
    have hsum : (Number.int n).toReal? = _ := Binary64.ofInt?_exact (n := n) (by omega)
    obtain ⟨a?, ha⟩ := exists_firstPast
      ((fraction k).mul (.finite false (n * Binary64.unitsPerOne))) .zero hpool
    refine ⟨some (a?.getD last.1), bind_eq_ok.mpr ⟨.int n, hn, ?_⟩⟩
    rw [hsum]
    exact bind_eq_ok.mpr ⟨a?, ha, rfl⟩

end Draw

namespace Scheduler

theorem isSmall_weightsOf (level : ChaosLevel) (c : Category) : ∃ w, Draw.IsSmall w ∧
    ((weightsOf level).getD (Vocabulary.word c) (.int 0)).toNumber = .ok w := by
  have hall : ∀ t ∈ (Vocabulary.members : List Tier), ∀ c ∈ (Vocabulary.members : List Category),
      ∃ n ∈ List.range 4, ((weightsOf t.presetLevel).getD (Vocabulary.word c)
        (.int 0)).toNumber.toOption = some (.int (n : Nat)) := by
    decide +kernel
  obtain ⟨n, hn, hweight⟩ :=
    hall level.tier (Vocabulary.mem_members _) c (Vocabulary.mem_members c)
  rw [weightsOf_preset]
  refine ⟨.int n, ⟨n, rfl, ?_⟩, eq_ok_of_toOption hweight⟩
  have hlt := List.mem_range.mp hn
  omega

theorem length_candidates_le (s : Scheduler) : s.candidates.length ≤ 2 ^ 21 := by
  have hcatalog : Mutation.catalog.length ≤ 2 ^ 21 := by decide
  have hpermitted := List.length_filter_le (fun m : Mutation => m.minLevel ≤ s.level.value &&
    s.level.tier.categories.contains m.category) Mutation.catalog
  exact (List.length_filter_le _ _).trans (hpermitted.trans hcatalog)

theorem exists_weighed {s : Scheduler} (hweights : s.weights = weightsOf s.level)
    (ms : List Mutation) : ∃ ws, s.weighed ms = .ok ws ∧ ws.length ≤ ms.length ∧
      ∀ o ∈ ws, Draw.IsSmall o.2 := by
  have hweight : ∀ c, ∃ w, Draw.IsSmall w ∧ s.weight c = .ok w := by
    intro c
    unfold weight
    rw [hweights]
    exact isSmall_weightsOf s.level c
  obtain ⟨ws, hws⟩ : ∃ ws, s.weighed ms = .ok ws := exists_mapM fun c _ => by
    obtain ⟨w, -, hw⟩ := hweight c
    exact ⟨(c, w), bind_eq_ok.mpr ⟨w, hw, rfl⟩⟩
  have hmap := mapM_eq_ok.mp hws
  refine ⟨ws, hws, ?_, fun o ho => ?_⟩
  · have hdistinct : (distinctBy (·) (ms.map Mutation.category)).length ≤
        (ms.map Mutation.category).length := (distinctFrom_sublist [] _).length_le
    have hlen := congrArg List.length hmap
    rw [List.length_map, List.length_map] at hlen
    rw [List.length_map] at hdistinct
    rw [← hlen]
    exact hdistinct
  · have hread := List.mem_map_of_mem (f := Except.ok (ε := Fault)) ho
    rw [← hmap] at hread
    obtain ⟨c, -, hc⟩ := List.mem_map.mp hread
    obtain ⟨w, hw, hc⟩ := bind_eq_ok.mp hc
    obtain rfl := Except.ok.inj hc
    obtain ⟨w', hsmall, hw'⟩ := hweight c
    rwa [Except.ok.inj (hw'.symm.trans hw)] at hsmall

/-- With the weights that its level brings, a scheduler can always draw. -/
theorem exists_drawMutation {s : Scheduler} (hweights : s.weights = weightsOf s.level) :
    ∃ m?, s.drawMutation = .ok m? := by
  have hfew := s.length_candidates_le
  obtain ⟨ws, hws, hlen, hsmall⟩ := exists_weighed hweights s.candidates
  obtain ⟨c?, hc⟩ := Draw.exists_pickWeighted (s.stream.word (.int s.activations) "category")
    hsmall (hlen.trans hfew)
  have hcategory : s.drawCategory s.candidates = .ok c? := bind_eq_ok.mpr ⟨ws, hws, hc⟩
  cases c? with
  | none => exact ⟨none, bind_eq_ok.mpr ⟨none, hcategory, rfl⟩⟩
  | some c =>
    by_cases hempty : s.candidates.filter (·.category = c) = []
    · refine ⟨none, bind_eq_ok.mpr ⟨some c, hcategory, ?_⟩⟩
      show Draw.pick _ _ = _
      rw [hempty]
      rfl
    · obtain ⟨m, -, hm⟩ := Draw.exists_pick (s.stream.word (.int s.activations) "mutation")
        hempty ((List.length_filter_le _ _).trans hfew)
      exact ⟨some m, bind_eq_ok.mpr ⟨some c, hcategory, hm⟩⟩

/-! ## Activations that cannot fail -/

/-- A scheduler that has all that an activation takes. -/
structure Permissive (s : Scheduler) : Prop where
  consistent : s.Consistent
  clock : s.clock.Numeric
  grounded : s.Grounded
  strict : s.scene.rules.strict = false

theorem permissive_invariant : Invariant Datum.Numeric GameState.Typed Permissive :=
  ((clock_invariant.and grounded_invariant).and (strict_invariant false)).congr fun _ =>
    ⟨fun ⟨⟨⟨hs, hclock⟩, _, hgrounded⟩, _, hstrict⟩ => ⟨hs, hclock, hgrounded, hstrict⟩,
      fun h => ⟨⟨⟨h.consistent, h.clock⟩, h.consistent, h.grounded⟩, h.consistent, h.strict⟩⟩

theorem Permissive.start {e : Engine} (h : e.Sound) (hstrict : e.strict = false)
    {base : Fields Datum} (hbase : base.Grounded) (level : ChaosLevel) (seed : Nat)
    (state : GameState) : (start level seed e base state).Permissive where
  consistent := Consistent.start h level seed base state
  clock := ⟨_, rfl⟩
  grounded := Grounded.start hbase level seed e state
  strict := hstrict

theorem permissive_after {rules : List Rule} {e : Engine}
    (he : Engine.ofRules false rules = .ok e) {base : Fields Datum} (hbase : base.Grounded)
    (level : ChaosLevel) (seed : Nat) (state : GameState) {calls : List Call}
    (hcalls : ∀ c ∈ calls, c.Keeps Datum.Numeric GameState.Typed) {shown : Option GameState}
    (hshown : ∀ st ∈ shown, st.Typed) :
    let s := reached (present shown ((start level seed e base state).runAll calls))
    s.Permissive ∧ (shown.isSome = true → s.scene.state.Typed) := by
  obtain ⟨hstrict, -, hsound⟩ := Engine.ofRules_spec he
  have hrun : ((start level seed e base state).runAll calls).Permissive :=
    permissive_invariant.runAll hcalls (.start hsound hstrict hbase level seed state)
  exact permissive_invariant.present hshown hrun

theorem keeps_raised_activate {P : GameState → Prop}
    (hP : ∀ {s s'}, Effect.raiseFlag s goalFlag = .ok s' → P s → P s') (shown : Bool) :
    Keeps (fun c : Scheduler => P c.scene.state) (activate shown) :=
  keeps_activate keeps_state_revert fun m => keeps_begin fun stream nonce =>
    m.keeps_state stream nonce shown fun _ _ => hP

theorem candidates_of_cap {s : Scheduler} (hcap : s.cap = 0) : s.candidates = [] := by
  have horder : ∀ t ∈ (Vocabulary.members : List Tier), t.cap = 0 → t.categories = [] := by
    decide
  have hcategories : s.level.tier.categories = [] := horder _ (Vocabulary.mem_members _) hcap
  refine List.filter_eq_nil_iff.mpr fun m hm => absurd hm ?_
  rw [ChaosLevel.eligible, hcategories, List.mem_filter, List.contains_nil, Bool.and_false]
  exact fun h => Bool.noConfusion h.2

/-- Under a permissive engine an activation does not fail, on any level, and it comes to
nothing exactly if nothing may be next. -/
theorem Permissive.activate {s : Scheduler} (hs : s.Permissive)
    (hweights : s.weights = weightsOf s.level) {shown : Bool}
    (hstate : shown = true → s.scene.state.Typed) :
    ∃ a? s', Scheduler.activate shown s = .ok a? s' ∧ (a? = none ↔ s.candidates = []) := by
  by_cases hcap : s.cap = 0
  · refine ⟨none, s, ?_, fun _ => candidates_of_cap hcap, fun _ => rfl⟩
    unfold Scheduler.activate
    simp only [Attempt.bind_apply, Attempt.get_apply, if_pos hcap, Attempt.pure_apply]
  · obtain ⟨m?, hdraw⟩ := exists_drawMutation hweights
    have hnone := drawMutation_eq_none hweights
    rw [hdraw, Except.ok.injEq] at hnone
    cases m? with
    | none =>
      refine ⟨none, s, ?_, fun _ => hnone.mp rfl, fun _ => rfl⟩
      unfold Scheduler.activate
      simp only [Attempt.bind_apply, Attempt.get_apply, if_neg hcap, hdraw, Attempt.lift_ok,
        Attempt.pure_apply]
    | some m =>
      obtain ⟨hroom, htyped⟩ := permissive_invariant.keeps_makeRoom shown s ⟨hs, hstate⟩
      have hflip := hroom.consistent.intact.sound.flipped hroom.strict
      obtain ⟨scene, expires, -, hbegin⟩ := begin_succeeds hroom.consistent.intact
        (fun _ : m.twist = .reverseScore => hflip) hroom.clock htyped fun _ => hroom.grounded.scene
      rw [activate_of_drawn hs.consistent.intact hcap hdraw, hbegin]
      exact ⟨some _, _, rfl, nofun, fun h => nomatch hnone.mpr h⟩

end Scheduler

end SeededPlay

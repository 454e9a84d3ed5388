/-
# `SeededPlay.Proofs.Chaos.Unwinding` — the rules come back

Whatever a scheduler has done, its rules are layered by what is active now, and every
record on its list suffices to come back to the start (`Unwinding`).  Both steps keep
that, since under a permissive engine a mutation that is ready begins as a whole or not
at all.  So once none of the mutations that rewrite rules is active, every trigger has
the rules it had at the start, in their order, and an event does what it did then
(`rules_unwound`).  The order of rules with different triggers may have changed, which
no event can see.

Events are dispatched by trigger, so equal rules for every trigger are all that a player
could notice.  Generated rules are of the kind that comes back (`Choices.reversible_rules`);
the statement is about all rules of that kind, and asks nothing of a run but times and states
of the declared kinds.
-/
import SeededPlay.Proofs.Chaos.Layers
import SeededPlay.Proofs.Chaos.Parameters
import SeededPlay.Proofs.Game.Rules

namespace SeededPlay

open Attempt (reached Keeps)

namespace Scheduler

/-- The rules are layered, and the records suffice to come back. -/
structure Unwinding (start : List Rule) (s : Scheduler) : Prop where
  layered : Layered start s.mutations s.scene.rules.rules
  records : ∀ a ∈ s.active, a.undo.Unwinds a.mutation start

variable {start : List Rule}

theorem Unwinding.note {T : Datum → Prop} {s s' : Scheduler} (hn : Note T s s')
    (h : s.Unwinding start) : s'.Unwinding start where
  layered := by
    have hmuts : s'.mutations = s.mutations :=
      congrArg (List.map ActiveMutation.mutation) hn.active
    exact hmuts ▸ hn.rules ▸ h.layered
  records := hn.active ▸ h.records

theorem Unwinding.revert {s : Scheduler} (hR : Reversible start) (hs : s.Intact)
    (h : s.Unwinding start) (m : Mutation) : (reached (revert m s)).Unwinding start := by
  by_cases hm : m ∈ s.mutations
  · obtain ⟨a, ha, rfl⟩ := List.mem_map.mp hm
    obtain ⟨e, -, -, hback, hrevert⟩ := revert_of_mem hs ha
    rw [hrevert]
    refine ⟨?_, fun b hb => h.records b (List.mem_filter.mp hb).1⟩
    have hmuts : (s.active.filter (·.mutation ≠ a.mutation)).map (·.mutation) =
        s.mutations.filter (· ≠ a.mutation) := by
      unfold mutations
      rw [List.filter_map]
      rfl
    show Layered start ((s.active.filter (·.mutation ≠ a.mutation)).map (·.mutation)) e.rules
    rw [hmuts]
    exact h.layered.back hR hs.sound.readable hm (h.records a ha) hback
  · rw [revert_of_not_mem hm]
    exact h

theorem Unwinding.begin {s : Scheduler} (hR : Reversible start) (hs : s.Intact)
    (hrest : s.Restorable) (h : s.Unwinding start) {m : Mutation} (hready : Ready m s)
    {shown : Bool} (hstate : shown = true → s.scene.state.Typed) :
    (reached (begin m shown s)).Unwinding start := by
  obtain ⟨scene, expires, hout, heq⟩ := hrest.begins hs hready hstate
  rw [heq, Attempt.reached_ok]
  cases hout with
  | done _ _ _ hrules _ =>
    refine ⟨?_, fun a ha => ?_⟩
    · show Layered start ((s.active ++ [s.entry m shown _ expires]).map (·.mutation))
        scene.rules.rules
      rw [List.map_append, hrules]
      exact h.layered.begin hR hready.inactive
    · rcases List.mem_append.mp ha with ha | ha
      · exact h.records a ha
      · rw [List.mem_singleton.mp ha]
        exact h.layered.unwinds_record hR hready.inactive

theorem unwinding_invariant (hR : Reversible start) :
    Invariant Datum.Numeric GameState.Typed
      (fun s => s.Consistent ∧ s.Restorable ∧ s.Unwinding start) :=
  invariant_of_steps (fun hn h => ⟨h.1.note hn, h.2.note hn⟩)
    (fun hs h m => ⟨h.1.revert hs m, h.2.revert hR hs m⟩)
    (fun hs h _ hready _ hstate =>
      ⟨h.1.begin hs hready hstate, h.2.begin hR hs h.1 hready hstate⟩)
    (fun m hg => typed_begin m true hg)
    (fun _ h => ⟨h.1.setLevel, h.2.layered, h.2.records⟩)
    (fun h _ => ⟨h.1.reset, h.2.layered, h.2.records⟩)

/-- Generated rules come back, and so do all rules of their kind: after every run under a
permissive engine, once no mutation that rewrites rules is active, every trigger has the
rules it had at the start, and every event has the effects and the outcome it had then. -/
theorem rules_unwound :
    (∀ c : Choices, Reversible c.rules) ∧
      ∀ {rules : List Rule} {e : Engine}, Engine.ofRules false rules = .ok e →
        Reversible rules → ∀ (level : ChaosLevel) (seed : Nat) {base : Fields Datum}
        (state : GameState), (∀ d ∈ base.get? "gravity_y", d.Numeric) → ∀ {calls : List Call},
        (∀ c ∈ calls, c.Keeps Datum.Numeric GameState.Typed) →
        let s := (Scheduler.start level seed e base state).runAll calls
        .scoreReverse ∉ s.mutations → .cursedCoins ∉ s.mutations → .voidMercy ∉ s.mutations →
          (∀ trigger, s.scene.rules.rules.filter (·.trigger = trigger) =
            rules.filter (·.trigger = trigger)) ∧
          ∀ trigger st, s.scene.rules.dispatchDatum trigger st = e.dispatchDatum trigger st := by
  refine ⟨Choices.reversible_rules, ?_⟩
  intro rules e he hR level seed base state hgravity calls hcalls s hscore hcoins hvoid
  obtain ⟨hstrict, hrules, hsound⟩ := Engine.ofRules_spec he
  obtain ⟨hs, hrest, h⟩ : s.Consistent ∧ s.Restorable ∧ s.Unwinding rules := by
    refine (unwinding_invariant hR).runAll hcalls ⟨Consistent.start hsound level seed base state,
      Restorable.start hstrict hgravity level seed state, ?_, fun a ha => nomatch ha⟩
    show Layered rules [] e.rules
    rw [hrules]
    exact Layered.of_reversible hR
  have hback := h.layered.unwound hscore hcoins hvoid
  refine ⟨hback, fun trigger st => ?_⟩
  cases trigger with
  | text t =>
    refine congrFun (Engine.dispatch_congr hsound hs.intact.sound ?_ ?_) st
    · rw [hrest.permissive, hstrict]
    · rw [hback t, hrules]
  | _ => rfl

theorem rules_unwound_coin :
    let rules : List Rule := [.always "player_collect_coin" "add_score" "score+1"]
    let e : Engine := ⟨false, [⟨.always "player_collect_coin" "add_score" "score+1", .always,
      .arithmetic "score" .plus 1⟩]⟩
    let calls : List Call := [.setLevel (.int 100), .milestone none, .milestone none,
      .tick (.int 20000) none] ++ [.revertAll]
    let s := (Scheduler.start (.clamp 40) 7 e [("gravity_y", .int 800)] {}).runAll calls
    Engine.ofRules false rules = .ok e ∧ Reversible rules ∧ s.mutations = [] ∧
      (∀ trigger, s.scene.rules.rules.filter (·.trigger = trigger) =
        rules.filter (·.trigger = trigger)) ∧
      ∀ trigger st, s.scene.rules.dispatchDatum trigger st = e.dispatchDatum trigger st := by
  intro rules e calls s
  have he : Engine.ofRules false rules = .ok e := Engine.ofRules_point false .plus _ _
  have hR : Reversible rules :=
    { canonical := fun r hr => by
        have heffect : "score+1" = Effect.scoreText .plus (Number.int (1 : Nat)).text := rfl
        rw [List.mem_singleton.mp hr]
        exact Rule.canonical_of_whole (by decide) heffect
      falls := fun r hr ht => by
        rw [List.mem_singleton.mp hr] at ht
        exact absurd ht (by decide)
      unmarked := fun r hr => by
        rw [List.mem_singleton.mp hr]
        decide }
  have hgravity : ∀ d ∈ Fields.get? [("gravity_y", .int 800)] "gravity_y", Datum.Numeric d := by
    intro d hd
    obtain rfl : Datum.int 800 = d := Option.some.inj hd
    exact ⟨_, rfl⟩
  have hcalls : ∀ c ∈ calls, c.Keeps Datum.Numeric GameState.Typed := by
    intro c hc
    simp only [calls, List.mem_append, List.mem_cons, List.not_mem_nil, or_false] at hc
    rcases hc with (rfl | rfl | rfl | rfl) | rfl
    · trivial
    · exact fun st hst => nomatch hst
    · exact fun st hst => nomatch hst
    · exact ⟨⟨_, rfl⟩, fun st hst => nomatch hst⟩
    · trivial
  have hnone : s.mutations = [] :=
    mutations_revertAll (Consistent.start (Engine.ofRules_spec he).2.2 _ _ _ _) _
  have hfree : ∀ m, m ∉ s.mutations := List.eq_nil_iff_forall_not_mem.mp hnone
  have hrun := rules_unwound.2 he hR (.clamp 40) 7 {} hgravity hcalls
  extract_lets at hrun
  exact ⟨he, hR, hnone, hrun (hfree .scoreReverse) (hfree .cursedCoins) (hfree .voidMercy)⟩

end Scheduler

end SeededPlay

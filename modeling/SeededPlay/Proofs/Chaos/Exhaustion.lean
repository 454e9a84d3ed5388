/-
# `SeededPlay.Proofs.Chaos.Exhaustion` — when an activation comes to nothing

Under a permissive engine, with the weights that its level brings, an activation comes to
nothing in two cases only: there is no chaos, or the level is in the last tier and what is
active leaves nothing to begin (`candidates_eq_nil`).  In the tiers between, the few
mutations that there is room for never stand in the way of all that the level permits.

The last tier has room for the whole catalog, so there nobody has to go and everything
active counts.  Where the cap is reached, the oldest mutation counts as gone; it is a
candidate itself then, because it is in nobody's way (`oldest_mem_candidates`).

The level may change in the course of a run.  What counts is the one at the end, with the
mutations that are still active then, whatever the level was when they began.
-/
import SeededPlay.Proofs.Chaos.Permissive
import SeededPlay.Proofs.Chaos.NewLevel
import SeededPlay.Proofs.Chaos.Setup

namespace SeededPlay

open Attempt (reached)

/-- An active mutation stands in the way of one: it is that one, or both write a parameter. -/
def ActiveMutation.Blocks (a : ActiveMutation) (m : Mutation) : Prop :=
  a.mutation = m ∨ ∃ name ∈ m.touches, name ∈ a.mutation.touches

namespace ChaosLevel

variable {level : ChaosLevel}

theorem cap_eq_zero (h : level.value = 0) : level.tier.cap = 0 := by
  have htier : level.tier = .order := if_pos (Nat.le_of_eq h)
  rw [htier]
  rfl

theorem tier_of_last (h : 76 ≤ level.value) : level.tier = .surreal := by
  unfold tier Tier.ofLevel
  rw [if_neg (by omega), if_neg (by omega), if_neg (by omega), if_neg (by omega)]

end ChaosLevel

namespace Scheduler

variable {s : Scheduler}

theorem mem_candidates_iff {m : Mutation} :
    m ∈ s.candidates ↔ m ∈ s.level.eligible ∧ ∀ a ∈ s.staying, ¬a.Blocks m := by
  have hblocks : ∀ a : ActiveMutation,
      (decide (a.mutation ≠ m) && !m.clashes a.mutation) = true ↔ ¬a.Blocks m := by
    intro a
    rw [Bool.and_eq_true, decide_eq_true_eq, Bool.not_eq_true', clashes_eq_false]
    unfold ActiveMutation.Blocks
    rw [not_or, not_exists]
    exact and_congr_right fun _ =>
      ⟨fun h name ⟨hm, ha⟩ => h hm ha, fun h name hm ha => h name ⟨hm, ha⟩⟩
  unfold candidates
  rw [List.mem_filter, List.all_eq_true]
  simp only [hblocks]

theorem oldest_mem_candidates (hs : s.Consistent) (hfull : s.active.length = s.cap)
    {oldest : ActiveMutation} (ho : oldest ∈ s.active.head?) :
    oldest.mutation ∈ s.candidates := by
  obtain ⟨rest, hactive⟩ : ∃ rest, s.active = oldest :: rest := List.head?_eq_some_iff.mp ho
  have hstaying : s.staying = rest := by
    have hisFull : s.isFull = true := decide_eq_true (Nat.le_of_eq hfull.symm)
    unfold staying
    rw [if_pos hisFull, hactive, List.drop_one, List.tail_cons]
  have hdistinct := hs.intact.distinct
  have hapart := hs.intact.apart
  unfold mutations at hdistinct
  rw [hactive, List.map_cons, List.nodup_cons] at hdistinct
  rw [hactive, List.pairwise_cons] at hapart
  rw [mem_candidates_iff, hstaying]
  refine ⟨hs.fits.permitted _ ?_, fun a ha hblocks => ?_⟩
  · unfold mutations
    rw [hactive]
    exact List.mem_cons_self
  · rcases hblocks with heq | ⟨name, hname, hname'⟩
    · exact hdistinct.1 (heq ▸ List.mem_map_of_mem ha)
    · exact hapart.1 a ha hname hname'

theorem staying_of_last (hs : s.Consistent) (hlevel : 76 ≤ s.level.value) :
    s.staying = s.active := by
  have hfew : s.mutations.length ≤ Mutation.catalog.length :=
    hs.intact.distinct.length_le_of_subset fun m _ => Vocabulary.mem_members m
  have hcap : s.cap = 999 := congrArg Tier.cap (ChaosLevel.tier_of_last hlevel)
  have hroom : s.isFull = false := by
    have hcatalog : Mutation.catalog.length = 19 := rfl
    unfold mutations at hfew
    rw [List.length_map] at hfew
    unfold isFull
    rw [decide_eq_false_iff_not]
    omega
  unfold staying
  rw [hroom]
  rfl

/-- Nothing may be next exactly without chaos, or in the last tier when something stands in
the way of everything that is permitted. -/
theorem candidates_eq_nil (hs : s.Consistent) : s.candidates = [] ↔ s.level.value = 0 ∨
    76 ≤ s.level.value ∧ ∀ m ∈ s.level.eligible, ∃ a ∈ s.active, a.Blocks m := by
  have hnil : s.candidates = [] ↔ ∀ m ∈ s.level.eligible, ∃ a ∈ s.staying, a.Blocks m := by
    rw [List.eq_nil_iff_forall_not_mem]
    refine forall_congr' fun m => ?_
    rw [mem_candidates_iff]
    push Not
    rfl
  rcases Nat.eq_zero_or_pos s.level.value with hzero | hpos
  · exact ⟨fun _ => .inl hzero, fun _ => candidates_of_cap (ChaosLevel.cap_eq_zero hzero)⟩
  · by_cases hlast : 76 ≤ s.level.value
    · rw [hnil, staying_of_last hs hlast]
      exact ⟨fun h => .inr ⟨hlast, h⟩, fun h => (h.resolve_left (by omega)).2⟩
    · obtain ⟨m, hm⟩ := exists_candidate hs ⟨hpos, by omega⟩
      constructor
      · exact fun h => absurd h (List.ne_nil_of_mem hm)
      · rintro (hzero | ⟨hlast', -⟩) <;> omega

/-- After every run of a permissive engine that leaves the weights alone, an activation does
not fail.  It comes to nothing exactly without chaos, or in the last tier when each mutation
that is permitted is active or writes a parameter that an active one writes.  So on the
levels between there is always one, and at the cap the oldest may be its own successor. -/
theorem activate_exhausted {rules : List Rule} {e : Engine}
    (he : Engine.ofRules false rules = .ok e) {base : Fields Datum} (hbase : base.Grounded)
    (level : ChaosLevel) (seed : Nat) (state : GameState) {calls : List Call}
    (hcalls : ∀ c ∈ calls, c.Keeps Datum.Numeric GameState.Typed ∧ ¬c.SetsWeights)
    {shown : Option GameState} (hshown : ∀ st ∈ shown, st.Typed) :
    let s := reached (present shown ((start level seed e base state).runAll calls))
    let config := ChaosConfig.ofLevel s.level
    ∃ a? s', activate shown.isSome s = .ok a? s' ∧
      (a? = none ↔ s.level.value = 0 ∨ 76 ≤ s.level.value ∧
        ∀ m : Mutation, m.id ∈ config.mutations → ∃ a ∈ s.active,
          a.mutation = m ∨ ∃ name ∈ m.touches, name ∈ a.mutation.touches) ∧
      (1 ≤ s.level.value → s.level.value ≤ 75 → a?.isSome) ∧
      ((s.active.length : Int) = config.cap →
        ∀ oldest ∈ s.active.head?, oldest.mutation ∈ s.candidates) := by
  intro s config
  obtain ⟨hs, htyped⟩ : s.Permissive ∧ (shown.isSome = true → s.scene.state.Typed) :=
    permissive_after he hbase level seed state (fun c hc => (hcalls c hc).1) hshown
  have hweights : s.weights = weightsOf s.level :=
    weights_runAll (s := start level seed e base state) hcalls rfl
  obtain ⟨a?, s', hactivate, hnone⟩ := hs.activate hweights htyped
  have heligible : (∀ m : Mutation, m.id ∈ config.mutations → ∃ a ∈ s.active, a.Blocks m) ↔
      ∀ m ∈ s.level.eligible, ∃ a ∈ s.active, a.Blocks m :=
    forall_congr' fun m => imp_congr_left (List.mem_map_of_injective id_injective)
  have hexhausted := hnone.trans (candidates_eq_nil hs.consistent)
  refine ⟨a?, s', hactivate, ?_, fun hlow hhigh => ?_, fun hfull oldest ho => ?_⟩
  · rw [hexhausted, ← heligible]
    rfl
  · rw [Option.isSome_iff_ne_none, Ne, hexhausted]
    omega
  · exact oldest_mem_candidates hs.consistent (Int.ofNat_inj.mp hfull) ho

theorem activate_exhausted_lowered :
    let calls : List Call := [.tick (.int 500) (some {}), .setLevel (.int 20)]
    let s := reached (present (some {}) ((start (.clamp 90) 7 ⟨false, []⟩ [] {}).runAll calls))
    Engine.ofRules false [] = .ok ⟨false, []⟩ ∧
      (∀ c ∈ calls, c.Keeps Datum.Numeric GameState.Typed ∧ ¬c.SetsWeights) ∧
      s.level.value = 20 ∧ ∃ a s', activate true s = .ok (some a) s' := by
  intro calls s
  have he : Engine.ofRules false [] = .ok ⟨false, []⟩ := rfl
  have htyped : ∀ st ∈ some ({} : GameState), st.Typed := by
    intro st hst
    obtain rfl := Option.some.inj hst
    exact ⟨.inr ⟨_, rfl⟩, _, rfl⟩
  have hcalls : ∀ c ∈ calls, c.Keeps Datum.Numeric GameState.Typed ∧ ¬c.SetsWeights := by
    simp only [calls, List.forall_mem_cons]
    exact ⟨⟨⟨⟨_, rfl⟩, htyped⟩, id⟩, ⟨trivial, id⟩, nofun⟩
  have hlevel : s.level.value = 20 := by decide +kernel
  have hbase : Fields.Grounded [] := nofun
  have hlow : 1 ≤ s.level.value := by omega
  have hhigh : s.level.value ≤ 75 := by omega
  obtain ⟨a?, s', hactivate, -, hsome, -⟩ :=
    activate_exhausted he hbase (.clamp 90) 7 {} hcalls htyped
  obtain ⟨a, rfl⟩ := Option.isSome_iff_exists.mp (hsome hlow hhigh)
  exact ⟨he, hcalls, hlevel, a, s', hactivate⟩

end Scheduler

end SeededPlay

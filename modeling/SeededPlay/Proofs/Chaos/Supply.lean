/-
# `SeededPlay.Proofs.Chaos.Supply` — there is always a mutation left

Below the last tier an activation never comes to nothing (`drawMutation_ne_none`).  A tier
has room for at most three mutations, and each of its levels permits as many that share
their parameters with no other, so by counting one of those is free
(`exists_candidate`).  Every category that a level permits has a weight, and a draw among
things that have weight gives one of them (`drawMutation_eq_none`).

In the last tier there is room for all mutations at once, and then none is left.

## Counting

The mutations that share their parameters with no other are the loners, and a loner is in
the way of itself only.  A graded level permits as many loners as it has room for mutations
(`permits_loners`).  At the cap the oldest goes first, so fewer stay than there is room for,
and one loner is left.  What a level permits has weight there (`ChaosLevel.weight_pos`), and
where something has weight something is picked (`pickWeighted_ne_none`), which is one of the
options.
-/
import SeededPlay.Proofs.Chaos.Consistency
import SeededPlay.Proofs.Game.Rules

namespace SeededPlay

namespace Draw

variable {α : Type} {k : UInt32}

theorem mem_of_firstPast {target running : Binary64} {options : List (α × Number)} {a : α}
    (h : firstPast target running options = .ok (some a)) : a ∈ options.map (·.1) := by
  induction options generalizing running with
  | nil => cases h
  | cons o options ih =>
    obtain ⟨b, w⟩ := o
    unfold firstPast at h
    split at h
    · cases h
    · simp only at h
      split at h
      · obtain rfl := Option.some.inj (Except.ok.inj h)
        exact List.mem_cons_self
      · exact List.mem_cons_of_mem _ (ih h)

theorem mem_of_pickWeighted {options : List (α × Number)} {a : α}
    (h : pickWeighted k options = .ok (some a)) : a ∈ options.map (·.1) := by
  unfold pickWeighted at h
  simp only at h
  split at h
  · cases h
  · rename_i last hlast
    obtain ⟨sum, -, h⟩ := bind_eq_ok.mp h
    split at h
    · cases h
    · obtain ⟨picked, hpicked, h⟩ := bind_eq_ok.mp h
      have ha := Option.some.inj (Except.ok.inj h)
      have hpool : a ∈ (options.filter fun o => (Number.int 0).lt o.2).map (·.1) := by
        cases picked with
        | none => exact ha ▸ List.mem_map_of_mem (List.mem_of_getLast? hlast)
        | some b => exact ha ▸ mem_of_firstPast hpicked
      exact List.map_subset _ (List.filter_subset_self options) hpool

theorem pickWeighted_ne_none {options : List (α × Number)} {o : α × Number} (ho : o ∈ options)
    (hweight : (Number.int 0).lt o.2 = true) : pickWeighted k options ≠ .ok none := by
  intro h
  unfold pickWeighted at h
  simp only at h
  split at h
  · rename_i hlast
    have hpool := List.getLast?_eq_none_iff.mp hlast
    exact List.filter_eq_nil_iff.mp hpool o ho hweight
  · obtain ⟨sum, -, h⟩ := bind_eq_ok.mp h
    split at h
    · cases h
    · obtain ⟨picked, -, h⟩ := bind_eq_ok.mp h
      cases Except.ok.inj h

theorem pick_ne_none {options : List α} (hne : options ≠ []) : pick k options ≠ .ok none := by
  intro h
  unfold pick at h
  split at h
  · rename_i hempty
    exact hne (List.isEmpty_iff.mp hempty)
  · obtain ⟨i, -, h⟩ := bind_eq_ok.mp h
    split at h
    · cases Except.ok.inj h
    · cases h

end Draw

/-! ## Room for one more -/

namespace Mutation

/-- Mutations that share their parameters with no other. -/
def loners : List Mutation := [.colorInvert, .pixelMega, .mirrorWorld]

theorem clashes_loner {m n : Mutation} (hm : m ∈ loners) (h : m.clashes n = true) : m = n := by
  have hall : ∀ m ∈ loners, ∀ n ∈ catalog, m.clashes n = true → m = n := by decide +kernel
  exact hall m hm n (Vocabulary.mem_members n) h

end Mutation

theorem Scheduler.weightsOf_preset (level : ChaosLevel) :
    weightsOf level = weightsOf level.tier.presetLevel := by
  unfold weightsOf
  cases level.tier <;> rfl

/-- A level of the three tiers between order and the last one. -/
def ChaosLevel.IsGraded (level : ChaosLevel) : Prop := 1 ≤ level.value ∧ level.value ≤ 75

namespace ChaosLevel.IsGraded

variable {level : ChaosLevel}

theorem tier_cases (h : level.IsGraded) : level.tier = .mild ∨
    level.tier = .emergent ∧ 25 < level.value ∨ level.tier = .wild ∧ 50 < level.value := by
  obtain ⟨hlow, hhigh⟩ := h
  unfold tier Tier.ofLevel
  rw [if_neg (by omega), if_pos hhigh]
  split
  · exact .inl rfl
  · split
    · exact .inr (.inl ⟨rfl, by omega⟩)
    · exact .inr (.inr ⟨rfl, by omega⟩)

theorem cap_ne_zero (h : level.IsGraded) : level.tier.cap ≠ 0 := by
  rcases h.tier_cases with htier | ⟨htier, -⟩ | ⟨htier, -⟩ <;> rw [htier] <;> decide

theorem exists_timetable (h : level.IsGraded) : ∃ interval period,
    level.tier.milestone = some interval ∧ level.tier.period = some period ∧
      (0 < interval ∧ interval < 2 ^ 53) ∧ period < 2 ^ 53 := by
  rcases h.tier_cases with htier | ⟨htier, -⟩ | ⟨htier, -⟩ <;> rw [htier]
  · exact ⟨500, 90000, rfl, rfl, by decide, by decide⟩
  · exact ⟨250, 60000, rfl, rfl, by decide, by decide⟩
  · exact ⟨100, 30000, rfl, rfl, by decide, by decide⟩

/-- A graded level permits as many loners as it has room for mutations. -/
theorem permits_loners (h : level.IsGraded) :
    (Mutation.loners.take level.tier.cap).length = level.tier.cap ∧
      ∀ m ∈ Mutation.loners.take level.tier.cap, m ∈ level.eligible := by
  have hcard : ∀ m ∈ Mutation.loners, m.minLevel ≤ 15 ∧ m.category = .visual := by decide
  have hpermits : ∀ m ∈ Mutation.loners, m.minLevel ≤ level.value → m ∈ level.eligible := by
    intro m hm hlevel
    refine List.mem_filter.mpr ⟨Vocabulary.mem_members m, ?_⟩
    rw [Bool.and_eq_true, decide_eq_true_eq, (hcard m hm).2]
    refine ⟨hlevel, ?_⟩
    rcases h.tier_cases with htier | ⟨htier, -⟩ | ⟨htier, -⟩ <;> rw [htier] <;> rfl
  have hmore : 25 < level.value →
      ∀ m ∈ Mutation.loners.take level.tier.cap, m ∈ level.eligible := by
    intro hlevel m hm
    have hm := List.mem_of_mem_take hm
    have hmin := (hcard m hm).1
    exact hpermits m hm (by omega)
  rcases h.tier_cases with htier | ⟨htier, hlevel⟩ | ⟨htier, hlevel⟩
  · rw [htier]
    refine ⟨rfl, fun m hm => ?_⟩
    obtain rfl := List.mem_singleton.mp hm
    exact hpermits _ List.mem_cons_self h.1
  · exact ⟨by rw [htier]; rfl, hmore (by omega)⟩
  · exact ⟨by rw [htier]; rfl, hmore (by omega)⟩

end ChaosLevel.IsGraded

theorem ChaosLevel.weight_pos {level : ChaosLevel} {m : Mutation} (hm : m ∈ level.eligible) :
    ∃ w : Number,
      ((Scheduler.weightsOf level).getD (Vocabulary.word m.category) (.int 0)).toNumber = .ok w ∧
        (Number.int 0).lt w = true := by
  have hall : ∀ t ∈ (Vocabulary.members : List Tier), ∀ c ∈ t.categories,
      (((Scheduler.weightsOf t.presetLevel).getD (Vocabulary.word c) (.int 0)).toNumber.toOption.any
        (Number.int 0).lt) = true := by
    decide +kernel
  obtain ⟨-, hm⟩ := List.mem_filter.mp hm
  rw [Bool.and_eq_true, List.contains_iff_mem] at hm
  obtain ⟨w, hw, hpos⟩ := (Option.any_eq_true _ _).mp
    (hall level.tier (Vocabulary.mem_members _) m.category hm.2)
  rw [Scheduler.weightsOf_preset]
  exact ⟨w, eq_ok_of_toOption hw, hpos⟩

namespace Scheduler

variable {s : Scheduler}

/-- On a graded level some mutation may be next. -/
theorem exists_candidate (hs : s.Consistent) (hlevel : s.level.IsGraded) :
    ∃ m, m ∈ s.candidates := by
  obtain ⟨hlength, hpermits⟩ := hlevel.permits_loners
  have hroom := hs.fits.length_staying_lt hlevel.cap_ne_zero
  -- There are more loners than mutations that stay, so one of them is not active.
  obtain ⟨m, hm, hfree⟩ : ∃ m ∈ Mutation.loners.take s.cap, m ∉ s.staying.map (·.mutation) := by
    by_contra hall
    have hsubset : Mutation.loners.take s.cap ⊆ s.staying.map (·.mutation) := by
      intro m hm
      by_contra hfree
      exact hall ⟨m, hm, hfree⟩
    have hnodup : (Mutation.loners.take s.cap).Nodup :=
      (List.take_sublist _ _).nodup (by decide)
    have hle := List.Nodup.length_le_of_subset hnodup hsubset
    rw [List.length_map] at hle
    exact Nat.not_le.mpr hroom (Nat.le_trans (Nat.le_of_eq hlength.symm) hle)
  refine ⟨m, List.mem_filter.mpr ⟨hpermits m hm, List.all_eq_true.mpr fun a ha => ?_⟩⟩
  have hne : a.mutation ≠ m := fun he => hfree (he ▸ List.mem_map_of_mem ha)
  have hclash : m.clashes a.mutation = false := by
    by_contra hclash
    rw [Bool.not_eq_false] at hclash
    exact hne (Mutation.clashes_loner (List.mem_of_mem_take hm) hclash).symm
  simp only [hne, ne_eq, not_false_eq_true, decide_true, hclash, Bool.not_false, Bool.and_self]

theorem weighed_eq_ok {ms : List Mutation} {ws : List (Category × Number)}
    (h : s.weighed ms = .ok ws) :
    (∀ m ∈ ms, ∃ w, s.weight m.category = .ok w ∧ (m.category, w) ∈ ws) ∧
      ∀ c ∈ ws.map (·.1), ∃ m ∈ ms, m.category = c := by
  have hmap := mapM_eq_ok.mp h
  refine ⟨fun m hm => ?_, fun c hc => ?_⟩
  · have hmem : m.category ∈ distinctBy (·) (ms.map Mutation.category) :=
      mem_distinctBy.mpr (List.mem_map_of_mem hm)
    have hread := List.mem_map_of_mem (f := fun c => do return (c, ← s.weight c)) hmem
    rw [hmap] at hread
    obtain ⟨⟨c, w⟩, hw, heq⟩ := List.mem_map.mp hread
    obtain ⟨w', hweight, heq⟩ := bind_eq_ok.mp heq.symm
    obtain ⟨rfl, rfl⟩ := Prod.mk.inj (Except.ok.inj heq)
    exact ⟨w', hweight, hw⟩
  · obtain ⟨⟨c, w⟩, hw, rfl⟩ := List.mem_map.mp hc
    have hread := List.mem_map_of_mem (f := Except.ok (ε := Fault)) hw
    rw [← hmap] at hread
    obtain ⟨c', hmem, heq⟩ := List.mem_map.mp hread
    obtain ⟨w', -, heq⟩ := bind_eq_ok.mp heq
    obtain ⟨rfl, rfl⟩ := Prod.mk.inj (Except.ok.inj heq)
    exact List.mem_map.mp (distinctBy_subset _ _ hmem)

theorem drawMutation_eq_none (hweights : s.weights = weightsOf s.level) :
    s.drawMutation = .ok none ↔ s.candidates = [] := by
  constructor
  · intro h
    by_contra hne
    obtain ⟨m, hm⟩ := List.exists_mem_of_ne_nil _ hne
    obtain ⟨c?, hc, h⟩ := bind_eq_ok.mp h
    obtain ⟨ws, hws, hpick⟩ := bind_eq_ok.mp hc
    obtain ⟨hweight, hcategory⟩ := weighed_eq_ok hws
    cases c? with
    | none =>
      obtain ⟨w, hw, hmem⟩ := hweight m hm
      obtain ⟨w', hw', hpos⟩ := ChaosLevel.weight_pos (List.mem_filter.mp hm).1
      rw [← hweights] at hw'
      obtain rfl : w = w' := Except.ok.inj (hw.symm.trans hw')
      exact Draw.pickWeighted_ne_none hmem hpos hpick
    | some c =>
      obtain ⟨m, hm, rfl⟩ := hcategory c (Draw.mem_of_pickWeighted hpick)
      have hne : s.candidates.filter (·.category = m.category) ≠ [] :=
        List.ne_nil_of_mem (List.mem_filter.mpr ⟨hm, decide_eq_true rfl⟩)
      exact Draw.pick_ne_none hne h
  · intro hnone
    unfold drawMutation
    rw [hnone]
    rfl

/-- On a graded level, with the weights that it brings, a draw does not come to nothing. -/
theorem drawMutation_ne_none (hs : s.Consistent) (hlevel : s.level.IsGraded)
    (hweights : s.weights = weightsOf s.level) : s.drawMutation ≠ .ok none := by
  obtain ⟨m, hm⟩ := exists_candidate hs hlevel
  exact fun h => List.ne_nil_of_mem hm ((drawMutation_eq_none hweights).mp h)

end Scheduler

end SeededPlay

/-
# `SeededPlay.Proofs.Rules.Merging` — merged rules grow with the set of verbs

Of rules with one key the first one stays, and so a bundle that is merged in earlier could
push out or move a rule of a later one.  Here none does.  What is kept of some items depends
on what was seen before them only as far as their own keys go (`distinctFrom_congr`), and a
key that two bundles share is a key of the baseline, which comes first in any case
(`Bundle.pairwise_apart`).  So every bundle adds the same rules whatever it is merged with
(`Bundle.combined_eq`): the merged rules are the baseline and then, bundle by bundle, what
the chosen ones add to it.  More verbs choose more bundles, in the same order.

Behind the baseline, bundles that are apart add what each of them adds alone
(`distinctFrom_flatMap`).
-/
import Mathlib
import SeededPlay.Proofs.Rules.Distinct

namespace SeededPlay

/-! ## What bundles share -/

namespace Bundle

/-- The keys of the rules of a bundle. -/
def keys (b : Bundle) : List (String × String × String) := b.rules.map Rule.key

/-- The rules of a bundle that the baseline does not have. -/
def fresh (b : Bundle) : List Rule := distinctFrom Rule.key baseline.keys b.rules

/-- Two bundles that have no more in common than what the baseline has, too. -/
def Apart (b c : Bundle) : Prop := ∀ k ∈ c.keys, k ∈ b.keys → k ∈ baseline.keys

theorem pairwise_apart : ofVerbs.Pairwise Apart := by
  unfold Apart
  decide +kernel

theorem distinctBy_baseline : distinctBy Rule.key baseline.rules = baseline.rules := by
  decide +kernel

theorem distinctFrom_flatMap {bs : List Bundle} (h : bs.Pairwise Apart) :
    distinctFrom Rule.key baseline.keys (bs.flatMap (·.rules)) = bs.flatMap fresh := by
  induction bs with
  | nil => rfl
  | cons b bs ih =>
    obtain ⟨hb, hbs⟩ := List.pairwise_cons.mp h
    rw [List.flatMap_cons, List.flatMap_cons, distinctFrom_append, ← ih hbs]
    refine congrArg _ (distinctFrom_congr fun r hr => ?_)
    obtain ⟨c, hc, hrc⟩ := List.mem_flatMap.mp hr
    rw [List.mem_append]
    exact ⟨fun hk => hk.elim (hb c hc r.key (List.mem_map_of_mem hrc)) id, Or.inr⟩

/-- The merged rules, bundle by bundle. -/
theorem combined_eq (verbs : List String) : combined verbs = baseline.rules ++
    (ofVerbs.filter fun b => (verbs.map Text.lower).contains b.name).flatMap fresh := by
  have happart := pairwise_apart.sublist
    (List.filter_sublist (p := fun b : Bundle => (verbs.map Text.lower).contains b.name))
  have hbaseline : distinctFrom Rule.key [] baseline.rules = baseline.rules := distinctBy_baseline
  have hfresh := distinctFrom_flatMap happart
  simp only [combined, merged, distinctBy, distinctFrom_append, hbaseline, List.append_nil]
  exact congrArg _ hfresh

/-- The bundles that verbs choose: the baseline in any case, and those of their names. -/
def Chosen (verbs : List String) (b : Bundle) : Prop :=
  b = baseline ∨ b ∈ ofVerbs ∧ b.name ∈ verbs.map Text.lower

theorem mem_merged {verbs : List String} {r : Rule} :
    r ∈ merged (verbs.map Text.lower) ↔ ∃ b, Chosen verbs b ∧ r ∈ b.rules := by
  simp only [merged, Chosen, List.mem_append, List.mem_flatMap, List.mem_filter,
    List.contains_iff_mem]
  constructor
  · rintro (hr | ⟨b, hb, hr⟩)
    · exact ⟨baseline, .inl rfl, hr⟩
    · exact ⟨b, .inr hb, hr⟩
  · rintro ⟨b, rfl | hb, hr⟩
    · exact .inl hr
    · exact .inr ⟨b, hb, hr⟩

theorem combined_sublist {vs ws : List String} (h : ∀ v ∈ vs, Text.lower v ∈ ws.map Text.lower) :
    (combined vs).Sublist (combined ws) := by
  have hchosen : ∀ b : Bundle, (vs.map Text.lower).contains b.name = true →
      (ws.map Text.lower).contains b.name = true := by
    intro b hb
    obtain ⟨v, hv, hname⟩ := List.mem_map.mp (List.contains_iff_mem.mp hb)
    exact List.contains_iff_mem.mpr (hname ▸ h v hv)
  rw [combined_eq, combined_eq]
  exact ((List.monotone_filter_right ofVerbs hchosen).flatMap fresh).append_left _

/-- The merged rules are a monotone function of the set of names: those of fewer names are
among those of more, in the same order, and names that come again, in another order or in
another case make no difference.  The baseline leads, no key comes twice, and the rules are
those of the chosen bundles, up to their keys all of them and nothing else. -/
theorem combined_monotone (vs ws : List String) :
    ((∀ v ∈ vs, Text.lower v ∈ ws.map Text.lower) → (combined vs).Sublist (combined ws)) ∧
    ((∀ name, name ∈ vs.map Text.lower ↔ name ∈ ws.map Text.lower) → combined vs = combined ws) ∧
    baseline.rules <+: combined vs ∧
    ((combined vs).map Rule.key).Nodup ∧
    (∀ b, Chosen vs b → ∀ r ∈ b.rules, r.key ∈ (combined vs).map Rule.key) ∧
    ∀ r ∈ combined vs, ∃ b, Chosen vs b ∧ r ∈ b.rules := by
  refine ⟨combined_sublist, fun h => ?_, ?_, nodup_keys_distinctFrom [] _, fun b hb r hr => ?_,
    fun r hr => ?_⟩
  · have hvs : ∀ v ∈ vs, Text.lower v ∈ ws.map Text.lower :=
      fun v hv => (h _).mp (List.mem_map_of_mem hv)
    have hws : ∀ w ∈ ws, Text.lower w ∈ vs.map Text.lower :=
      fun w hw => (h _).mpr (List.mem_map_of_mem hw)
    exact (combined_sublist hvs).antisymm (combined_sublist hws)
  · rw [combined_eq]
    exact List.prefix_append _ _
  · have hmerged : r.key ∈ (merged (vs.map Text.lower)).map Rule.key :=
      List.mem_map_of_mem (mem_merged.mpr ⟨b, hb, hr⟩)
    exact mem_keys_distinctFrom.mpr ⟨hmerged, List.not_mem_nil⟩
  · exact mem_merged.mp (distinctBy_subset Rule.key _ hr)

theorem combined_monotone_shooter :
    (∀ v ∈ ["SHOOT", "swim"], Text.lower v ∈ ["Swim", "dodge", "Shoot", "shoot"].map Text.lower) ∧
      (combined ["SHOOT", "swim"]).Sublist (combined ["Swim", "dodge", "Shoot", "shoot"]) := by
  have hnames : ∀ v ∈ ["SHOOT", "swim"],
      Text.lower v ∈ ["Swim", "dodge", "Shoot", "shoot"].map Text.lower := by
    decide +kernel
  exact ⟨hnames, (combined_monotone _ _).1 hnames⟩

end Bundle

end SeededPlay

/-
# `SeededPlay.Proofs.Game.Rules` — the rules of generated games

The rules of a game come out of a fixed stock, the bundles of the verbs and a few more
for gravity and chaos, so what holds of every rule in the stock holds of every game.
Here: mutations can unwind them (`Choices.reversible_rules`).  The stock gives points
in whole amounts, and a whole amount is written as it would be written anew.

A rule whose effect does not begin with the score does not change it (`not_scores`), so for
most of the stock nothing is left to show, and the rules that do give points are not about a
fall.
-/
import SeededPlay.Proofs.Chaos.Layers
import SeededPlay.Proofs.Rules.Distinct
import SeededPlay.Game.Game

namespace SeededPlay

open Effect (scoreText)

/-! ## Rules and the score -/

namespace Rule

theorem not_scores {r : Rule} (h : r.effect.toList.take 5 ≠ ['s', 'c', 'o', 'r', 'e'])
    (sign : Sign) (n : Number) : ¬r.Scores sign n := by
  intro hs
  obtain ⟨amount, htext, -⟩ := Effect.parse_eq_score hs
  rw [htext, Effect.toList_scoreText] at h
  exact h rfl

theorem canonical_of_whole {r : Rule} {sign : Sign} {n : Nat} (hn : n < 10 ^ 9)
    (h : r.effect = scoreText sign (Number.int n).text) : r.Canonical := by
  intro s m hs
  obtain ⟨amount, htext, -, hm⟩ := Effect.parse_eq_score hs
  obtain ⟨rfl, rfl⟩ := Effect.scoreText_inj (htext.symm.trans h)
  rw [Phrase.numberOf_text_int (k := 9) (by decide) (by decide) hn] at hm
  rw [h, ← Except.ok.inj hm]

end Rule

/-! ## The stock -/

/-- Every rule that games are made of. -/
def stock : List Rule :=
  Bundle.all.flatMap (·.rules) ++
    [.always "gravity_shift" "invert_gravity" "gravity:invert",
      .always "player_on_ceiling" "ceiling_walk" "spawn:particle_sparkle",
      .always "player_collect_chaos_orb" "trigger_chaos" "chaos:trigger"]

theorem stock_texts : ∀ r ∈ stock, r.isMarked = false ∧
    (r.effect.toList.take 5 ≠ ['s', 'c', 'o', 'r', 'e'] ∨ r.trigger ≠ "player_fall_out" ∧
      ∃ n ∈ [1, 2, 3, 5, 10], r.effect = scoreText .plus (Number.int (n : Nat)).text) := by
  decide +kernel

theorem Bundle.mem_stock_of_combined {verbs : List String} {r : Rule} (h : r ∈ combined verbs) :
    r ∈ stock := by
  have hmerged : r ∈ merged (verbs.map Text.lower) :=
    distinctBy_subset Rule.key _ h
  refine List.mem_append_left _ (List.mem_flatMap.mpr ?_)
  rcases List.mem_append.mp hmerged with hbase | hverb
  · exact ⟨baseline, List.mem_cons_self, hbase⟩
  · obtain ⟨b, hb, hr⟩ := List.mem_flatMap.mp hverb
    exact ⟨b, List.mem_cons_of_mem _ (List.mem_filter.mp hb).1, hr⟩

namespace Choices

theorem mem_stock_of_rules {c : Choices} {r : Rule} (h : r ∈ c.rules) : r ∈ stock := by
  rcases List.mem_append.mp h with h | hchaos
  · rcases List.mem_append.mp h with hverbs | hgravity
    · exact Bundle.mem_stock_of_combined hverbs
    · refine List.mem_append_right _ ?_
      unfold gravityRules at hgravity
      split at hgravity
      · rw [List.mem_singleton.mp hgravity]
        exact List.mem_cons_self
      · rw [List.mem_singleton.mp hgravity]
        exact List.mem_cons_of_mem _ List.mem_cons_self
      · exact absurd hgravity List.not_mem_nil
  · refine List.mem_append_right _ ?_
    unfold chaosRules at hchaos
    split at hchaos
    · rw [List.mem_singleton.mp hchaos]
      exact List.mem_cons_of_mem _ (List.mem_cons_of_mem _ List.mem_cons_self)
    · exact absurd hchaos List.not_mem_nil

/-- The rules of every generated game come back. -/
theorem reversible_rules (c : Choices) : Reversible c.rules where
  canonical := by
    intro r hr
    obtain ⟨-, hnone | ⟨-, n, hn, heffect⟩⟩ := stock_texts r (mem_stock_of_rules hr)
    · exact fun sign m hs => absurd hs (Rule.not_scores hnone sign m)
    · refine Rule.canonical_of_whole ?_ heffect
      have hall : ∀ n ∈ [1, 2, 3, 5, 10], n < 10 ^ 9 := by decide
      exact hall n hn
  falls := by
    intro r hr ht
    obtain ⟨-, hnone | ⟨hne, -⟩⟩ := stock_texts r (mem_stock_of_rules hr)
    · exact Rule.not_scores hnone
    · exact absurd ht hne
  unmarked := fun r hr => (stock_texts r (mem_stock_of_rules hr)).1

end Choices

end SeededPlay

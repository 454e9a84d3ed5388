/-
# `SeededPlay.Proofs.Chaos.Reversal` — the score reversed and reversed back

Reversing the score writes amounts anew, and a text with an exponent is no numeral.  So
it depends on the amount what becomes of a rule: if it is written without an exponent the
rule gets the other sign, and its own again when the reversal is taken straight back
(`Rule.Reversed`, `Rule.Returned`); otherwise the rule no longer changes the score, and
taking the reversal back does not help, since nothing is left to be flipped.

Taking back goes by the keys that were noted.  Rules of one key are flipped or stay
together, because whether a rule changes the score can be seen from its key, so every rule
that still changes the score is flipped back (`Rule.flipPending_keysOf`).

## Three kinds of amounts

A rule that changes the score is flipped by writing its amount once more behind the other
sign.  If the new text is a numeral, the flipped rule has the other sign and the same
amount (`Scores.flipped`).  If it has an exponent, or is the text of an infinity, the
language reads no amount in it, and the flipped rule only carries its text
(`Scores.parse_flipped`); such a rule does not change the score any longer
(`changesScore_of_custom`).  A permissive engine takes both (`exists_reversal`).

That the keys of the rules still to be flipped are all noted is a count (`count_keysOf`):
rules of one key are flipped or lost together, and each occurrence noted its key once.
-/
import SeededPlay.Proofs.Chaos.Pairs
import SeededPlay.Proofs.Chaos.Roundtrip

namespace SeededPlay

open Effect (scoreText)

namespace Rule

/-! ## One rule -/

theorem Scores.flipped {r : Rule} {sign : Sign} {n : Number} (h : r.Scores sign n)
    (hn : n.IsPlain) : r.flipped.Scores sign.flip n := by
  obtain ⟨amount, -, hnum, hread⟩ := Effect.parse_eq_score h
  rw [← String.ofList_toList (s := amount)] at hread
  have htext := (Phrase.isNumeral_text hnum hread).mpr hn
  unfold Scores
  rw [flipped_of_scores h]
  exact Effect.parse_scoreText false sign.flip htext (Phrase.numberOf_text hnum hread htext)

theorem Scores.parse_flipped {r : Rule} {sign : Sign} {n : Number} (h : r.Scores sign n)
    (hn : ¬n.IsPlain) : Effect.parse false r.flipped.effect = .ok (.custom r.flipped.effect) := by
  obtain ⟨amount, -, hnum, hread⟩ := Effect.parse_eq_score h
  rw [← String.ofList_toList (s := amount)] at hread
  rw [flipped_of_scores h]
  exact Effect.parse_scoreText_other sign.flip (mt (Phrase.isNumeral_text hnum hread).mp hn)

theorem changesScore_of_custom {r : Rule} {text : String}
    (h : Effect.parse false r.effect = .ok (.custom text)) : r.changesScore = false := by
  refine changesScore_eq_false.mpr fun sign n hs => ?_
  cases (h.symm.trans hs : Except.ok _ = Except.ok _)

theorem changesScore_of_flipped {r : Rule} (h : r.flipped.changesScore = true) :
    r.changesScore = true := by
  cases hc : r.changesScore with
  | true => rfl
  | false =>
    rw [flipped_of_not hc, hc] at h
    exact h

/-! ## Taking back all of them -/

theorem count_keysOf (rules : List Rule) {f : Rule} (hf : f.changesScore = true) :
    ((rules.map flipped).map key).count f.key ≤ (keysOf rules).count f.key := by
  have hsub : ((rules.map flipped).filter changesScore).Sublist
      ((rules.filter changesScore).map flipped) := by
    rw [List.filter_map]
    exact (List.monotone_filter_right rules fun r => changesScore_of_flipped).map flipped
  rw [← count_key_filter (fun r r' h => changesScore_congr (key_eq_iff.mp h).2.2) hf]
  exact (hsub.map key).count_le _

theorem flipPending_keysOf {strict : Bool} {rules : List Rule}
    (h : ∀ r ∈ rules.map flipped, r.Readable strict) :
    flipPending (keysOf rules) (rules.map flipped) = .ok ((rules.map flipped).map flipped) := by
  obtain ⟨rules', heq, hall⟩ := flipPending_spec (fun r => r.changesScore = true) h (keysOf rules)
    fun f _ hf => count_keysOf rules hf
  rw [heq]
  clear h heq
  generalize rules.map flipped = flippedRules at hall
  induction hall with
  | nil => rfl
  | @cons r r' _ _ hr _ ih =>
    have hflip : r' = r.flipped := by
      rcases hr with ⟨rfl, hc⟩ | ⟨-, hr⟩
      · exact (flipped_of_not (Bool.eq_false_iff.mpr hc)).symm
      · exact hr
    rw [List.map_cons, ← Except.ok.inj ih, hflip]

/-! ## What becomes of a rule -/

/-- What the reversal of the score makes of a rule. -/
structure Reversed (r r' : Rule) : Prop where
  trigger : r'.trigger = r.trigger
  condition : r'.condition = r.condition
  action : r'.action = r.action
  scores : ∀ {sign n}, r.Scores sign n → n.IsPlain → r'.Scores sign.flip n
  lost : ∀ {sign n}, r.Scores sign n → ¬n.IsPlain →
    Effect.parse false r'.effect = .ok (.custom r'.effect)
  other : (∀ sign n, ¬r.Scores sign n) → r' = r

/-- What has become of a rule when the reversal was taken straight back. -/
structure Returned (r r' : Rule) : Prop where
  trigger : r'.trigger = r.trigger
  condition : r'.condition = r.condition
  action : r'.action = r.action
  effect : (∀ sign n, r.Scores sign n → n.IsPlain) →
    Effect.parse false r'.effect = Effect.parse false r.effect
  lost : ∀ {sign n}, r.Scores sign n → ¬n.IsPlain →
    Effect.parse false r'.effect = .ok (.custom r'.effect)

theorem reversed_flipped (r : Rule) : r.Reversed r.flipped where
  trigger := flipped_trigger r
  condition := flipped_condition r
  action := flipped_action r
  scores := Scores.flipped
  lost := Scores.parse_flipped
  other h := flipped_of_not (changesScore_eq_false.mpr h)

theorem returned_flipped (r : Rule) : r.Returned r.flipped.flipped where
  trigger := by rw [flipped_trigger, flipped_trigger]
  condition := by rw [flipped_condition, flipped_condition]
  action := by rw [flipped_action, flipped_action]
  effect := by
    intro hplain
    cases hc : r.changesScore with
    | false => rw [flipped_of_not hc, flipped_of_not hc]
    | true =>
      obtain ⟨sign, n, hs⟩ := changesScore_iff.mp hc
      have hn := hplain sign n hs
      have hback : r.flipped.flipped.Scores sign.flip.flip n := (hs.flipped hn).flipped hn
      have hsign : sign.flip.flip = sign := by cases sign <;> rfl
      rw [hsign] at hback
      exact Eq.trans hback hs.symm
  lost := by
    intro sign n hs hn
    have hlost := hs.parse_flipped hn
    rw [flipped_of_not (changesScore_of_custom hlost)]
    exact hlost

end Rule

namespace Mutation

/-- A permissive engine takes every rule flipped, and flipped once more on the way back. -/
theorem exists_reversal (stream : Stream) (nonce : Datum) (shown : Bool) {s : Scene}
    (hs : s.rules.Sound) (hstrict : s.rules.strict = false) :
    ∃ undo s' s'', scoreReverse.apply stream nonce shown s = .ok undo s' ∧
      scoreReverse.revert undo s' = .ok ⟨⟩ s'' ∧ s'.rules.Sound ∧ s''.rules.Sound ∧
      s'.rules.rules = s.rules.rules.map Rule.flipped ∧
      s''.rules.rules = (s.rules.rules.map Rule.flipped).map Rule.flipped := by
  obtain ⟨undo, s', happly⟩ : ∃ undo s', scoreReverse.apply stream nonce shown s = .ok undo s' := by
    have hgravity : "gravity_y" ∉ scoreReverse.touches := by decide
    rw [apply_shown (by decide)]
    exact scoreReverse.apply_succeeds stream nonce hs (fun _ => hs.flipped hstrict) nofun
      fun hmem => absurd hmem hgravity
  obtain ⟨hsound, hrules, -, e, hrevert, hsound', hback⟩ := apply_revert hs happly
  have hrules : s'.rules.rules = s.rules.rules.map Rule.flipped := hrules
  have hread : ∀ r ∈ s.rules.rules.map Rule.flipped, r.Readable s'.rules.strict :=
    hrules ▸ hsound.readable
  have hpending : Rule.flipPending (Rule.keysOf s.rules.rules) s'.rules.rules = .ok e.rules := hback
  rw [hrules, Rule.flipPending_keysOf hread] at hpending
  exact ⟨undo, s', _, happly, hrevert, hsound, hsound', hrules, (Except.ok.inj hpending).symm⟩

/-- Reversing the score makes every rule the reversed one, at its place, and taking the
reversal straight back gives every rule back at its place, except that a rule whose amount
is written with an exponent, or is infinite, is lost for the score.  A permissive engine
takes all of it, and holds what the rules mean. -/
theorem score_reversed (stream : Stream) (nonce : Datum) (shown : Bool) {s : Scene}
    (hs : s.rules.Sound) (hstrict : s.rules.strict = false) :
    ∃ undo s' s'', scoreReverse.apply stream nonce shown s = .ok undo s' ∧
      scoreReverse.revert undo s' = .ok ⟨⟩ s'' ∧ s'.rules.Sound ∧ s''.rules.Sound ∧
      List.Forall₂ Rule.Reversed s.rules.rules s'.rules.rules ∧
      List.Forall₂ Rule.Returned s.rules.rules s''.rules.rules := by
  obtain ⟨undo, s', s'', happly, hrevert, hsound, hsound', hrules, hrules'⟩ :=
    exists_reversal stream nonce shown hs hstrict
  refine ⟨undo, s', s'', happly, hrevert, hsound, hsound', ?_, ?_⟩
  · rw [hrules]
    exact List.forall₂_map_right_iff.mpr
      (List.forall₂_same.mpr fun r _ => Rule.reversed_flipped r)
  · rw [hrules', List.map_map]
    exact List.forall₂_map_right_iff.mpr
      (List.forall₂_same.mpr fun r _ => Rule.returned_flipped r)

theorem score_reversed_coin :
    let coin : Rule := .always "player_collect_coin" "add_score" "score+1"
    let e : Engine := ⟨false, [⟨coin, .always, .arithmetic "score" .plus 1⟩]⟩
    e.Sound ∧ ∃ undo s' s'', scoreReverse.apply ⟨.int 0, "chaos"⟩ (.int 0) true ⟨e, [], {}⟩ =
        .ok undo s' ∧ scoreReverse.revert undo s' = .ok ⟨⟩ s'' ∧
      (∃ r, s'.rules.rules = [r] ∧ r.Scores .minus 1) ∧
      ∃ r, s''.rules.rules = [r] ∧ r.Scores .plus 1 := by
  intro coin e
  have hcoin : coin.Scores .plus 1 := Effect.parse_scoreText_one false .plus
  have hsound : e.Sound := (Engine.ofRules_spec (Engine.ofRules_point false .plus _ _)).2.2
  obtain ⟨undo, s', s'', happly, hrevert, -, -, hreversed, hreturned⟩ :=
    score_reversed ⟨.int 0, "chaos"⟩ (.int 0) true (s := ⟨e, [], {}⟩) hsound rfl
  have hcoins : e.rules = [coin] := rfl
  rw [hcoins, List.forall₂_cons_left_iff] at hreversed hreturned
  obtain ⟨r, rest, hr, hrest, hrules⟩ := hreversed
  obtain ⟨r', rest', hr', hrest', hrules'⟩ := hreturned
  rw [List.forall₂_nil_left_iff.mp hrest] at hrules
  rw [List.forall₂_nil_left_iff.mp hrest'] at hrules'
  refine ⟨hsound, undo, s', s'', happly, hrevert, ⟨r, hrules, hr.scores hcoin trivial⟩,
    r', hrules', ?_⟩
  refine (hr'.effect fun sign n hs => ?_).trans hcoin
  obtain ⟨-, -, rfl⟩ := Effect.arithmetic.inj (Except.ok.inj (hcoin.symm.trans hs))
  trivial

/-- Not every rule comes back.  Flipped, an amount of `0.00001` is written as `1e-05`, which
the language does not know, and so the rule is lost for the score. -/
theorem not_reversed_fraction :
    let r : Rule := .always "goal" "gain" "score+0.00001"
    let lost : Rule := .always "goal" "gain" "score-1e-05"
    ∃ n, r.Scores .plus n ∧ ∃ e, Engine.ofRules false [r] = .ok e ∧ ∃ undo s' s'',
      scoreReverse.apply ⟨.int 0, "chaos"⟩ (.int 0) true ⟨e, [], {}⟩ = .ok undo s' ∧
        scoreReverse.revert undo s' = .ok ⟨⟩ s'' ∧
        s'.rules.rules = [lost] ∧ s''.rules.rules = [lost] ∧
        Effect.parse false lost.effect = .ok (.custom lost.effect) := by
  intro r lost
  have hparse : r.Scores .plus (.real (.ofDecimal 1 (-5))) := eq_ok_of_toOption (by decide +kernel)
  have hflipped : r.flipped = lost := by decide +kernel
  have hlost : Effect.parse false lost.effect = .ok (.custom lost.effect) :=
    eq_ok_of_toOption (by decide +kernel)
  have hread : CompiledRule.ofRule false r =
      .ok ⟨r, .always, .arithmetic "score" .plus (.real (.ofDecimal 1 (-5)))⟩ :=
    CompiledRule.ofRule_eq_ok.mpr ⟨rfl, hparse, rfl⟩
  have he := Engine.ofRules_singleton hread
  obtain ⟨undo, s', s'', happly, hrevert, -, -, hrules, hrules'⟩ :=
    exists_reversal ⟨.int 0, "chaos"⟩ (.int 0) true (s := ⟨_, [], {}⟩) (Engine.ofRules_spec he).2.2
      rfl
  refine ⟨_, hparse, _, he, undo, s', s'', happly, hrevert, ?_, ?_, hlost⟩
  · rw [hrules]
    exact congrArg (fun r => [r]) hflipped
  · rw [hrules']
    show [r.flipped.flipped] = [lost]
    rw [hflipped, Rule.flipped_of_not (Rule.changesScore_of_custom hlost)]

end Mutation

end SeededPlay

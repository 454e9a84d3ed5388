/-
# `SeededPlay.Proofs.Chaos.Flip` — reversing the score and reversing it back

Flipping is a partial operation on one rule; here it is made total (`Rule.flipped`),
and the two passes over a rule set are stated through it.  Going in, every rule that
changes the score is flipped and its new key is noted (`flipAll_eq`).  Going back,
a rule is flipped when its key is pending, and each key is used up
(`flipPending_spec`).

Two facts carry everything built on this.  Rules that could be read can still be read
after the way back (`readable_of_flipPending`), so taking a reversal back never
fails.  And a rule whose amount is written as the number would be written
(`Canonical`) comes back literally (`flipped_flipped`).

## What a pass over the rules does

Flipping writes nothing but the effect of a rule (`exists_flipped`), so trigger, condition
and action can be followed through any number of passes.  Going in, all score rules are
flipped and their keys are noted, in order (`flipAll_eq`).  Going back is described rule by
rule: each stays or is flipped, only pending keys are flipped, and the rules of a class
stay out of the first case when their keys are pending as often as they occur.  That count
is what `flipPending_spec` carries through the induction, because a key is used up by the
first rule that has it, and a rule set may hold a rule twice.
-/
import SeededPlay.Proofs.Rules.Engine
import SeededPlay.Proofs.Rules.ScoreText
import SeededPlay.Chaos.Undo

namespace SeededPlay

open Effect

theorem Engine.ofRules_point (strict : Bool) (sign : Sign) (trigger action : String) :
    Engine.ofRules strict [.always trigger action (scoreText sign "1")] =
      .ok ⟨strict, [⟨.always trigger action (scoreText sign "1"), .always,
        .arithmetic "score" sign 1⟩]⟩ :=
  ofRules_singleton (CompiledRule.ofRule_eq_ok.mpr ⟨rfl, parse_scoreText_one strict sign, rfl⟩)

namespace Rule

/-! ## One rule -/

/-- The rule changes the score by an amount. -/
def Scores (r : Rule) (sign : Sign) (n : Number) : Prop :=
  Effect.parse false r.effect = .ok (.arithmetic "score" sign n)

/-- The rule with its score effect flipped, itself if it has none. -/
def flipped (r : Rule) : Rule :=
  match r.flipScore? with
  | .ok (some f) => f
  | _ => r

/-- Whether the rule changes the score. -/
def changesScore (r : Rule) : Bool :=
  match r.flipScore? with
  | .ok (some _) => true
  | _ => false

theorem flipScore?_of_scores {r : Rule} {sign : Sign} {n : Number} (h : r.Scores sign n) :
    r.flipScore? = .ok (some { r with effect := scoreText sign.flip n.text }) := by
  unfold flipScore?
  rw [show Effect.parse false r.effect = _ from h]
  rfl

theorem flipScore?_eq_ok {r : Rule} {f? : Option Rule} (h : r.flipScore? = .ok f?) :
    (∃ sign n, r.Scores sign n ∧ f? = some { r with effect := scoreText sign.flip n.text }) ∨
      (∀ sign n, ¬r.Scores sign n) ∧ f? = none := by
  obtain ⟨e, he, h⟩ := bind_eq_ok.mp h
  split at h
  · rename_i sign n
    exact Or.inl ⟨sign, n, he, (Except.ok.inj h).symm⟩
  · rename_i hne
    refine Or.inr ⟨fun sign n hs => ?_, (Except.ok.inj h).symm⟩
    exact hne sign n (Except.ok.inj (he.symm.trans hs))

theorem changesScore_iff {r : Rule} : r.changesScore = true ↔ ∃ sign n, r.Scores sign n := by
  unfold changesScore
  constructor
  · intro h
    split at h
    · rename_i f hf
      rcases flipScore?_eq_ok hf with ⟨sign, n, hs, -⟩ | ⟨-, hnone⟩
      · exact ⟨sign, n, hs⟩
      · cases hnone
    · cases h
  · rintro ⟨sign, n, hs⟩
    rw [flipScore?_of_scores hs]

theorem flipped_of_scores {r : Rule} {sign : Sign} {n : Number} (h : r.Scores sign n) :
    r.flipped = { r with effect := scoreText sign.flip n.text } := by
  unfold flipped
  rw [flipScore?_of_scores h]

theorem flipped_of_not {r : Rule} (h : r.changesScore = false) : r.flipped = r := by
  unfold changesScore at h
  unfold flipped
  split
  · rename_i f hf
    rw [hf] at h
    cases h
  · rfl

theorem exists_flipped (r : Rule) : ∃ effect, r.flipped = { r with effect } := by
  cases h : r.changesScore with
  | false => exact ⟨r.effect, flipped_of_not h⟩
  | true =>
    obtain ⟨sign, n, hs⟩ := changesScore_iff.mp h
    exact ⟨_, flipped_of_scores hs⟩

@[simp] theorem flipped_trigger (r : Rule) : r.flipped.trigger = r.trigger := by
  obtain ⟨effect, h⟩ := r.exists_flipped
  rw [h]

@[simp] theorem flipped_condition (r : Rule) : r.flipped.condition = r.condition := by
  obtain ⟨effect, h⟩ := r.exists_flipped
  rw [h]

@[simp] theorem flipped_action (r : Rule) : r.flipped.action = r.action := by
  obtain ⟨effect, h⟩ := r.exists_flipped
  rw [h]

theorem Readable.flipScore? {strict : Bool} {r : Rule} (h : r.Readable strict) :
    r.flipScore? = .ok (if r.changesScore then some r.flipped else none) := by
  obtain ⟨-, e, he⟩ := readable_iff.mp h
  have hok : ∃ f?, r.flipScore? = .ok f? := by
    unfold Rule.flipScore?
    rw [parse_permissive he]
    dsimp only [bind, Except.bind]
    split <;> exact ⟨_, rfl⟩
  obtain ⟨f?, hf⟩ := hok
  unfold changesScore flipped
  rw [hf]
  cases f? <;> rfl

/-! ## Whether flipped rules can be read -/

theorem Readable.flipped {strict : Bool} {r : Rule} (h : r.Readable strict)
    (hf : Flips strict r.effect) : r.flipped.Readable strict := by
  cases hs : r.changesScore with
  | false =>
    rw [flipped_of_not hs]
    exact h
  | true =>
    obtain ⟨sign, n, hs⟩ := changesScore_iff.mp hs
    rw [flipped_of_scores hs]
    exact readable_iff.mpr ⟨(readable_iff.mp h).1, hf sign n hs⟩

/-- A flipped rule that can be read can be flipped back into one that can be read. -/
theorem flips_flipped {strict : Bool} {r : Rule} (hs : r.changesScore = true)
    (h : r.flipped.Readable strict) : Flips strict r.flipped.effect := by
  obtain ⟨sign, n, hs⟩ := changesScore_iff.mp hs
  obtain ⟨-, e, he⟩ := readable_iff.mp h
  rw [flipped_of_scores hs] at he ⊢
  exact flips_scoreText hs he

/-! ## A whole rule set -/

theorem flipAll_eq {strict : Bool} {rules : List Rule} (h : ∀ r ∈ rules, r.Readable strict) :
    flipAll rules =
      .ok (rules.map flipped, ((rules.filter changesScore).map flipped).map key) := by
  induction rules with
  | nil => rfl
  | cons r rules ih =>
    have hrest := ih fun r' hr' => h r' (List.mem_cons_of_mem r hr')
    unfold flipAll
    rw [(h r List.mem_cons_self).flipScore?, hrest]
    cases hs : r.changesScore with
    | false =>
      rw [List.map_cons, List.filter_cons_of_neg (by rw [hs]; exact Bool.false_ne_true),
        flipped_of_not hs]
      rfl
    | true =>
      rw [List.map_cons, List.filter_cons_of_pos hs]
      rfl

/-- Going back, a rule stays or is flipped, and only pending keys are flipped.  The
rules of a class stay out of the first case when their keys are pending as often as
they occur. -/
theorem flipPending_spec (covered : Rule → Prop) {strict : Bool} {rules : List Rule}
    (h : ∀ r ∈ rules, r.Readable strict) (pending : List (String × String × String))
    (hc : ∀ r ∈ rules, covered r → (rules.map key).count r.key ≤ pending.count r.key) :
    ∃ rules', flipPending pending rules = .ok rules' ∧
      List.Forall₂ (fun r r' => r' = r ∧ ¬covered r ∨ r.key ∈ pending ∧ r' = r.flipped)
        rules rules' := by
  induction rules generalizing pending with
  | nil => exact ⟨[], rfl, List.Forall₂.nil⟩
  | cons r rules ih =>
    have hrest := ih fun r' hr' => h r' (List.mem_cons_of_mem r hr')
    have hcount : ∀ r' ∈ rules, covered r' →
        (rules.map key).count r'.key + (if r.key = r'.key then 1 else 0) ≤
          pending.count r'.key := by
      intro r' hr' hcov
      have := hc r' (List.mem_cons_of_mem r hr') hcov
      rw [List.map_cons, List.count_cons] at this
      simpa only [beq_iff_eq] using this
    unfold flipPending
    by_cases hk : r.key ∈ pending
    · obtain ⟨rules', heq, hall⟩ := hrest (pending.erase r.key) fun r' hr' hcov => by
        have := hcount r' hr' hcov
        rw [List.count_erase]
        simp only [beq_iff_eq]
        omega
      have hweak : List.Forall₂ (fun r r' => r' = r ∧ ¬covered r ∨ r.key ∈ pending ∧ r' = r.flipped)
          rules rules' :=
        hall.imp fun a b hab => hab.imp_right fun hp => ⟨List.mem_of_mem_erase hp.1, hp.2⟩
      have hgetD : (if r.changesScore then some r.flipped else none).getD r = r.flipped := by
        cases hs : r.changesScore with
        | false => exact (flipped_of_not hs).symm
        | true => rfl
      refine ⟨r.flipped :: rules', ?_, List.Forall₂.cons (Or.inr ⟨hk, rfl⟩) hweak⟩
      rw [if_pos hk, (h r List.mem_cons_self).flipScore?, heq]
      show Except.ok (_ :: rules') = _
      rw [hgetD]
    · obtain ⟨rules', heq, hall⟩ := hrest pending fun r' hr' hcov =>
        Nat.le_of_add_right_le (hcount r' hr' hcov)
      have hcov : ¬covered r := by
        intro hcov
        have hle := hc r List.mem_cons_self hcov
        rw [List.count_eq_zero_of_not_mem hk, List.map_cons, List.count_cons_self] at hle
        exact absurd hle (Nat.not_succ_le_zero _)
      refine ⟨r :: rules', ?_, List.Forall₂.cons (Or.inl ⟨rfl, hcov⟩) hall⟩
      rw [if_neg hk, heq]
      rfl

/-- What comes back can be read, if the pending effects can be flipped. -/
theorem readable_of_flipPending {strict : Bool} {rules rules' : List Rule}
    {pending : List (String × String × String)} (h : ∀ r ∈ rules, r.Readable strict)
    (hp : ∀ k ∈ pending, Flips strict k.2.2) (hflip : flipPending pending rules = .ok rules') :
    ∀ r ∈ rules', r.Readable strict := by
  obtain ⟨rules'', heq, hall⟩ :=
    flipPending_spec (fun _ => False) h pending fun _ _ hf => hf.elim
  obtain rfl := Except.ok.inj (hflip.symm.trans heq)
  clear hflip heq
  induction hall with
  | nil => exact fun r hr => absurd hr List.not_mem_nil
  | @cons r r' rules rules' hr _ ih =>
    have hread := h r List.mem_cons_self
    refine List.forall_mem_cons.mpr ⟨?_, ih fun a ha => h a (List.mem_cons_of_mem r ha)⟩
    rcases hr with ⟨rfl, -⟩ | ⟨hmem, rfl⟩
    · exact hread
    · exact hread.flipped (hp _ hmem)

/-! ## Rules that come back literally -/

/-- The amount of a score effect is written as the number would be written. -/
def Canonical (r : Rule) : Prop :=
  ∀ sign n, r.Scores sign n → r.effect = scoreText sign n.text

theorem Canonical.scores_flipped {r : Rule} (h : r.Canonical) {sign : Sign} {n : Number}
    (hs : r.Scores sign n) : r.flipped.Scores sign.flip n := by
  obtain ⟨amount, htext, hnum, hn⟩ := parse_eq_score hs
  obtain ⟨-, rfl⟩ := scoreText_inj (htext.symm.trans (h sign n hs))
  unfold Scores
  rw [flipped_of_scores hs]
  exact parse_scoreText false sign.flip hnum hn

theorem flipped_flipped {r : Rule} (h : r.Canonical) : r.flipped.flipped = r := by
  cases hc : r.changesScore with
  | false => rw [flipped_of_not hc, flipped_of_not hc]
  | true =>
    obtain ⟨sign, n, hs⟩ := changesScore_iff.mp hc
    have htext : scoreText sign.flip.flip n.text = r.effect := by
      rw [h sign n hs]
      cases sign <;> rfl
    rw [flipped_of_scores (h.scores_flipped hs), flipped_of_scores hs, htext]

theorem changesScore_flipped {r : Rule} (h : r.Canonical) :
    r.flipped.changesScore = r.changesScore := by
  cases hc : r.changesScore with
  | false => rw [flipped_of_not hc, hc]
  | true =>
    obtain ⟨sign, n, hs⟩ := changesScore_iff.mp hc
    exact changesScore_iff.mpr ⟨_, _, h.scores_flipped hs⟩

end Rule

end SeededPlay

/-
# `SeededPlay.Proofs.Chaos.Pairs` — two rewrites, taken back in either order

Three mutations rewrite the rules (`Mutation.rewrites`).  Here two of them are applied
one after the other and taken back by the records they left, the later one first or the
earlier one first (`Mutation.roundTrip`).  Nothing is asked of the rules for a fall.

What the four steps make of a rule list is computed pair by pair (`unwound`).  Both
flips go through one lemma: pending keys of some rules turn the flipped ones among them
back and leave alone what has other keys, in whatever order the rules were brought
(`Rule.flipPending_flipped`).

One order of one pair does not come back.  A reversal flips the rules for a fall, paid
falls park them as they are then, and the reversal that ends first cannot reach them; so
they come back flipped (`Strands`).  In all other cases every trigger has the rules that
it had.

## Canonical rules

A rule is canonical when its amount is written as the number would be written anew.
Flipping writes amounts that way, so canonical rules stay canonical, can be read by a
strict reader, and come back literally; a change of the score by one is always canonical.
Two mutations taken back one after the other by usable records compose (`revert_both`), and
a round trip on canonical rules therefore succeeds (`roundTrip_spec`).

## Keys

A reversal remembers the keys of the rules that it flipped.  Keys are used up one by one,
so their order does not matter (`flipPending_perm`), and a rule of another trigger or with
another action has no key among them (`not_mem_keysOf`).  No reversal of plain rules turns
back what a mutation brought (`coin_not_mem`), and one that began while falls were paid for
does not reach the rules parked then (`falls_not_mem`).

## Trigger by trigger

The rules for a fall and the others are kept apart (`falls`, `others`).  Put behind the
others they are the rules again, trigger by trigger (`filter_others_falls`), and this is
all that coming back means for falls: they move to the end of the list.  The six
computations `unwound_reverse_coins` to `unwound_falls_coins` go through the ordered pairs.
Five of them end with the flipped, parked or added rules undone.  In `unwound_reverse_falls`
the parked rules are out of reach for the reversal that ends first.
-/
import SeededPlay.Proofs.Chaos.Layers
import SeededPlay.Proofs.Chaos.Success

namespace SeededPlay

namespace Rule

/-! ## Canonical rules -/

theorem changesScore_eq_false {r : Rule} :
    r.changesScore = false ↔ ∀ sign n, ¬r.Scores sign n := by
  rw [← Bool.not_eq_true, changesScore_iff]
  push Not
  rfl

theorem canonical_of_not {r : Rule} (h : r.changesScore = false) : r.Canonical :=
  fun sign n hs => absurd hs (changesScore_eq_false.mp h sign n)

theorem canonical_one {r : Rule} (sign : Sign) (h : r.effect = Effect.scoreText sign "1") :
    r.Canonical := by
  intro sign' n hs
  have hone := Effect.parse_scoreText_one false sign
  rw [Scores, h] at hs
  obtain ⟨-, rfl, rfl⟩ := Effect.arithmetic.inj (Except.ok.inj (hone.symm.trans hs))
  exact h

theorem Canonical.flipped {r : Rule} (h : r.Canonical) : r.flipped.Canonical := by
  cases hc : r.changesScore with
  | false =>
    rw [flipped_of_not hc]
    exact h
  | true =>
    obtain ⟨sign, n, hs⟩ := changesScore_iff.mp hc
    intro sign' n' hs'
    have hsame := Except.ok.inj ((h.scores_flipped hs).symm.trans hs')
    obtain ⟨-, rfl, rfl⟩ := Effect.arithmetic.inj hsame
    rw [flipped_of_scores hs]

theorem Canonical.readable_flipped {r : Rule} (h : r.Canonical) {strict : Bool}
    (hr : r.Readable strict) : r.flipped.Readable strict := by
  refine hr.flipped fun sign n hs => ?_
  obtain ⟨-, e, he⟩ := readable_iff.mp hr
  have htext := h sign n hs
  rw [htext] at he
  have hflips := Effect.flips_scoreText hs he
  exact hflips sign n (by rw [← htext]; exact hs)

theorem Canonical.flipped_ne {r : Rule} (h : r.Canonical) (hc : r.changesScore = true) :
    r.flipped ≠ r := by
  obtain ⟨sign, n, hs⟩ := changesScore_iff.mp hc
  intro heq
  have heffect := congrArg Rule.effect heq
  rw [flipped_of_scores hs, h sign n hs] at heffect
  have hsign := (Effect.scoreText_inj heffect).1
  cases sign <;> cases hsign

@[simp] theorem isMarked_flipped (r : Rule) : r.flipped.isMarked = r.isMarked := by
  unfold isMarked
  rw [flipped_action]

/-! ## Flipping back -/

/-- The keys that a reversal of some rules notes down. -/
def keysOf (rules : List Rule) : List (String × String × String) :=
  ((rules.filter changesScore).map flipped).map key

theorem mem_keysOf {rules : List Rule} {k : String × String × String} :
    k ∈ keysOf rules ↔ ∃ r ∈ rules, r.changesScore = true ∧ r.flipped.key = k := by
  unfold keysOf
  rw [List.map_map, List.mem_map]
  simp only [List.mem_filter, Function.comp_apply, and_assoc]

theorem flipPending_perm {pending pending' : List (String × String × String)}
    (h : pending.Perm pending') (rules : List Rule) :
    flipPending pending rules = flipPending pending' rules := by
  induction rules generalizing pending pending' with
  | nil => rfl
  | cons r rules ih =>
    unfold flipPending
    simp only [h.mem_iff, ih h, ih (h.erase r.key)]

theorem flipPending_of_not_mem {pending : List (String × String × String)} {rules : List Rule}
    (h : ∀ r ∈ rules, r.key ∉ pending) : flipPending pending rules = .ok rules := by
  induction rules with
  | nil => rfl
  | cons r rules ih =>
    unfold flipPending
    rw [if_neg (h r List.mem_cons_self), ih fun r' hr' => h r' (List.mem_cons_of_mem r hr')]
    rfl

/-- The rules among some canonical ones that are still flipped are turned back by the keys
of all of them, and rules with other keys stay. -/
theorem flipPending_flipped {rules X Y Z : List Rule} (hperm : rules.Perm (X ++ Z))
    (hcanonical : ∀ r ∈ rules, r.Canonical) (hY : ∀ r ∈ Y, r.key ∉ keysOf rules) :
    flipPending (keysOf rules) (X.map flipped ++ Y) = .ok (X ++ Y) := by
  have hkeys : (keysOf rules).Perm (keysOf (X ++ Z)) := ((hperm.filter _).map _).map _
  rw [flipPending_perm hkeys]
  replace hY : ∀ r ∈ Y, r.key ∉ keysOf (X ++ Z) := fun r hr hk => hY r hr (hkeys.mem_iff.mpr hk)
  replace hcanonical : ∀ r ∈ X ++ Z, r.Canonical := fun r hr =>
    hcanonical r (hperm.mem_iff.mpr hr)
  clear hperm hkeys
  induction X with
  | nil => exact flipPending_of_not_mem hY
  | cons r X ih =>
    rw [List.cons_append] at hcanonical hY
    obtain ⟨hr, hcanonical⟩ := List.forall_mem_cons.mp hcanonical
    have hback := flipped_flipped hr
    cases hc : r.changesScore with
    | true =>
      have hkeys : keysOf (r :: (X ++ Z)) = r.flipped.key :: keysOf (X ++ Z) := by
        unfold keysOf
        rw [List.filter_cons_of_pos hc]
        rfl
      have hrest := ih (fun y hy hk => hY y hy (by rw [hkeys]; exact List.mem_cons_of_mem _ hk))
        hcanonical
      obtain ⟨sign, n, hs⟩ := changesScore_iff.mp hc
      have hflip := flipScore?_of_scores (hr.scores_flipped hs)
      rw [← flipped_of_scores (hr.scores_flipped hs), hback] at hflip
      rw [List.map_cons, List.cons_append, List.cons_append, hkeys, flipPending,
        if_pos List.mem_cons_self, hflip, List.erase_cons_head, hrest]
      rfl
    | false =>
      have hkeys : keysOf (r :: (X ++ Z)) = keysOf (X ++ Z) := by
        unfold keysOf
        rw [List.filter_cons_of_neg (by rw [hc]; exact Bool.false_ne_true)]
      rw [hkeys] at hY
      have hkey : r.key ∉ keysOf (X ++ Z) := fun hk => by
        obtain ⟨r', hr', hc', hkey⟩ := mem_keysOf.mp hk
        have heffect := (key_eq_iff.mp hkey).2.2
        rw [← changesScore_flipped (hcanonical r' hr'), changesScore_congr heffect, hc] at hc'
        cases hc'
      rw [List.map_cons, List.cons_append, List.cons_append, hkeys, flipped_of_not hc, flipPending,
        if_neg hkey, ih hY hcanonical]
      rfl

theorem not_mem_keysOf {rules : List Rule} {r : Rule}
    (h : ∀ r' ∈ rules, r.trigger ≠ r'.trigger ∨ r.action ≠ r'.action) : r.key ∉ keysOf rules := by
  intro hk
  obtain ⟨r', hr', -, hkey⟩ := mem_keysOf.mp hk
  obtain ⟨ht, ha, -⟩ := key_eq_iff.mp hkey
  rw [flipped_trigger] at ht
  rw [flipped_action] at ha
  rcases h r' hr' with hne | hne
  · exact hne ht.symm
  · exact hne ha.symm

/-! ## Falls and other triggers -/

/-- The rules for a fall. -/
def falls (rules : List Rule) : List Rule := rules.filter (·.trigger = "player_fall_out")

/-- The rules for anything else. -/
def others (rules : List Rule) : List Rule := rules.filter (·.trigger ≠ "player_fall_out")

theorem falls_append (rules more : List Rule) : falls (rules ++ more) = falls rules ++ falls more :=
  List.filter_append ..

theorem others_append (rules more : List Rule) :
    others (rules ++ more) = others rules ++ others more := List.filter_append ..

theorem falls_map_flipped (rules : List Rule) :
    falls (rules.map flipped) = (falls rules).map flipped := by
  unfold falls
  rw [List.filter_map]
  exact congrArg _ (List.filter_congr fun r _ => by rw [Function.comp_apply, flipped_trigger])

theorem others_map_flipped (rules : List Rule) :
    others (rules.map flipped) = (others rules).map flipped := by
  unfold others
  rw [List.filter_map]
  exact congrArg _ (List.filter_congr fun r _ => by rw [Function.comp_apply, flipped_trigger])

theorem perm_others_falls (rules : List Rule) : rules.Perm (others rules ++ falls rules) := by
  have h := List.filter_append_perm (fun r : Rule => decide (r.trigger ≠ "player_fall_out")) rules
  simp only [decide_not, Bool.not_not] at h
  unfold others falls
  simp only [decide_not]
  exact h.symm

theorem filter_others_append {rules more : List Rule}
    (h : ∀ r ∈ more, r.trigger = "player_fall_out") (trigger : String) :
    (others rules ++ more).filter (·.trigger = trigger) =
      if trigger = "player_fall_out" then more else rules.filter (·.trigger = trigger) := by
  rw [List.filter_append]
  by_cases ht : trigger = "player_fall_out"
  · subst ht
    have hnone : (others rules).filter (·.trigger = "player_fall_out") = [] := by
      refine List.filter_eq_nil_iff.mpr fun r hr hr' => ?_
      exact absurd (of_decide_eq_true hr') (of_decide_eq_true (List.mem_filter.mp hr).2)
    rw [if_pos rfl, hnone, List.nil_append]
    exact List.filter_eq_self.mpr fun r hr => decide_eq_true (h r hr)
  · have hnone : more.filter (·.trigger = trigger) = [] := by
      refine List.filter_eq_nil_iff.mpr fun r hr hr' => ?_
      exact ht ((of_decide_eq_true hr').symm.trans (h r hr))
    rw [if_neg ht, hnone, List.append_nil]
    unfold others
    rw [List.filter_filter]
    refine List.filter_congr fun r _ => ?_
    rw [Bool.and_eq_left_iff_imp, decide_eq_true_eq, decide_eq_true_eq]
    exact fun hr => hr ▸ ht

theorem filter_others_falls (rules : List Rule) (trigger : String) :
    (others rules ++ falls rules).filter (·.trigger = trigger) =
      rules.filter (·.trigger = trigger) := by
  have hfalls : ∀ r ∈ falls rules, r.trigger = "player_fall_out" := fun r hr =>
    of_decide_eq_true (List.mem_filter.mp hr).2
  rw [filter_others_append hfalls]
  split
  · rename_i ht
    rw [ht]
    rfl
  · rfl

end Rule

open Rule (falls others keysOf flipPending_flipped not_mem_keysOf perm_others_falls)

namespace Mutation

/-! ## The three rewrites -/

/-- The mutations that rewrite rules. -/
def rewrites : Mutation → Bool
  | .scoreReverse | .cursedCoins | .voidMercy => true
  | _ => false

theorem rewrites_cases {m : Mutation} (h : m.rewrites = true) :
    m = .scoreReverse ∨ m = .cursedCoins ∨ m = .voidMercy := by
  cases m <;> first | exact absurd h Bool.false_ne_true | simp

/-- Two mutations applied one after the other, and each taken back by the record that it
left, the later one first or the earlier one first. -/
def roundTrip (a b : Mutation) (laterFirst : Bool) (stream : Stream) (nonces : Datum × Datum)
    (shown : Bool) : Attempt Scene Unit := do
  let first ← a.apply stream nonces.1 shown
  let second ← b.apply stream nonces.2 shown
  if laterFirst then
    b.revert second
    a.revert first
  else
    a.revert first
    b.revert second

theorem changesScore_cursedCoin : cursedCoin.changesScore = false := by
  refine Rule.changesScore_eq_false.mpr fun sign n hs => ?_
  have hname := (Effect.arithmetic.inj (Except.ok.inj (hs.symm.trans (parse_health false)))).1
  exact absurd hname (by decide)

theorem canonical_rulesIn {m : Mutation} (hm : m.rewrites = true) {rules : List Rule}
    (h : ∀ r ∈ rules, r.Canonical) : ∀ r ∈ m.twist.rulesIn rules, r.Canonical := by
  rcases rewrites_cases hm with rfl | rfl | rfl
  · exact List.forall_mem_map.mpr fun r hr => (h r hr).flipped
  · exact List.forall_mem_append.mpr ⟨h,
      List.forall_mem_singleton.mpr (Rule.canonical_of_not changesScore_cursedCoin)⟩
  · exact List.forall_mem_append.mpr ⟨fun r hr => h r (List.mem_filter.mp hr).1,
      List.forall_mem_singleton.mpr (Rule.canonical_one .plus rfl)⟩

variable {s : Scene}

theorem apply_rewrite {m : Mutation} (hm : m.rewrites = true) (hs : s.rules.Sound)
    (hc : ∀ r ∈ s.rules.rules, r.Canonical) (stream : Stream) (nonce : Datum) (shown : Bool) :
    ∃ s', m.apply stream nonce shown s = .ok (m.record s) s' ∧ s'.rules.Sound ∧
      s'.rules.strict = s.rules.strict ∧ s'.rules.rules = m.twist.rulesIn s.rules.rules ∧
      (m.record s).Usable s.rules.strict := by
  have hshown : m.apply stream nonce shown = m.apply stream nonce false := by
    refine apply_shown ?_ stream nonce shown
    rcases rewrites_cases hm with rfl | rfl | rfl <;> decide
  have hgravity : "gravity_y" ∉ m.touches := by
    rcases rewrites_cases hm with rfl | rfl | rfl <;> decide
  obtain ⟨undo, s', happly⟩ := m.apply_succeeds stream nonce hs
    (fun _ r hr => (hc r hr).readable_flipped (hs.readable r hr))
    (show false = true → _ from nofun) (fun hmem => absurd hmem hgravity)
  have hout := m.apply_outcome stream nonce false hs
  rw [happly] at hout
  cases hout with
  | done hundo hsound hstrict hrules _ =>
    rw [← hundo, hshown]
    exact ⟨s', happly, hsound, hstrict, hrules, hundo ▸ m.usable_record hs hsound hstrict hrules⟩

theorem revert_both (m n : Mutation) {u v : Undo} (hs : s.rules.Sound)
    (hu : u.Usable s.rules.strict) (hv : v.Usable s.rules.strict) :
    ∃ s', (do m.revert u; n.revert v) s = .ok ⟨⟩ s' ∧ s'.rules.Sound ∧
      s'.rules.strict = s.rules.strict ∧
      (m.twist.rulesBack u s.rules.rules >>= n.twist.rulesBack v) = .ok s'.rules.rules := by
  obtain ⟨e, hm, hsound, hstrict, hback⟩ := m.revert_spec hs hu
  obtain ⟨e', hn, hsound', hstrict', hback'⟩ :=
    n.revert_spec (s := ⟨e, m.paramsBack u s.params, s.state⟩) hsound (hstrict ▸ hv)
  exact ⟨_, Attempt.bind_eq_ok.mpr ⟨⟨⟩, _, hm, hn⟩, hsound', hstrict'.trans hstrict,
    bind_eq_ok.mpr ⟨_, hback, hback'⟩⟩

end Mutation

/-! ## What the four steps come to -/

open Mutation (cursedCoin paidFall canonical_rulesIn)
open Twist (unmarked)

/-- Rules that no mutation brought. -/
def Plain (rules : List Rule) : Prop := ∀ r ∈ rules, r.isMarked = false

theorem unmarked_append (added rules more : List Rule) :
    unmarked added (rules ++ more) = unmarked added rules ++ unmarked added more :=
  List.filter_append ..

theorem unmarked_map_flipped (added rules : List Rule) :
    unmarked added (rules.map Rule.flipped) = (unmarked added rules).map Rule.flipped := by
  unfold unmarked
  rw [List.filter_map]
  exact congrArg _ (List.filter_congr fun r _ => by rw [Function.comp_apply, Rule.flipped_action])

theorem unmarked_eq_self {added rules : List Rule}
    (h : ∀ r ∈ rules, r.action ∉ added.map (·.action)) : unmarked added rules = rules := by
  refine List.filter_eq_self.mpr fun r hr => ?_
  rw [Bool.not_eq_true', Bool.eq_false_iff]
  exact fun hmem => h r hr (List.contains_iff_mem.mp hmem)

theorem unmarked_own (r : Rule) : unmarked [r] [r] = [] := by
  refine List.filter_eq_nil_iff.mpr fun r' hr' => ?_
  rw [List.mem_singleton.mp hr', Bool.not_eq_true', Bool.eq_false_iff]
  exact fun hmem => hmem (List.contains_iff_mem.mpr List.mem_cons_self)

theorem unmarked_coin_paid : unmarked [cursedCoin] [paidFall] = [paidFall] := rfl

theorem unmarked_paid_coin : unmarked [paidFall] [cursedCoin] = [cursedCoin] := rfl

namespace Plain

variable {rules : List Rule}

theorem flipped (h : Plain rules) : Plain (rules.map Rule.flipped) :=
  List.forall_mem_map.mpr fun r hr => (Rule.isMarked_flipped r).trans (h r hr)

theorem others (h : Plain rules) : Plain (others rules) :=
  fun r hr => h r (List.mem_filter.mp hr).1

theorem falls (h : Plain rules) : Plain (falls rules) :=
  fun r hr => h r (List.mem_filter.mp hr).1

theorem unmarked_coin (h : Plain rules) : unmarked [cursedCoin] rules = rules :=
  unmarked_eq_self fun r hr hmem =>
    (Rule.isMarked_eq_false.mp (h r hr)).1 (List.mem_singleton.mp hmem)

theorem unmarked_paid (h : Plain rules) : unmarked [paidFall] rules = rules :=
  unmarked_eq_self fun r hr hmem =>
    (Rule.isMarked_eq_false.mp (h r hr)).2 (List.mem_singleton.mp hmem)

theorem unmarked_append_coin (h : Plain rules) :
    unmarked [cursedCoin] (rules ++ [cursedCoin]) = rules := by
  rw [unmarked_append, h.unmarked_coin, unmarked_own, List.append_nil]

theorem unmarked_append_paid (h : Plain rules) :
    unmarked [paidFall] (rules ++ [paidFall]) = rules := by
  rw [unmarked_append, h.unmarked_paid, unmarked_own, List.append_nil]

/-- No reversal of plain rules turns back what a mutation brought. -/
theorem coin_not_mem (h : Plain rules) : ∀ r ∈ [cursedCoin], r.key ∉ keysOf rules :=
  List.forall_mem_singleton.mpr (not_mem_keysOf fun r' hr' =>
    .inr (Ne.symm (Rule.isMarked_eq_false.mp (h r' hr')).1))

theorem paid_not_mem (h : Plain rules) : ∀ r ∈ [paidFall], r.key ∉ keysOf rules :=
  List.forall_mem_singleton.mpr (not_mem_keysOf fun r' hr' =>
    .inr (Ne.symm (Rule.isMarked_eq_false.mp (h r' hr')).2))

/-- A reversal that began while falls were paid for does not reach the rules parked then. -/
theorem falls_not_mem (h : Plain rules) :
    ∀ r ∈ Rule.falls rules, r.key ∉ keysOf (Rule.others rules ++ [paidFall]) := by
  intro r hr
  obtain ⟨hmem, ht⟩ := List.mem_filter.mp hr
  refine not_mem_keysOf (List.forall_mem_append.mpr ⟨fun r' hr' => .inl fun heq => ?_,
    List.forall_mem_singleton.mpr (.inr (Rule.isMarked_eq_false.mp (h r hmem)).2)⟩)
  exact of_decide_eq_true (List.mem_filter.mp hr').2 (heq ▸ of_decide_eq_true ht)

end Plain

theorem falls_coin (rules : List Rule) : falls (rules ++ [cursedCoin]) = falls rules := by
  rw [Rule.falls_append]
  exact List.append_nil _

theorem others_coin (rules : List Rule) :
    others (rules ++ [cursedCoin]) = others rules ++ [cursedCoin] :=
  Rule.others_append _ _

theorem flipPending_canonical {rules X Z : List Rule} (hperm : rules.Perm (X ++ Z))
    (h : ∀ r ∈ rules, r.Canonical) :
    Rule.flipPending (keysOf rules) (X.map Rule.flipped) = .ok X := by
  have hback := flipPending_flipped (Y := []) hperm h fun r hr => absurd hr List.not_mem_nil
  rwa [List.append_nil, List.append_nil] at hback

/-- The rules once a mutation is taken back that found some rules in force. -/
def undone : Mutation → List Rule → List Rule → Except Fault (List Rule)
  | .scoreReverse, found, rules => Rule.flipPending (keysOf found) rules
  | .cursedCoins, _, rules => .ok (unmarked [cursedCoin] rules)
  | .voidMercy, found, rules => .ok (unmarked [paidFall] rules ++ falls found)
  | _, _, rules => .ok rules

/-- The rules once two mutations are applied, one after the other, and both are taken back. -/
def unwound (a b : Mutation) (laterFirst : Bool) (rules : List Rule) : Except Fault (List Rule) :=
  let between := a.twist.rulesIn rules
  let after := b.twist.rulesIn between
  match laterFirst with
  | true => undone b between after >>= undone a rules
  | false => undone a rules after >>= undone b between

section Pairs

variable {rules : List Rule} (hc : ∀ r ∈ rules, r.Canonical) (hp : Plain rules)
include hc hp

theorem unwound_reverse_coins (laterFirst : Bool) :
    unwound .scoreReverse .cursedCoins laterFirst rules = .ok rules := by
  cases laterFirst with
  | true =>
    show Rule.flipPending (keysOf rules)
      (unmarked [cursedCoin] (rules.map Rule.flipped ++ [cursedCoin])) = _
    rw [hp.flipped.unmarked_append_coin]
    exact flipPending_canonical (.of_eq (List.append_nil _).symm) hc
  | false =>
    show (Rule.flipPending (keysOf rules) (rules.map Rule.flipped ++ [cursedCoin]) >>= _) = _
    rw [flipPending_flipped (.of_eq (List.append_nil _).symm) hc hp.coin_not_mem]
    exact congrArg _ hp.unmarked_append_coin

theorem unwound_coins_reverse (laterFirst : Bool) :
    unwound .cursedCoins .scoreReverse laterFirst rules = .ok rules := by
  have hcoin : ∀ r ∈ rules ++ [cursedCoin], r.Canonical :=
    canonical_rulesIn (m := .cursedCoins) rfl hc
  cases laterFirst with
  | true =>
    show (Rule.flipPending (keysOf (rules ++ [cursedCoin]))
      ((rules ++ [cursedCoin]).map Rule.flipped) >>= _) = _
    rw [flipPending_canonical (.of_eq (List.append_nil _).symm) hcoin]
    exact congrArg _ hp.unmarked_append_coin
  | false =>
    show Rule.flipPending (keysOf (rules ++ [cursedCoin]))
      (unmarked [cursedCoin] ((rules ++ [cursedCoin]).map Rule.flipped)) = _
    rw [unmarked_map_flipped, hp.unmarked_append_coin]
    exact flipPending_canonical (.refl _) hcoin

/-- The pair that strands rules: parked as they were flipped, they are out of reach for the
reversal that ends first. -/
theorem unwound_reverse_falls (laterFirst : Bool) :
    unwound .scoreReverse .voidMercy laterFirst rules =
      .ok (others rules ++ if laterFirst then falls rules else (falls rules).map Rule.flipped) := by
  have hothers := hp.others
  cases laterFirst with
  | true =>
    show Rule.flipPending (keysOf rules) (unmarked [paidFall]
      (others (rules.map Rule.flipped) ++ [paidFall]) ++ falls (rules.map Rule.flipped)) = _
    rw [hp.flipped.others.unmarked_append_paid, Rule.others_map_flipped, Rule.falls_map_flipped,
      ← List.map_append]
    have hperm : rules.Perm (others rules ++ falls rules ++ []) := by
      rw [List.append_nil]
      exact perm_others_falls rules
    exact flipPending_canonical hperm hc
  | false =>
    show (Rule.flipPending (keysOf rules) (others (rules.map Rule.flipped) ++ [paidFall]) >>= _) = _
    rw [Rule.others_map_flipped, flipPending_flipped (perm_others_falls rules) hc hp.paid_not_mem]
    show Except.ok (unmarked [paidFall] (others rules ++ [paidFall]) ++
      falls (rules.map Rule.flipped)) = _
    rw [hothers.unmarked_append_paid, Rule.falls_map_flipped]
    rfl

theorem unwound_falls_reverse (laterFirst : Bool) :
    unwound .voidMercy .scoreReverse laterFirst rules = .ok (others rules ++ falls rules) := by
  have hothers := hp.others
  have hpaid : ∀ r ∈ others rules ++ [paidFall], r.Canonical :=
    canonical_rulesIn (m := .voidMercy) rfl hc
  cases laterFirst with
  | true =>
    show (Rule.flipPending (keysOf (others rules ++ [paidFall]))
      ((others rules ++ [paidFall]).map Rule.flipped) >>= _) = _
    rw [flipPending_canonical (.of_eq (List.append_nil _).symm) hpaid]
    show Except.ok (unmarked [paidFall] (others rules ++ [paidFall]) ++ falls rules) = _
    rw [hothers.unmarked_append_paid]
  | false =>
    show Rule.flipPending (keysOf (others rules ++ [paidFall]))
      (unmarked [paidFall] ((others rules ++ [paidFall]).map Rule.flipped) ++ falls rules) = _
    rw [unmarked_map_flipped, hothers.unmarked_append_paid]
    exact flipPending_flipped (.refl _) hpaid hp.falls_not_mem

omit hc

theorem unwound_coins_falls (laterFirst : Bool) :
    unwound .cursedCoins .voidMercy laterFirst rules = .ok (others rules ++ falls rules) := by
  cases laterFirst with
  | true =>
    show Except.ok (unmarked [cursedCoin] (unmarked [paidFall]
      (others (rules ++ [cursedCoin]) ++ [paidFall]) ++ falls (rules ++ [cursedCoin]))) = _
    simp only [falls_coin, others_coin, unmarked_append, unmarked_own, unmarked_paid_coin,
      hp.others.unmarked_coin, hp.others.unmarked_paid, hp.falls.unmarked_coin, List.append_nil]
  | false =>
    show Except.ok (unmarked [paidFall] (unmarked [cursedCoin]
      (others (rules ++ [cursedCoin]) ++ [paidFall])) ++ falls (rules ++ [cursedCoin])) = _
    simp only [falls_coin, others_coin, unmarked_append, unmarked_own, unmarked_coin_paid,
      hp.others.unmarked_coin, hp.others.unmarked_paid, List.append_nil]

theorem unwound_falls_coins (laterFirst : Bool) :
    unwound .voidMercy .cursedCoins laterFirst rules = .ok (others rules ++ falls rules) := by
  cases laterFirst with
  | true =>
    show Except.ok (unmarked [paidFall] (unmarked [cursedCoin]
      (others rules ++ [paidFall] ++ [cursedCoin])) ++ falls rules) = _
    simp only [unmarked_append, unmarked_own, unmarked_coin_paid, hp.others.unmarked_coin,
      hp.others.unmarked_paid, List.append_nil]
  | false =>
    show Except.ok (unmarked [cursedCoin] (unmarked [paidFall]
      (others rules ++ [paidFall] ++ [cursedCoin]) ++ falls rules)) = _
    simp only [unmarked_append, unmarked_own, unmarked_paid_coin, hp.others.unmarked_coin,
      hp.others.unmarked_paid, hp.falls.unmarked_coin, List.append_nil]

end Pairs

/-- The case in which rules are stranded: a reversal flips the rules for a fall, they are
parked, and the reversal is taken back before they come into force again. -/
def Strands (a b : Mutation) (laterFirst : Bool) : Prop :=
  a = .scoreReverse ∧ b = .voidMercy ∧ laterFirst = false

instance (a b : Mutation) (laterFirst : Bool) : Decidable (Strands a b laterFirst) :=
  inferInstanceAs (Decidable (_ ∧ _ ∧ _))

/-- What the rules of a trigger come to: they are flipped where they are stranded, and
otherwise they are what they were. -/
theorem unwound_spec {a b : Mutation} {rules : List Rule} (ha : a.rewrites = true)
    (hb : b.rewrites = true) (hab : a ≠ b) (hc : ∀ r ∈ rules, r.Canonical) (hp : Plain rules)
    (laterFirst : Bool) :
    ∃ rules', unwound a b laterFirst rules = .ok rules' ∧
      ∀ trigger, rules'.filter (·.trigger = trigger) =
        if Strands a b laterFirst ∧ trigger = "player_fall_out" then
          (rules.filter (·.trigger = trigger)).map Rule.flipped
        else rules.filter (·.trigger = trigger) := by
  have hsorted := Rule.filter_others_falls rules
  -- every pair but one comes back
  have hrestored : ∀ {rules'}, unwound a b laterFirst rules = .ok rules' →
      ¬Strands a b laterFirst →
      (∀ trigger, rules'.filter (·.trigger = trigger) = rules.filter (·.trigger = trigger)) →
      ∃ rules', unwound a b laterFirst rules = .ok rules' ∧
        ∀ trigger, rules'.filter (·.trigger = trigger) =
          if Strands a b laterFirst ∧ trigger = "player_fall_out" then
            (rules.filter (·.trigger = trigger)).map Rule.flipped
          else rules.filter (·.trigger = trigger) := fun hrules hkept hall =>
    ⟨_, hrules, fun trigger => (hall trigger).trans (if_neg fun hand => hkept hand.1).symm⟩
  rcases Mutation.rewrites_cases ha with rfl | rfl | rfl <;>
    rcases Mutation.rewrites_cases hb with rfl | rfl | rfl
  · exact absurd rfl hab
  · exact hrestored (unwound_reverse_coins hc hp laterFirst) (fun h => nomatch h.2.1) fun _ => rfl
  · cases laterFirst with
    | true => exact hrestored (unwound_reverse_falls hc hp true) (fun h => nomatch h.2.2) hsorted
    | false =>
      have hfalls : ∀ r ∈ (falls rules).map Rule.flipped, r.trigger = "player_fall_out" :=
        List.forall_mem_map.mpr fun r hr =>
          r.flipped_trigger.trans (of_decide_eq_true (List.mem_filter.mp hr).2)
      refine ⟨_, unwound_reverse_falls hc hp false, fun trigger => ?_⟩
      rw [if_neg Bool.false_ne_true, Rule.filter_others_append hfalls]
      by_cases ht : trigger = "player_fall_out"
      · rw [if_pos ht, if_pos ⟨⟨rfl, rfl, rfl⟩, ht⟩, ht]
        rfl
      · rw [if_neg ht, if_neg fun hand => ht hand.2]
  · exact hrestored (unwound_coins_reverse hc hp laterFirst) (fun h => nomatch h.1) fun _ => rfl
  · exact absurd rfl hab
  · exact hrestored (unwound_coins_falls hp laterFirst) (fun h => nomatch h.1) hsorted
  · exact hrestored (unwound_falls_reverse hc hp laterFirst) (fun h => nomatch h.1) hsorted
  · exact hrestored (unwound_falls_coins hp laterFirst) (fun h => nomatch h.1) hsorted
  · exact absurd rfl hab

/-! ## Round trips of a scene -/

theorem rulesBack_record {m : Mutation} (hm : m.rewrites = true) (s : Scene) :
    m.twist.rulesBack (m.record s) = undone m s.rules.rules := by
  rcases Mutation.rewrites_cases hm with rfl | rfl | rfl <;> rfl

namespace Mutation

variable {a b : Mutation} {s : Scene}

/-- A round trip on canonical rules succeeds, and ends with the rules that are computed
from those at its beginning. -/
theorem roundTrip_spec (ha : a.rewrites = true) (hb : b.rewrites = true) (hs : s.rules.Sound)
    (hc : ∀ r ∈ s.rules.rules, r.Canonical) (laterFirst : Bool) (stream : Stream)
    (nonces : Datum × Datum) (shown : Bool) :
    ∃ s', roundTrip a b laterFirst stream nonces shown s = .ok ⟨⟩ s' ∧ s'.rules.Sound ∧
      s'.rules.strict = s.rules.strict ∧
      unwound a b laterFirst s.rules.rules = .ok s'.rules.rules := by
  obtain ⟨s₁, happly₁, hsound₁, hstrict₁, hrules₁, husable₁⟩ :=
    apply_rewrite ha hs hc stream nonces.1 shown
  obtain ⟨s₂, happly₂, hsound₂, hstrict₂, hrules₂, husable₂⟩ :=
    apply_rewrite hb hsound₁ (hrules₁ ▸ canonical_rulesIn ha hc) stream nonces.2 shown
  rw [hstrict₁] at hstrict₂ husable₂
  rw [← hstrict₂] at husable₁ husable₂
  have happly : ∀ {k : Undo → Undo → Attempt Scene Unit} {s' : Scene},
      k (a.record s) (b.record s₁) s₂ = .ok ⟨⟩ s' →
      (do let first ← a.apply stream nonces.1 shown
          let second ← b.apply stream nonces.2 shown
          k first second) s = .ok ⟨⟩ s' := fun hk =>
    Attempt.bind_eq_ok.mpr ⟨_, _, happly₁, Attempt.bind_eq_ok.mpr ⟨_, _, happly₂, hk⟩⟩
  cases laterFirst with
  | true =>
    obtain ⟨s', hrevert, hsound, hstrict, hback⟩ := revert_both b a hsound₂ husable₂ husable₁
    rw [rulesBack_record ha, rulesBack_record hb, hrules₂, hrules₁] at hback
    exact ⟨s', happly hrevert, hsound, hstrict.trans hstrict₂, hback⟩
  | false =>
    obtain ⟨s', hrevert, hsound, hstrict, hback⟩ := revert_both a b hsound₂ husable₁ husable₂
    rw [rulesBack_record ha, rulesBack_record hb, hrules₂, hrules₁] at hback
    exact ⟨s', happly hrevert, hsound, hstrict.trans hstrict₂, hback⟩

/-- Two of the three rewrites, applied one after the other and taken back in either order,
leave every trigger the rules that it had, whatever they do about falls.  One case is the
exception: where a reversal began before falls were paid for and is taken back first, the
rules for a fall that change the score come back flipped, and nothing else does. -/
theorem roundTrip_restores (ha : a.rewrites = true) (hb : b.rewrites = true) (hab : a ≠ b)
    (hs : s.rules.Sound) (hc : ∀ r ∈ s.rules.rules, r.Canonical)
    (hp : ∀ r ∈ s.rules.rules, r.isMarked = false) (laterFirst : Bool) (stream : Stream)
    (nonces : Datum × Datum) (shown : Bool) :
    ∃ s', roundTrip a b laterFirst stream nonces shown s = .ok ⟨⟩ s' ∧ s'.rules.Sound ∧
      s'.rules.strict = s.rules.strict ∧
      ((∀ trigger, s'.rules.rules.filter (·.trigger = trigger) =
          s.rules.rules.filter (·.trigger = trigger)) ↔
        ¬(Strands a b laterFirst ∧
          ∃ r ∈ s.rules.rules, r.trigger = "player_fall_out" ∧ r.changesScore = true)) ∧
      ∀ trigger, s'.rules.rules.filter (·.trigger = trigger) =
        if Strands a b laterFirst ∧ trigger = "player_fall_out" then
          (s.rules.rules.filter (·.trigger = trigger)).map Rule.flipped
        else s.rules.rules.filter (·.trigger = trigger) := by
  obtain ⟨s', hrun, hsound, hstrict, hrules⟩ :=
    roundTrip_spec ha hb hs hc laterFirst stream nonces shown
  obtain ⟨rules, hunwound, hfilter⟩ := unwound_spec ha hb hab hc hp laterFirst
  obtain rfl := Except.ok.inj (hrules.symm.trans hunwound)
  refine ⟨s', hrun, hsound, hstrict, ⟨fun hall hlost => ?_, fun hkept trigger => ?_⟩, hfilter⟩
  · obtain ⟨hstrands, r, hr, ht, hscore⟩ := hlost
    have hsame := (hfilter "player_fall_out").symm.trans (hall "player_fall_out")
    rw [if_pos ⟨hstrands, rfl⟩] at hsame
    have hfixed : r.flipped = r := List.map_inj_left.mp (hsame.trans (List.map_id _).symm) r
      (List.mem_filter.mpr ⟨hr, decide_eq_true ht⟩)
    exact (hc r hr).flipped_ne hscore hfixed
  · rw [hfilter]
    split
    · rename_i hstrands
      refine (List.map_congr_left fun r hr => ?_).trans (List.map_id _)
      obtain ⟨hr, ht⟩ := List.mem_filter.mp hr
      refine Rule.flipped_of_not (Bool.eq_false_iff.mpr fun hscore => hkept ⟨hstrands.1, r, hr, ?_⟩)
      exact ⟨(of_decide_eq_true ht).trans hstrands.2, hscore⟩
    · rfl

/-- A fall that costs a point. -/
def costlyFall : Rule := .always "player_fall_out" "penalty" "score-1"

/-- The scene with that rule only. -/
def costlyScene : Scene where
  rules := ⟨false, [⟨costlyFall, .always, .arithmetic "score" .minus 1⟩]⟩
  params := []
  state := {}

theorem canonical_costlyFall : costlyFall.Canonical := Rule.canonical_one .minus rfl

theorem scores_costlyFall : costlyFall.Scores .minus 1 := Effect.parse_scoreText_one false .minus

theorem sound_costlyScene : costlyScene.rules.Sound :=
  (Engine.ofRules_spec (Engine.ofRules_point false .minus _ _)).2.2

theorem roundTrip_costlyScene :
    ∃ s', roundTrip .scoreReverse .voidMercy true default (.int 0, .int 1) true costlyScene =
        .ok ⟨⟩ s' ∧
      ∀ trigger, s'.rules.rules.filter (·.trigger = trigger) =
        [costlyFall].filter (·.trigger = trigger) := by
  obtain ⟨s', hrun, -, -, hiff, -⟩ := roundTrip_restores (a := .scoreReverse) (b := .voidMercy) rfl
    rfl (by decide) sound_costlyScene (List.forall_mem_singleton.mpr canonical_costlyFall)
    (List.forall_mem_singleton.mpr rfl) true default (.int 0, .int 1) true
  exact ⟨s', hrun, hiff.mpr fun hlost => Bool.noConfusion hlost.1.2.2⟩

/-- When the earlier one is taken back first, a fall pays from then on. -/
theorem roundTrip_strands :
    costlyScene.rules.Sound ∧ costlyScene.rules.rules = [costlyFall] ∧ costlyFall.Canonical ∧
      costlyFall.isMarked = false ∧
      ∃ s', roundTrip .scoreReverse .voidMercy false default (.int 0, .int 1) true costlyScene =
          .ok ⟨⟩ s' ∧
        s'.rules.rules = [.always "player_fall_out" "penalty" "score+1"] ∧
        s'.rules.rules.filter (·.trigger = "player_fall_out") ≠
          [costlyFall].filter (·.trigger = "player_fall_out") := by
  refine ⟨sound_costlyScene, rfl, canonical_costlyFall, rfl, ?_⟩
  have hcanonical := List.forall_mem_singleton.mpr canonical_costlyFall
  have hflipped : costlyFall.flipped = .always "player_fall_out" "penalty" "score+1" := by
    rw [Rule.flipped_of_scores scores_costlyFall]
    decide +kernel
  obtain ⟨s', hrun, -, -, hrules⟩ := roundTrip_spec (a := .scoreReverse) (b := .voidMercy) rfl rfl
    sound_costlyScene hcanonical false default (.int 0, .int 1) true
  have hend := Except.ok.inj (hrules.symm.trans
    (unwound_reverse_falls hcanonical (List.forall_mem_singleton.mpr rfl) false))
  change s'.rules.rules = [costlyFall.flipped] at hend
  rw [hflipped] at hend
  refine ⟨s', hrun, hend, ?_⟩
  rw [hend]
  decide

end Mutation

end SeededPlay

/-
# `SeededPlay.Proofs.Chaos.Layers` — three rewrites on top of each other

Three mutations rewrite the rules: one flips the score rules, one adds a rule about
coins, and one puts a rule of its own in the place of those for a fall.  They may begin
and end in any order.  The order of the whole list is not kept, so the description goes
trigger by trigger: the rules that none of them brought (`plainOf`) are those of the
start, flipped while the score is reversed, and none at all for a fall while falls are
paid for (`expected`).  `Layered` says this of a rule list, and that every rule that a
mutation brought is there because that mutation is active.

Going in is a function (`Twist.rulesIn`), and `Layered.begin` follows it.  Going back
needs the record.  What was parked comes back as it was parked, and a reversal flips
back what it flipped, because it still holds the keys of all score rules of the start
(`Undo.Unwinds`).  Keys are counted there and not looked up: a rule set may hold the
same rule many times.

## Plain rules

A rule is marked if it carries the action of one of the two rules that mutations bring;
what is not marked is plain.  Dropping marked rules, or rules of another trigger, drops
nothing plain of a trigger, and where nothing is marked the plain rules of a trigger are
its rules.  Whether a rule changes the score can be seen from its effect, so the score
rules among the flipped rules are the flipped score rules
(`Reversible.changesScore_map`).  A rule set is `Reversible` if none of its rules is marked,
its amounts are written as numbers are written, and the rules for a fall leave the score
alone, so that these are the same flipped or not.

## The steps

Six things can happen to a layered list, three on the way in and three on the way out: the
rule about coins is added (`addCoin`) or dropped (`dropCoin`), the rule that pays for falls
takes the place of those for a fall (`payFalls`) or makes room for them at the end of the
list (`returnFalls`), and the plain rules are flipped in one direction or the other
(`flip`).  On the way back from a reversal what is pending has to be every plain score
rule.  The record holds the keys of all score rules of the start (`count_le_record`), and
while the score is reversed no plain score rule occurs more often than its key is noted
(`count_le_of_unwinds`).

When none of the three is active, the rules of every trigger are those of the start
(`unwound`).
-/
import SeededPlay.Proofs.Chaos.Undo

namespace SeededPlay

namespace Rule

/-! ## Rules and their keys -/

theorem key_eq_iff {r r' : Rule} :
    r'.key = r.key ↔ r'.trigger = r.trigger ∧ r'.action = r.action ∧ r'.effect = r.effect := by
  unfold key
  rw [Prod.mk.injEq, Prod.mk.injEq]

theorem changesScore_congr {r r' : Rule} (h : r'.effect = r.effect) :
    r'.changesScore = r.changesScore := by
  rw [Bool.eq_iff_iff, changesScore_iff, changesScore_iff]
  unfold Scores
  rw [h]

theorem count_key_filter {p : Rule → Bool} (hp : ∀ r r' : Rule, r'.key = r.key → p r' = p r)
    {r : Rule} (hr : p r = true) (rules : List Rule) :
    ((rules.filter p).map key).count r.key = (rules.map key).count r.key := by
  induction rules with
  | nil => rfl
  | cons r' rules ih =>
    rw [List.map_cons, List.count_cons]
    cases hr' : p r' with
    | true => rw [List.filter_cons_of_pos hr', List.map_cons, List.count_cons, ih]
    | false =>
      have hne : r'.key ≠ r.key := fun he => by
        rw [hp r r' he, hr] at hr'
        cases hr'
      rw [List.filter_cons_of_neg (by simp [hr']), ih, if_neg (by simpa using hne), Nat.add_zero]

/-- Whether the rule carries the action of a mutation. -/
def isMarked (r : Rule) : Bool :=
  r.action == "chaos_cursed_coin" || r.action == "chaos_void_mercy"

theorem isMarked_eq_false {r : Rule} :
    r.isMarked = false ↔ r.action ≠ "chaos_cursed_coin" ∧ r.action ≠ "chaos_void_mercy" := by
  unfold isMarked
  rw [Bool.or_eq_false_iff, beq_eq_false_iff_ne, beq_eq_false_iff_ne]

/-- The rules of a trigger that no mutation brought. -/
def plainOf (trigger : String) (rules : List Rule) : List Rule :=
  rules.filter fun r => r.trigger = trigger && !r.isMarked

theorem mem_plainOf {trigger : String} {rules : List Rule} {r : Rule} :
    r ∈ plainOf trigger rules ↔ r ∈ rules ∧ r.trigger = trigger ∧ r.isMarked = false := by
  unfold plainOf
  rw [List.mem_filter, Bool.and_eq_true, decide_eq_true_eq, Bool.not_eq_true']

theorem plainOf_append (trigger : String) (rules more : List Rule) :
    plainOf trigger (rules ++ more) = plainOf trigger rules ++ plainOf trigger more :=
  List.filter_append ..

theorem plainOf_filter {trigger : String} {p : Rule → Bool} {rules : List Rule}
    (h : ∀ r ∈ plainOf trigger rules, p r = true) :
    plainOf trigger (rules.filter p) = plainOf trigger rules := by
  unfold plainOf
  rw [List.filter_filter]
  refine List.filter_congr fun r hr => ?_
  cases hq : (decide (r.trigger = trigger) && !r.isMarked) with
  | false => rw [Bool.false_and]
  | true => rw [h r (List.mem_filter.mpr ⟨hr, hq⟩), Bool.and_self]

theorem plainOf_singleton {r : Rule} (h : r.isMarked = true) (trigger : String) :
    plainOf trigger [r] = [] := by
  refine List.filter_eq_nil_iff.mpr fun r' hr' => ?_
  rw [List.mem_singleton.mp hr', h, Bool.not_true, Bool.and_false]
  exact Bool.false_ne_true

theorem plainOf_unmarked {r : Rule} (h : r.isMarked = true) (trigger : String)
    (rules : List Rule) :
    plainOf trigger (Twist.unmarked [r] rules) = plainOf trigger rules := by
  refine plainOf_filter fun r' hr' => ?_
  have hne : r'.action ≠ r.action := fun he => by
    have hmark := (mem_plainOf.mp hr').2.2
    unfold isMarked at h hmark
    rw [he, h] at hmark
    cases hmark
  simpa using hne

theorem plainOf_eq_filter {trigger : String} {rules : List Rule}
    (h : ∀ r ∈ rules, r.trigger = trigger → r.isMarked = false) :
    plainOf trigger rules = rules.filter (·.trigger = trigger) := by
  refine List.filter_congr fun r hr => ?_
  by_cases ht : r.trigger = trigger
  · rw [h r hr ht, Bool.not_false, Bool.and_true]
  · rw [decide_eq_false ht, Bool.false_and]

end Rule

open Rule (plainOf mem_plainOf plainOf_append plainOf_filter plainOf_singleton plainOf_unmarked
  plainOf_eq_filter)

/-- Rule sets that come back: score effects are written as they would be written anew,
no fall changes the score, and no rule carries the action of a mutation. -/
structure Reversible (rules : List Rule) : Prop where
  canonical : ∀ r ∈ rules, r.Canonical
  falls : ∀ r ∈ rules, r.trigger = "player_fall_out" → ∀ sign n, ¬r.Scores sign n
  unmarked : ∀ r ∈ rules, r.isMarked = false

/-- What is in force of the plain rules of a trigger while some mutations are active. -/
def expected (active : List Mutation) (trigger : String) (start : List Rule) : List Rule :=
  if trigger = "player_fall_out" ∧ .voidMercy ∈ active then []
  else (start.filter (·.trigger = trigger)).map fun r =>
    if .scoreReverse ∈ active then r.flipped else r

/-- The rules that the start and some active mutations come to. -/
structure Layered (start : List Rule) (active : List Mutation) (rules : List Rule) : Prop where
  plain : ∀ trigger, plainOf trigger rules = expected active trigger start
  coins : ∀ r ∈ rules, r.action = "chaos_cursed_coin" →
    .cursedCoins ∈ active ∧ r.trigger ≠ "player_fall_out"
  falls : ∀ r ∈ rules, r.action = "chaos_void_mercy" → .voidMercy ∈ active

/-- A record that suffices to come back to the start: it holds the keys of all flipped
score rules, and the rules for a fall. -/
structure Undo.Unwinds (undo : Undo) (m : Mutation) (start : List Rule) : Prop where
  flipped : m = .scoreReverse → ∀ k,
    (((start.filter Rule.changesScore).map Rule.flipped).map Rule.key).count k ≤
      undo.flipped.count k
  removed : m = .voidMercy →
    undo.removed = start.filter (·.trigger = "player_fall_out")

section Start

variable {start : List Rule}

theorem Reversible.flipped_fall (h : Reversible start) {r : Rule} (hr : r ∈ start)
    (ht : r.trigger = "player_fall_out") : r.changesScore = false ∧ r.flipped = r := by
  have hscore : r.changesScore = false := Bool.eq_false_iff.mpr fun hscore => by
    obtain ⟨sign, n, hs⟩ := Rule.changesScore_iff.mp hscore
    exact h.falls r hr ht sign n hs
  exact ⟨hscore, Rule.flipped_of_not hscore⟩

theorem Reversible.changesScore_map (h : Reversible start) (trigger : String) :
    ((start.filter (·.trigger = trigger)).map Rule.flipped).filter Rule.changesScore =
      ((start.filter (·.trigger = trigger)).filter Rule.changesScore).map Rule.flipped := by
  rw [List.filter_map]
  congr 1
  refine List.filter_congr fun r hr => ?_
  exact Rule.changesScore_flipped (h.canonical r (List.mem_filter.mp hr).1)

/-! ## What is expected -/

theorem expected_congr {active active' : List Mutation}
    (hv : .voidMercy ∈ active' ↔ .voidMercy ∈ active)
    (hs : .scoreReverse ∈ active' ↔ .scoreReverse ∈ active) (trigger : String) :
    expected active' trigger start = expected active trigger start := by
  unfold expected
  simp only [hv, hs]

theorem Reversible.expected_flip (h : Reversible start) {active active' : List Mutation}
    (hv : .voidMercy ∈ active' ↔ .voidMercy ∈ active)
    (hs : .scoreReverse ∈ active' ↔ .scoreReverse ∉ active) (trigger : String) :
    expected active' trigger start = (expected active trigger start).map Rule.flipped := by
  unfold expected
  simp only [hv, hs]
  by_cases hfall : trigger = "player_fall_out" ∧ .voidMercy ∈ active
  · rw [if_pos hfall, if_pos hfall]
    rfl
  · rw [if_neg hfall, if_neg hfall, List.map_map]
    refine List.map_congr_left fun r hr => ?_
    by_cases hon : .scoreReverse ∈ active
    · simp only [hon, not_true_eq_false, if_false, Function.comp_apply, if_true]
      exact (Rule.flipped_flipped (h.canonical r (List.mem_filter.mp hr).1)).symm
    · simp only [hon, not_false_eq_true, if_true, Function.comp_apply, if_false]

theorem Reversible.expected_fall (h : Reversible start) {active : List Mutation}
    (hv : .voidMercy ∉ active) :
    expected active "player_fall_out" start = start.filter (·.trigger = "player_fall_out") := by
  unfold expected
  rw [if_neg fun hand => hv hand.2]
  refine (List.map_congr_left fun r hr => ?_).trans (List.map_id _)
  obtain ⟨hmem, ht⟩ := List.mem_filter.mp hr
  rw [(h.flipped_fall hmem (of_decide_eq_true ht)).2, ite_self]
  rfl

theorem mem_expected {active : List Mutation} {trigger : String} {r : Rule}
    (h : r ∈ expected active trigger start) :
    ¬(trigger = "player_fall_out" ∧ .voidMercy ∈ active) ∧
      ∃ r₀ ∈ start, r₀.trigger = trigger ∧
        r = if .scoreReverse ∈ active then r₀.flipped else r₀ := by
  unfold expected at h
  by_cases hfall : trigger = "player_fall_out" ∧ .voidMercy ∈ active
  · rw [if_pos hfall] at h
    exact absurd h List.not_mem_nil
  · rw [if_neg hfall] at h
    obtain ⟨r₀, hr₀, rfl⟩ := List.mem_map.mp h
    obtain ⟨hmem, ht⟩ := List.mem_filter.mp hr₀
    exact ⟨hfall, r₀, hmem, of_decide_eq_true ht, rfl⟩

namespace Layered

variable {active : List Mutation} {rules : List Rule}

theorem congr (h : Layered start active rules) {active' : List Mutation}
    (hv : .voidMercy ∈ active' ↔ .voidMercy ∈ active)
    (hs : .scoreReverse ∈ active' ↔ .scoreReverse ∈ active)
    (hc : .cursedCoins ∈ active' ↔ .cursedCoins ∈ active) : Layered start active' rules where
  plain := fun trigger => (h.plain trigger).trans (expected_congr hv hs trigger).symm
  coins := fun r hr hact => ⟨hc.mpr (h.coins r hr hact).1, (h.coins r hr hact).2⟩
  falls := fun r hr hact => hv.mpr (h.falls r hr hact)

theorem of_reversible (h : Reversible start) : Layered start [] start where
  plain := by
    intro trigger
    rw [plainOf_eq_filter fun r hr _ => h.unmarked r hr]
    unfold expected
    rw [if_neg fun hand => List.not_mem_nil hand.2]
    simp only [List.not_mem_nil, if_false, List.map_id']
  coins := fun r hr hact => absurd hact (Rule.isMarked_eq_false.mp (h.unmarked r hr)).1
  falls := fun r hr hact => absurd hact (Rule.isMarked_eq_false.mp (h.unmarked r hr)).2

/-- When none of the three is active, the rules of every trigger are those of the start. -/
theorem unwound (h : Layered start active rules) (hs : .scoreReverse ∉ active)
    (hc : .cursedCoins ∉ active) (hv : .voidMercy ∉ active) (trigger : String) :
    rules.filter (·.trigger = trigger) = start.filter (·.trigger = trigger) := by
  have hplain := h.plain trigger
  rw [plainOf_eq_filter fun r hr _ => Rule.isMarked_eq_false.mpr
    ⟨fun hact => hc (h.coins r hr hact).1, fun hact => hv (h.falls r hr hact)⟩] at hplain
  rw [hplain]
  unfold expected
  rw [if_neg fun hand => hv hand.2]
  simp only [hs, if_false, List.map_id']

/-! ## Flipping in either direction -/

/-- A rule after a pass that flips all plain rules. -/
def Turned (r r' : Rule) : Prop :=
  r'.trigger = r.trigger ∧ r'.action = r.action ∧ (r.isMarked = false → r' = r.flipped)

theorem plainOf_turned {rules' : List Rule} (h : List.Forall₂ Turned rules rules')
    (trigger : String) : plainOf trigger rules' = (plainOf trigger rules).map Rule.flipped := by
  induction h with
  | nil => rfl
  | @cons r r' rules rules' hr _ ih =>
    obtain ⟨ht, ha, hplain⟩ := hr
    have hmark : r'.isMarked = r.isMarked := by
      unfold Rule.isMarked
      rw [ha]
    have hsame : (decide (r'.trigger = trigger) && !r'.isMarked) =
        (decide (r.trigger = trigger) && !r.isMarked) := by
      rw [ht, hmark]
    unfold plainOf at ih ⊢
    cases hq : (decide (r.trigger = trigger) && !r.isMarked) with
    | false =>
      rw [List.filter_cons_of_neg (by simp [hsame, hq]), List.filter_cons_of_neg (by simp [hq]), ih]
    | true =>
      have hr' : r' = r.flipped := hplain (by simpa using (Bool.and_eq_true_iff.mp hq).2)
      rw [List.filter_cons_of_pos (by rw [hsame]; exact hq),
        List.filter_cons_of_pos (by exact hq), List.map_cons, ih, hr']

theorem exists_turned {rules' : List Rule} (h : List.Forall₂ Turned rules rules') :
    ∀ r' ∈ rules', ∃ r ∈ rules, Turned r r' := by
  induction h with
  | nil => exact fun r' hr' => absurd hr' List.not_mem_nil
  | @cons r r' rules rules' hr _ ih =>
    refine List.forall_mem_cons.mpr ⟨⟨r, List.mem_cons_self, hr⟩, fun s' hs' => ?_⟩
    obtain ⟨s, hs, hturned⟩ := ih s' hs'
    exact ⟨s, List.mem_cons_of_mem r hs, hturned⟩

/-- A pass over the rules that flips the plain ones, in either direction. -/
theorem flip (hR : Reversible start) (h : Layered start active rules) {rules' : List Rule}
    (hturn : List.Forall₂ Turned rules rules') {active' : List Mutation}
    (hv : .voidMercy ∈ active' ↔ .voidMercy ∈ active)
    (hs : .scoreReverse ∈ active' ↔ .scoreReverse ∉ active)
    (hc : .cursedCoins ∈ active' ↔ .cursedCoins ∈ active) : Layered start active' rules' where
  plain := by
    intro trigger
    rw [plainOf_turned hturn, h.plain, hR.expected_flip hv hs]
  coins := by
    intro r' hr' hact
    obtain ⟨r, hr, ht, ha, -⟩ := exists_turned hturn r' hr'
    obtain ⟨hmem, hne⟩ := h.coins r hr (ha ▸ hact)
    exact ⟨hc.mpr hmem, ht ▸ hne⟩
  falls := by
    intro r' hr' hact
    obtain ⟨r, hr, -, ha, -⟩ := exists_turned hturn r' hr'
    exact hv.mpr (h.falls r hr (ha ▸ hact))

theorem turned_flipped (rules : List Rule) :
    List.Forall₂ Turned rules (rules.map Rule.flipped) := by
  rw [List.forall₂_map_right_iff, List.forall₂_same]
  exact fun r _ => ⟨r.flipped_trigger, r.flipped_action, fun _ => rfl⟩

/-! ## Keys that a reversal owns -/

theorem count_le_record (hR : Reversible start) (h : Layered start active rules)
    (hs : .scoreReverse ∉ active) (k : String × String × String) :
    (((start.filter Rule.changesScore).map Rule.flipped).map Rule.key).count k ≤
      (((rules.filter Rule.changesScore).map Rule.flipped).map Rule.key).count k := by
  by_cases hk : k ∈ ((start.filter Rule.changesScore).map Rule.flipped).map Rule.key
  · obtain ⟨f, hf, rfl⟩ := List.mem_map.mp hk
    obtain ⟨r, hr, rfl⟩ := List.mem_map.mp hf
    obtain ⟨hmem, hscore⟩ := List.mem_filter.mp hr
    have hne : r.trigger ≠ "player_fall_out" := fun ht => by
      rw [(hR.flipped_fall hmem ht).1] at hscore
      cases hscore
    have hplain : start.filter (·.trigger = r.trigger) = plainOf r.trigger rules := by
      rw [h.plain]
      unfold expected
      rw [if_neg fun hand => hne hand.1]
      simp only [hs, if_false, List.map_id']
    have hsub : (plainOf r.trigger rules).Sublist rules := List.filter_sublist
    have hcount : ((((start.filter Rule.changesScore).map Rule.flipped).filter
        (·.trigger = r.trigger)).map Rule.key).count r.flipped.key =
        (((start.filter Rule.changesScore).map Rule.flipped).map Rule.key).count r.flipped.key := by
      refine Rule.count_key_filter (fun a b hab => ?_) (by simp) _
      rw [(Rule.key_eq_iff.mp hab).1]
    have hswap : ((start.filter Rule.changesScore).map Rule.flipped).filter
        (·.trigger = r.trigger) =
        ((plainOf r.trigger rules).filter Rule.changesScore).map Rule.flipped := by
      rw [List.filter_map, ← hplain, List.filter_filter, List.filter_filter]
      congr 1
      refine List.filter_congr fun a _ => ?_
      rw [Function.comp_apply, Rule.flipped_trigger, Bool.and_comm]
    rw [← hcount, hswap]
    exact (((hsub.filter _).map _).map _).count_le _
  · rw [List.count_eq_zero_of_not_mem hk]
    exact Nat.zero_le _

/-- While the score is reversed, a plain score rule occurs no more often than its key is
noted down for it. -/
theorem count_le_of_unwinds (hR : Reversible start) (h : Layered start active rules)
    (hs : .scoreReverse ∈ active) {undo : Undo} (hu : undo.Unwinds .scoreReverse start) {r : Rule}
    (hr : r ∈ rules) (hscore : r.changesScore = true) (hmark : r.isMarked = false) :
    (rules.map Rule.key).count r.key ≤ undo.flipped.count r.key := by
  have hmem : r ∈ expected active r.trigger start := by
    rw [← h.plain]
    exact mem_plainOf.mpr ⟨hr, rfl, hmark⟩
  have hexpected : expected active r.trigger start =
      (start.filter (·.trigger = r.trigger)).map Rule.flipped := by
    unfold expected
    rw [if_neg (mem_expected hmem).1]
    simp only [hs, if_true]
  have hsub : (((start.filter (·.trigger = r.trigger)).filter Rule.changesScore).map
      Rule.flipped).Sublist ((start.filter Rule.changesScore).map Rule.flipped) := by
    rw [List.filter_filter]
    refine List.Sublist.map _ ?_
    simp only [Bool.and_comm]
    rw [← List.filter_filter]
    exact List.filter_sublist
  have hcount : (((plainOf r.trigger rules).filter Rule.changesScore).map Rule.key).count r.key =
      (rules.map Rule.key).count r.key := by
    unfold plainOf
    rw [List.filter_filter]
    refine Rule.count_key_filter (fun a b hab => ?_) (by simp [hscore, hmark]) _
    obtain ⟨ht, ha, he⟩ := Rule.key_eq_iff.mp hab
    unfold Rule.isMarked
    rw [Rule.changesScore_congr he, ht, ha]
  rw [← hcount, h.plain, hexpected, hR.changesScore_map]
  exact ((hsub.map _).count_le _).trans (hu.flipped rfl _)

/-! ## The steps -/

theorem addCoin (h : Layered start active rules) :
    Layered start (active ++ [.cursedCoins]) (rules ++ [Mutation.cursedCoin]) where
  plain := by
    intro trigger
    rw [plainOf_append, plainOf_singleton rfl, List.append_nil, h.plain]
    exact (expected_congr (by simp) (by simp) trigger).symm
  coins := by
    intro r hr hact
    refine ⟨by simp, ?_⟩
    rcases List.mem_append.mp hr with hr | hr
    · exact (h.coins r hr hact).2
    · rw [List.mem_singleton.mp hr]
      decide
  falls := by
    intro r hr hact
    rcases List.mem_append.mp hr with hr | hr
    · exact List.mem_append_left _ (h.falls r hr hact)
    · rw [List.mem_singleton.mp hr] at hact
      exact absurd hact (by decide)

theorem payFalls (h : Layered start active rules) : Layered start (active ++ [.voidMercy])
    (rules.filter (·.trigger ≠ "player_fall_out") ++ [Mutation.paidFall]) where
  plain := by
    intro trigger
    rw [plainOf_append, plainOf_singleton rfl, List.append_nil]
    by_cases ht : trigger = "player_fall_out"
    · unfold expected
      rw [if_pos ⟨ht, by simp⟩]
      refine List.filter_eq_nil_iff.mpr fun r hr hq => ?_
      have hne := (List.mem_filter.mp hr).2
      simp only [decide_eq_true_eq, Bool.and_eq_true] at hne hq
      exact hne (hq.1.trans ht)
    · rw [plainOf_filter fun r hr => by simpa [(mem_plainOf.mp hr).2.1] using ht, h.plain]
      unfold expected
      simp [ht]
  coins := by
    intro r hr hact
    rcases List.mem_append.mp hr with hr | hr
    · obtain ⟨hmem, hne⟩ := h.coins r (List.mem_filter.mp hr).1 hact
      exact ⟨List.mem_append_left _ hmem, hne⟩
    · rw [List.mem_singleton.mp hr] at hact
      exact absurd hact (by decide)
  falls := fun _ _ _ => by simp

/-- Rules stay layered when a mutation begins. -/
theorem begin (hR : Reversible start) (h : Layered start active rules) {m : Mutation}
    (hm : m ∉ active) : Layered start (active ++ [m]) (m.twist.rulesIn rules) := by
  cases m with
  | scoreReverse =>
    exact h.flip hR (turned_flipped rules) (by simp) (by simp [hm]) (by simp)
  | cursedCoins => exact h.addCoin
  | voidMercy => exact h.payFalls
  | _ => exact h.congr (by simp) (by simp) (by simp)

theorem unwinds_record (hR : Reversible start) {s : Scene}
    (h : Layered start active s.rules.rules) {m : Mutation} (hm : m ∉ active) :
    (m.record s).Unwinds m start where
  flipped := by
    rintro rfl
    exact h.count_le_record hR hm
  removed := by
    rintro rfl
    show s.rules.rules.filter (·.trigger = "player_fall_out") = _
    rw [← hR.expected_fall hm, ← h.plain]
    refine (plainOf_eq_filter fun r hr ht => Rule.isMarked_eq_false.mpr ⟨?_, ?_⟩).symm
    · exact fun hact => (h.coins r hr hact).2 ht
    · exact fun hact => hm (h.falls r hr hact)

theorem turnBack (hR : Reversible start) (h : Layered start active rules) {strict : Bool}
    (hread : ∀ r ∈ rules, r.Readable strict) (hm : .scoreReverse ∈ active) {undo : Undo}
    (hu : undo.Unwinds .scoreReverse start) {rules' : List Rule}
    (hback : Rule.flipPending undo.flipped rules = .ok rules') :
    Layered start (active.filter (· ≠ .scoreReverse)) rules' := by
  obtain ⟨rules'', hflip, hall⟩ := Rule.flipPending_spec
    (fun r => r.changesScore = true ∧ r.isMarked = false) hread undo.flipped
    fun r hr hcov => h.count_le_of_unwinds hR hm hu hr hcov.1 hcov.2
  obtain rfl := Except.ok.inj (hflip.symm.trans hback)
  refine h.flip hR (hall.imp fun r r' hr => ?_) (by simp) (by simp [hm]) (by simp)
  rcases hr with ⟨rfl, hcov⟩ | ⟨-, rfl⟩
  · refine ⟨rfl, rfl, fun hmark => (Rule.flipped_of_not ?_).symm⟩
    exact Bool.eq_false_iff.mpr fun hscore => hcov ⟨hscore, hmark⟩
  · exact ⟨r.flipped_trigger, r.flipped_action, fun _ => rfl⟩

theorem dropCoin (h : Layered start active rules) : Layered start
    (active.filter (· ≠ .cursedCoins)) (Twist.unmarked [Mutation.cursedCoin] rules) where
  plain := by
    intro trigger
    rw [plainOf_unmarked rfl, h.plain]
    exact (expected_congr (by simp) (by simp) trigger).symm
  coins := by
    intro r hr hact
    have hne := (List.mem_filter.mp hr).2
    simp [Mutation.cursedCoin, Rule.when, hact] at hne
  falls := fun r hr hact =>
    List.mem_filter.mpr ⟨h.falls r (List.mem_filter.mp hr).1 hact, by decide⟩

theorem returnFalls (hR : Reversible start) (h : Layered start active rules)
    (hm : .voidMercy ∈ active) : Layered start (active.filter (· ≠ .voidMercy))
      (Twist.unmarked [Mutation.paidFall] rules ++
        start.filter (·.trigger = "player_fall_out")) where
  plain := by
    intro trigger
    rw [plainOf_append, plainOf_unmarked rfl, h.plain,
      plainOf_eq_filter fun r hr _ => hR.unmarked r (List.mem_filter.mp hr).1]
    by_cases ht : trigger = "player_fall_out"
    · subst ht
      have hnow : expected active "player_fall_out" start = [] := if_pos ⟨rfl, hm⟩
      rw [hnow, List.nil_append, hR.expected_fall (by simp), List.filter_filter]
      simp only [Bool.and_self]
    · have hnone : (start.filter (·.trigger = "player_fall_out")).filter
          (·.trigger = trigger) = [] := by
        refine List.filter_eq_nil_iff.mpr fun r hr hq => ht ?_
        exact (of_decide_eq_true hq).symm.trans (of_decide_eq_true (List.mem_filter.mp hr).2)
      rw [hnone, List.append_nil]
      unfold expected
      simp [ht]
  coins := by
    intro r hr hact
    rcases List.mem_append.mp hr with hr | hr
    · obtain ⟨hmem, hne⟩ := h.coins r (List.mem_filter.mp hr).1 hact
      exact ⟨List.mem_filter.mpr ⟨hmem, by decide⟩, hne⟩
    · have hplain := Rule.isMarked_eq_false.mp (hR.unmarked r (List.mem_filter.mp hr).1)
      exact absurd hact hplain.1
  falls := by
    intro r hr hact
    rcases List.mem_append.mp hr with hr | hr
    · have hne := (List.mem_filter.mp hr).2
      simp [Mutation.paidFall, Rule.always, hact] at hne
    · have hplain := Rule.isMarked_eq_false.mp (hR.unmarked r (List.mem_filter.mp hr).1)
      exact absurd hact hplain.2

/-- Rules stay layered when a mutation is taken back. -/
theorem back (hR : Reversible start) (h : Layered start active rules) {strict : Bool}
    (hread : ∀ r ∈ rules, r.Readable strict) {m : Mutation} (hm : m ∈ active) {undo : Undo}
    (hu : undo.Unwinds m start) {rules' : List Rule}
    (hback : m.twist.rulesBack undo rules = .ok rules') :
    Layered start (active.filter (· ≠ m)) rules' := by
  cases m with
  | scoreReverse => exact h.turnBack hR hread hm hu hback
  | cursedCoins =>
    obtain rfl := Except.ok.inj hback
    exact h.dropCoin
  | voidMercy =>
    obtain rfl := Except.ok.inj hback
    rw [hu.removed rfl]
    exact h.returnFalls hR hm
  | _ =>
    obtain rfl := Except.ok.inj hback
    exact h.congr (by simp) (by simp) (by simp)

end Layered

end Start

end SeededPlay

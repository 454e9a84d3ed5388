/-
# `SeededPlay.Proofs.Game.Climbs` — the longest climb of a difficulty curve

A stretch of a curve is some of its points in a row.  It rises if every point of it is above
the one before.  The scan for the longest rising stretch keeps two numbers: how far the climb
that ends at the present point has come, and the longest one met so far.  Both are lengths of
a longest rising stretch, the first among the stretches that end here and the second among
all stretches of the points seen (`longest_suffix_concat`, `longest_infix_concat`), and this is
all that the scan needs (`longest_climbFrom`).

A review of the curve therefore speaks of a climb exactly if six points in a row rise, and
names the length of the longest one (`climbs_found`).

## From lengths to findings

Six points that rise in a row are a climb that is too long, and the other way round
(`longestClimb_lt_iff`), since a part of a rising stretch rises.  Findings are texts, and a
finding is in a review if its condition holds or if another one has the same text.  The
texts that could be confused differ early on, whatever numbers they hold
(`longRise_ne_shortCurve` and its kin), so a climb is spoken of exactly if it is too long,
and by its length (`longRise_mem_suggestions`).
-/
import Mathlib
import SeededPlay.Game.Game

namespace SeededPlay

namespace Review

variable {curve seen : List Binary64} {x y : Binary64} {longest current : Nat}

/-! ## Rising stretches -/

/-- Every point of a stretch is above the one before it. -/
def Rises (stretch : List Binary64) : Prop := stretch.IsChain fun x y => x.lt y = true

/-- How many points the longest rising stretch among some stretches has. -/
structure Longest (among : List Binary64 → Prop) (n : Nat) : Prop where
  attained : ∃ stretch, among stretch ∧ Rises stretch ∧ stretch.length = n
  greatest : ∀ stretch, among stretch → Rises stretch → stretch.length ≤ n

theorem Longest.unique {among : List Binary64 → Prop} {m n : Nat} (hm : Longest among m)
    (hn : Longest among n) : m = n := by
  obtain ⟨s, hs, hrises, rfl⟩ := hm.attained
  obtain ⟨t, ht, hrises', rfl⟩ := hn.attained
  exact Nat.le_antisymm (hn.greatest s hs hrises) (hm.greatest t ht hrises')

theorem rises_singleton (x : Binary64) : Rises [x] := List.isChain_singleton x

theorem rises_concat {stretch : List Binary64} :
    Rises (stretch ++ [y]) ↔ Rises stretch ∧ ∀ x ∈ stretch.getLast?, x.lt y = true := by
  unfold Rises
  rw [List.isChain_append]
  simp

theorem getLast?_of_suffix {stretch : List Binary64} (h : stretch <:+ seen)
    (hlast : seen.getLast? = some x) : ∀ z ∈ stretch.getLast?, z = x := by
  obtain ⟨front, rfl⟩ := h
  intro z hz
  rw [List.getLast?_append, Option.mem_def.mp hz, Option.some_or] at hlast
  exact Option.some.inj hlast

/-- One more point: the climb that ends there goes on if it is above the last one, and starts
anew otherwise. -/
theorem longest_suffix_concat (hlast : seen.getLast? = some x)
    (h : Longest (· <:+ seen) current) :
    Longest (· <:+ seen ++ [y]) (if x.lt y then current + 1 else 1) := by
  split
  · rename_i hrise
    obtain ⟨s, hs, hrises, hlength⟩ := h.attained
    refine ⟨⟨s ++ [y], List.suffix_concat_iff.mpr (.inr ⟨s, rfl, hs⟩), rises_concat.mpr
      ⟨hrises, fun z hz => ?_⟩, ?_⟩, fun t ht ht' => ?_⟩
    · rwa [getLast?_of_suffix hs hlast z hz]
    · rw [List.length_append, List.length_singleton, hlength]
    · rcases List.suffix_concat_iff.mp ht with rfl | ⟨s, rfl, hs⟩
      · exact Nat.zero_le _
      · have hle := h.greatest s hs (rises_concat.mp ht').1
        rw [List.length_append, List.length_singleton]
        omega
  · rename_i hfall
    refine ⟨⟨[y], List.suffix_append seen [y], rises_singleton y, rfl⟩, fun t ht ht' => ?_⟩
    rcases List.suffix_concat_iff.mp ht with rfl | ⟨s, rfl, hs⟩
    · exact Nat.zero_le _
    · -- Behind an earlier point of the stretch there would be a rise.
      have hnone : s.getLast? = none := by
        by_contra hsome
        obtain ⟨z, hz⟩ := Option.ne_none_iff_exists'.mp hsome
        have hrise := (rises_concat.mp ht').2 z hz
        rw [getLast?_of_suffix hs hlast z hz] at hrise
        exact hfall hrise
      rw [List.getLast?_eq_none_iff.mp hnone]
      exact Nat.le_refl 1

theorem longest_infix_concat (h : Longest (· <:+: seen) longest)
    (hend : Longest (· <:+ seen ++ [y]) current) :
    Longest (· <:+: seen ++ [y]) (max longest current) := by
  refine ⟨?_, fun t ht ht' => ?_⟩
  · rcases Nat.le_total longest current with hle | hle
    · obtain ⟨s, hs, hrises, hlength⟩ := hend.attained
      exact ⟨s, hs.isInfix, hrises, by omega⟩
    · obtain ⟨s, hs, hrises, hlength⟩ := h.attained
      exact ⟨s, List.infix_concat_iff.mpr (.inr hs), hrises, by omega⟩
  · rcases List.infix_concat_iff.mp ht with hs | hs
    · exact (hend.greatest t hs ht').trans (Nat.le_max_right _ _)
    · exact (h.greatest t hs ht').trans (Nat.le_max_left _ _)

/-- The scan from any point on, provided both numbers are right there. -/
theorem longest_climbFrom (rest : List Binary64) (hlast : seen.getLast? = some x)
    (h : Longest (· <:+: seen) longest) (hend : Longest (· <:+ seen) current) :
    Longest (· <:+: seen ++ rest) (climbFrom longest current x rest) := by
  induction rest generalizing seen x longest current with
  | nil => rwa [List.append_nil]
  | cons y ys ih =>
    have hend' := longest_suffix_concat (y := y) hlast hend
    have hlast' : (seen ++ [y]).getLast? = some y := List.getLast?_concat
    have hscan := ih hlast' (longest_infix_concat h hend') hend'
    rwa [List.append_assoc] at hscan

theorem longest_longestRise (h : 2 ≤ curve.length) :
    Longest (· <:+: curve) (longestRise curve) := by
  match curve, h with
  | x :: y :: ys, _ =>
    have hlength : ∀ s, s <:+: [x] → s.length ≤ 1 := fun s hs => hs.length_le
    have hfirst : Longest (· <:+: [x]) 1 :=
      ⟨⟨[x], List.infix_rfl, rises_singleton x, rfl⟩, fun s hs _ => hlength s hs⟩
    have hend : Longest (· <:+ [x]) 1 :=
      ⟨⟨[x], List.suffix_rfl, rises_singleton x, rfl⟩, fun s hs _ => hlength s hs.isInfix⟩
    exact longest_climbFrom (y :: ys) rfl hfirst hend

theorem longestClimb_lt_iff :
    longestClimb < longestRise curve ↔
      ∃ six, six <:+: curve ∧ six.length = 6 ∧ Rises six := by
  by_cases hlong : 2 ≤ curve.length
  · have hlongest := longest_longestRise hlong
    constructor
    · intro h
      obtain ⟨s, hs, hrises, hlength⟩ := hlongest.attained
      have hfirst := (List.take_prefix 6 s).isInfix
      refine ⟨s.take 6, hfirst.trans hs, ?_, List.IsChain.infix hrises hfirst⟩
      unfold longestClimb at h
      rw [List.length_take]
      omega
    · rintro ⟨six, hsix, hlength, hrises⟩
      have hle := hlongest.greatest six hsix hrises
      unfold longestClimb
      omega
  · have hnone : longestRise curve = 0 := by
      match curve with
      | [] => rfl
      | [_] => rfl
      | x :: y :: ys => exact absurd (Nat.le_add_left 2 ys.length) hlong
    rw [hnone]
    refine ⟨fun h => absurd h (Nat.not_lt_zero _), fun ⟨six, hsix, hlength, _⟩ => ?_⟩
    have hle := hsix.length_le
    omega

/-! ## Dips -/

theorem hasDip_iff : hasDip curve = true ↔ ∃ x y, [x, y] <:+: curve ∧ y.lt x = true := by
  induction curve using hasDip.induct with
  | case1 a b rest ih =>
    rw [hasDip, Bool.or_eq_true, ih]
    constructor
    · rintro (hdip | ⟨x, y, hpair, hdip⟩)
      · exact ⟨a, b, (List.prefix_append [a, b] rest).isInfix, hdip⟩
      · exact ⟨x, y, List.infix_cons hpair, hdip⟩
    · rintro ⟨x, y, hpair, hdip⟩
      rcases List.infix_cons_iff.mp hpair with hfront | hpair
      · simp only [List.cons_prefix_cons] at hfront
        obtain ⟨rfl, rfl, -⟩ := hfront
        exact Or.inl hdip
      · exact Or.inr ⟨x, y, hpair, hdip⟩
  | case2 l hshort =>
    have hfalse : hasDip l = false := by
      unfold hasDip
      split
      · exact absurd rfl (hshort _ _ _)
      · rfl
    have hlength : l.length < 2 := by
      match l, hshort with
      | [], _ => exact Nat.zero_lt_two
      | [_], _ => exact Nat.one_lt_two
      | a :: b :: rest, hshort => exact absurd rfl (hshort a b rest)
    rw [hfalse]
    refine ⟨nofun, fun ⟨x, y, hpair, _⟩ => ?_⟩
    have hle := hpair.length_le
    simp only [List.length_cons, List.length_nil] at hle
    omega

/-! ## Findings -/

theorem mem_findingIf {applies : Bool} {s finding : String} :
    s ∈ findingIf applies finding ↔ applies = true ∧ s = finding := by
  unfold findingIf
  cases applies <;> simp

theorem longRise_inj {m n : Nat} : longRise m = longRise n ↔ m = n := by
  refine ⟨fun h => ?_, congrArg _⟩
  unfold longRise at h
  simp only [String.append_left_inj, String.append_right_inj] at h
  exact Nat.repr_injective h

theorem append_ne {a b : String} (k : Nat) (ha : k ≤ a.toList.length) (hb : k ≤ b.toList.length)
    (hne : a.toList.take k ≠ b.toList.take k) (s t : String) : a ++ s ≠ b ++ t := by
  intro h
  have hstart := congrArg (fun u => u.toList.take k) h
  simp only [String.toList_append, List.take_append_of_le_length ha,
    List.take_append_of_le_length hb] at hstart
  exact hne hstart

theorem longRise_ne_shortCurve (m n : Nat) : longRise m ≠ shortCurve n := by
  unfold longRise shortCurve
  simp only [String.append_assoc]
  exact append_ne 1 (by decide) (by decide) (by decide) _ _

theorem longRise_ne_steepRise (n : Nat) (x : Binary64) : longRise n ≠ steepRise x := by
  unfold longRise steepRise
  simp only [String.append_assoc]
  exact append_ne 5 (by decide) (by decide) (by decide) _ _

theorem noDip_ne_hardStart (x : Binary64) : noDip ≠ hardStart x := by
  unfold noDip hardStart
  simp only [String.append_assoc]
  exact append_ne 1 (by decide) (by decide) (by decide) _ _

theorem noDip_ne_flatCurve (x : Binary64) : noDip ≠ flatCurve x := by
  unfold noDip flatCurve
  simp only [String.append_assoc]
  exact append_ne 1 (by decide) (by decide) (by decide) _ _

theorem longRise_mem_suggestions {n : Nat} :
    longRise n ∈ (ofCurve curve).suggestions ↔
      longestClimb < longestRise curve ∧ n = longestRise curve := by
  cases curve with
  | nil => exact ⟨nofun, fun h => absurd h.1 (Nat.not_lt_zero _)⟩
  | cons x xs =>
    unfold ofCurve
    simp only [ofFindings, List.mem_append, mem_findingIf, longRise_ne_shortCurve,
      longRise_ne_steepRise, longRise_inj, decide_eq_true_eq, and_false, false_or, or_false]

theorem noDip_mem_warnings :
    noDip ∈ (ofCurve curve).warnings ↔ 5 ≤ curve.length ∧ hasDip curve = false := by
  cases curve with
  | nil => exact ⟨nofun, fun h => absurd h.1 (by decide)⟩
  | cons x xs =>
    unfold ofCurve
    simp only [ofFindings, List.mem_append, mem_findingIf, noDip_ne_hardStart, noDip_ne_flatCurve,
      and_true, and_false, false_or, or_false, Bool.and_eq_true, decide_eq_true_eq,
      Bool.not_eq_true']

/-- Climbs are found exactly.  A curve of two points or more has a rising stretch as long as the
scan says, and no longer one.  The review of a game's curve speaks of a climb exactly if six
points in a row rise, and then of the longest one; and it warns that a curve of five points or
more never eases exactly if no point is below the one before it. -/
theorem climbs_found :
    (∀ curve : List Binary64, 2 ≤ curve.length →
      Longest (· <:+: curve) (longestRise curve)) ∧
    ∀ g : Game,
      ((∃ n, longRise n ∈ g.difficultyReview.suggestions) ↔
        ∃ six, six <:+: g.difficulty.curve ∧ six.length = 6 ∧ Rises six) ∧
      (∀ n, longRise n ∈ g.difficultyReview.suggestions →
        Longest (· <:+: g.difficulty.curve) n) ∧
      (5 ≤ g.difficulty.curve.length →
        (noDip ∈ g.difficultyReview.warnings ↔
          ∀ x y, [x, y] <:+: g.difficulty.curve → y.lt x = false)) := by
  refine ⟨fun curve => longest_longestRise, fun g => ?_⟩
  unfold Game.difficultyReview
  generalize g.difficulty.curve = curve
  refine ⟨?_, fun n hn => ?_, fun hlong => ?_⟩
  · rw [← longestClimb_lt_iff]
    constructor
    · rintro ⟨n, hn⟩
      exact (longRise_mem_suggestions.mp hn).1
    · intro h
      exact ⟨_, longRise_mem_suggestions.mpr ⟨h, rfl⟩⟩
  · obtain ⟨h, rfl⟩ := longRise_mem_suggestions.mp hn
    obtain ⟨six, hsix, hlength, -⟩ := longestClimb_lt_iff.mp h
    have hle := hsix.length_le
    exact longest_longestRise (by omega)
  · rw [noDip_mem_warnings, ← Bool.not_eq_true, hasDip_iff]
    constructor
    · rintro ⟨-, hnone⟩ x y hpair
      exact Bool.eq_false_iff.mpr fun hdip => hnone ⟨x, y, hpair, hdip⟩
    · intro hall
      refine ⟨hlong, fun ⟨x, y, hpair, hdip⟩ => ?_⟩
      rw [hall x y hpair] at hdip
      cases hdip

/-- Six tenths one after another, and one more that is lower. -/
def hill : List Binary64 := [1, 2, 3, 4, 5, 6, 5].map (Binary64.ofRatio · 10)

theorem climbs_found_hill :
    2 ≤ hill.length ∧ Longest (· <:+: hill) 6 ∧
      (let g : Game := { (default : Game) with difficulty := { curve := hill } }
       longRise 6 ∈ g.difficultyReview.suggestions ∧ 5 ≤ g.difficulty.curve.length ∧
        noDip ∉ g.difficultyReview.warnings) := by
  have hrise : longestRise hill = 6 := by decide +kernel
  have hdip : ∃ x y, [x, y] <:+: hill ∧ y.lt x = true :=
    ⟨.ofRatio 6 10, .ofRatio 5 10, (List.drop_suffix 5 hill).isInfix, by decide +kernel⟩
  obtain ⟨hlongest, hreview⟩ := climbs_found
  have hsix := hlongest hill (by decide)
  rw [hrise] at hsix
  refine ⟨by decide, hsix, ?_⟩
  intro g
  obtain ⟨-, -, hwarned⟩ := hreview g
  have hlong : 5 ≤ g.difficulty.curve.length := by decide
  refine ⟨longRise_mem_suggestions.mpr ⟨?_, hrise.symm⟩, hlong, fun h => ?_⟩
  · have hcurve : g.difficulty.curve = hill := rfl
    rw [hcurve, hrise]
    decide
  · obtain ⟨x, y, hpair, hlower⟩ := hdip
    rw [(hwarned hlong).mp h x y hpair] at hlower
    cases hlower

end Review

end SeededPlay

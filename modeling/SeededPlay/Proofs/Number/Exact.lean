/-
# `SeededPlay.Proofs.Number.Exact` — when double arithmetic does not round

A whole number of units with at most 53 significant bits is a double, and rounding
leaves it where it is.  So the sums, products and quotients whose exact value is
such a number are exact, which is all that seeds and draws need: their operands
are far below `2 ^ 53`.

Rounding depends on the quotient alone (`ofFraction_scale`), what it gives is a
double again (`isGrid_nearestUnits`), and a double is its own rounding
(`ofFraction_of_isGrid`).

## Units and gaps

Doubles are counted in units, the smallest of them, so a double is a natural number of units
and a sign.  The gap at a size is the distance to the next double, a power of two.  Rounding
gives a multiple of a gap `2 ^ k`, with at most `2 ^ 53` of them (`nearestUnits_form`), and
such numbers are the grid (`IsGrid`).  Conversely 53 significant bits are enough for a number
to be on the grid (`isGrid_mul_pow`); this is how the exact operations below are all proved,
with the bits of the operands added up.

Integers of half the size of the largest double round to a double, as rounding a whole number
of units at most doubles it (`nearestUnits_le`), so they are not beyond every double
(`exists_ofInt?`).
-/
import Mathlib
import SeededPlay.Number.Binary64

namespace SeededPlay

/-! ## Rounding a quotient -/

theorem nearestEven_scale (num den : Nat) {k : Nat} (hk : 0 < k) :
    nearestEven (k * num) (k * den) = nearestEven num den := by
  have hlt : ∀ a b : Nat, k * a < k * b ↔ a < b := fun a b => Nat.mul_lt_mul_left hk
  unfold nearestEven
  simp only [Nat.mul_div_mul_left num den hk, Nat.mul_mod_mul_left, Nat.mul_left_comm 2 k, hlt]

namespace Binary64

theorem unitsPerOne_eq : unitsPerOne = 2 ^ 1074 := Nat.pow_eq

theorem unitsLimit_eq : unitsLimit = 2 ^ 2098 := Nat.pow_eq

theorem gap_eq (units : Nat) : gap units = 2 ^ (units.log2 - 52) := rfl

theorem gap_pos (units : Nat) : 0 < gap units := by
  rw [gap_eq]
  exact Nat.two_pow_pos _

theorem unitsPerOne_pos : 0 < unitsPerOne := by
  rw [unitsPerOne_eq]
  exact Nat.two_pow_pos 1074

theorem nearestUnits_scale (num den : Nat) {k : Nat} (hk : 0 < k) :
    nearestUnits (k * num) (k * den) = nearestUnits num den := by
  unfold nearestUnits
  simp only [Nat.mul_div_mul_left num den hk, Nat.mul_assoc k den]
  rw [nearestEven_scale _ _ hk]

theorem ofFraction_scale (negative : Bool) (num den : Nat) {k : Nat} (hk : 0 < k) :
    ofFraction negative (k * num) (k * den) = ofFraction negative num den := by
  unfold ofFraction
  rw [nearestUnits_scale num den hk]

theorem ofFraction_mul (negative : Bool) (units : Nat) {den : Nat} (hd : 0 < den) :
    ofFraction negative (units * den) den = ofFraction negative units 1 := by
  have h := ofFraction_scale negative units 1 hd
  rwa [Nat.mul_one, Nat.mul_comm den units] at h

/-! ## The grid of the doubles -/

/-- A magnitude on the grid of the doubles: a multiple of the gap at its size. -/
def IsGrid (units : Nat) : Prop := gap units ∣ units

theorem isGrid_zero : IsGrid 0 := ⟨0, rfl⟩

theorem nearestUnits_of_isGrid {units : Nat} (h : IsGrid units) : nearestUnits units 1 = units := by
  obtain ⟨q, hq⟩ := h
  have hg := gap_pos units
  unfold nearestUnits
  simp only [Nat.div_one, Nat.one_mul]
  generalize gap units = g at *
  subst hq
  rw [Nat.mul_comm g q, nearestEven_mul q hg]

/-- A double is its own rounding. -/
theorem ofFraction_of_isGrid (negative : Bool) {units : Nat} (h : IsGrid units)
    (hlt : units < unitsLimit) : ofFraction negative units 1 = .finite negative units := by
  unfold ofFraction
  rw [nearestUnits_of_isGrid h]
  simp only [if_pos hlt]

theorem gap_dvd_pow {units k : Nat} (h : units.log2 ≤ 52 + k) : gap units ∣ 2 ^ k := by
  rw [gap_eq]
  exact Nat.pow_dvd_pow 2 (by omega)

theorem isGrid_mul_pow {m : Nat} (hm : m < 2 ^ 53) (k : Nat) : IsGrid (m * 2 ^ k) := by
  rcases Nat.eq_zero_or_pos m with rfl | hpos
  · rw [Nat.zero_mul]
    exact isGrid_zero
  have hne : m * 2 ^ k ≠ 0 := Nat.ne_of_gt (Nat.mul_pos hpos (Nat.two_pow_pos k))
  have hlt : m * 2 ^ k < 2 ^ (53 + k) := by
    rw [Nat.pow_add]
    exact Nat.mul_lt_mul_of_pos_right hm (Nat.two_pow_pos k)
  have hlog : (m * 2 ^ k).log2 < 53 + k := (Nat.log2_lt hne).mpr hlt
  exact (gap_dvd_pow (by omega)).trans (Nat.dvd_mul_left _ _)

theorem isGrid_pow (k : Nat) : IsGrid (2 ^ k) := by
  have h := isGrid_mul_pow (m := 1) (by decide) k
  rwa [Nat.one_mul] at h

/-- Rounding gives a multiple of a gap `2 ^ k`, with at most `2 ^ 53` of them. -/
theorem nearestUnits_form (num den : Nat) :
    ∃ m k, m ≤ 2 ^ 53 ∧ nearestUnits num den = m * 2 ^ k := by
  refine ⟨nearestEven num (den * gap (num / den)), (num / den).log2 - 52, ?_, rfl⟩
  have hb := (nearestEven_bounds num (den * gap (num / den))).2
  have hq : num / (den * gap (num / den)) < 2 ^ 53 := by
    rw [← Nat.div_div_eq_div_mul]
    generalize num / den = q
    have hself := Nat.lt_log2_self (n := q)
    have hle : q.log2 + 1 ≤ 53 + (q.log2 - 52) := by omega
    rw [Nat.div_lt_iff_lt_mul (gap_pos q)]
    rw [gap_eq, ← Nat.pow_add]
    exact Nat.lt_of_lt_of_le hself (Nat.pow_le_pow_right (by decide) hle)
  omega

theorem isGrid_nearestUnits (num den : Nat) : IsGrid (nearestUnits num den) := by
  obtain ⟨m, k, hm, he⟩ := nearestUnits_form num den
  rw [he]
  rcases Nat.lt_or_eq_of_le hm with hlt | rfl
  · exact isGrid_mul_pow hlt k
  · rw [← Nat.pow_add]
    exact isGrid_pow _

theorem ofFraction_cases (negative : Bool) (num den : Nat) :
    (∃ u, IsGrid u ∧ u < unitsLimit ∧ ofFraction negative num den = .finite negative u) ∨
      ofFraction negative num den = .infinite negative := by
  unfold ofFraction
  simp only
  split
  · rename_i hlt
    exact Or.inl ⟨_, isGrid_nearestUnits num den, hlt, rfl⟩
  · exact Or.inr rfl

/-! ## Exact operations -/

/-- A quotient of `den * m * 2 ^ k` by `den` is exact when `m` has at most 53 bits. -/
theorem ofFraction_exact (negative : Bool) {m k den : Nat} (hm : m < 2 ^ 53) (hk : k ≤ 2045)
    (hd : 0 < den) :
    ofFraction negative (m * 2 ^ k * den) den = .finite negative (m * 2 ^ k) := by
  rw [ofFraction_mul negative _ hd]
  refine ofFraction_of_isGrid negative (isGrid_mul_pow hm k) ?_
  rw [unitsLimit_eq]
  calc m * 2 ^ k < 2 ^ 53 * 2 ^ k := Nat.mul_lt_mul_of_pos_right hm (Nat.two_pow_pos k)
    _ = 2 ^ (53 + k) := (Nat.pow_add 2 53 k).symm
    _ ≤ 2 ^ 2098 := Nat.pow_le_pow_right (by decide) (by omega)

theorem ofInt_exact {n : Nat} (hn : n < 2 ^ 53) :
    ofInt (n : Int) = .finite false (n * unitsPerOne) := by
  have hneg : ¬ ((n : Int) < 0) := by omega
  have h := ofFraction_exact false hn (k := 1074) (by omega) Nat.one_pos
  rw [Nat.mul_one] at h
  unfold ofInt
  rw [unitsPerOne_eq]
  simp only [hneg, decide_false, Int.natAbs_natCast]
  exact h

theorem ofInt?_exact {n : Nat} (hn : n < 2 ^ 53) :
    ofInt? (n : Int) = some (.finite false (n * unitsPerOne)) := by
  unfold ofInt?
  rw [ofInt_exact hn]
  rfl

theorem ofUnits_exact {n : Nat} (hn : n < 2 ^ 53) :
    ofUnits ((n * unitsPerOne : Nat) : Int) = .finite false (n * unitsPerOne) := by
  have hexact := ofFraction_exact false hn (k := 1074) (by omega) Nat.one_pos
  rw [Nat.mul_one, ← unitsPerOne_eq] at hexact
  unfold ofUnits
  rw [Int.natAbs_natCast, decide_eq_false (Int.not_lt.mpr (Int.natCast_nonneg _))]
  exact hexact

theorem add_exact {a b : Nat} (h : a + b < 2 ^ 53) :
    add (.finite false (a * unitsPerOne)) (.finite false (b * unitsPerOne)) =
      .finite false ((a + b) * unitsPerOne) := by
  have hsum : ((a * unitsPerOne : Nat) : Int) + ((b * unitsPerOne : Nat) : Int) =
      (((a + b) * unitsPerOne : Nat) : Int) := by
    rw [Nat.add_mul, Int.natCast_add]
  simp only [add, signedUnits, Bool.false_eq_true, if_false, hsum, Bool.and_false]
  split
  · rename_i hzero
    rw [Int.natCast_eq_zero.mp hzero]
  · exact ofUnits_exact h

/-! ## Room for integers -/

theorem gap_le_self {units : Nat} (h : 0 < units) : gap units ≤ units := by
  rw [gap_eq]
  calc 2 ^ (units.log2 - 52) ≤ 2 ^ units.log2 := Nat.pow_le_pow_right (by decide) (Nat.sub_le _ _)
    _ ≤ units := Nat.log2_self_le (Nat.ne_of_gt h)

theorem nearestUnits_le (units : Nat) : nearestUnits units 1 ≤ 2 * units := by
  rcases Nat.eq_zero_or_pos units with rfl | hpos
  · rw [nearestUnits_of_isGrid isGrid_zero]
  have hgap := gap_le_self hpos
  have hround := (nearestEven_bounds units (gap units)).2
  have hquot := Nat.div_mul_le_self units (gap units)
  unfold nearestUnits
  simp only [Nat.div_one, Nat.one_mul]
  generalize gap units = g at *
  calc nearestEven units g * g ≤ (units / g + 1) * g := Nat.mul_le_mul_right g hround
    _ = units / g * g + g := Nat.succ_mul _ _
    _ ≤ 2 * units := by omega

theorem double_mul_pow_lt {a l : Nat} (h : a < 2 ^ l) (k : Nat) :
    2 * (a * 2 ^ k) < 2 ^ (l + (k + 1)) := by
  rw [Nat.mul_left_comm, ← Nat.pow_succ', Nat.pow_add]
  exact Nat.mul_lt_mul_of_pos_right h (Nat.two_pow_pos (k + 1))

/-- Integers of half the size of the largest double round to a double. -/
theorem nearestUnits_lt_limit {a : Nat} (h : a < 2 ^ 1023) :
    nearestUnits (a * unitsPerOne) 1 < unitsLimit := by
  have hexp : 1023 + (1074 + 1) = 2098 := rfl
  have hlt := double_mul_pow_lt h 1074
  rw [hexp] at hlt
  rw [unitsPerOne_eq, unitsLimit_eq]
  exact Nat.lt_of_le_of_lt (nearestUnits_le _) hlt

theorem exists_ofInt? {n : Int} (h : n.natAbs < 2 ^ 1023) : ∃ x, ofInt? n = some x := by
  unfold ofInt? ofInt ofFraction
  simp only [if_pos (nearestUnits_lt_limit h)]
  exact ⟨_, rfl⟩

end Binary64

end SeededPlay

/-
# `SeededPlay.Proofs.Number.Half` — a whole number and a half

A double that is a whole number `a` is `2 * a` halves, and adding a half makes that number
odd.  Below `2 ^ 52` the odd number is a double and nothing is lost.  From there to `2 ^ 53`
it lies in the middle between two doubles and goes to the even whole number
(`nearestUnits_double_succ`, `nearestUnits_double_pred`).  Above, all whole numbers that are
doubles are even, the gap is at least four halves, and the half is lost.

Cut off at the point, the sum is the whole number itself or the even one of the two that it
lies between (`cutOff`, `floor?_add_half`).  Rounding is the same in every unit
(`nearestUnits_mul_pow`), so all this is about integers.

The gap is two or more from `2 ^ 53` on, so what rounds a large number is even
(`two_dvd_nearestUnits`), and between `2 ^ 53` and `2 ^ 54` the doubles are the even numbers,
with ties going to the multiples of four (`nearestUnits_tie`).  Beside twice a large double
the gap is four or more, and divides it (`gap_beside`), so neither a half above nor a half
below is far enough away to count.
-/
import SeededPlay.Proofs.Number.Range

namespace SeededPlay

theorem nearestEven_eq {num den k : Nat} (hlow : 2 * (k * den) < 2 * num + den)
    (hhigh : 2 * num < 2 * (k * den) + den) : nearestEven num den = k := by
  have hd : 0 < den := by omega
  refine Nat.le_antisymm (Nat.le_of_lt_succ (nearestEven_lt ?_)) ?_
  · rw [Nat.succ_mul k]
    omega
  · cases k with
    | zero => exact Nat.zero_le _
    | succ j =>
      refine lt_nearestEven hd ?_
      rw [Nat.succ_mul j] at hlow
      omega

namespace Binary64

theorem isGrid_of_lt {n : Nat} (h : n < 2 ^ 53) : IsGrid n := by
  have hgrid := isGrid_mul_pow h 0
  rwa [Nat.pow_zero, Nat.mul_one] at hgrid

theorem nearestUnits_mul_pow (n k : Nat) :
    nearestUnits (n * 2 ^ k) 1 = nearestUnits n 1 * 2 ^ k := by
  rcases Nat.lt_or_ge n (2 ^ 53) with hsmall | hlarge
  · rw [nearestUnits_of_isGrid (isGrid_mul_pow hsmall k),
      nearestUnits_of_isGrid (isGrid_of_lt hsmall)]
  · have hne : n ≠ 0 := by omega
    have hlog : 53 ≤ n.log2 := (Nat.le_log2 hne).mpr hlarge
    have hgap : gap (n * 2 ^ k) = gap n * 2 ^ k := by
      rw [gap_eq, gap_eq, log2_mul_pow (Nat.log2_self_le hne) Nat.lt_log2_self, ← Nat.pow_add,
        Nat.sub_add_comm (by omega)]
    rw [nearestUnits_eq, nearestUnits_eq, Nat.div_one, Nat.div_one, Nat.one_mul, Nat.one_mul, hgap,
      Nat.mul_comm n, Nat.mul_comm (gap n), nearestEven_scale _ _ (Nat.two_pow_pos k),
      Nat.mul_comm (2 ^ k), Nat.mul_assoc]

theorem nearestUnits_mul_units (n : Nat) :
    nearestUnits (n * unitsPerOne) 1 = nearestUnits n 1 * unitsPerOne := by
  have hround := nearestUnits_mul_pow n 1074
  rwa [← unitsPerOne_eq] at hround

theorem lt_of_units_lt {a : Nat} (h : a * unitsPerOne < unitsLimit) : a < 2 ^ 1024 := by
  have hlimit : unitsLimit = 2 ^ 1024 * unitsPerOne := by
    rw [unitsLimit_eq, unitsPerOne_eq, ← Nat.pow_add]
  rw [hlimit] at h
  exact (Nat.mul_lt_mul_right unitsPerOne_pos).mp h

theorem nearestUnits_pos {n : Nat} (h : 0 < n) : 0 < nearestUnits n 1 := by
  have hround : 1 ≤ nearestEven n (gap n) :=
    le_nearestEven (gap_pos n) ((Nat.one_mul _).trans_le (gap_le_self h))
  rw [nearestUnits_eq, Nat.div_one, Nat.one_mul]
  exact Nat.mul_pos hround (gap_pos n)

theorem ofInt?_eq {n : Int} (hn : n.natAbs < 2 ^ 1024 - 2 ^ 970) :
    ofInt? n = some (.finite (n < 0) (nearestUnits n.natAbs 1 * unitsPerOne)) ∧
      nearestUnits n.natAbs 1 < 2 ^ 1024 := by
  have hlimit := (nearestUnits_lt_limit_iff n.natAbs).mpr hn
  rw [nearestUnits_mul_units] at hlimit
  have hofInt : ofInt n = .finite (n < 0) (nearestUnits n.natAbs 1 * unitsPerOne) := by
    unfold ofInt ofFraction
    rw [nearestUnits_mul_units]
    exact if_pos hlimit
  refine ⟨?_, lt_of_units_lt hlimit⟩
  unfold ofInt?
  rw [hofInt]
  rfl

theorem two_dvd_gap {n : Nat} (h : 2 ^ 53 ≤ n) : 2 ∣ gap n := by
  have hlog : 53 ≤ n.log2 := (Nat.le_log2 (by omega)).mpr h
  rw [gap_eq]
  exact Nat.pow_dvd_pow 2 (show 1 ≤ n.log2 - 52 by omega)

theorem two_dvd_nearestUnits {n : Nat} (h : 2 ^ 53 ≤ n) : 2 ∣ nearestUnits n 1 := by
  rw [nearestUnits_eq, Nat.div_one]
  exact (two_dvd_gap h).mul_left _

theorem two_dvd_of_isGrid {n : Nat} (hn : IsGrid n) (h : 2 ^ 53 ≤ n) : 2 ∣ n :=
  (two_dvd_gap h).trans hn

/-- Between `2 ^ 53` and `2 ^ 54` the doubles are the even numbers. -/
theorem nearestUnits_tie {n : Nat} (hlow : 2 ^ 53 ≤ n) (hhigh : n < 2 ^ 54) :
    nearestUnits n 1 = nearestEven n 2 * 2 := by
  have hlog : n.log2 = 53 := (Nat.log2_eq_iff (by omega)).mpr ⟨hlow, hhigh⟩
  have hgap : gap n = 2 := by
    rw [gap_eq, hlog]
    rfl
  rw [nearestUnits_eq, Nat.div_one, Nat.one_mul, hgap]

/-- Beside twice a large double the gap is four or more, and divides it. -/
theorem gap_beside {a n : Nat} (ha : IsGrid a) (hlow : 2 ^ 54 ≤ n) (hhigh : n ≤ 2 * a + 1) :
    gap n ∣ 2 * a ∧ 4 ≤ gap n := by
  have hlog : 54 ≤ n.log2 := (Nat.le_log2 (by omega)).mpr hlow
  have hself : a < 2 ^ (a.log2 + 1) := Nat.lt_log2_self
  have hlt : n < 2 ^ (a.log2 + 2) := by
    rw [Nat.pow_succ]
    omega
  have hlog' : n.log2 < a.log2 + 2 := (Nat.log2_lt (by omega)).mpr hlt
  constructor
  · refine (gap_dvd_pow (k := a.log2 - 52 + 1) (by omega)).trans ?_
    rw [Nat.pow_succ', ← gap_eq]
    exact Nat.mul_dvd_mul_left 2 ha
  · rw [gap_eq]
    exact Nat.pow_le_pow_right Nat.two_pos (show 2 ≤ n.log2 - 52 by omega)

theorem nearestUnits_beside {a n : Nat} (ha : IsGrid a) (hlow : 2 ^ 54 ≤ n)
    (hnear : n = 2 * a + 1 ∨ n + 1 = 2 * a) : nearestUnits n 1 = 2 * a := by
  obtain ⟨⟨q, hq⟩, hfour⟩ := gap_beside ha hlow (by omega)
  have hround : nearestEven n (gap n) = q := by
    refine nearestEven_eq ?_ ?_ <;> rw [Nat.mul_comm q, ← hq] <;> omega
  rw [nearestUnits_eq, Nat.div_one, Nat.one_mul, hround, Nat.mul_comm, ← hq]

/-- A half above a whole number that is a double. -/
theorem nearestUnits_double_succ {a : Nat} (ha : IsGrid a) : nearestUnits (2 * a + 1) 1 =
    if a < 2 ^ 52 then 2 * a + 1 else 2 * (a + a % 2) := by
  split
  · exact nearestUnits_of_isGrid (isGrid_of_lt (by omega))
  · rename_i hlarge
    rcases Nat.lt_or_ge a (2 ^ 53) with hbelow | habove
    · have hodd : (2 * a + 1) / 2 = a ∧ (2 * a + 1) % 2 = 1 := by omega
      rw [nearestUnits_tie (by omega) (by omega)]
      unfold nearestEven
      simp only [hodd, Nat.mul_one, Nat.lt_irrefl, if_false]
      exact Nat.mul_comm _ 2
    · have heven : a % 2 = 0 := Nat.mod_eq_zero_of_dvd (two_dvd_of_isGrid ha habove)
      rw [nearestUnits_beside ha (by omega) (.inl rfl), heven, Nat.add_zero]

theorem nearestUnits_double_pred {a : Nat} (ha : IsGrid a) : nearestUnits (2 * a - 1) 1 =
    if a ≤ 2 ^ 52 then 2 * a - 1 else 2 * (a - a % 2) := by
  split
  · exact nearestUnits_of_isGrid (isGrid_of_lt (by omega))
  · rename_i hlarge
    rcases Nat.lt_or_ge (2 ^ 53) a with habove | hbelow
    · have heven : a % 2 = 0 := Nat.mod_eq_zero_of_dvd (two_dvd_of_isGrid ha (by omega))
      rw [nearestUnits_beside ha (by omega) (.inr (by omega)), heven, Nat.sub_zero]
    · have hodd : (2 * a - 1) / 2 = a - 1 ∧ (2 * a - 1) % 2 = 1 := by omega
      rw [nearestUnits_tie (by omega) (by omega)]
      unfold nearestEven
      simp only [hodd, Nat.mul_one, Nat.lt_irrefl, if_false]
      omega

/-! ## Cut off at the point -/

/-- What is left of a whole number when a half has been added and the sum is cut off at the
point, without its sign: the number itself, or from `2 ^ 52` on an even one beside it. -/
def cutOff (negative : Bool) (a : Nat) : Nat :=
  if a < 2 ^ 52 then a else if negative then a - a % 2 else a + a % 2

theorem cutOff_of_even (negative : Bool) {a : Nat} (h : a % 2 = 0) : cutOff negative a = a := by
  unfold cutOff
  rw [h, Nat.sub_zero, Nat.add_zero]
  split
  · rfl
  · cases negative <;> rfl

theorem ofUnits_signedUnits (negative : Bool) {units : Nat} (h : 0 < units) :
    ofUnits (signedUnits negative units) = ofFraction negative units 1 := by
  have hpos : (0 : Int) < units := Int.natCast_pos.mpr h
  unfold ofUnits
  cases negative with
  | false =>
    show ofFraction (decide ((units : Int) < 0)) (units : Int).natAbs 1 = _
    rw [decide_eq_false (by omega), Int.natAbs_natCast]
  | true =>
    show ofFraction (decide (-(units : Int) < 0)) (-(units : Int)).natAbs 1 = _
    rw [decide_eq_true (by omega), Int.natAbs_neg, Int.natAbs_natCast]

theorem add_eq {s t negative : Bool} {u v units : Nat} (h : 0 < units)
    (hsum : signedUnits s u + signedUnits t v = signedUnits negative units) :
    add (.finite s u) (.finite t v) = ofFraction negative units 1 := by
  have hne : signedUnits negative units ≠ 0 := by
    cases negative
    · exact Int.natCast_ne_zero.mpr (Nat.ne_of_gt h)
    · exact neg_ne_zero.mpr (Int.natCast_ne_zero.mpr (Nat.ne_of_gt h))
  unfold add
  simp only [hsum, if_neg hne]
  exact ofUnits_signedUnits negative h

/-- A whole number and a half, in halves and without the sign. -/
def halves (negative : Bool) (a : Nat) : Nat := if negative then 2 * a - 1 else 2 * a + 1

theorem halves_pos {negative : Bool} {a : Nat} (hneg : negative = true → 0 < a) :
    0 < halves negative a := by
  cases negative with
  | false => exact Nat.succ_pos _
  | true =>
    have := hneg rfl
    show 0 < 2 * a - 1
    omega

theorem signedUnits_halves {negative : Bool} {a : Nat} (hneg : negative = true → 0 < a) (u : Nat) :
    signedUnits negative (a * (2 * u)) + signedUnits false u =
      signedUnits negative (halves negative a * u) := by
  cases negative with
  | false =>
    show ((a * (2 * u) : Nat) : Int) + (u : Nat) = ((2 * a + 1) * u : Nat)
    push_cast
    ring
  | true =>
    have hpos : 1 ≤ 2 * a := by
      have := hneg rfl
      omega
    show -((a * (2 * u) : Nat) : Int) + (u : Nat) = -(((2 * a - 1) * u : Nat) : Int)
    rw [Nat.cast_mul (2 * a - 1), Nat.cast_sub hpos]
    push_cast
    ring

theorem mul_pow_lt {r k : Nat} (h : r < 2 ^ k) (l : Nat) : r * 2 ^ l < 2 ^ (k + l) := by
  rw [Nat.pow_add]
  exact Nat.mul_lt_mul_of_pos_right h (Nat.two_pow_pos l)

theorem nearestUnits_halves_lt (negative : Bool) {a : Nat} (ha : IsGrid a) (hlt : a < 2 ^ 1024) :
    nearestUnits (halves negative a) 1 < 2 ^ 1025 := by
  have hpow : 2 ^ 1025 = 2 * 2 ^ 1024 := by
    rw [← Nat.pow_succ']
  have hmono : ∀ k, 54 ≤ k → 2 ^ 54 ≤ 2 ^ k := fun k hk => Nat.pow_le_pow_right Nat.two_pos hk
  have hlarge := hmono 1024 (by decide)
  rw [hpow]
  generalize (2 : Nat) ^ 1024 = limit at hlt hlarge
  cases negative with
  | false =>
    have heven := two_dvd_of_isGrid ha
    show nearestUnits (2 * a + 1) 1 < _
    rw [nearestUnits_double_succ ha]
    split <;> omega
  | true =>
    show nearestUnits (2 * a - 1) 1 < _
    rw [nearestUnits_double_pred ha]
    split <;> omega

theorem fdiv_nearestUnits_halves {negative : Bool} {a : Nat} (ha : IsGrid a)
    (hneg : negative = true → 0 < a) :
    (signedUnits negative (nearestUnits (halves negative a) 1)).fdiv 2 =
      signedUnits negative (cutOff negative a) := by
  rw [Int.fdiv_eq_ediv_of_nonneg _ (by decide)]
  cases negative with
  | false =>
    show ((nearestUnits (2 * a + 1) 1 : Nat) : Int) / 2 = ((cutOff false a : Nat) : Int)
    have hcut : cutOff false a = if a < 2 ^ 52 then a else a + a % 2 := rfl
    rw [nearestUnits_double_succ ha, hcut]
    by_cases h : a < 2 ^ 52
    · rw [if_pos h, if_pos h]
      omega
    · rw [if_neg h, if_neg h]
      omega
  | true =>
    have hpos := hneg rfl
    show -((nearestUnits (2 * a - 1) 1 : Nat) : Int) / 2 = -((cutOff true a : Nat) : Int)
    have hcut : cutOff true a = if a < 2 ^ 52 then a else a - a % 2 := rfl
    rw [nearestUnits_double_pred ha, hcut]
    split <;> split <;> omega

/-- A whole number that is a double and a half, cut off at the point. -/
theorem floor?_add_half {negative : Bool} {a : Nat} (ha : IsGrid a) (hlt : a < 2 ^ 1024)
    (hneg : negative = true → 0 < a) :
    (add (.finite negative (a * unitsPerOne)) (.finite false (2 ^ 1073))).floor? =
      some (signedUnits negative (cutOff negative a)) := by
  have hone : unitsPerOne = 2 * 2 ^ 1073 := by
    rw [unitsPerOne_eq, ← Nat.pow_succ']
  have hfit := mul_pow_lt (nearestUnits_halves_lt negative ha hlt) 1073
  rw [show 1025 + 1073 = 2098 from rfl, ← unitsLimit_eq] at hfit
  have hround := nearestUnits_mul_pow (halves negative a) 1073
  have hfloor := fdiv_nearestUnits_halves ha hneg
  -- the unit of a half is all that matters from here on, its size is not
  obtain ⟨u, hu, hpos⟩ : ∃ u, 2 ^ 1073 = u ∧ 0 < u := ⟨_, rfl, by positivity⟩
  rw [hu] at hone hfit hround ⊢
  have hsum := signedUnits_halves hneg u
  rw [← hone] at hsum
  rw [add_eq (Nat.mul_pos (halves_pos hneg) hpos) hsum]
  have hdouble : ofFraction negative (halves negative a * u) 1 =
      .finite negative (nearestUnits (halves negative a) 1 * u) := by
    unfold ofFraction
    rw [hround]
    simp only [if_pos hfit]
  have hscale : ∀ r : Nat, (signedUnits negative (r * u)).fdiv (2 * u : Nat) =
      (signedUnits negative r).fdiv 2 := by
    intro r
    have hsigned : signedUnits negative (r * u) = signedUnits negative r * u := by
      cases negative
      · exact Int.natCast_mul r u
      · exact (congrArg Neg.neg (Int.natCast_mul r u)).trans (Int.neg_mul _ _).symm
    rw [hsigned, Int.natCast_mul]
    exact Int.mul_fdiv_mul_of_pos_left _ _ (Int.natCast_pos.mpr hpos)
  rw [hdouble]
  show some ((signedUnits negative _).fdiv (unitsPerOne : Nat)) = _
  rw [hone, hscale, hfloor]

end Binary64

end SeededPlay

/-
# `SeededPlay.Proofs.Number.Quotient` — the floor of a quotient

A quotient of doubles is rounded before its floor is taken, and rounding may carry it up to
a whole number that the quotient has not reached.  Below `2 ^ 53` it does not: doubles of
that size lie so dense that a quotient that is not whole keeps more than half a gap away
from every whole number (`nearestUnits_lt`, `lt_nearestUnits`).  So the floor is that of
the exact quotient (`floor?_div`).

Quotients of negative doubles so small that they round to zero are left out: their exact
floor is minus one.

## Two sides

Let a quotient lie beside a whole number without reaching it.  The gap of the quotient, times
the divisor, is less than two gaps of the dividend (`mul_gap_lt`); the dividend is a multiple
of its gap and so is the divisor times the whole number, and multiples of a gap that differ,
differ by a gap (`add_gap_le`).  So the distance is more than half a gap of the quotient, and
since the whole number is a number of such gaps (`exists_gaps`), rounding does not get there.
It goes the same way above and below, except that below one unit there is no gap left to
keep the distance.

For the floor of a positive quotient it matters that rounding does not go up that far
(`fdiv_nearestUnits`), and for that of a negative one that the magnitude does not go down
(`fdiv_neg_nearestUnits`).
-/
import SeededPlay.Proofs.Number.Exact

namespace SeededPlay

/-! ## Rounding beside a whole number -/

section

variable {num den k : Nat}

theorem le_nearestEven (hd : 0 < den) (h : k * den ≤ num) : k ≤ nearestEven num den :=
  Nat.le_trans ((Nat.le_div_iff_mul_le hd).mpr h) (nearestEven_bounds num den).1

theorem nearestEven_le (hd : 0 < den) (h : num ≤ k * den) : nearestEven num den ≤ k := by
  calc nearestEven num den ≤ nearestEven (k * den) den := nearestEven_mono h
    _ = k := nearestEven_mul k hd

theorem nearestEven_lt (h : 2 * num + den < 2 * (k * den)) : nearestEven num den < k := by
  have hsum := Nat.div_add_mod num den
  have hbound := (nearestEven_bounds num den).2
  rcases Nat.lt_or_ge (num / den + 1) k with hfar | hnear
  · omega
  · have hk : k * den ≤ (num / den + 1) * den := Nat.mul_le_mul_right den hnear
    rw [Nat.succ_mul, Nat.mul_comm (num / den)] at hk
    have hdown : nearestEven num den = num / den := by
      unfold nearestEven
      simp only
      rw [if_pos (by omega)]
    rw [hdown]
    by_contra hle
    have hk' : k * den ≤ num / den * den := Nat.mul_le_mul_right den (Nat.not_lt.mp hle)
    rw [Nat.mul_comm (num / den)] at hk'
    omega

theorem lt_nearestEven (hd : 0 < den) (h : 2 * (k * den) + den < 2 * num) :
    k < nearestEven num den := by
  have hsum := Nat.div_add_mod num den
  have hbound := (nearestEven_bounds num den).1
  rcases Nat.lt_or_ge k (num / den) with hfar | hnear
  · omega
  · have hk : num / den * den ≤ k * den := Nat.mul_le_mul_right den hnear
    rw [Nat.mul_comm (num / den)] at hk
    have hup : nearestEven num den = num / den + 1 := by
      unfold nearestEven
      simp only
      rw [if_neg (by omega), if_pos (by omega)]
    rw [hup]
    by_contra hle
    have hk' : (num / den + 1) * den ≤ k * den := Nat.mul_le_mul_right den (Nat.not_lt.mp hle)
    have hmod := Nat.mod_lt num hd
    rw [Nat.succ_mul, Nat.mul_comm (num / den)] at hk'
    omega

end

namespace Binary64

theorem nearestUnits_eq (num den : Nat) :
    nearestUnits num den = nearestEven num (den * gap (num / den)) * gap (num / den) := rfl

theorem log2_le_of_lt_mul {units k : Nat} (h : units < 2 ^ 53 * 2 ^ k) :
    units.log2 ≤ 52 + k := by
  rcases Nat.eq_zero_or_pos units with rfl | hpos
  · exact Nat.zero_le _
  · rw [← Nat.pow_add] at h
    have hlog := (Nat.log2_lt (Nat.ne_of_gt hpos)).mpr h
    omega

theorem two_pow_lt_unitsPerOne : 2 ^ 53 < unitsPerOne := by
  decide +kernel

theorem gap_of_lt {units : Nat} (h : units < 2 ^ 52) : gap units = 1 := by
  have hlog : units.log2 - 52 = 0 := by
    rcases Nat.eq_zero_or_pos units with rfl | hpos
    · rfl
    · have := (Nat.log2_lt (Nat.ne_of_gt hpos)).mpr h
      omega
  rw [gap_eq, hlog, Nat.pow_zero]

theorem gap_dvd_unitsPerOne {units : Nat} (h : units < 2 ^ 53 * unitsPerOne) :
    gap units ∣ unitsPerOne := by
  rw [unitsPerOne_eq] at h ⊢
  exact gap_dvd_pow (log2_le_of_lt_mul h)

/-- The gap of a quotient, times the divisor, is less than two gaps of the dividend. -/
theorem mul_gap_lt {num den : Nat} (h : 2 ^ 52 ≤ num / den) :
    den * gap (num / den) < 2 * gap num := by
  have hnum : 2 ^ 52 ≤ num := Nat.le_trans h (Nat.div_le_self num den)
  have hne : num / den ≠ 0 := by omega
  have hlog : 52 ≤ (num / den).log2 := (Nat.le_log2 hne).mpr h
  have hlog' : 52 ≤ num.log2 := (Nat.le_log2 (by omega)).mpr hnum
  have hquot : 2 ^ 52 * gap (num / den) ≤ num / den := by
    rw [gap_eq, ← Nat.pow_add, Nat.add_sub_of_le hlog]
    exact Nat.log2_self_le hne
  have hself : num < 2 ^ 53 * gap num := by
    rw [gap_eq, ← Nat.pow_add, show 53 + (num.log2 - 52) = num.log2 + 1 by omega]
    exact Nat.lt_log2_self
  have hprod : 2 ^ 52 * (den * gap (num / den)) < 2 ^ 52 * (2 * gap num) := by
    calc 2 ^ 52 * (den * gap (num / den)) = den * (2 ^ 52 * gap (num / den)) :=
          Nat.mul_left_comm _ _ _
      _ ≤ den * (num / den) := Nat.mul_le_mul_left den hquot
      _ ≤ num := Nat.mul_div_le num den
      _ < 2 ^ 53 * gap num := hself
      _ = 2 ^ 52 * (2 * gap num) := Nat.mul_assoc (2 ^ 52) 2 (gap num)
  exact Nat.lt_of_mul_lt_mul_left hprod

section

variable {num den k : Nat}

theorem div_lt_of_lt (h : num < 2 ^ 53 * unitsPerOne) (den : Nat) :
    num / den < 2 ^ 53 * unitsPerOne :=
  Nat.lt_of_le_of_lt (Nat.div_le_self num den) h

theorem exists_gaps (h : num < 2 ^ 53 * unitsPerOne) (den k : Nat) :
    ∃ j, k * unitsPerOne = j * gap (num / den) := by
  obtain ⟨c, hc⟩ := gap_dvd_unitsPerOne (div_lt_of_lt h den)
  exact ⟨k * c, by rw [hc, Nat.mul_assoc, Nat.mul_comm c]⟩

theorem le_nearestUnits_of_dvd (hd : 0 < den) (hdvd : gap (num / den) ∣ k) (h : k * den ≤ num) :
    k ≤ nearestUnits num den := by
  obtain ⟨j, hj⟩ := hdvd
  rw [hj, Nat.mul_comm (gap _), Nat.mul_assoc, Nat.mul_comm (gap _) den] at h
  rw [nearestUnits_eq, hj, Nat.mul_comm]
  exact Nat.mul_le_mul_right _ (le_nearestEven (Nat.mul_pos hd (gap_pos _)) h)

theorem nearestUnits_le_of_dvd (hd : 0 < den) (hdvd : gap (num / den) ∣ k) (h : num ≤ k * den) :
    nearestUnits num den ≤ k := by
  obtain ⟨j, hj⟩ := hdvd
  rw [hj, Nat.mul_comm (gap _), Nat.mul_assoc, Nat.mul_comm (gap _) den] at h
  rw [nearestUnits_eq, hj, Nat.mul_comm (gap _) j]
  exact Nat.mul_le_mul_right _ (nearestEven_le (Nat.mul_pos hd (gap_pos _)) h)

theorem le_nearestUnits (hd : 0 < den) (hlt : num < 2 ^ 53 * unitsPerOne)
    (h : k * unitsPerOne * den ≤ num) : k * unitsPerOne ≤ nearestUnits num den :=
  le_nearestUnits_of_dvd hd ((gap_dvd_unitsPerOne (div_lt_of_lt hlt den)).mul_left k) h

theorem nearestUnits_le_of_le (hd : 0 < den) (hlt : num < 2 ^ 53 * unitsPerOne)
    (h : num ≤ k * unitsPerOne * den) : nearestUnits num den ≤ k * unitsPerOne :=
  nearestUnits_le_of_dvd hd ((gap_dvd_unitsPerOne (div_lt_of_lt hlt den)).mul_left k) h

theorem gap_dvd_whole (hlt : num < 2 ^ 53 * unitsPerOne) (den k : Nat) :
    gap num ∣ k * unitsPerOne * den :=
  ((gap_dvd_unitsPerOne hlt).mul_left k).mul_right den

theorem add_gap_le {a b g : Nat} (ha : g ∣ a) (hb : g ∣ b) (h : a < b) : a + g ≤ b := by
  obtain ⟨i, rfl⟩ := ha
  obtain ⟨j, rfl⟩ := hb
  have hij : i < j := Nat.lt_of_mul_lt_mul_left h
  rw [← Nat.mul_succ]
  exact Nat.mul_le_mul_left g hij

theorem nearestUnits_lt (hgrid : IsGrid num) (hlt : num < 2 ^ 53 * unitsPerOne)
    (h : num < k * unitsPerOne * den) : nearestUnits num den < k * unitsPerOne := by
  rcases Nat.lt_or_ge (num / den) (2 ^ 52) with hsmall | hlarge
  · have hk : 0 < k := by
      rcases Nat.eq_zero_or_pos k with rfl | hk
      · rw [Nat.zero_mul, Nat.zero_mul] at h
        exact absurd h (Nat.not_lt_zero num)
      · exact hk
    have hbound := (nearestEven_bounds num den).2
    have hwhole : unitsPerOne ≤ k * unitsPerOne := Nat.le_mul_of_pos_left _ hk
    have hone := two_pow_lt_unitsPerOne
    rw [nearestUnits_eq, gap_of_lt hsmall, Nat.mul_one, Nat.mul_one]
    omega
  · obtain ⟨j, hj⟩ := exists_gaps hlt den k
    have hnear := add_gap_le hgrid (gap_dvd_whole hlt den k) h
    have hgap := mul_gap_lt hlarge
    rw [hj, Nat.mul_assoc, Nat.mul_comm (gap _) den] at hnear
    rw [hj, nearestUnits_eq]
    exact Nat.mul_lt_mul_of_pos_right (nearestEven_lt (by omega)) (gap_pos _)

/-- What lies above a whole number is not rounded down to it, unless it is less than one
unit. -/
theorem lt_nearestUnits (hgrid : IsGrid num) (hlt : num < 2 ^ 53 * unitsPerOne)
    (hd : 0 < den) (hunit : den ≤ num) (h : k * unitsPerOne * den < num) :
    k * unitsPerOne < nearestUnits num den := by
  rcases Nat.lt_or_ge (num / den) (2 ^ 52) with hsmall | hlarge
  · have hpos : 0 < num / den := Nat.div_pos hunit hd
    have hbound := (nearestEven_bounds num den).1
    have hwhole : k * unitsPerOne ≤ num / den := (Nat.le_div_iff_mul_le hd).mpr (Nat.le_of_lt h)
    have hone := two_pow_lt_unitsPerOne
    have hk : k = 0 := by
      rcases Nat.eq_zero_or_pos k with hk | hk
      · exact hk
      · have := Nat.le_mul_of_pos_left unitsPerOne hk
        omega
    rw [hk, Nat.zero_mul, nearestUnits_eq, gap_of_lt hsmall, Nat.mul_one, Nat.mul_one]
    omega
  · obtain ⟨j, hj⟩ := exists_gaps hlt den k
    have hnear := add_gap_le (gap_dvd_whole hlt den k) hgrid h
    have hgap := mul_gap_lt hlarge
    rw [hj, Nat.mul_assoc, Nat.mul_comm (gap _) den] at hnear
    rw [hj, nearestUnits_eq]
    have hstep : 0 < den * gap (num / den) := Nat.mul_pos hd (gap_pos _)
    exact Nat.mul_lt_mul_of_pos_right (lt_nearestEven hstep (by omega)) (gap_pos _)

end

/-! ## The floor -/

theorem fdiv_eq_iff {a n : Int} {d : Nat} (hd : 0 < d) :
    Int.fdiv a d = n ↔ n * d ≤ a ∧ a < (n + 1) * d := by
  have hd : (0 : Int) < d := Int.natCast_pos.mpr hd
  rw [Int.fdiv_eq_ediv_of_nonneg a (Int.le_of_lt hd), Int.ediv_eq_iff_of_pos hd, Int.add_mul,
    Int.one_mul]

theorem whole_mul (k den : Nat) : k * (den * unitsPerOne) = k * unitsPerOne * den := by
  rw [Nat.mul_comm den, Nat.mul_assoc]

section

variable {num den : Nat}

theorem fdiv_nearestUnits (hd : 0 < den) (hgrid : IsGrid num) (hlt : num < 2 ^ 53 * unitsPerOne) :
    Int.fdiv (nearestUnits num den) unitsPerOne = Int.fdiv num (den * unitsPerOne : Nat) := by
  have hfdiv : ∀ a b : Nat, Int.fdiv a b = (a / b : Nat) := fun a b =>
    (Int.fdiv_eq_ediv_of_nonneg _ (Int.natCast_nonneg b)).trans (Int.natCast_ediv a b).symm
  have hwhole : 0 < den * unitsPerOne := Nat.mul_pos hd unitsPerOne_pos
  rw [hfdiv, hfdiv, Int.natCast_inj]
  refine Nat.div_eq_of_lt_le ?_ ?_
  · refine le_nearestUnits hd hlt ?_
    rw [← whole_mul]
    exact Nat.div_mul_le_self num _
  · refine nearestUnits_lt hgrid hlt ?_
    rw [← whole_mul]
    exact Nat.lt_mul_of_div_lt (Nat.lt_succ_self _) hwhole

/-- Rounding the quotient of a negative number keeps the whole number that it lies above,
unless it rounds to zero. -/
theorem fdiv_neg_nearestUnits (hd : 0 < den) (hgrid : IsGrid num)
    (hlt : num < 2 ^ 53 * unitsPerOne) (hunit : num = 0 ∨ den ≤ num) :
    Int.fdiv (-nearestUnits num den) unitsPerOne =
      Int.fdiv (-num) (den * unitsPerOne : Nat) := by
  have hwhole : 0 < den * unitsPerOne := Nat.mul_pos hd unitsPerOne_pos
  generalize hn : Int.fdiv (-num) (den * unitsPerOne : Nat) = n
  obtain ⟨hlow, hhigh⟩ := (fdiv_eq_iff hwhole).mp hn
  have hneg : n ≤ 0 := by
    by_contra hpos
    have hprod := Int.mul_pos (Int.not_le.mp hpos) (Int.natCast_pos.mpr hwhole)
    omega
  obtain ⟨k, rfl⟩ := Int.exists_eq_neg_ofNat hneg
  have hupper : num ≤ k * (den * unitsPerOne) := by
    rw [Int.neg_mul] at hlow
    exact_mod_cast Int.neg_le_neg_iff.mp hlow
  rw [whole_mul] at hupper
  have hround := nearestUnits_le_of_le hd hlt hupper
  refine (fdiv_eq_iff unitsPerOne_pos).mpr ⟨?_, ?_⟩
  · rw [Int.neg_mul, Int.neg_le_neg_iff]
    exact_mod_cast hround
  · cases k with
    | zero =>
      rw [Nat.zero_mul] at hround
      have hone := unitsPerOne_pos
      omega
    | succ j =>
      have hlower : j * (den * unitsPerOne) < num := by
        rw [show -((j + 1 : Nat) : Int) + 1 = -(j : Int) by omega, Int.neg_mul] at hhigh
        exact_mod_cast Int.neg_lt_neg_iff.mp hhigh
      have hunit : den ≤ num := hunit.resolve_left (by omega)
      rw [whole_mul] at hlower
      have hround := lt_nearestUnits hgrid hlt hd hunit hlower
      rw [show -((j + 1 : Nat) : Int) + 1 = -(j : Int) by omega, Int.neg_mul, Int.neg_lt_neg_iff]
      exact_mod_cast hround

end

theorem div_ofInt (negative : Bool) (units : Nat) {den : Nat} (hd : 0 < den) (hden : den < 2 ^ 53) :
    div (.finite negative units) (ofInt den) = ofFraction negative units den := by
  have hnonzero : den * unitsPerOne ≠ 0 := Nat.ne_of_gt (Nat.mul_pos hd unitsPerOne_pos)
  rw [ofInt_exact hden]
  unfold div
  simp only [if_neg hnonzero, Bool.bne_false]
  rw [Nat.mul_comm units, Nat.mul_comm den]
  exact ofFraction_scale negative units den unitsPerOne_pos

/-- Below `2 ^ 53`, the floor of a quotient by a whole number is that of the exact
quotient. -/
theorem floor?_div {negative : Bool} {units den : Nat} (hd : 0 < den) (hden : den < 2 ^ 53)
    (hgrid : IsGrid units) (hlt : units < 2 ^ 53 * unitsPerOne)
    (hunit : negative = true → units = 0 ∨ den ≤ units) :
    (div (.finite negative units) (ofInt den)).floor? =
      some (Int.fdiv (signedUnits negative units) (den * unitsPerOne : Nat)) := by
  have hsmall : nearestUnits units den < unitsLimit := by
    have hle : nearestUnits units den ≤ 2 ^ 53 * unitsPerOne := by
      refine nearestUnits_le_of_le hd hlt (Nat.le_of_lt (Nat.lt_of_lt_of_le hlt ?_))
      exact Nat.le_mul_of_pos_right _ hd
    have hlimit : 2 ^ 53 * unitsPerOne < unitsLimit := by decide +kernel
    exact Nat.lt_of_le_of_lt hle hlimit
  have hrounded : ofFraction negative units den = .finite negative (nearestUnits units den) := by
    unfold ofFraction
    simp only [if_pos hsmall]
  rw [div_ofInt negative units hd hden, hrounded]
  refine congrArg some ?_
  cases negative with
  | false => exact fdiv_nearestUnits hd hgrid hlt
  | true => exact fdiv_neg_nearestUnits hd hgrid hlt (hunit rfl)

end Binary64

end SeededPlay

/-
# `SeededPlay.Proofs.Number.Shortest` — the digits of a double read back to it

The digits that a double is written with are found by a search: decimals of more and
more digits are read back until one of them gives the double.  Whatever the search
returns reads back (`toBinary64_shortest`): a decimal that it stops at does by the
test it stops at, and the exact value, which stands in should no decimal of
seventeen digits do, does because a double is its own rounding.

Reading looks at the value alone, not at how it is split into digits and exponent
(`toBinary64_shift`), so trailing zeros may be moved into the exponent.

The value of a decimal as a fraction does not change when a zero at the end of its digits is
moved into the exponent: above the point the fraction is the same, below it a factor of ten
cancels (`fraction_shift`).  The exact value of a double has between 717 and 1416 digits, so
that neither bound on the size of a decimal cuts it off (`digitCount_exact`).
-/
import SeededPlay.Proofs.Number.Exact
import SeededPlay.Number.Decimal

namespace SeededPlay

namespace Decimal

open Binary64

/-! ## Moving a zero between the digits and the exponent -/

theorem digitCount_mul_ten {n : Nat} (hn : 0 < n) : digitCount (10 * n) = digitCount n + 1 := by
  have h := Nat.toDigits_append_toDigits (b := 10) (d := 0) (by decide) hn (by decide)
  have hlen := congrArg List.length h
  rw [List.length_append, Nat.toDigits_zero] at hlen
  exact hlen.symm

theorem toBinary64_zero (negative : Bool) (e : Int) :
    toBinary64 negative ⟨0, e⟩ = .finite negative 0 := by
  unfold toBinary64
  simp only [if_true]

theorem toBinary64_of_ne (negative : Bool) {d : Decimal} (h : d.digits ≠ 0) :
    toBinary64 negative d =
      if 400 < d.exponent + digitCount d.digits then .infinite negative
      else if d.exponent + digitCount d.digits < -400 then .finite negative 0
      else ofFraction negative (d.fraction.1 * unitsPerOne) d.fraction.2 := by
  unfold toBinary64
  simp only [if_neg h]

/-- The value of a decimal as a fraction, a zero at the end of its digits moved into the
exponent: above the point the fraction is the same, below it a factor of ten cancels. -/
theorem fraction_shift (n : Nat) (e : Int) :
    (fraction ⟨10 * n, e⟩ = fraction ⟨n, e + 1⟩) ∨
      (fraction ⟨10 * n, e⟩).1 = 10 * (fraction ⟨n, e + 1⟩).1 ∧
        (fraction ⟨10 * n, e⟩).2 = 10 * (fraction ⟨n, e + 1⟩).2 := by
  unfold fraction
  simp only [Nat.pow_eq]
  rcases Int.lt_or_le e 0 with hneg | hpos
  · have h₁ : e.toNat = 0 := by omega
    have h₂ : (e + 1).toNat = 0 := by omega
    have h₃ : (-e).toNat = (-(e + 1)).toNat + 1 := by omega
    rw [h₁, h₂, h₃]
    exact Or.inr ⟨Nat.mul_assoc 10 n _, by rw [Nat.pow_succ, Nat.mul_comm]⟩
  · have h₁ : (e + 1).toNat = e.toNat + 1 := by omega
    have h₂ : (-e).toNat = 0 := by omega
    have h₃ : (-(e + 1)).toNat = 0 := by omega
    rw [h₁, h₂, h₃, Nat.pow_succ]
    refine Or.inl ?_
    rw [Nat.mul_comm 10 n, Nat.mul_assoc n 10, Nat.mul_comm 10 (10 ^ e.toNat)]

theorem toBinary64_shift (negative : Bool) (n : Nat) (e : Int) :
    toBinary64 negative ⟨10 * n, e⟩ = toBinary64 negative ⟨n, e + 1⟩ := by
  rcases Nat.eq_zero_or_pos n with rfl | hpos
  · rw [Nat.mul_zero, toBinary64_zero, toBinary64_zero]
  have hn : n ≠ 0 := Nat.ne_of_gt hpos
  have hten : 10 * n ≠ 0 := Nat.mul_ne_zero (by decide) hn
  have hsize : e + (digitCount (10 * n) : Int) = e + 1 + (digitCount n : Int) := by
    rw [digitCount_mul_ten hpos]
    omega
  have hfrac : ofFraction negative ((fraction ⟨10 * n, e⟩).1 * unitsPerOne)
        (fraction ⟨10 * n, e⟩).2 =
      ofFraction negative ((fraction ⟨n, e + 1⟩).1 * unitsPerOne) (fraction ⟨n, e + 1⟩).2 := by
    rcases fraction_shift n e with h | ⟨h₁, h₂⟩
    · rw [h]
    · rw [h₁, h₂, Nat.mul_assoc 10, ofFraction_scale _ _ _ (by decide)]
  rw [toBinary64_of_ne negative (d := ⟨10 * n, e⟩) hten,
    toBinary64_of_ne negative (d := ⟨n, e + 1⟩) hn]
  simp only [hsize, hfrac]

theorem toBinary64_shift_pow (negative : Bool) (n : Nat) (e : Int) (k : Nat) :
    toBinary64 negative ⟨10 ^ k * n, e⟩ = toBinary64 negative ⟨n, e + k⟩ := by
  induction k generalizing e with
  | zero => simp
  | succ k ih =>
    have hpow : 10 ^ (k + 1) * n = 10 * (10 ^ k * n) := by
      rw [Nat.pow_succ, Nat.mul_comm (10 ^ k) 10, Nat.mul_assoc]
    have hexp : e + 1 + (k : Int) = e + (k + 1 : Nat) := by omega
    rw [hpow, toBinary64_shift, ih, hexp]

theorem toBinary64_strip (negative : Bool) (fuel : Nat) (d : Decimal) :
    (strip fuel d).toBinary64 negative = d.toBinary64 negative := by
  induction fuel generalizing d with
  | zero => rfl
  | succ fuel ih =>
    unfold strip
    split
    · rename_i h
      have hten : 10 * (d.digits / 10) = d.digits := by omega
      rw [ih, ← toBinary64_shift, hten]
    · rfl

end Decimal

namespace Binary64

open Decimal

/-! ## The search -/

theorem readsBack_iff (units : Nat) (d : Decimal) :
    readsBack units d = true ↔ d.toBinary64 false = .finite false units := by
  unfold readsBack
  exact beq_iff_eq

theorem chooseNeighbour_readsBack {units : Nat} {low high d : Decimal}
    (h : chooseNeighbour units low high = some d) : readsBack units d = true := by
  unfold chooseNeighbour at h
  split at h
  · rename_i hl hh
    obtain rfl := Option.some.inj h
    split
    · exact hl
    · exact hh
  · rename_i hl _
    obtain rfl := Option.some.inj h
    exact hl
  · rename_i _ hh
    obtain rfl := Option.some.inj h
    exact hh
  · cases h

theorem searchShortest_cases (units : Nat) (k : Int) : ∀ fuel n : Nat,
    readsBack units (searchShortest units k fuel n) = true ∨
      searchShortest units k fuel n = ⟨units * Nat.pow 5 1074, -1074⟩
  | 0, _ => Or.inr rfl
  | fuel + 1, n => by
    have ih := searchShortest_cases units k fuel (n + 1)
    unfold searchShortest
    cases h : chooseNeighbour units (neighbours units k n).1 (neighbours units k n).2 with
    | some d =>
      simp only [h, Option.getD_some]
      exact Or.inl (chooseNeighbour_readsBack h)
    | none =>
      simp only [h, Option.getD_none]
      exact ih

/-! ## The exact value -/

theorem pow_ten_le_pow_five (k : Nat) : 10 ^ (2 * k) ≤ 5 ^ (3 * k) := by
  rw [Nat.pow_mul, Nat.pow_mul]
  exact Nat.pow_le_pow_left (by decide) k

theorem mul_pow_five_lt {units i k : Nat} (h : units < 2 ^ (3 * i + k)) :
    units * 5 ^ k < 10 ^ (i + k) := by
  calc units * 5 ^ k < 2 ^ (3 * i + k) * 5 ^ k :=
        Nat.mul_lt_mul_of_pos_right h (Nat.pow_pos (by decide))
    _ = (2 ^ 3) ^ i * (2 ^ k * 5 ^ k) := by rw [Nat.pow_add, Nat.pow_mul, Nat.mul_assoc]
    _ = (2 ^ 3) ^ i * 10 ^ k := by rw [← Nat.mul_pow]
    _ ≤ 10 ^ i * 10 ^ k := Nat.mul_le_mul_right _ (Nat.pow_le_pow_left (by decide) i)
    _ = 10 ^ (i + k) := (Nat.pow_add 10 i k).symm

/-- The exact value of a double has between 717 and 1416 digits, so that neither bound on
the size of a decimal cuts it off. -/
theorem digitCount_exact {units : Nat} (hpos : 0 < units) (hlt : units < unitsLimit) :
    716 < digitCount (units * 5 ^ 1074) ∧ digitCount (units * 5 ^ 1074) ≤ 1416 := by
  have hlow : 10 ^ 716 ≤ units * 5 ^ 1074 :=
    (pow_ten_le_pow_five 358).trans (Nat.le_mul_of_pos_left _ hpos)
  have hroom : units < 2 ^ (3 * 342 + 1074) := by
    rw [unitsLimit_eq] at hlt
    exact hlt.trans (Nat.pow_lt_pow_right (by decide) (by decide))
  have hhigh : units * 5 ^ 1074 < 10 ^ 1416 := mul_pow_five_lt hroom
  unfold digitCount
  refine ⟨?_, (Nat.length_toDigits_le_iff (by decide) (by decide)).mpr hhigh⟩
  refine Nat.lt_of_not_le fun hle => ?_
  have := (Nat.length_toDigits_le_iff (by decide) (by decide)).mp hle
  omega

theorem fraction_exact (units : Nat) :
    fraction ⟨units * Nat.pow 5 1074, -1074⟩ = (units * 5 ^ 1074, 10 ^ 1074) := by
  unfold fraction
  have h₁ : (-1074 : Int).toNat = 0 := by decide
  have h₂ : (- -1074 : Int).toNat = 1074 := by decide
  simp only [Nat.pow_eq, h₁, h₂, Nat.pow_zero, Nat.mul_one]

theorem toBinary64_exact {units : Nat} (hpos : 0 < units) (hg : IsGrid units)
    (hlt : units < unitsLimit) :
    toBinary64 false ⟨units * Nat.pow 5 1074, -1074⟩ = .finite false units := by
  have hne : units * Nat.pow 5 1074 ≠ 0 :=
    Nat.mul_ne_zero (Nat.ne_of_gt hpos) (Nat.ne_of_gt (Nat.pow_pos (by decide)))
  obtain ⟨hlow, hhigh⟩ := digitCount_exact hpos hlt
  rw [toBinary64_of_ne false (d := ⟨units * Nat.pow 5 1074, -1074⟩) hne, fraction_exact]
  simp only [Nat.pow_eq]
  rw [if_neg (by omega), if_neg (by omega), unitsPerOne_eq, Nat.mul_assoc, ← Nat.mul_pow]
  rw [ofFraction_mul false units (Nat.pow_pos (by decide)), ofFraction_of_isGrid false hg hlt]

/-- What a double is written with reads back to it. -/
theorem toBinary64_shortest {units : Nat} (hg : IsGrid units) (hlt : units < unitsLimit) :
    (shortest units).toBinary64 false = .finite false units := by
  unfold shortest
  split
  · rename_i h
    rw [h, toBinary64_zero]
  · rename_i h
    rw [toBinary64_strip]
    rcases searchShortest_cases units (decimalScale units) 17 1 with hr | he
    · exact (readsBack_iff units _).mp hr
    · rw [he]
      exact toBinary64_exact (Nat.pos_of_ne_zero h) hg hlt

end Binary64

end SeededPlay

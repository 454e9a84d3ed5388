/-
# `SeededPlay.Number.Rounding` — rounding a quotient to a whole number

Everything that rounds in this library — binary doubles, numbers of fixed
places, digits of a decimal — rounds the same way: to the nearest whole number,
a tie to the even one.  It is stated once, for a quotient of naturals.
-/

namespace SeededPlay

/-- The whole number nearest to `num / den`; a tie goes to the even neighbour. -/
def nearestEven (num den : Nat) : Nat :=
  let q := num / den
  let twice := 2 * (num % den)
  if twice < den then q
  else if den < twice then q + 1
  else q + q % 2

theorem nearestEven_mul (q : Nat) {den : Nat} (h : 0 < den) :
    nearestEven (q * den) den = q := by
  unfold nearestEven
  simp only [Nat.mul_mod_left, Nat.mul_zero, Nat.mul_div_cancel q h]
  rw [if_pos h]

/-- The rounded quotient is one of the two whole numbers beside the quotient. -/
theorem nearestEven_bounds (num den : Nat) :
    num / den ≤ nearestEven num den ∧ nearestEven num den ≤ num / den + 1 := by
  unfold nearestEven
  have := Nat.mod_two_eq_zero_or_one (num / den)
  simp only
  split
  · omega
  · split <;> omega

theorem nearestEven_mono {a b den : Nat} (hab : a ≤ b) :
    nearestEven a den ≤ nearestEven b den := by
  have hq : a / den ≤ b / den := Nat.div_le_div_right hab
  rcases Nat.lt_or_ge (a / den) (b / den) with hlt | hge
  · have ha := (nearestEven_bounds a den).2
    have hb := (nearestEven_bounds b den).1
    omega
  · have heq : a / den = b / den := Nat.le_antisymm hq hge
    have hmod : a % den ≤ b % den := by
      have h1 := Nat.div_add_mod a den
      have h2 := Nat.div_add_mod b den
      rw [heq] at h1
      omega
    unfold nearestEven
    simp only [heq]
    have := Nat.mod_two_eq_zero_or_one (b / den)
    split
    · split
      · omega
      · split <;> omega
    · split
      · split
        · omega
        · split <;> omega
      · split
        · omega
        · split <;> omega

end SeededPlay

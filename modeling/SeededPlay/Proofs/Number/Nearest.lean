/-
# `SeededPlay.Proofs.Number.Nearest` — integers as doubles

An integer that is made a double becomes the nearest one, which is an integer again
(`nearestInt`).  The conversion keeps the order of the integers, and it keeps those that
are doubles where they are (`nearestInt_eq_self`), among them all up to `2 ^ 53`.  So an
integer never gets past one that is a double, in particular not past zero.

The integers that stay where they are are those that are doubles, and it is to these that
statements about scores and levels come down: in between, two integers may become one double.
-/
import SeededPlay.Proofs.Number.Half
import SeededPlay.Proofs.Number.Order

namespace SeededPlay

namespace Binary64

/-- The double nearest to an integer, which is an integer again. -/
def nearestInt (n : Int) : Int := signedUnits (n < 0) (nearestUnits n.natAbs 1)

theorem signedUnits_mul (negative : Bool) (u d : Nat) :
    signedUnits negative (u * d) = signedUnits negative u * d := by
  cases negative
  · exact Int.natCast_mul u d
  · exact (congrArg Neg.neg (Int.natCast_mul u d)).trans (Int.neg_mul _ _).symm

theorem ofInt?_nearestInt {n : Int} (h : n.natAbs < 2 ^ 1024 - 2 ^ 970) :
    ∃ x, ofInt? n = some x ∧ x.extent? = some (extentOfInt (nearestInt n)) := by
  obtain ⟨hx, -⟩ := ofInt?_eq h
  refine ⟨_, hx, ?_⟩
  unfold nearestInt extentOfInt
  rw [← signedUnits_mul]
  rfl

theorem natAbs_nearestInt (n : Int) : (nearestInt n).natAbs = nearestUnits n.natAbs 1 := by
  unfold nearestInt signedUnits
  split
  · exact (Int.natAbs_neg _).trans (Int.natAbs_natCast _)
  · exact Int.natAbs_natCast _

/-- The integers that stay where they are are those that are doubles. -/
theorem nearestInt_eq_self {n : Int} : nearestInt n = n ↔ IsGrid n.natAbs := by
  constructor
  · intro h
    have hgrid := isGrid_nearestUnits n.natAbs 1
    rwa [← natAbs_nearestInt, h] at hgrid
  · intro hgrid
    unfold nearestInt
    rw [nearestUnits_of_isGrid hgrid, signedUnits_natAbs_self]

theorem isGrid_of_le {n : Nat} (h : n ≤ 2 ^ 53) : IsGrid n := by
  rcases Nat.lt_or_eq_of_le h with hlt | rfl
  · exact isGrid_of_lt hlt
  · exact isGrid_pow 53

theorem nearestInt_of_le {n : Int} (h : n.natAbs ≤ 2 ^ 53) : nearestInt n = n :=
  nearestInt_eq_self.mpr (isGrid_of_le h)

theorem nearestInt_mono {m n : Int} (h : m ≤ n) : nearestInt m ≤ nearestInt n := by
  refine signedUnits_nearest_mono Nat.one_pos ?_
  rwa [signedUnits_natAbs_self, signedUnits_natAbs_self]

end Binary64

end SeededPlay

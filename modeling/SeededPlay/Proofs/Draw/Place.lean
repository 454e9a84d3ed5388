/-
# `SeededPlay.Proofs.Draw.Place` — a draw is an exact place

A draw is a fraction of one with 32 bits, and a list has far fewer than `2 ^ 21`
items.  Their product has at most 53 bits, so no rounding happens on the way from
the draw to the place: the place is `k · n / 2 ^ 32`, cut off at the point, and lies
inside the list.  So picking from a list that has an item always gives an item.

A draw has 32 bits (`fraction_eq`), a draw and a number up to `2 ^ 21` have 53 together
(`toNat_mul_lt`), and a product of 53 bits is exact (`mul_exact`).  A number between two
bounds lies above the lower one by the place of the draw, whichever of them comes first
(`between_eq`), and it is always drawn when the bounds are not far apart.
-/
import SeededPlay.Proofs.Number.Exact
import SeededPlay.Draw.Stream

namespace SeededPlay

namespace Binary64

theorem mul_exact {a b i : Nat} (hab : a * b < 2 ^ 53) (hi : i ≤ 2045) :
    mul (.finite false (a * 2 ^ i)) (.finite false (b * unitsPerOne)) =
      .finite false (a * b * 2 ^ i) := by
  have hprod : a * 2 ^ i * (b * unitsPerOne) = a * b * 2 ^ i * unitsPerOne := by
    rw [Nat.mul_mul_mul_comm, Nat.mul_assoc (a * b)]
  unfold mul
  simp only [bne_self_eq_false]
  rw [hprod]
  exact ofFraction_exact false hab hi unitsPerOne_pos

end Binary64

namespace Draw

open Binary64

theorem range_eq : range = 2 ^ 32 := Nat.pow_eq

theorem fraction_eq (k : UInt32) : fraction k = .finite false (k.toNat * 2 ^ 1042) := by
  have hk := k.toNat_lt
  have hone : unitsPerOne = 2 ^ 1042 * 2 ^ 32 := by
    rw [unitsPerOne_eq, ← Nat.pow_add]
  unfold fraction ofRatio
  rw [range_eq, hone, ← Nat.mul_assoc]
  exact ofFraction_exact false (by omega) (by omega) (Nat.two_pow_pos 32)

theorem toNat_mul_lt (k : UInt32) {n : Nat} (hn : n ≤ 2 ^ 21) : k.toNat * n < 2 ^ 53 := by
  calc k.toNat * n ≤ k.toNat * 2 ^ 21 := Nat.mul_le_mul_left _ hn
    _ < 2 ^ 32 * 2 ^ 21 := Nat.mul_lt_mul_of_pos_right k.toNat_lt (Nat.two_pow_pos 21)
    _ = 2 ^ 53 := (Nat.pow_add 2 32 21).symm

theorem truncate_finite (units : Nat) :
    Datum.truncate (.finite false units) = .ok ((units / unitsPerOne : Nat) : Int) := rfl

/-- The place of a draw among at most `2 ^ 21` is not rounded. -/
theorem place_eq (k : UInt32) {n : Nat} (hn : n ≤ 2 ^ 21) :
    place k n = .ok ((k.toNat * n / 2 ^ 32 : Nat) : Int) := by
  have hkn := toNat_mul_lt k hn
  have hone : unitsPerOne = 2 ^ 32 * 2 ^ 1042 := by
    rw [unitsPerOne_eq, ← Nat.pow_add]
  unfold place
  rw [ofInt?_exact (by omega), Option.elim_some, fraction_eq, mul_exact hkn (by omega),
    truncate_finite, hone, Nat.mul_div_mul_right _ _ (Nat.two_pow_pos 1042)]

theorem place_lt (k : UInt32) {n : Nat} (hn : 0 < n) : k.toNat * n / 2 ^ 32 < n := by
  rw [Nat.div_lt_iff_lt_mul (Nat.two_pow_pos 32), Nat.mul_comm n]
  exact Nat.mul_lt_mul_of_pos_right k.toNat_lt hn

theorem exists_pick_eq (k : UInt32) {α : Type} {options : List α} (hne : options ≠ [])
    (hlen : options.length ≤ 2 ^ 21) :
    ∃ h : k.toNat * options.length / 2 ^ 32 < options.length,
      pick k options = .ok (some options[k.toNat * options.length / 2 ^ 32]) := by
  have hlt := place_lt k (List.length_pos_iff.mpr hne)
  have hempty : options.isEmpty = false := List.isEmpty_eq_false_iff.mpr hne
  refine ⟨hlt, ?_⟩
  unfold pick
  rw [hempty, place_eq k hlen]
  simp only [Bool.false_eq_true, if_false, bind, Except.bind, Int.toNat_natCast,
    List.getElem?_eq_getElem hlt]
  rfl

theorem exists_pick (k : UInt32) {α : Type} {options : List α} (hne : options ≠ [])
    (hlen : options.length ≤ 2 ^ 21) : ∃ a ∈ options, pick k options = .ok (some a) := by
  obtain ⟨hlt, hpick⟩ := exists_pick_eq k hne hlen
  exact ⟨_, List.getElem_mem hlt, hpick⟩

/-- A number between two bounds lies above the lower one by the place of the draw, whichever of
them comes first. -/
theorem between_eq (k : UInt32) {low high : Int} {n : Nat} (hn : n = (high - low).natAbs + 1)
    (hle : n ≤ 2 ^ 21) :
    between k low high = .ok (min low high + (k.toNat * n / 2 ^ 32 : Nat)) := by
  unfold between
  by_cases hlt : high < low
  · have hwidth : (low - high + 1).toNat = n := by omega
    rw [min_eq_right hlt.le]
    simp only [if_pos hlt, hwidth, place_eq k hle]
    rfl
  · have hwidth : (high - low + 1).toNat = n := by omega
    rw [min_eq_left (Int.not_lt.mp hlt)]
    simp only [if_neg hlt, hwidth, place_eq k hle]
    rfl

theorem exists_between (k : UInt32) (low high : Int) (hle : low ≤ high)
    (hfar : high - low < 2 ^ 21) : ∃ n, between k low high = .ok n :=
  ⟨_, between_eq k rfl (by omega)⟩

end Draw

end SeededPlay

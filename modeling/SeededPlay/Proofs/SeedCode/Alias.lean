/-
# `SeededPlay.Proofs.SeedCode.Alias` — which integers share a segment

Seeds are reduced into the seed space, so integers share a segment when what they stand for
leaves the same rest.  An integer need not stand for its own magnitude, though.  It is made
a double first, which keeps 53 bits, and then a half is added, which makes an odd number of
53 bits even (`standIn`).  So up to `2 ^ 52` seeds alias by their magnitudes, and from there
on only those do that are doubles and even (`standIn_eq_natAbs`).

Integers that are not beyond every double have the seed that what they stand for leaves, and
its four digits are their segment; four digits are enough to tell all seeds apart.
-/
import SeededPlay.Proofs.SeedCode.Segment

namespace SeededPlay

namespace SeedCode

/-- The whole number that an integer stands for as a seed. -/
def standIn (n : Int) : Nat := Binary64.cutOff (n < 0) (Binary64.nearestUnits n.natAbs 1)

theorem normalizeSeed_int {n : Int} (hn : n.natAbs < 2 ^ 1024 - 2 ^ 970) :
    normalizeSeed (.int n) = .ok (standIn n % seedSpace) := by
  obtain ⟨hreal, hlt⟩ := Binary64.ofInt?_eq hn
  have hneg : decide (n < 0) = true → 0 < Binary64.nearestUnits n.natAbs 1 := by
    intro h
    have hne : n ≠ 0 := Int.ne_of_lt (of_decide_eq_true h)
    exact Binary64.nearestUnits_pos (Int.natAbs_pos.mpr hne)
  have hseed := seedOfReal_finite (Binary64.isGrid_nearestUnits n.natAbs 1) hlt hneg
  rw [normalizeSeed_of_toReal (Datum.toReal_int hreal), hseed, standIn]

theorem standIn_eq_natAbs {n : Int} : standIn n = n.natAbs ↔
    Binary64.IsGrid n.natAbs ∧ (n.natAbs < 2 ^ 52 ∨ n.natAbs % 2 = 0) := by
  unfold standIn
  generalize decide (n < 0) = negative
  generalize n.natAbs = a
  constructor
  · intro h
    rcases Nat.lt_or_ge a (2 ^ 53) with hsmall | hlarge
    · have hgrid := Binary64.isGrid_of_lt hsmall
      rw [Binary64.nearestUnits_of_isGrid hgrid] at h
      refine ⟨hgrid, ?_⟩
      unfold Binary64.cutOff at h
      split at h
      · rename_i hlt
        exact .inl hlt
      · split at h <;> omega
    · have heven := Binary64.two_dvd_nearestUnits hlarge
      rw [Binary64.cutOff_of_even _ (Nat.mod_eq_zero_of_dvd heven)] at h
      have hgrid := Binary64.isGrid_nearestUnits a 1
      rw [h] at heven hgrid
      exact ⟨hgrid, .inr (Nat.mod_eq_zero_of_dvd heven)⟩
  · rintro ⟨hgrid, hlt | heven⟩
    · rw [Binary64.nearestUnits_of_isGrid hgrid]
      exact if_pos hlt
    · rw [Binary64.nearestUnits_of_isGrid hgrid, Binary64.cutOff_of_even _ heven]

/-! ## Segments -/

theorem symbols_width (seed : Nat) : symbols width seed =
    [symbol (seed / base ^ 3 % base), symbol (seed / base ^ 2 % base),
      symbol (seed / base % base), symbol (seed % base)] := by
  have hthree : seed / base ^ 3 = seed / base / base / base := by
    rw [Nat.pow_succ, Nat.pow_two, Nat.div_div_eq_div_mul, Nat.div_div_eq_div_mul, Nat.mul_assoc]
  have htwo : seed / base ^ 2 = seed / base / base := by
    rw [Nat.pow_two, Nat.div_div_eq_div_mul]
  rw [hthree, htwo]
  rfl

theorem writeSegment_inj {a b : Nat} (ha : a < seedSpace) (hb : b < seedSpace) :
    writeSegment a = writeSegment b ↔ a = b := by
  constructor
  · intro h
    rw [← readSegment_writeSegment ha, h, readSegment_writeSegment hb]
  · rintro rfl
    rfl

/-- The segment of a raw seed. -/
def segmentOf (seed : Datum) : Except Fault String := (normalizeSeed seed).map writeSegment

theorem segmentOf_int {n : Int} (hn : n.natAbs < 2 ^ 1024 - 2 ^ 970) :
    segmentOf (.int n) = .ok (writeSegment (standIn n % seedSpace)) := by
  unfold segmentOf
  rw [normalizeSeed_int hn]
  rfl

/-- Integers that are not beyond every double have the seed that what they stand for leaves,
and its four digits are their segment.  So they share a segment exactly if what they stand
for is the same modulo the number of seeds. -/
theorem segments_alias {n m : Int} (hn : n.natAbs < 2 ^ 1024 - 2 ^ 970)
    (hm : m.natAbs < 2 ^ 1024 - 2 ^ 970) :
    let seed := standIn n % seedSpace
    normalizeSeed (.int n) = .ok seed ∧
      segmentOf (.int n) = .ok (String.ofList
        [symbol (seed / base ^ 3 % base), symbol (seed / base ^ 2 % base),
          symbol (seed / base % base), symbol (seed % base)]) ∧
      (segmentOf (.int n) = segmentOf (.int m) ↔ standIn n ≡ standIn m [MOD base ^ width]) ∧
      (standIn n = n.natAbs ↔
        Binary64.IsGrid n.natAbs ∧ (n.natAbs < 2 ^ 52 ∨ n.natAbs % 2 = 0)) := by
  intro seed
  refine ⟨normalizeSeed_int hn, ?_, ?_, standIn_eq_natAbs⟩
  · rw [← symbols_width]
    exact segmentOf_int hn
  · rw [segmentOf_int hn, segmentOf_int hm, Except.ok.injEq,
      writeSegment_inj (Nat.mod_lt _ seedSpace_pos) (Nat.mod_lt _ seedSpace_pos), seedSpace_eq]
    rfl

theorem segments_alias_neighbours :
    let n : Int := 2 ^ 52 + 1
    let m : Int := 2 ^ 52 + 2
    n.natAbs < 2 ^ 1024 - 2 ^ 970 ∧ m.natAbs < 2 ^ 1024 - 2 ^ 970 ∧
      segmentOf (.int n) = segmentOf (.int m) := by
  intro n m
  have hn : n.natAbs < 2 ^ 1024 - 2 ^ 970 := by decide +kernel
  have hm : m.natAbs < 2 ^ 1024 - 2 ^ 970 := by decide +kernel
  have hsame : standIn n ≡ standIn m [MOD base ^ width] := by decide +kernel
  exact ⟨hn, hm, (segments_alias hn hm).2.2.1.mpr hsame⟩

/-- Magnitudes are not all that counts: an odd integer of 53 bits stands for the next one. -/
theorem not_alias_odd : ¬∀ n : Int, n.natAbs < 2 ^ 1000 →
    normalizeSeed (.int n) = .ok (n.natAbs % base ^ width) := by
  intro h
  have hodd := h (2 ^ 52 + 1) (by decide +kernel)
  rw [normalizeSeed_int (by decide +kernel), Except.ok.injEq] at hodd
  have hne : standIn (2 ^ 52 + 1) % seedSpace ≠ (2 ^ 52 + 1 : Int).natAbs % base ^ width := by
    decide +kernel
  exact hne hodd

end SeedCode

end SeededPlay

/-
# `SeededPlay.Proofs.Number.Order` — rounding keeps the order

A greater quotient never rounds to less (`nearestUnits_mono`): within one gap that is so
for the rounded number of gaps, and where the gap changes there is a power of two between
the two results.  So numbers keep their order when they become doubles
(`Number.RoundsTo.le`), as long as the doubles among them are doubles already, which need
not be rounded (`Binary64.IsDouble`).

## What becomes of a number

A number lies somewhere on the line, below it or above it, or nowhere (`Number.extent?`), and
the order of numbers is the order of these places (`Number.le_eq_true`).  When a number
becomes a double its point is rounded, and all else stays where it is
(`Number.toReal?_cases`), so monotony of rounding on magnitudes is carried to signed numbers
first (`signedUnits_map_mono`) and to all numbers then.  Between numbers that are not lost,
none is (`Number.not_isLost_between`).
-/
import SeededPlay.Proofs.Number.Range

namespace SeededPlay

namespace Binary64

/-! ## Rounding -/

/-- A greater quotient does not round to less. -/
theorem nearestUnits_mono {a b den : Nat} (hd : 0 < den) (h : a ≤ b) :
    nearestUnits a den ≤ nearestUnits b den := by
  have hlog : (a / den).log2 ≤ (b / den).log2 := by
    rw [Nat.log2_eq_log_two, Nat.log2_eq_log_two]
    exact Nat.log_mono_right (Nat.div_le_div_right h)
  by_cases hsame : gap (a / den) = gap (b / den)
  · rw [nearestUnits_eq, nearestUnits_eq, hsame]
    exact Nat.mul_le_mul_right _ (nearestEven_mono h)
  · -- The gap is wider, so the greater quotient has reached a power of two.
    have hlarge : 53 ≤ (b / den).log2 ∧ (a / den).log2 < (b / den).log2 := by
      by_contra hnot
      refine hsame ?_
      rw [gap_eq, gap_eq]
      congr 1
      omega
    have hne : b / den ≠ 0 := by
      intro hzero
      rw [hzero] at hlarge
      exact absurd hlarge.1 (by decide)
    have hself := Nat.log2_self_le hne
    generalize hl : (b / den).log2 = l at hlarge hself
    have hbelow : a ≤ 2 ^ l * den := by
      rcases Nat.eq_zero_or_pos (a / den) with hzero | hpos
      · have hlt := (Nat.div_eq_zero_iff_lt hd).mp hzero
        exact hlt.le.trans (Nat.le_mul_of_pos_left _ (Nat.two_pow_pos l))
      · have hlt := (Nat.log2_lt (Nat.ne_of_gt hpos)).mp hlarge.2
        exact ((Nat.div_lt_iff_lt_mul hd).mp hlt).le
    calc nearestUnits a den ≤ 2 ^ l :=
          nearestUnits_le_of_dvd hd (gap_dvd_pow (by omega)) hbelow
      _ ≤ nearestUnits b den :=
          le_nearestUnits_of_dvd hd (gap_dvd_pow (by omega)) ((Nat.le_div_iff_mul_le hd).mp hself)

theorem signedUnits_natAbs (n : Int) (d : Nat) :
    signedUnits (n < 0) (n.natAbs * d) = n * d := by
  unfold signedUnits
  split
  · rename_i hneg
    have hneg := of_decide_eq_true hneg
    rw [Int.natCast_mul, ← Int.neg_mul]
    congr 1
    omega
  · rename_i hneg
    rw [decide_eq_true_eq] at hneg
    rw [Int.natCast_mul]
    congr 1
    omega

theorem signedUnits_natAbs_self (n : Int) : signedUnits (n < 0) n.natAbs = n := by
  have h := signedUnits_natAbs n 1
  rwa [Nat.mul_one, Nat.cast_one, Int.mul_one] at h

theorem signedUnits_map_mono {f : Nat → Nat} (hf : Monotone f) (hzero : f 0 = 0) {s t : Bool}
    {u v : Nat} (h : signedUnits s u ≤ signedUnits t v) :
    signedUnits s (f u) ≤ signedUnits t (f v) := by
  cases s <;> cases t
  · have h : (u : Int) ≤ v := h
    exact Int.ofNat_le.mpr (hf (Int.ofNat_le.mp h))
  · have h : (u : Int) ≤ -(v : Int) := h
    obtain ⟨rfl, rfl⟩ : u = 0 ∧ v = 0 := by omega
    show ((f 0 : Nat) : Int) ≤ -((f 0 : Nat) : Int)
    omega
  · show -((f u : Nat) : Int) ≤ (f v : Nat)
    omega
  · have h : -(u : Int) ≤ -(v : Int) := h
    exact Int.neg_le_neg (Int.ofNat_le.mpr (hf (by omega)))

theorem signedUnits_nearest_mono {s t : Bool} {u v den : Nat} (hd : 0 < den)
    (h : signedUnits s u ≤ signedUnits t v) :
    signedUnits s (nearestUnits u den) ≤ signedUnits t (nearestUnits v den) := by
  have hzero : nearestUnits 0 den ≤ 0 :=
    nearestUnits_le_of_dvd hd (Nat.dvd_zero _) (Nat.zero_le _)
  exact signedUnits_map_mono (f := fun a => nearestUnits a den)
    (fun _ _ hab => nearestUnits_mono hd hab) (Nat.le_zero.mp hzero) h

end Binary64

theorem Extent.le_total (a b : Extent) : a.le b = true ∨ b.le a = true := by
  cases a <;> cases b <;> simp only [Extent.le, decide_eq_true_eq, true_or, or_true, Int.le_total]

namespace Binary64

/-! ## Doubles as they are -/

/-- A double: a finite one is on the grid, and within the range of the type. -/
inductive IsDouble : Binary64 → Prop
  | finite (negative : Bool) {units : Nat} : IsGrid units → units < unitsLimit →
      IsDouble (.finite negative units)
  | infinite (negative : Bool) : IsDouble (.infinite negative)
  | nan : IsDouble .nan

theorem isDouble_zero : zero.IsDouble := .finite false isGrid_zero unitsLimit_pos

theorem isDouble_ofFraction (negative : Bool) (num den : Nat) :
    (ofFraction negative num den).IsDouble := by
  rcases ofFraction_cases negative num den with ⟨units, hgrid, hlt, heq⟩ | heq
  · rw [heq]
    exact .finite negative hgrid hlt
  · rw [heq]
    exact .infinite negative

theorem isDouble_ofInt? {n : Int} {x : Binary64} (h : ofInt? n = some x) : x.IsDouble := by
  have hdouble := isDouble_ofFraction (decide (n < 0)) (n.natAbs * unitsPerOne) 1
  unfold ofInt? ofInt at h
  generalize ofFraction (decide (n < 0)) (n.natAbs * unitsPerOne) 1 = y at h hdouble
  cases y with
  | finite s u => exact Option.some.inj h ▸ hdouble
  | _ => cases h

theorem IsDouble.valid {x : Binary64} (h : x.IsDouble) : x.Valid := by
  cases h with
  | finite negative hgrid hlt => exact .inl ⟨negative, _, rfl, hlt⟩
  | infinite negative => exact .inr rfl
  | nan => exact .inr rfl

end Binary64

namespace Number

open Binary64 (signedUnits nearestUnits)

/-- A number whose doubles are doubles. -/
def IsDouble : Number → Prop
  | .int _ => True
  | .real x => x.IsDouble

theorem IsDouble.valid {n : Number} (h : n.IsDouble) : n.Valid := by
  cases n with
  | int k => trivial
  | real x => exact Binary64.IsDouble.valid h

theorem le_eq_true {m n : Number} : m.le n = true ↔
    ∃ a b, m.extent? = some a ∧ n.extent? = some b ∧ a.le b = true := by
  unfold le
  cases m.extent? with
  | none => exact iff_of_false nofun (fun ⟨_, _, h, _⟩ => nomatch h)
  | some a =>
    cases n.extent? with
    | none => exact iff_of_false nofun (fun ⟨_, _, _, h, _⟩ => nomatch h)
    | some b =>
      refine ⟨fun h => ⟨a, b, rfl, rfl, h⟩, ?_⟩
      rintro ⟨a, b, ha, hb, h⟩
      obtain rfl := Option.some.inj ha
      obtain rfl := Option.some.inj hb
      exact h

theorem le_real_eq_true {x y : Binary64} : x.le y = true ↔
    ∃ a b, x.extent? = some a ∧ y.extent? = some b ∧ a.le b = true :=
  le_eq_true (m := .real x) (n := .real y)

theorem toReal?_cases {n : Number} (hn : n.IsDouble) {x : Binary64} (h : n.toReal? = some x) :
    (∃ s u, n.extent? = some (.point (signedUnits s u)) ∧
        x.extent? = some (.point (signedUnits s (nearestUnits u 1)))) ∨
      x.extent? = n.extent? ∧ ∀ k, x.extent? ≠ some (.point k) := by
  cases n with
  | int k =>
    refine .inl ⟨k < 0, k.natAbs * Binary64.unitsPerOne, ?_, ?_⟩
    · rw [Binary64.signedUnits_natAbs]
      rfl
    · have h : (Binary64.ofFraction (k < 0) (k.natAbs * Binary64.unitsPerOne) 1).finite? =
        some x := h
      unfold Binary64.ofFraction at h
      simp only at h
      split at h
      · obtain rfl := Option.some.inj h
        rfl
      · cases h
  | real y =>
    obtain rfl := Option.some.inj h
    cases (show y.IsDouble from hn) with
    | finite s hgrid =>
      refine .inl ⟨s, _, rfl, ?_⟩
      rw [Binary64.nearestUnits_of_isGrid hgrid]
      rfl
    | infinite s => cases s <;> exact .inr ⟨rfl, nofun⟩
    | nan => exact .inr ⟨rfl, nofun⟩

/-- The double lies where the number comes to lie when it becomes a double. -/
def RoundsTo (n : Number) (x : Binary64) : Prop :=
  ∃ y, n.toReal? = some y ∧ x.extent? = y.extent?

theorem roundsTo_real (x : Binary64) : (Number.real x).RoundsTo x := ⟨x, rfl, rfl⟩

/-- Numbers keep their order when they become doubles. -/
theorem RoundsTo.le {m n : Number} (hm : m.IsDouble) (hn : n.IsDouble) {x y : Binary64}
    (hx : m.RoundsTo x) (hy : n.RoundsTo y) (h : m.le n = true) : x.le y = true := by
  obtain ⟨x', hx', hxx⟩ := hx
  obtain ⟨y', hy', hyy⟩ := hy
  obtain ⟨a, b, ha, hb, hle⟩ := le_eq_true.mp h
  rw [le_real_eq_true, hxx, hyy]
  rcases toReal?_cases hm hx' with ⟨s, u, hmu, hxu⟩ | ⟨hxm, hfar⟩
  · obtain rfl := Option.some.inj (ha.symm.trans hmu)
    rcases toReal?_cases hn hy' with ⟨t, v, hnv, hyv⟩ | ⟨hyn, hfar⟩
    · obtain rfl := Option.some.inj (hb.symm.trans hnv)
      refine ⟨_, _, hxu, hyv, decide_eq_true ?_⟩
      exact Binary64.signedUnits_nearest_mono Nat.one_pos (of_decide_eq_true hle)
    · rw [hb] at hyn
      refine ⟨_, b, hxu, hyn, ?_⟩
      cases b with
      | below => cases hle
      | point k => exact absurd hyn (hfar k)
      | above => rfl
  · rw [ha] at hxm
    rcases toReal?_cases hn hy' with ⟨t, v, hnv, hyv⟩ | ⟨hyn, -⟩
    · refine ⟨a, _, hxm, hyv, ?_⟩
      obtain rfl := Option.some.inj (hb.symm.trans hnv)
      cases a with
      | below => rfl
      | point k => exact absurd hxm (hfar k)
      | above => cases hle
    · exact ⟨a, b, hxm, hyn.trans hb, hle⟩

theorem le_of_lt {m n : Number} (h : m.lt n = true) : m.le n = true := by
  unfold lt at h
  unfold le
  split at h
  · rename_i a b ha hb
    have hnot : ¬b.le a = true := Bool.eq_false_iff.mp ((Bool.not_eq_true' _).mp h)
    exact (a.le_total b).resolve_right hnot
  · cases h

theorem not_isLost_iff {n : Number} : ¬n.IsLost ↔ ∃ k, n.extent? = some (.point k) := by
  cases n with
  | int k => exact iff_of_true id ⟨_, rfl⟩
  | real x =>
    cases x with
    | finite s u => exact iff_of_true nofun ⟨_, rfl⟩
    | infinite s => cases s <;> exact iff_of_false (fun h => h rfl) nofun
    | nan => exact iff_of_false (fun h => h rfl) nofun

/-- Between numbers that are not lost, none is. -/
theorem not_isLost_between {l m n : Number} (hlm : l.le m = true) (hmn : m.le n = true)
    (hl : ¬l.IsLost) (hn : ¬n.IsLost) : ¬m.IsLost := by
  obtain ⟨i, hi⟩ := not_isLost_iff.mp hl
  obtain ⟨j, hj⟩ := not_isLost_iff.mp hn
  obtain ⟨a, b, ha, hb, hab⟩ := le_eq_true.mp hlm
  obtain ⟨b', c, hb', hc, hbc⟩ := le_eq_true.mp hmn
  obtain rfl := Option.some.inj (ha.symm.trans hi)
  obtain rfl := Option.some.inj (hc.symm.trans hj)
  obtain rfl := Option.some.inj (hb.symm.trans hb')
  rw [not_isLost_iff]
  cases b with
  | below => cases hab
  | point k => exact ⟨k, hb⟩
  | above => cases hbc

end Number

end SeededPlay

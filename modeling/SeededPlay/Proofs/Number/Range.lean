/-
# `SeededPlay.Proofs.Number.Range` — where the doubles end

The integers that round to a double are those below `2 ^ 1024 - 2 ^ 970`, half a gap below
the first power of two that is none (`ofInt?_eq_none_iff`).  An integer from there on is
beyond every double (`Number.Beyond`), and the only numbers without a sum are one such
integer and a double (`Number.add?_eq_none_iff`).

What is computed from doubles is a double, infinite or nan (`valid_add`), a quotient by an
integer that is not too small is finite (`exists_floor?_div`), and infinities and nan are
never left by adding (`floor?_add`).

The first power of two that is no double is an even number of gaps away from zero, so half a
gap below it is already rounded up to it, and only what lies further below stays below
(`nearestEven_lt_iff`, `nearestUnits_lt_limit_iff`).  Integers are added as integers, so a sum
that is a double comes from a sum of doubles (`Number.exists_add`).
-/
import SeededPlay.Proofs.Number.Quotient
import SeededPlay.Number.Basic

namespace SeededPlay

theorem nearestEven_lt_iff {num half k : Nat} (hhalf : 0 < half) (heven : k % 2 = 0) :
    nearestEven num (2 * half) < k ↔ num + half < k * (2 * half) := by
  constructor
  · intro h
    by_contra hle
    rcases Nat.lt_or_ge num (k * (2 * half)) with hlt | hge
    · -- The quotient is the odd number below `k`, and the rest is at least a half.
      have hk : 0 < k := Nat.pos_of_lt_mul_right hlt
      have hstep : (k - 1) * (2 * half) + 2 * half = k * (2 * half) := by
        rw [← Nat.succ_mul, Nat.succ_eq_add_one, Nat.sub_add_cancel hk]
      have hquot : num / (2 * half) = k - 1 :=
        Nat.div_eq_of_lt_le (by omega) (by rw [Nat.succ_mul]; omega)
      have hrest := Nat.div_add_mod num (2 * half)
      rw [hquot, Nat.mul_comm] at hrest
      unfold nearestEven at h
      simp only [hquot] at h
      split at h
      · omega
      · split at h
        · omega
        · omega
    · exact absurd h (Nat.not_lt.mpr (le_nearestEven (by omega) hge))
  · intro h
    exact nearestEven_lt (by omega)

namespace Binary64

theorem log2_mul_pow {a l : Nat} (hlow : 2 ^ l ≤ a) (hhigh : a < 2 ^ (l + 1)) (k : Nat) :
    (a * 2 ^ k).log2 = l + k := by
  have hpos : 0 < a := Nat.lt_of_lt_of_le (Nat.two_pow_pos l) hlow
  refine (Nat.log2_eq_iff (Nat.ne_of_gt (Nat.mul_pos hpos (Nat.two_pow_pos k)))).mpr ⟨?_, ?_⟩
  · rw [Nat.pow_add]
    exact Nat.mul_le_mul_right _ hlow
  · rw [Nat.add_right_comm, Nat.pow_add]
    exact Nat.mul_lt_mul_of_pos_right hhigh (Nat.two_pow_pos k)

/-- Integers round to a double up to half a gap below `2 ^ 1024`. -/
theorem nearestUnits_lt_limit_iff (a : Nat) :
    nearestUnits (a * unitsPerOne) 1 < unitsLimit ↔ a < 2 ^ 1024 - 2 ^ 970 := by
  have hhalf : 0 < 2 ^ 970 := by positivity
  have hlow : 2 ^ 1023 = 2 ^ 53 * 2 ^ 970 := by rw [← Nat.pow_add]
  have hhigh : 2 ^ 1024 = 2 ^ 53 * (2 * 2 ^ 970) := by
    rw [← Nat.pow_succ', ← Nat.pow_add]
  rcases Nat.lt_or_ge a (2 ^ 1023) with hsmall | hlarge
  · refine iff_of_true (nearestUnits_lt_limit hsmall) ?_
    rw [hlow] at hsmall
    rw [hhigh]
    omega
  rcases Nat.lt_or_ge a (2 ^ 1024) with hbelow | habove
  · have hgap : gap (a * unitsPerOne / 1) = 2 * 2 ^ 970 * unitsPerOne := by
      rw [Nat.div_one, gap_eq, unitsPerOne_eq, log2_mul_pow hlarge hbelow, ← Nat.pow_succ',
        ← Nat.pow_add]
    have hlimit : unitsLimit = 2 ^ 53 * (2 * 2 ^ 970 * unitsPerOne) := by
      rw [unitsLimit_eq, unitsPerOne_eq, ← Nat.pow_succ', ← Nat.pow_add, ← Nat.pow_add]
    have hround : nearestEven (a * unitsPerOne) (2 * 2 ^ 970 * unitsPerOne) =
        nearestEven a (2 * 2 ^ 970) := by
      rw [Nat.mul_comm a, Nat.mul_comm _ unitsPerOne]
      exact nearestEven_scale _ _ unitsPerOne_pos
    have hstep : 0 < 2 * 2 ^ 970 * unitsPerOne :=
      Nat.mul_pos (Nat.mul_pos Nat.two_pos hhalf) unitsPerOne_pos
    rw [nearestUnits_eq, hgap, Nat.one_mul, hround, hlimit, Nat.mul_lt_mul_right hstep,
      nearestEven_lt_iff hhalf (by decide), hhigh]
    omega
  · refine iff_of_false (Nat.not_lt.mpr ?_) (by omega)
    have hunits : 2 ^ 2098 ≤ a * unitsPerOne := by
      rw [unitsPerOne_eq, show 2098 = 1024 + 1074 from rfl, Nat.pow_add]
      exact Nat.mul_le_mul_right _ habove
    generalize a * unitsPerOne = units at hunits
    have hne : units ≠ 0 := Nat.ne_of_gt (Nat.lt_of_lt_of_le (Nat.two_pow_pos 2098) hunits)
    have hlog : 2098 ≤ units.log2 := (Nat.le_log2 hne).mpr hunits
    have hpow : 2 ^ 52 * gap units = 2 ^ units.log2 := by
      rw [gap_eq, ← Nat.pow_add, Nat.add_sub_of_le (by omega)]
    have hround : 2 ^ 52 ≤ nearestEven units (gap units) :=
      le_nearestEven (gap_pos units) (hpow ▸ Nat.log2_self_le hne)
    rw [nearestUnits_eq, Nat.div_one, Nat.one_mul, unitsLimit_eq]
    calc 2 ^ 2098 ≤ 2 ^ units.log2 := Nat.pow_le_pow_right Nat.two_pos hlog
      _ = 2 ^ 52 * gap units := hpow.symm
      _ ≤ nearestEven units (gap units) * gap units := Nat.mul_le_mul_right _ hround

theorem ofInt?_eq_none_iff {n : Int} : ofInt? n = none ↔ 2 ^ 1024 - 2 ^ 970 ≤ n.natAbs := by
  have hlimit := nearestUnits_lt_limit_iff n.natAbs
  unfold ofInt? ofInt ofFraction
  by_cases hlt : nearestUnits (n.natAbs * unitsPerOne) 1 < unitsLimit
  · simp only [if_pos hlt]
    exact iff_of_false nofun (Nat.not_le.mpr (hlimit.mp hlt))
  · simp only [if_neg hlt]
    exact iff_of_true rfl (Nat.not_lt.mp fun h => hlt (hlimit.mpr h))

/-! ## Finite doubles -/

theorem unitsLimit_pos : 0 < unitsLimit := by
  rw [unitsLimit_eq]
  positivity

/-- A finite double. -/
def IsFinite (x : Binary64) : Prop :=
  ∃ negative units, x = .finite negative units ∧ units < unitsLimit

/-- A finite double, an infinity or nan. -/
def Valid (x : Binary64) : Prop := x.IsFinite ∨ x.floor? = none

theorem IsFinite.floor?_ne_none {x : Binary64} (h : x.IsFinite) : x.floor? ≠ none := by
  obtain ⟨negative, units, rfl, -⟩ := h
  exact nofun

theorem isFinite_zero : zero.IsFinite := ⟨false, 0, rfl, unitsLimit_pos⟩

theorem valid_ofFraction (negative : Bool) (num den : Nat) :
    (ofFraction negative num den).Valid := by
  rcases ofFraction_cases negative num den with ⟨units, -, hlt, heq⟩ | heq
  · exact .inl ⟨negative, units, heq, hlt⟩
  · rw [heq]
    exact .inr rfl

theorem isFinite_of_ofInt? {n : Int} {x : Binary64} (h : ofInt? n = some x) : x.IsFinite := by
  unfold ofInt? at h
  rcases valid_ofFraction (n < 0) (n.natAbs * unitsPerOne) 1 with hfinite | hlost
  · obtain ⟨negative, units, heq, hlt⟩ := hfinite
    unfold ofInt at h
    rw [heq] at h
    exact ⟨negative, units, (Option.some.inj h).symm, hlt⟩
  · unfold ofInt at h
    cases hx : ofFraction (n < 0) (n.natAbs * unitsPerOne) 1 with
    | finite negative units =>
      rw [hx] at hlost
      cases hlost
    | _ =>
      rw [hx] at h
      cases h

theorem valid_add (x y : Binary64) : (x.add y).Valid := by
  cases x with
  | finite s u =>
    cases y with
    | finite t v =>
      simp only [add]
      split
      · exact .inl ⟨_, 0, rfl, unitsLimit_pos⟩
      · exact valid_ofFraction _ _ _
    | _ => exact .inr rfl
  | infinite s =>
    cases y with
    | infinite t =>
      simp only [add]
      split <;> exact .inr rfl
    | _ => exact .inr rfl
  | nan => exact .inr rfl

/-- Adding does not lead back from the infinities and nan. -/
theorem floor?_add {x : Binary64} (h : x.floor? = none) (y : Binary64) :
    (x.add y).floor? = none := by
  cases x with
  | finite s u => cases h
  | infinite s =>
    cases y with
    | infinite t =>
      simp only [add]
      split <;> rfl
    | _ => rfl
  | nan => rfl

theorem gap_le (units : Nat) : gap units ≤ units + 1 := by
  rcases Nat.eq_zero_or_pos units with rfl | hpos
  · exact Nat.le_refl 1
  · exact Nat.le_succ_of_le (gap_le_self hpos)

theorem nearestUnits_quotient_le (num den : Nat) :
    nearestUnits num den ≤ 2 * (num / den) + 1 := by
  have hround := (nearestEven_bounds num (den * gap (num / den))).2
  have hquot := Nat.div_mul_le_self (num / den) (gap (num / den))
  have hgap := gap_le (num / den)
  rw [← Nat.div_div_eq_div_mul] at hround
  rw [nearestUnits_eq]
  generalize nearestEven num (den * gap (num / den)) = rounded at hround
  generalize num / den = q at *
  calc rounded * gap q ≤ (q / gap q + 1) * gap q := Nat.mul_le_mul_right _ hround
    _ = q / gap q * gap q + gap q := Nat.succ_mul _ _
    _ ≤ 2 * q + 1 := by omega

/-- The quotient of a finite double by an integer that is not too small has a floor. -/
theorem exists_floor?_div {x : Binary64} (h : x.IsFinite) {den : Nat} (hd : 4 ≤ den)
    (hden : den < 2 ^ 53) : ∃ n, (div x (ofInt den)).floor? = some n := by
  obtain ⟨negative, units, rfl, hlt⟩ := h
  have hsmall : nearestUnits units den < unitsLimit := by
    have hround := nearestUnits_quotient_le units den
    have hquot := Nat.div_le_div_left hd (by omega) (a := units)
    have hlimit : 4 < unitsLimit := by decide +kernel
    omega
  rw [div_ofInt negative units (by omega) hden]
  unfold ofFraction
  simp only [if_pos hsmall]
  exact ⟨_, rfl⟩

theorem floor?_div_ofInt {x : Binary64} (h : x.floor? = none) {den : Nat} (hden : den < 2 ^ 53) :
    (div x (ofInt den)).floor? = none := by
  rw [ofInt_exact hden]
  cases x with
  | finite s u => cases h
  | _ => rfl

end Binary64

/-! ## Numbers -/

theorem Number.exists_add {m n : Number} {x : Binary64} (h : m.add? n = some (.real x)) :
    ∃ y z : Binary64, y.add z = x := by
  have hreal : ∀ {a b : Number},
      (do return Number.real (Binary64.add (← a.toReal?) (← b.toReal?))) = some (Number.real x) →
        ∃ y z : Binary64, y.add z = x := by
    intro a b h
    obtain ⟨y, -, h⟩ := Option.bind_eq_some_iff.mp h
    obtain ⟨z, -, h⟩ := Option.bind_eq_some_iff.mp h
    exact ⟨y, z, Number.real.inj (Option.some.inj h)⟩
  cases m with
  | int i =>
    cases n with
    | int j => cases h
    | real z => exact hreal h
  | real y => exact hreal h

namespace Number

/-- An integer beyond every double. -/
def Beyond : Number → Prop
  | .int n => 2 ^ 1024 - 2 ^ 970 ≤ n.natAbs
  | .real _ => False

/-- A double, an infinity or nan. -/
def IsReal : Number → Prop
  | .int _ => False
  | .real _ => True

/-- Two numbers without a sum: an integer beyond every double, and a double. -/
def Apart (m n : Number) : Prop := m.Beyond ∧ n.IsReal ∨ m.IsReal ∧ n.Beyond

theorem toReal?_eq_none_iff {n : Number} : n.toReal? = none ↔ n.Beyond := by
  cases n with
  | int n => exact Binary64.ofInt?_eq_none_iff
  | real x => exact iff_of_false nofun id

theorem add?_eq_none_iff {m n : Number} : m.add? n = none ↔ m.Apart n := by
  have hreal : ∀ a b : Number, (do return Number.real (Binary64.add (← a.toReal?) (← b.toReal?))) =
      none ↔ a.Beyond ∨ b.Beyond := by
    intro a b
    rw [← toReal?_eq_none_iff, ← toReal?_eq_none_iff]
    cases a.toReal? with
    | none => exact iff_of_true rfl (.inl rfl)
    | some x =>
      cases b.toReal? with
      | none => exact iff_of_true rfl (.inr rfl)
      | some y => exact iff_of_false nofun (fun h => h.elim nofun nofun)
  cases m with
  | int a =>
    cases n with
    | int b => exact iff_of_false nofun fun h => h.elim And.right And.left
    | real y =>
      refine (hreal (.int a) (.real y)).trans ⟨fun h => .inl ⟨h.resolve_right id, trivial⟩, ?_⟩
      exact fun h => h.elim (fun h => .inl h.1) fun h => h.1.elim
  | real x =>
    refine (hreal (.real x) n).trans ⟨fun h => .inr ⟨trivial, h.resolve_left id⟩, ?_⟩
    exact fun h => h.elim (fun h => h.1.elim) fun h => .inr h.2

/-- A number that is no double beyond the range of the type. -/
def Valid : Number → Prop
  | .int _ => True
  | .real x => x.Valid

/-- An infinity or nan. -/
def IsLost : Number → Prop
  | .int _ => False
  | .real x => x.floor? = none

theorem valid_add {m n sum : Number} (h : m.add? n = some sum) : sum.Valid := by
  cases sum with
  | int k => trivial
  | real x =>
    obtain ⟨y, z, rfl⟩ := exists_add h
    exact Binary64.valid_add y z

theorem IsLost.add {m n sum : Number} (hm : m.IsLost) (h : m.add? n = some sum) :
    sum.IsLost := by
  cases m with
  | int k => exact hm.elim
  | real x =>
    have h : ((Number.real x).toReal?.bind fun x => n.toReal?.bind fun y =>
        some (Number.real (x.add y))) = some sum := h
    obtain ⟨x', hx, h⟩ := Option.bind_eq_some_iff.mp h
    obtain ⟨y, -, h⟩ := Option.bind_eq_some_iff.mp h
    obtain rfl := Option.some.inj hx
    obtain rfl := Option.some.inj h
    exact Binary64.floor?_add hm y

end Number

end SeededPlay

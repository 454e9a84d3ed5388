/-
# `SeededPlay.Proofs.Chaos.Dominance` — more chaos permits more

A configuration dominates another one if it permits all that the other permits, as often
and as much at a time (`ChaosConfig.Dominates`).  A higher level dominates a lower one
(`ChaosConfig.dominates_ofLevel`): tiers only ever add, and a mutation that has become
eligible stays so.

Raw numbers are rounded before they are clamped, which keeps their order
(`Number.nearest_mono`).  What spoils it is that a number which cannot be rounded asks for
no chaos at all, and there are such numbers above all levels: infinity, and the integers
beyond every double (`Number.IsAbove`).  `level_dominates` says that nothing else does.

## From raw numbers to levels

What a raw number asks for is computed in four cases.  An integer that becomes a double
asks for the level nearest to that double; only large integers are rounded on the way, and
they stay large, so it is its own clamp (`ofNumber_int`).  What is beyond every double asks
for no chaos (`ofNumber_of_beyond`).  A real asks for the level nearest to it, or lies
nowhere near one, which are the infinities and what is not a number (`ofNumber_cases`).
Two integers on the same side of all levels ask for the same one (`clamp_congr`), and with
that a greater number asks for no less unless it is above all doubles (`ofNumber_mono`).

Tiers only ever add (`tiers_grow`), and nothing but no chaos is dominated by no chaos
(`dominates_none_iff`), so the exception is real: the number with four hundred zeros asks
for no chaos, where its clamp is all of it (`level_power`).
-/
import SeededPlay.Proofs.Number.Nearest
import SeededPlay.Proofs.SeedCode.Code
import SeededPlay.Chaos.Config

namespace SeededPlay

/-! ## Tiers -/

namespace Tier

/-- The place of a tier among the tiers. -/
def rank : Tier → Nat
  | .order => 0
  | .mild => 1
  | .emergent => 2
  | .wild => 3
  | .surreal => 4

theorem rank_ofLevel_mono {l m : ChaosLevel} (h : l.value ≤ m.value) :
    (ofLevel l).rank ≤ (ofLevel m).rank := by
  have hrank : ∀ k : ChaosLevel, (ofLevel k).rank =
      if k.value ≤ 0 then 0 else if k.value ≤ 25 then 1 else if k.value ≤ 50 then 2
        else if k.value ≤ 75 then 3 else 4 := by
    intro k
    unfold ofLevel
    simp only [apply_ite rank]
    rfl
  rw [hrank, hrank]
  split_ifs <;> omega

end Tier

namespace ChaosConfig

/-- How long one waits for what comes every so often, or never. -/
def waiting : Option Int → WithTop Int
  | some n => n
  | none => ⊤

/-- A configuration permits all that another one permits, as often and as much at a time. -/
structure Dominates (strong weak : ChaosConfig) : Prop where
  categories : weak.categories ⊆ strong.categories
  mutations : weak.mutations ⊆ strong.mutations
  period : waiting strong.period ≤ waiting weak.period
  milestone : waiting strong.milestone ≤ waiting weak.milestone
  cap : weak.cap ≤ strong.cap

theorem tiers_grow : ∀ s ∈ (Vocabulary.members : List Tier), ∀ t ∈ (Vocabulary.members : List Tier),
    s.rank ≤ t.rank → s.categories ⊆ t.categories ∧
      waiting (t.period.map Int.ofNat) ≤ waiting (s.period.map Int.ofNat) ∧
      waiting (t.milestone.map Int.ofNat) ≤ waiting (s.milestone.map Int.ofNat) ∧ s.cap ≤ t.cap := by
  decide +kernel

theorem eligible_mono {l m : ChaosLevel} (h : l.value ≤ m.value) : l.eligible ⊆ m.eligible := by
  intro mutation hmem
  obtain ⟨hcatalog, heligible⟩ := List.mem_filter.mp hmem
  rw [Bool.and_eq_true, decide_eq_true_eq, List.contains_iff_mem] at heligible
  obtain ⟨hmin, hcategory⟩ := heligible
  have hgrow := tiers_grow l.tier (Vocabulary.mem_members _) m.tier (Vocabulary.mem_members _)
    (Tier.rank_ofLevel_mono h)
  refine List.mem_filter.mpr ⟨hcatalog, ?_⟩
  rw [Bool.and_eq_true, decide_eq_true_eq, List.contains_iff_mem]
  exact ⟨hmin.trans h, hgrow.1 hcategory⟩

/-- A higher level dominates a lower one. -/
theorem dominates_ofLevel {l m : ChaosLevel} (h : l.value ≤ m.value) :
    (ofLevel m).Dominates (ofLevel l) := by
  obtain ⟨hcategories, hperiod, hmilestone, hcap⟩ := tiers_grow l.tier (Vocabulary.mem_members _)
    m.tier (Vocabulary.mem_members _) (Tier.rank_ofLevel_mono h)
  exact ⟨hcategories, List.map_subset _ (eligible_mono h), hperiod, hmilestone,
    Int.ofNat_le.mpr hcap⟩

theorem dominates_none_iff {l : ChaosLevel} :
    (ofLevel .none).Dominates (ofLevel l) ↔ l.value = 0 := by
  constructor
  · intro h
    have hcap : (l.tier.cap : Int) ≤ 0 := h.cap
    have hall : ∀ t ∈ (Vocabulary.members : List Tier), t.cap = 0 → t.rank = 0 := by decide
    have hrank := hall l.tier (Vocabulary.mem_members _) (by omega)
    by_contra hne
    have hpos : 1 ≤ l.value := Nat.pos_of_ne_zero hne
    have hmild := Tier.rank_ofLevel_mono (l := .clamp 1) (m := l) hpos
    rw [show l.tier = Tier.ofLevel l from rfl] at hrank
    rw [hrank] at hmild
    exact absurd hmild (by decide)
  · intro h
    exact dominates_ofLevel (Nat.le_of_eq h)

end ChaosConfig

/-! ## Rounding -/

theorem nearestEven_zero (den : Nat) : nearestEven 0 den = 0 := by
  unfold nearestEven
  simp only [Nat.zero_div, Nat.zero_mod, Nat.mul_zero]
  split
  · rfl
  · split <;> omega

namespace Number

open Binary64 (signedUnits unitsPerOne)

/-- The whole number nearest to a number, a tie to the even one; none for nan and the
infinities. -/
def nearest? : Number → Option Int
  | .int n => some n
  | .real x => x.roundEven?

theorem nearest?_eq_some {a : Number} {m : Int} (h : a.nearest? = some m) :
    ∃ s u, a.extent? = some (.point (signedUnits s u)) ∧
      m = signedUnits s (nearestEven u unitsPerOne) := by
  cases a with
  | int n =>
    obtain rfl := Option.some.inj h
    refine ⟨n < 0, n.natAbs * unitsPerOne, ?_, ?_⟩
    · rw [Binary64.signedUnits_natAbs]
      rfl
    · rw [nearestEven_mul _ Binary64.unitsPerOne_pos, Binary64.signedUnits_natAbs_self]
  | real x =>
    cases x with
    | finite s u => exact ⟨s, u, rfl, (Option.some.inj h).symm⟩
    | _ => cases h

theorem nearest_mono {a b : Number} {m n : Int} (h : a.le b = true) (ha : a.nearest? = some m)
    (hb : b.nearest? = some n) : m ≤ n := by
  obtain ⟨s, u, hau, rfl⟩ := nearest?_eq_some ha
  obtain ⟨t, v, hbv, rfl⟩ := nearest?_eq_some hb
  obtain ⟨x, y, hax, hby, hle⟩ := le_eq_true.mp h
  obtain rfl := Option.some.inj (hau.symm.trans hax)
  obtain rfl := Option.some.inj (hbv.symm.trans hby)
  exact Binary64.signedUnits_map_mono (f := fun w => nearestEven w unitsPerOne)
    (fun _ _ hab => nearestEven_mono hab) (nearestEven_zero _) (of_decide_eq_true hle)

/-- A positive integer beyond every double, or infinity. -/
def IsAbove : Number → Prop
  | .int n => 0 < n ∧ (Number.int n).Beyond
  | .real x => x = .infinite false

end Number

/-! ## Levels of raw numbers -/

namespace ChaosLevel

open Number

/-- The level that a number asks for. -/
def ofNumber (a : Number) : ChaosLevel := .ofDatum (.number a)

theorem value_clamp_eq (n : Int) : ((clamp n).value : Int) = max 0 (min 100 n) := by
  show ((max 0 (min 100 n)).toNat : Int) = _
  omega

theorem clamp_mono {m n : Int} (h : m ≤ n) : (clamp m).value ≤ (clamp n).value := by
  have hm := value_clamp_eq m
  have hn := value_clamp_eq n
  omega

theorem clamp_congr {m n : Int} (h : m ≤ 0 ∧ n ≤ 0 ∨ 100 ≤ m ∧ 100 ≤ n) : clamp m = clamp n := by
  have hm := value_clamp_eq m
  have hn := value_clamp_eq n
  exact ext (by omega)

/-- An integer that is made a double asks for the level nearest to it: only large ones are
rounded, and they stay large. -/
theorem ofNumber_int {n : Int} (h : n.natAbs < 2 ^ 1024 - 2 ^ 970) :
    ofNumber (.int n) = clamp n := by
  have hlevel : ofNumber (.int n) = clamp (Binary64.nearestInt n) := by
    obtain ⟨hreal, -⟩ := Binary64.ofInt?_eq h
    refine (ofDatum_of_toReal (Datum.toReal_int hreal)).trans (ofReal_of_roundEven? ?_)
    show some _ = some _
    rw [nearestEven_mul _ Binary64.unitsPerOne_pos, Binary64.nearestInt]
  rw [hlevel]
  rcases Int.le_total n 0 with hlow | hpos
  · have hround := Binary64.nearestInt_mono hlow
    rw [Binary64.nearestInt_of_le (n := 0) (Nat.zero_le _)] at hround
    exact clamp_congr (.inl ⟨hround, hlow⟩)
  · rcases Int.le_total 100 n with hhigh | hbelow
    · have hround := Binary64.nearestInt_mono hhigh
      rw [Binary64.nearestInt_of_le (n := 100) (by decide)] at hround
      exact clamp_congr (.inr ⟨hround, hhigh⟩)
    · rw [Binary64.nearestInt_of_le (by omega)]

theorem ofNumber_of_beyond {a : Number} (h : a.Beyond) : ofNumber a = none := by
  unfold ofNumber ofDatum Datum.toReal
  simp only [toReal?_eq_none_iff.mpr h]

theorem ofNumber_real (x : Binary64) : ofNumber (.real x) = ofReal x := ofDatum_of_toReal rfl

theorem ofNumber_of_isAbove {a : Number} (h : a.IsAbove) : ofNumber a = none := by
  cases a with
  | int n => exact ofNumber_of_beyond h.2
  | real x =>
    obtain rfl : x = .infinite false := h
    rfl

theorem ofNumber_cases {a : Number} (h : ¬a.IsAbove) :
    (∃ n, a.nearest? = some n ∧ ofNumber a = clamp n) ∨
      (a.extent? = some .below ∨ a.extent? = Option.none) ∧ ofNumber a = none := by
  cases a with
  | int n =>
    refine .inl ⟨n, rfl, ?_⟩
    rcases Nat.lt_or_ge n.natAbs (2 ^ 1024 - 2 ^ 970) with hdouble | hbeyond
    · exact ofNumber_int hdouble
    · have hbeyond : (Number.int n).Beyond := hbeyond
      rw [ofNumber_of_beyond hbeyond]
      exact clamp_congr (m := 0) (.inl ⟨Int.le_refl 0, Int.not_lt.mp fun hpos => h ⟨hpos, hbeyond⟩⟩)
  | real x =>
    rw [ofNumber_real]
    cases x with
    | finite s u => exact .inl ⟨_, rfl, rfl⟩
    | infinite s =>
      cases s with
      | false => exact absurd rfl h
      | true => exact .inr ⟨.inl rfl, rfl⟩
    | nan => exact .inr ⟨.inr rfl, rfl⟩

theorem ofNumber_mono {a b : Number} (h : a.le b = true) (hb : ¬b.IsAbove) :
    (ofNumber a).value ≤ (ofNumber b).value := by
  by_cases ha : a.IsAbove
  · rw [ofNumber_of_isAbove ha]
    exact Nat.zero_le _
  · rcases ofNumber_cases ha with ⟨m, hm, hlevel⟩ | ⟨-, hlevel⟩
    · rcases ofNumber_cases hb with ⟨n, hn, hlevel'⟩ | ⟨hplace, -⟩
      · rw [hlevel, hlevel']
        exact clamp_mono (nearest_mono h hm hn)
      · -- Nothing on the line is below negative infinity or nan.
        obtain ⟨s, u, hpoint, -⟩ := nearest?_eq_some hm
        obtain ⟨x, y, hx, hy, hle⟩ := le_eq_true.mp h
        rw [hpoint] at hx
        obtain rfl := Option.some.inj hx
        rcases hplace with hplace | hplace
        · obtain rfl := Option.some.inj (hplace.symm.trans hy)
          cases hle
        · cases hplace.symm.trans hy
    · rw [hlevel]
      exact Nat.zero_le _

/-- More chaos never means less, with one exception.  Of two numbers in order the greater
one asks for no lower level, and for a configuration that dominates that of the other,
unless it is above all doubles: such a number asks for no chaos at all, so for less than a
number that asks for some.  An integer asks for the level nearest to it exactly if it is
none of those. -/
theorem level_dominates {a b : Number} (h : a.le b = true) :
    ((ofNumber a).value ≤ (ofNumber b).value ↔ (b.IsAbove → (ofNumber a).value = 0)) ∧
      ((ChaosConfig.ofLevel (ofNumber b)).Dominates (ChaosConfig.ofLevel (ofNumber a)) ↔
        (b.IsAbove → (ofNumber a).value = 0)) ∧
      ∀ n : Int, ((ofNumber (.int n)).value : Int) = max 0 (min 100 n) ↔
        ¬(Number.int n).IsAbove := by
  refine ⟨?_, ?_, fun n => ?_⟩
  · by_cases hb : b.IsAbove
    · rw [ofNumber_of_isAbove hb]
      exact ⟨fun hle _ => Nat.le_zero.mp hle, fun hzero => Nat.le_of_eq (hzero hb)⟩
    · exact iff_of_true (ofNumber_mono h hb) fun habove => absurd habove hb
  · by_cases hb : b.IsAbove
    · rw [ofNumber_of_isAbove hb, ChaosConfig.dominates_none_iff]
      exact ⟨fun hzero _ => hzero, fun hzero => hzero hb⟩
    · exact iff_of_true (ChaosConfig.dominates_ofLevel (ofNumber_mono h hb)) fun habove =>
        absurd habove hb
  · constructor
    · intro hclamp habove
      have hpos := habove.1
      rw [ofNumber_of_isAbove habove] at hclamp
      have hclamp : (0 : Int) = max 0 (min 100 n) := hclamp
      omega
    · intro hbelow
      rcases ofNumber_cases hbelow with ⟨m, hm, hlevel⟩ | ⟨hplace, -⟩
      · obtain rfl := Option.some.inj hm
        rw [hlevel, value_clamp_eq]
      · rcases hplace with hplace | hplace <;> cases hplace

theorem level_dominates_half :
    let a : Number := .int 25
    let b : Number := .real (.finite false (51 * 2 ^ 1073))
    a.le b = true ∧ ¬b.IsAbove ∧ (ofNumber a).value = 25 ∧ (ofNumber b).value = 26 ∧
      (ChaosConfig.ofLevel (ofNumber b)).Dominates (ChaosConfig.ofLevel (ofNumber a)) := by
  intro a b
  have hle : a.le b = true := by decide +kernel
  have hb : ¬b.IsAbove := nofun
  exact ⟨hle, hb, by decide +kernel, by decide +kernel,
    (level_dominates hle).2.1.mpr fun habove => absurd habove hb⟩

/-- The number with four hundred zeros asks for no chaos, where its clamp is all of it. -/
theorem level_power : ofNumber (.int (10 ^ 400 : Nat)) = none ∧
    ¬∀ n : Int, ((ofNumber (.int n)).value : Int) = max 0 (min 100 n) := by
  have hpow : 2 ^ (3 * 400) ≤ 10 ^ 400 := by
    rw [Nat.pow_mul]
    exact Nat.pow_le_pow_left (by decide) 400
  have hlimit : 2 ^ 1024 ≤ 2 ^ (3 * 400) := Nat.pow_le_pow_right Nat.two_pos (by decide)
  have hbeyond : (Number.int (10 ^ 400 : Nat)).Beyond := by
    show 2 ^ 1024 - 2 ^ 970 ≤ ((10 ^ 400 : Nat) : Int).natAbs
    rw [Int.natAbs_natCast]
    exact (Nat.sub_le _ _).trans (hlimit.trans hpow)
  have hpos : (0 : Int) < (10 ^ 400 : Nat) := Int.natCast_pos.mpr (Nat.pow_pos (by decide))
  refine ⟨ofNumber_of_beyond hbeyond, fun h => ?_⟩
  have hclamp := h (10 ^ 400 : Nat)
  rw [ofNumber_of_beyond hbeyond] at hclamp
  have hclamp : (0 : Int) = max 0 (min 100 ((10 ^ 400 : Nat) : Int)) := hclamp
  generalize ((10 ^ 400 : Nat) : Int) = n at hpos hclamp
  omega

end ChaosLevel

end SeededPlay

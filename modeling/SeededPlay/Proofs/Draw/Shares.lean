/-
# `SeededPlay.Proofs.Draw.Shares` — a pick by weight is fair

The positive weights of a list, laid end to end, are a line as long as their sum `T`, and the
draw `k` is the point `k · T / 2 ^ 32` of it.  The pick is the item on whose stretch the point
falls (`FallsOn`).  As long as `T` is at most `2 ^ 21`, the point and every end of a stretch
are doubles, so the loop compares without rounding.  Its invariant is that the point does not
lie before the running sum (`exists_firstPast_eq`); it lies before the whole sum, so the loop
ends at an item, and the one that stands in otherwise is never needed.

The draws that fall on one stretch are the integers of an interval of the length `2 ^ 32 · w / T`,
and so their number differs from it by less than one.

## The line

`mass` is how far a prefix of the list reaches on the line, so a stretch is what lies
between the masses of two prefixes.  Stretches do not overlap (`FallsOn.unique`), and where
the weights are integers the point can be compared without fractions (`fallsOn_of_int`).
Items of no positive weight have no stretch; the loop passes them by because it runs over
the pool, which leaves them out.

## The numbers

The sum of the weights and the target become doubles without rounding (`exists_target`): the
sum is a whole number up to `2 ^ 21`, and the target has 32 bits behind the point.  A
running sum is compared with the target in units of the last of these bits (`lt_exact`).
There are as many whole numbers from one point up to another as the points are apart, up to
less than one (`abs_ceil_sub_ceil_lt`), and this turns the length of a stretch into a number
of draws (`exists_interval`).
-/
import Mathlib
import SeededPlay.Proofs.Draw.Digits
import SeededPlay.Proofs.Chaos.Occasions
import SeededPlay.Proofs.Chaos.Supply
import SeededPlay.Draw.Audit

namespace SeededPlay

namespace Binary64

theorem lt_units {a b : Nat} : lt (.finite false a) (.finite false b) = true ↔ a < b := by
  simp only [lt, extent?, Extent.lt, Extent.le, signedUnits, Bool.false_eq_true, if_false,
    Bool.not_eq_true', decide_eq_false_iff_not, Int.ofNat_le, Nat.not_le]

theorem lt_exact {x n : Nat} : lt (.finite false (x * 2 ^ 1042)) (.finite false (n * unitsPerOne)) =
    true ↔ x < n * 2 ^ 32 := by
  have hunits : n * unitsPerOne = n * 2 ^ 32 * 2 ^ 1042 := by
    rw [unitsPerOne_eq, Nat.mul_assoc, ← Nat.pow_add]
  rw [lt_units, hunits, Nat.mul_lt_mul_right (Nat.two_pow_pos 1042)]

end Binary64

namespace Draw

variable {α : Type} {k : UInt32}

/-! ## Stretches -/

/-- The sum of the weights that count, which are the positive ones. -/
def mass (options : List (α × Int)) : Int := ((options.map (·.2)).filter (0 < ·)).sum

/-- The draw falls on the stretch of the item in a place. -/
structure FallsOn (options : List (α × Int)) (k : UInt32) (i : Nat) : Prop where
  lt_length : i < options.length
  weight_pos : 0 < options[i].2
  mass_le : (mass (options.take i) : ℚ) ≤ k.toNat * mass options / 2 ^ 32
  lt_mass : (k.toNat * mass options / 2 ^ 32 : ℚ) < mass (options.take i) + options[i].2

theorem fallsOn_of_int {options : List (α × Int)} {i : Nat} (h : i < options.length)
    (hpos : 0 < options[i].2) (hlow : mass (options.take i) * 2 ^ 32 ≤ k.toNat * mass options)
    (hhigh : k.toNat * mass options < (mass (options.take i) + options[i].2) * 2 ^ 32) :
    FallsOn options k i where
  lt_length := h
  weight_pos := hpos
  mass_le := (le_div_iff₀ (by norm_num)).mpr (by exact_mod_cast hlow)
  lt_mass := (div_lt_iff₀ (by norm_num)).mpr (by exact_mod_cast hhigh)

theorem mass_cons (o : α × Int) (options : List (α × Int)) :
    mass (o :: options) = (if 0 < o.2 then o.2 else 0) + mass options := by
  simp only [mass, List.map_cons, List.filter_cons, decide_eq_true_eq]
  split
  · exact List.sum_cons
  · exact (Int.zero_add _).symm

theorem mass_nonneg (options : List (α × Int)) : 0 ≤ mass options := by
  induction options with
  | nil => exact Int.le_refl 0
  | cons o options ih =>
    rw [mass_cons]
    split <;> omega

theorem mass_append (xs ys : List (α × Int)) : mass (xs ++ ys) = mass xs + mass ys := by
  simp only [mass, List.map_append, List.filter_append, List.sum_append]

theorem mass_take_mono {i j : Nat} (options : List (α × Int)) (h : i ≤ j) :
    mass (options.take i) ≤ mass (options.take j) := by
  obtain ⟨n, rfl⟩ := Nat.exists_eq_add_of_le h
  rw [List.take_add, mass_append]
  have := mass_nonneg ((options.drop i).take n)
  omega

theorem mass_take_succ {options : List (α × Int)} {i : Nat} (h : i < options.length)
    (hpos : 0 < options[i].2) :
    mass (options.take (i + 1)) = mass (options.take i) + options[i].2 := by
  rw [List.take_succ_eq_append_getElem h, mass_append, mass_cons, if_pos hpos]
  exact congrArg _ (Int.add_zero _)

theorem FallsOn.unique {options : List (α × Int)} {i j : Nat} (hi : FallsOn options k i)
    (hj : FallsOn options k j) : i = j := by
  have hle : ∀ {i j : Nat}, FallsOn options k i → FallsOn options k j → ¬i < j := by
    intro i j hi hj hlt
    have hstretch := mass_take_succ hi.lt_length hi.weight_pos
    have hmono : (mass (options.take (i + 1)) : ℚ) ≤ mass (options.take j) :=
      Int.cast_le.mpr (mass_take_mono options hlt)
    rw [hstretch, Int.cast_add] at hmono
    linarith only [hi.lt_mass, hj.mass_le, hmono]
  exact Nat.le_antisymm (Nat.le_of_not_lt (hle hj hi)) (Nat.le_of_not_lt (hle hi hj))

/-! ## The loop -/

/-- Items with integers as their weights. -/
def numbered (options : List (α × Int)) : List (α × Number) :=
  options.map fun o => (o.1, .int o.2)

/-- The items of which one is picked. -/
def pool (options : List (α × Int)) : List (α × Number) :=
  (numbered options).filter fun o => (Number.int 0).lt o.2

theorem pool_cons (o : α × Int) (options : List (α × Int)) : pool (o :: options) =
    if 0 < o.2 then (o.1, .int o.2) :: pool options else pool options := by
  simp only [pool, numbered, List.map_cons, List.filter_cons, Number.lt_int_iff]

theorem pool_eq_nil {options : List (α × Int)} : pool options = [] ↔ ∀ o ∈ options, o.2 ≤ 0 := by
  simp only [pool, numbered, List.filter_eq_nil_iff, List.forall_mem_map, Number.lt_int_iff,
    Int.not_lt]

theorem total_pool (options : List (α × Int)) :
    total ((pool options).map (·.2)) = .ok (.int (mass options)) := by
  obtain ⟨step, htotal, hstep⟩ : ∃ step : Number → Number → Except Fault Number,
      (∀ ws, total ws = ws.foldlM step (.int 0)) ∧
        ∀ m n : Int, step (.int m) (.int n) = .ok (.int (m + n)) :=
    ⟨_, fun _ => rfl, fun _ _ => rfl⟩
  -- The sum of the weights before is arbitrary.
  have hfrom : ∀ m : Int, ((pool options).map (·.2)).foldlM step (.int m) =
      .ok (.int (m + mass options)) := by
    induction options with
    | nil => exact fun m => congrArg (fun n => Except.ok (Number.int n)) (Int.add_zero m).symm
    | cons o options ih =>
      intro m
      rw [pool_cons, mass_cons]
      split
      · rw [List.map_cons, List.foldlM_cons, hstep, ← Int.add_assoc]
        exact ih (m + o.2)
      · rw [Int.zero_add]
        exact ih m
  rw [htotal, hfrom, Int.zero_add]

theorem firstPast_nil (target running : Binary64) :
    firstPast target running ([] : List (α × Number)) = .ok none := rfl

theorem firstPast_cons (target : Binary64) (running : Nat) (a : α) (n : Nat)
    (rest : List (α × Number)) (h : running + n < 2 ^ 53) :
    firstPast target (.finite false (running * Binary64.unitsPerOne)) ((a, .int n) :: rest) =
      if target.lt (.finite false ((running + n) * Binary64.unitsPerOne)) then .ok (some a)
      else firstPast target (.finite false ((running + n) * Binary64.unitsPerOne)) rest := by
  have hweight : (Number.int n).toReal? = some (.finite false (n * Binary64.unitsPerOne)) :=
    Binary64.ofInt?_exact (by omega)
  rw [firstPast, hweight]
  simp only [Binary64.add_exact h]
  rfl

/-- The loop ends at the item on whose stretch the target lies, if what it has added up so
far does not lie beyond the target and everything together does. -/
theorem exists_firstPast_eq {x running : Nat} {options : List (α × Int)}
    (hlow : running * 2 ^ 32 ≤ x) (hhigh : (x : Int) < (running + mass options) * 2 ^ 32)
    (hbits : running + mass options < 2 ^ 53) :
    ∃ i, ∃ h : i < options.length, 0 < options[i].2 ∧
      (running + mass (options.take i)) * 2 ^ 32 ≤ x ∧
      x < (running + mass (options.take i) + options[i].2) * 2 ^ 32 ∧
      firstPast (.finite false (x * 2 ^ 1042)) (.finite false (running * Binary64.unitsPerOne))
        (pool options) = .ok (some options[i].1) := by
  induction options generalizing running with
  | nil =>
    have hnil : mass ([] : List (α × Int)) = 0 := rfl
    omega
  | cons o options ih =>
    rw [mass_cons] at hhigh hbits
    by_cases hpos : 0 < o.2
    · obtain ⟨n, hn⟩ := Int.eq_ofNat_of_zero_le (Int.le_of_lt hpos)
      have hrest := mass_nonneg options
      rw [if_pos hpos] at hhigh hbits
      rw [pool_cons, if_pos hpos, hn, firstPast_cons _ _ _ _ _ (by omega)]
      by_cases hpast : x < (running + n) * 2 ^ 32
      · refine ⟨0, Nat.succ_pos _, hpos, ?_, ?_, if_pos (Binary64.lt_exact.mpr hpast)⟩
        · have hnil : mass ((o :: options).take 0) = 0 := rfl
          omega
        · have hnil : mass ((o :: options).take 0) = 0 := rfl
          simp only [List.getElem_cons_zero]
          omega
      · have hstep : ((running + n : Nat) : Int) = running + o.2 := by omega
        have hlow' : (running + n) * 2 ^ 32 ≤ x := Nat.le_of_not_lt hpast
        have hhigh' : (x : Int) < ((running + n : Nat) + mass options) * 2 ^ 32 := by omega
        have hbits' : ((running + n : Nat) : Int) + mass options < 2 ^ 53 := by omega
        obtain ⟨i, hi, hweight, hbefore, hwithin, hpick⟩ := ih hlow' hhigh' hbits'
        refine ⟨i + 1, Nat.succ_lt_succ hi, hweight, ?_, ?_, ?_⟩
        · rw [List.take_succ_cons, mass_cons, if_pos hpos]
          omega
        · rw [List.take_succ_cons, mass_cons, if_pos hpos, List.getElem_cons_succ]
          omega
        · rw [if_neg (mt Binary64.lt_exact.mp hpast)]
          exact hpick
    · rw [if_neg hpos, Int.zero_add] at hhigh hbits
      obtain ⟨i, hi, hweight, hbefore, hwithin, hpick⟩ := ih hlow hhigh hbits
      have hmass : mass ((o :: options).take (i + 1)) = mass (options.take i) := by
        rw [List.take_succ_cons, mass_cons, if_neg hpos, Int.zero_add]
      rw [pool_cons, if_neg hpos]
      exact ⟨i + 1, Nat.succ_lt_succ hi, hweight, hmass ▸ hbefore, hmass ▸ hwithin, hpick⟩

/-! ## The pick -/

theorem pickWeighted_eq_none (k : UInt32) (options : List (α × Int)) :
    pickWeighted k (numbered options) = .ok none ↔ ∀ o ∈ options, o.2 ≤ 0 := by
  constructor
  · intro h o ho
    by_contra hpos
    have hmem : (o.1, Number.int o.2) ∈ numbered options := List.mem_map_of_mem ho
    exact pickWeighted_ne_none hmem (Number.lt_int_iff.mpr (Int.not_le.mp hpos)) h
  · intro h
    have hpool : (numbered options).filter (fun o => (Number.int 0).lt o.2) = [] :=
      pool_eq_nil.mpr h
    simp only [pickWeighted, hpool]
    rfl

/-- The sum of the weights as a double, and the target as a double: neither is rounded. -/
theorem exists_target (k : UInt32) {T : Nat} (hT : T ≤ 2 ^ 21) :
    ∃ sum, (Number.int T).toReal? = some sum ∧
      (fraction k).mul sum = .finite false (k.toNat * T * 2 ^ 1042) := by
  refine ⟨_, Binary64.ofInt?_exact (by omega), ?_⟩
  rw [fraction_eq, Binary64.mul_exact (toNat_mul_lt k hT) (by omega)]

/-- The loop itself, as it is started, ends at an item: nothing has to stand in. -/
def LoopPicks (options : List (α × Int)) (k : UInt32) (a : α) : Prop :=
  ∃ sum, (Number.int (mass options)).toReal? = some sum ∧
    firstPast ((fraction k).mul sum) .zero (pool options) = .ok (some a)

theorem exists_loopPicks (k : UInt32) {options : List (α × Int)} (hpos : 0 < mass options)
    (hle : mass options ≤ 2 ^ 21) :
    ∃ i, ∃ h : i < options.length, FallsOn options k i ∧ LoopPicks options k options[i].1 := by
  obtain ⟨T, hT⟩ := Int.eq_ofNat_of_zero_le (Int.le_of_lt hpos)
  have hTpos : 0 < T := by omega
  have hTle : T ≤ 2 ^ 21 := by omega
  obtain ⟨sum, hsum, htarget⟩ := exists_target k hTle
  have hlow : 0 * 2 ^ 32 ≤ k.toNat * T := by
    rw [Nat.zero_mul]
    exact Nat.zero_le _
  have hhigh : ((k.toNat * T : Nat) : Int) < ((0 : Nat) + mass options) * 2 ^ 32 := by
    have hlt : k.toNat * T < T * 2 ^ 32 := by
      rw [Nat.mul_comm T]
      exact Nat.mul_lt_mul_of_pos_right k.toNat_lt hTpos
    rw [hT]
    omega
  obtain ⟨i, hi, hweight, hbefore, hwithin, hpick⟩ := exists_firstPast_eq hlow hhigh (by omega)
  have hplace : ((k.toNat * T : Nat) : Int) = k.toNat * mass options := by
    rw [hT, Int.natCast_mul]
  have hzero : Binary64.zero = .finite false (0 * Binary64.unitsPerOne) := by
    rw [Nat.zero_mul]
    rfl
  rw [hplace] at hbefore hwithin
  rw [← hzero, ← htarget] at hpick
  rw [← hT] at hsum
  have hfalls := fallsOn_of_int hi hweight (by simpa using hbefore) (by simpa using hwithin)
  exact ⟨i, hi, hfalls, sum, hsum, hpick⟩

theorem LoopPicks.pickWeighted {options : List (α × Int)} {a : α} (h : LoopPicks options k a) :
    pickWeighted k (numbered options) = .ok (some a) := by
  obtain ⟨sum, hsum, hloop⟩ := h
  have hpool : (numbered options).filter (fun o => (Number.int 0).lt o.2) = pool options := rfl
  cases hlast : (pool options).getLast? with
  | none =>
    rw [List.getLast?_eq_none_iff.mp hlast, firstPast_nil] at hloop
    exact nomatch Except.ok.inj hloop
  | some last =>
    simp only [Draw.pickWeighted, hpool, hlast]
    refine bind_eq_ok.mpr ⟨_, total_pool options, ?_⟩
    rw [hsum]
    exact bind_eq_ok.mpr ⟨_, hloop, rfl⟩

/-! ## How many draws there are for an item -/

theorem abs_ceil_sub_ceil_lt {x y : ℚ} (hx : 0 ≤ x) (hxy : x ≤ y) :
    |((⌈y⌉₊ - ⌈x⌉₊ : Nat) : ℚ) - (y - x)| < 1 := by
  have hlow := Nat.le_ceil x
  have hlow' := Nat.ceil_lt_add_one hx
  have hhigh := Nat.le_ceil y
  have hhigh' := Nat.ceil_lt_add_one (hx.trans hxy)
  rw [Nat.cast_sub (Nat.ceil_mono hxy), abs_lt]
  constructor <;> linarith

/-- The draws that fall on a stretch are an interval, as long as the stretch is. -/
theorem exists_interval {options : List (α × Int)} (hmass : 0 < mass options) {i : Nat}
    (h : i < options.length) (hpos : 0 < options[i].2) :
    ∃ low high : Nat, low ≤ high ∧ high ≤ 2 ^ 32 ∧
      (∀ k : UInt32, FallsOn options k i ↔ low ≤ k.toNat ∧ k.toNat < high) ∧
      |((high - low : Nat) : ℚ) - 2 ^ 32 * options[i].2 / mass options| < 1 := by
  have hlast : mass (options.take (i + 1)) ≤ mass options := by
    have hmono := mass_take_mono options (Nat.succ_le_of_lt h)
    rwa [List.take_length] at hmono
  have hstart := mass_nonneg (options.take i)
  rw [mass_take_succ h hpos] at hlast
  -- From here on only the three numbers matter, as fractions.
  obtain ⟨T, hT⟩ : ∃ T : ℚ, T = mass options := ⟨_, rfl⟩
  obtain ⟨b, hb⟩ : ∃ b : ℚ, b = mass (options.take i) := ⟨_, rfl⟩
  obtain ⟨w, hw⟩ : ∃ w : ℚ, w = options[i].2 := ⟨_, rfl⟩
  have hTpos : 0 < T := hT ▸ Int.cast_pos.mpr hmass
  have hbpos : 0 ≤ b := hb ▸ Int.cast_nonneg hstart
  have hwpos : 0 < w := hw ▸ Int.cast_pos.mpr hpos
  have hle : b + w ≤ T := by
    rw [hb, hw, hT, ← Int.cast_add]
    exact Int.cast_le.mpr hlast
  have hcut : ∀ (c : ℚ) (k : UInt32),
      c ≤ k.toNat * T / 2 ^ 32 ↔ ⌈c * 2 ^ 32 / T⌉₊ ≤ k.toNat := by
    intro c k
    rw [Nat.ceil_le, le_div_iff₀ (by norm_num), div_le_iff₀ hTpos]
  have hshare : (b + w) * 2 ^ 32 / T - b * 2 ^ 32 / T = 2 ^ 32 * w / T := by ring
  have horder : b * 2 ^ 32 / T ≤ (b + w) * 2 ^ 32 / T := by
    rw [← sub_nonneg, hshare]
    positivity
  refine ⟨⌈b * 2 ^ 32 / T⌉₊, ⌈(b + w) * 2 ^ 32 / T⌉₊, Nat.ceil_mono horder, ?_, fun k => ?_, ?_⟩
  · rw [Nat.ceil_le, div_le_iff₀ hTpos, Nat.cast_pow, mul_comm]
    exact mul_le_mul_of_nonneg_left hle (by norm_num)
  · rw [← hcut, ← not_le, ← hcut, not_le, hT, hb, hw]
    exact ⟨fun hk => ⟨hk.mass_le, hk.lt_mass⟩, fun hk => ⟨h, hpos, hk.1, hk.2⟩⟩
  · rw [← hT, ← hw, ← hshare]
    exact abs_ceil_sub_ceil_lt (by positivity) horder

end Draw

/-! ## Recorders -/

namespace Recorder

/-- Items with their weights as raw pairs. -/
def pairs (options : List (Datum × Int)) : Datum :=
  .list (options.map fun o => .list [o.1, .int o.2])

theorem fst_draw (r : Recorder) (nonce : Datum) (purpose : String)
    (pick : UInt32 → Except Fault (Option Datum)) : (r.draw nonce purpose pick).1 =
      (pick (r.stream.word nonce purpose)).map (·.getD .null) := by
  have hword : r.stream.word nonce purpose = (r.stream.digest nonce purpose).a := rfl
  rw [draw, hword]
  cases pick (r.stream.digest nonce purpose).a with
  | error e => rfl
  | ok picked => cases picked <;> rfl

theorem weighted_pairs (r : Recorder) (nonce : Datum) (purpose : String)
    (options : List (Datum × Int)) : (r.weighted nonce purpose (pairs options)).1 =
      (Draw.pickWeighted (r.stream.word nonce purpose) (Draw.numbered options)).map
        (·.getD .null) := by
  have hread : (options.map fun o => Datum.list [o.1, .int o.2]).mapM weightedPair =
      .ok (Draw.numbered options) := by
    induction options with
    | nil => rfl
    | cons o options ih =>
      rw [List.map_cons, List.mapM_cons, ih]
      rfl
  have helements : (pairs options).elements =
      .ok (options.map fun o => .list [o.1, .int o.2]) := rfl
  rw [weighted, fst_draw]
  simp only [helements, bind, Except.bind, hread]

end Recorder

namespace Draw

/-- Picks by weight are fair.  The draw is the number that the first eight digits of the
digest write.  Nothing is picked exactly if no weight is positive.  If the positive weights
come to at most `2 ^ 21`, then for every draw there is exactly one item on whose stretch it
falls; the loop ends at this item, and so it is picked.  The draws for an item of positive
weight are an interval, and there are as many of them as its share, up to less than one. -/
theorem pickWeighted_fair {α : Type} (options : List (α × Int)) :
    (∀ (r : Recorder) (nonce : Datum) (purpose : String),
      readHex (String.ofList (slice (r.stream.digest nonce purpose).hex.toList 0 8)) =
        .ok ((r.stream.word nonce purpose).toNat : Int) ∧
      ∀ items : List (Datum × Int), (r.weighted nonce purpose (Recorder.pairs items)).1 =
        (pickWeighted (r.stream.word nonce purpose) (numbered items)).map (·.getD .null)) ∧
    (∀ k, pickWeighted k (numbered options) = .ok none ↔ ∀ o ∈ options, o.2 ≤ 0) ∧
    (0 < mass options → mass options ≤ 2 ^ 21 →
      (∀ k, ∃ i, ∃ h : i < options.length,
        FallsOn options k i ∧ (∀ j, FallsOn options k j → j = i) ∧
          LoopPicks options k options[i].1 ∧
          pickWeighted k (numbered options) = .ok (some options[i].1)) ∧
      ∀ i, ∀ h : i < options.length, 0 < options[i].2 →
        ∃ low high : Nat, low ≤ high ∧ high ≤ 2 ^ 32 ∧
          (∀ k : UInt32, FallsOn options k i ↔ low ≤ k.toNat ∧ k.toNat < high) ∧
          |((high - low : Nat) : ℚ) - 2 ^ 32 * options[i].2 / mass options| < 1) := by
  refine ⟨fun r nonce purpose => ⟨Digest.readHex_hex _, r.weighted_pairs nonce purpose⟩,
    fun k => pickWeighted_eq_none k options, fun hpos hle => ⟨fun k => ?_, fun i h hweight => ?_⟩⟩
  · obtain ⟨i, h, hfalls, hloop⟩ := exists_loopPicks k hpos hle
    exact ⟨i, h, hfalls, fun j hj => hj.unique hfalls, hloop, hloop.pickWeighted⟩
  · exact exists_interval hpos h hweight

theorem pickWeighted_fair_mixed :
    let options : List (String × Int) := [("a", 0), ("b", 3), ("c", -2), ("d", 1)]
    0 < mass options ∧ mass options ≤ 2 ^ 21 ∧
      ∀ k, ∃ i, ∃ h : i < options.length, FallsOn options k i ∧
        pickWeighted k (numbered options) = .ok (some options[i].1) := by
  intro options
  have hpos : 0 < mass options := by decide
  have hle : mass options ≤ 2 ^ 21 := by decide
  refine ⟨hpos, hle, fun k => ?_⟩
  obtain ⟨i, h, hfalls, -, -, hpick⟩ := ((pickWeighted_fair options).2.2 hpos hle).1 k
  exact ⟨i, h, hfalls, hpick⟩

end Draw

end SeededPlay

/-
# `SeededPlay.Proofs.Chaos.Milestones` — how many milestones lie below a score

A scheduler counts milestones with doubles: the score becomes one, and so does its quotient
by the interval.  For scores below `2 ^ 53` this gives the exact count
(`milestonesSeen_eq`).  Beyond it does not: a large integer score is rounded, and two scores
with a milestone between them may become one double.  A greater score never counts for less,
however large both are (`Scheduler.milestoneAt_mono`).

## From scores to counts

A score is data of any kind, so the count goes through four stages.  What is not there is
seen as zero (`Number.of_absent`).  A score that is not beyond every double is seen as one,
and as a finite one if it is not lost on the way (`Datum.seen_number`); it is seen where it
comes to lie when it becomes a double (`Datum.roundsTo_seen`).  A score that is seen as a
double that is not large is counted exactly (`milestonesSeen_of_seen`), because what double
arithmetic adds up there is a double again (`isGrid_add`) and the floor of the quotient is
that of the fraction.  And the number of activations is the difference of two such counts
(`crossed_eq`).
-/
import SeededPlay.Proofs.Attempt
import SeededPlay.Proofs.Number.Order
import SeededPlay.Proofs.SeedCode.Segment
import SeededPlay.Chaos.Scheduler

namespace SeededPlay

namespace Binary64

theorem ofInt?_natAbs {n : Int} (hn : n.natAbs < 2 ^ 53) :
    ofInt? n = some (.finite (n < 0) (n.natAbs * unitsPerOne)) := by
  have h := ofFraction_exact (decide (n < 0)) hn (k := 1074) (by omega) Nat.one_pos
  rw [Nat.mul_one, ← unitsPerOne_eq] at h
  unfold ofInt? ofInt
  rw [h]
  rfl

theorem isGrid_add {x y : Binary64} {negative : Bool} {units : Nat}
    (h : add x y = .finite negative units) : IsGrid units := by
  cases x with
  | finite s u =>
    cases y with
    | finite t v =>
      simp only [add] at h
      split at h
      · obtain ⟨-, rfl⟩ := Binary64.finite.inj h
        exact isGrid_zero
      · rcases ofFraction_cases (decide (signedUnits s u + signedUnits t v < 0))
          (signedUnits s u + signedUnits t v).natAbs 1 with ⟨w, hgrid, -, heq⟩ | heq
        · obtain ⟨-, rfl⟩ := Binary64.finite.inj (heq.symm.trans h)
          exact hgrid
        · cases heq.symm.trans h
    | _ => cases h
  | infinite s =>
    cases y with
    | infinite t =>
      simp only [add] at h
      split at h <;> cases h
    | _ => cases h
  | nan => cases h

end Binary64

namespace Datum

/-- How many milestones lie at or below a score; what is no finite number has none. -/
def milestones (interval : Nat) : Datum → Int
  | .number (.int n) => n.fdiv interval
  | .number (.real (.finite negative units)) =>
    (Binary64.signedUnits negative units).fdiv (interval * Binary64.unitsPerOne : Nat)
  | _ => 0

/-- A score as a scheduler sees it. -/
def seen (score : Datum) : Except Fault Binary64 :=
  if score.isPresent then score.toReal else .ok .zero

/-- How many milestones a scheduler sees at or below a score. -/
def milestonesSeen (interval : Nat) (score : Datum) : Int :=
  (score.seen.bind (Scheduler.milestoneAt interval)).toOption.getD 0

/-- A score whose quotient by an interval is not rounded to another floor: it lies below
`2 ^ 53`, and if it is negative, its quotient is at least the smallest double. -/
def Moderate (interval : Nat) : Datum → Prop
  | .number (.int n) => n.natAbs < 2 ^ 53
  | .number (.real (.finite negative units)) =>
    units < 2 ^ 53 * Binary64.unitsPerOne ∧ (negative = true → units = 0 ∨ interval ≤ units)
  | _ => False

instance (interval : Nat) : (score : Datum) → Decidable (score.Moderate interval)
  | .number (.int n) => inferInstanceAs (Decidable (n.natAbs < 2 ^ 53))
  | .number (.real (.finite negative units)) =>
    inferInstanceAs (Decidable (units < 2 ^ 53 * Binary64.unitsPerOne ∧
      (negative = true → units = 0 ∨ interval ≤ units)))
  | .number (.real (.infinite _)) => .isFalse id
  | .number (.real .nan) => .isFalse id
  | .null => .isFalse id
  | .bool _ => .isFalse id
  | .text _ => .isFalse id
  | .list _ => .isFalse id
  | .record _ => .isFalse id

/-- A value that double arithmetic can give. -/
def IsRounded : Datum → Prop
  | .number (.real (.finite _ units)) => Binary64.IsGrid units
  | _ => True

theorem isRounded_plus {d d' : Datum} {n : Number} (h : d.plus n = .ok d') : d'.IsRounded := by
  unfold plus at h
  obtain ⟨m, -, h⟩ := bind_eq_ok.mp h
  split at h
  · rename_i sum hsum
    obtain rfl := Except.ok.inj h
    cases sum with
    | int k => trivial
    | real x =>
      cases x with
      | finite negative units =>
        obtain ⟨y, z, hadd⟩ := Number.exists_add hsum
        exact Binary64.isGrid_add hadd
      | _ => trivial
  · cases h

theorem floor_of_floor? {x : Binary64} {n : Int} (h : x.floor? = some n) : floor x = .ok n := by
  cases x with
  | finite s u => exact congrArg Except.ok (Option.some.inj h)
  | _ => cases h

theorem floor_eq_ok {x : Binary64} {n : Int} (h : floor x = .ok n) : x.floor? = some n := by
  cases x with
  | finite s u => exact congrArg some (Except.ok.inj h)
  | _ => cases h

variable {interval : Nat}

theorem milestonesSeen_of_milestoneAt {score : Datum} {x : Binary64} {n : Int}
    (hseen : score.seen = .ok x) (h : Scheduler.milestoneAt interval x = .ok n) :
    score.milestonesSeen interval = n := by
  unfold milestonesSeen
  rw [hseen, Except.bind, h, Except.toOption, Option.getD_some]

theorem crossed_eq {before after : Datum} {x y : Binary64} {n : Int} (hbefore : before.seen = .ok x)
    (hafter : after.seen = .ok y) (h : Scheduler.crossed interval x y = .ok n) :
    n = after.milestonesSeen interval - before.milestonesSeen interval := by
  obtain ⟨i, hi, h⟩ := bind_eq_ok.mp h
  obtain ⟨j, hj, h⟩ := bind_eq_ok.mp h
  rw [milestonesSeen_of_milestoneAt hafter hi, milestonesSeen_of_milestoneAt hbefore hj]
  exact (Except.ok.inj h).symm

theorem milestonesSeen_of_seen {score : Datum} {negative : Bool} {units : Nat} (hpos : 0 < interval)
    (hsmall : interval < 2 ^ 53) (hseen : score.seen = .ok (.finite negative units))
    (hgrid : Binary64.IsGrid units) (hlt : units < 2 ^ 53 * Binary64.unitsPerOne)
    (hunit : negative = true → units = 0 ∨ interval ≤ units) : score.milestonesSeen interval =
      (Binary64.signedUnits negative units).fdiv (interval * Binary64.unitsPerOne : Nat) := by
  exact milestonesSeen_of_milestoneAt hseen
    (floor_of_floor? (Binary64.floor?_div hpos hsmall hgrid hlt hunit))

theorem milestonesSeen_of_absent {score : Datum} (hpos : 0 < interval) (hsmall : interval < 2 ^ 53)
    (habsent : score.isPresent = false) : score.milestonesSeen interval = 0 := by
  have hseen : score.seen = .ok (.finite false 0) := if_neg (Bool.eq_false_iff.mp habsent)
  have hzero : 0 < 2 ^ 53 * Binary64.unitsPerOne :=
    Nat.mul_pos (Nat.two_pow_pos 53) Binary64.unitsPerOne_pos
  rw [milestonesSeen_of_seen hpos hsmall hseen Binary64.isGrid_zero hzero Bool.noConfusion]
  exact Int.zero_fdiv _

theorem milestonesSeen_int (hpos : 0 < interval) (hsmall : interval < 2 ^ 53) {n : Int}
    (hn : n.natAbs < 2 ^ 53) : (int n).milestonesSeen interval = n.fdiv interval := by
  have hone : (0 : Int) < Binary64.unitsPerOne := Int.natCast_pos.mpr Binary64.unitsPerOne_pos
  have hlarge := Binary64.two_pow_lt_unitsPerOne
  cases hpresent : (int n).isPresent with
  | false =>
    have hzero : n = 0 := not_not.mp fun hne => Bool.eq_false_iff.mp hpresent (bne_iff_ne.mpr hne)
    rw [milestonesSeen_of_absent hpos hsmall hpresent, hzero, Int.zero_fdiv]
  | true =>
    have hne : n ≠ 0 := bne_iff_ne.mp hpresent
    have hseen : (int n).seen = .ok (.finite (n < 0) (n.natAbs * Binary64.unitsPerOne)) := by
      rw [seen, if_pos hpresent]
      exact toReal_int (Binary64.ofInt?_natAbs hn)
    have hgrid : Binary64.IsGrid (n.natAbs * Binary64.unitsPerOne) := by
      rw [Binary64.unitsPerOne_eq]
      exact Binary64.isGrid_mul_pow hn 1074
    have hlt := Nat.mul_lt_mul_of_pos_right hn Binary64.unitsPerOne_pos
    have hunit : interval ≤ n.natAbs * Binary64.unitsPerOne := by
      have hwhole := Nat.le_mul_of_pos_left Binary64.unitsPerOne (Int.natAbs_pos.mpr hne)
      omega
    rw [milestonesSeen_of_seen hpos hsmall hseen hgrid hlt fun _ => .inr hunit,
      Binary64.signedUnits_natAbs, Int.natCast_mul, Int.mul_comm n, Int.mul_comm (interval : Int)]
    exact Int.mul_fdiv_mul_of_pos _ _ hone

theorem milestonesSeen_real (hpos : 0 < interval) (hsmall : interval < 2 ^ 53) {negative : Bool}
    {units : Nat} (hgrid : Binary64.IsGrid units) (hlt : units < 2 ^ 53 * Binary64.unitsPerOne)
    (hunit : negative = true → units = 0 ∨ interval ≤ units) :
    (real (.finite negative units)).milestonesSeen interval =
      (Binary64.signedUnits negative units).fdiv (interval * Binary64.unitsPerOne : Nat) := by
  cases hpresent : (real (.finite negative units)).isPresent with
  | false =>
    have hzero : units = 0 := by
      cases units with
      | zero => rfl
      | succ k => cases hpresent
    have hsigned : Binary64.signedUnits negative 0 = 0 := by cases negative <;> rfl
    rw [milestonesSeen_of_absent hpos hsmall hpresent, hzero, hsigned, Int.zero_fdiv]
  | true =>
    have hseen : (real (.finite negative units)).seen = .ok (.finite negative units) := by
      rw [seen, if_pos hpresent]
      exact toReal_number rfl
    exact milestonesSeen_of_seen hpos hsmall hseen hgrid hlt hunit

/-- The milestones of a moderate score are seen as they are. -/
theorem milestonesSeen_eq {score : Datum} (hpos : 0 < interval) (hsmall : interval < 2 ^ 53)
    (hround : score.IsRounded) (h : score.Moderate interval) :
    score.milestonesSeen interval = score.milestones interval := by
  match score with
  | .number (.int n) => exact milestonesSeen_int hpos hsmall h
  | .number (.real (.finite negative units)) => exact milestonesSeen_real hpos hsmall hround h.1 h.2

end Datum

/-! ## What can be seen -/

theorem Number.toReal?_zero : (Number.int 0).toReal? = some .zero := by
  have hexact := Binary64.ofInt?_exact (Nat.two_pow_pos 53)
  rw [Nat.zero_mul] at hexact
  exact hexact

theorem Number.not_beyond {n : Nat} (hn : n < 2 ^ 53) : ¬(Number.int n).Beyond := by
  intro h
  have hexact : (Number.int n).toReal? = some _ := Binary64.ofInt?_exact hn
  cases hexact.symm.trans (toReal?_eq_none_iff.mpr h)

theorem Number.of_absent {n : Number} (h : n.isNonzero = false) : ¬n.Beyond ∧ ¬n.IsLost := by
  cases n with
  | int k =>
    have hzero : k = 0 := not_not.mp fun hne => Bool.eq_false_iff.mp h (bne_iff_ne.mpr hne)
    exact ⟨hzero ▸ not_beyond (Nat.two_pow_pos 53), id⟩
  | real x =>
    refine ⟨id, ?_⟩
    cases x with
    | finite negative units => exact nofun
    | infinite negative => cases h
    | nan => cases h

theorem Datum.seen_number {n : Number} (hn : n.Valid) :
    n.Beyond ∧ (Datum.number n).seen = .error .outOfRange ∨
      ¬n.Beyond ∧ ∃ x, (Datum.number n).seen = .ok x ∧
        (n.IsLost ∧ x.floor? = none ∨ ¬n.IsLost ∧ x.IsFinite) := by
  unfold seen
  cases hpresent : (Datum.number n).isPresent with
  | false =>
    obtain ⟨hnot, hkept⟩ := Number.of_absent hpresent
    exact .inr ⟨hnot, .zero, rfl, .inr ⟨hkept, Binary64.isFinite_zero⟩⟩
  | true =>
    rw [if_pos rfl]
    cases hreal : n.toReal? with
    | none =>
      refine .inl ⟨Number.toReal?_eq_none_iff.mp hreal, ?_⟩
      unfold toReal
      simp only [hreal]
    | some x =>
      refine .inr ⟨fun hbeyond => ?_, x, toReal_number hreal, ?_⟩
      · rw [Number.toReal?_eq_none_iff.mpr hbeyond] at hreal
        cases hreal
      · cases n with
        | int k => exact .inr ⟨id, Binary64.isFinite_of_ofInt? hreal⟩
        | real y =>
          obtain rfl := Option.some.inj hreal
          rcases hn with hfinite | hlost
          · exact .inr ⟨hfinite.floor?_ne_none, hfinite⟩
          · exact .inl ⟨hlost, hlost⟩

theorem Datum.exists_seen {n : Number} (hn : n.IsDouble) (h : ¬n.Beyond) :
    ∃ x, (Datum.number n).seen = .ok x ∧ (¬n.IsLost → x.IsFinite) := by
  rcases seen_number hn.valid with ⟨hbeyond, -⟩ | ⟨-, x, hx, ⟨hlost, -⟩ | ⟨-, hfinite⟩⟩
  · exact absurd hbeyond h
  · exact ⟨x, hx, fun hkept => absurd hlost hkept⟩
  · exact ⟨x, hx, fun _ => hfinite⟩

theorem Datum.seen_eq_ok {n : Number} {x : Binary64} (h : (Datum.number n).seen = .ok x) :
    n.toReal? = some x ∨ n.isNonzero = false ∧ x = .zero := by
  unfold seen at h
  split at h
  · cases hreal : n.toReal? with
    | none =>
      unfold toReal at h
      simp only [hreal] at h
      cases h
    | some y => exact .inl (congrArg some (Except.ok.inj ((toReal_number hreal).symm.trans h)))
  · rename_i habsent
    exact .inr ⟨Bool.eq_false_iff.mpr habsent, (Except.ok.inj h).symm⟩

/-- A score is seen where it comes to lie when it becomes a double. -/
theorem Datum.roundsTo_seen {n : Number} {x : Binary64} (h : (Datum.number n).seen = .ok x) :
    n.RoundsTo x := by
  rcases seen_eq_ok h with hreal | ⟨habsent, rfl⟩
  · exact ⟨x, hreal, rfl⟩
  · cases n with
    | int k =>
      have hzero : k = 0 := not_not.mp fun hne => Bool.eq_false_iff.mp habsent (bne_iff_ne.mpr hne)
      exact ⟨.zero, hzero ▸ Number.toReal?_zero, rfl⟩
    | real y =>
      refine ⟨y, rfl, ?_⟩
      cases y with
      | finite s u =>
        cases u with
        | zero => cases s <;> rfl
        | succ u => cases habsent
      | infinite s => cases habsent
      | nan => cases habsent

theorem Datum.isDouble_seen {n : Number} (hn : n.IsDouble) {x : Binary64}
    (h : (Datum.number n).seen = .ok x) : x.IsDouble := by
  rcases seen_eq_ok h with hreal | ⟨-, rfl⟩
  · cases n with
    | int k => exact Binary64.isDouble_ofInt? hreal
    | real y =>
      obtain rfl := Option.some.inj hreal
      exact hn
  · exact Binary64.isDouble_zero

theorem Tier.milestone_bounds (t : Tier) : ∀ interval ∈ t.milestone, 4 ≤ interval ∧
    interval < 2 ^ 53 := by
  cases t <;> decide

namespace Scheduler

theorem scoreOf_eq (s : Scheduler) : s.scoreOf true = s.state.score.seen := rfl

theorem exists_milestoneAt {interval : Nat} (hlow : 4 ≤ interval) (hhigh : interval < 2 ^ 53)
    {score : Binary64} (h : score.IsFinite) : ∃ n, milestoneAt interval score = .ok n := by
  obtain ⟨n, hn⟩ := Binary64.exists_floor?_div h hlow hhigh
  exact ⟨n, Datum.floor_of_floor? hn⟩

theorem milestoneAt_eq_ok {interval : Nat} (hpos : 0 < interval) (hhigh : interval < 2 ^ 53)
    {score : Binary64} {n : Int} (h : milestoneAt interval score = .ok n) :
    ∃ s u, score = .finite s u ∧
      n = (Binary64.signedUnits s (Binary64.nearestUnits u interval)).fdiv Binary64.unitsPerOne := by
  have hfloor : (score.div (.ofInt interval)).floor? = some n := Datum.floor_eq_ok h
  cases score with
  | finite s u =>
    refine ⟨s, u, rfl, ?_⟩
    rw [Binary64.div_ofInt s u hpos hhigh] at hfloor
    unfold Binary64.ofFraction at hfloor
    simp only at hfloor
    split at hfloor
    · exact (Option.some.inj hfloor).symm
    · cases hfloor
  | _ =>
    rw [Binary64.floor?_div_ofInt rfl hhigh] at hfloor
    cases hfloor

/-- A greater score has not passed fewer milestones. -/
theorem milestoneAt_mono {interval : Nat} (hpos : 0 < interval) (hhigh : interval < 2 ^ 53)
    {x y : Binary64} (hle : x.le y = true) {i j : Int} (hi : milestoneAt interval x = .ok i)
    (hj : milestoneAt interval y = .ok j) : i ≤ j := by
  obtain ⟨s, u, rfl, rfl⟩ := milestoneAt_eq_ok hpos hhigh hi
  obtain ⟨t, v, rfl, rfl⟩ := milestoneAt_eq_ok hpos hhigh hj
  have hunits : (0 : Int) ≤ Binary64.unitsPerOne := Int.natCast_nonneg _
  rw [Int.fdiv_eq_ediv_of_nonneg _ hunits, Int.fdiv_eq_ediv_of_nonneg _ hunits]
  exact Int.ediv_le_ediv (Int.natCast_pos.mpr Binary64.unitsPerOne_pos)
    (Binary64.signedUnits_nearest_mono hpos (of_decide_eq_true hle))

end Scheduler

end SeededPlay

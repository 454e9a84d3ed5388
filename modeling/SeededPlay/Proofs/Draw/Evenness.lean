/-
# `SeededPlay.Proofs.Draw.Evenness` — every place has its even share of the draws

Among `n` places a draw `k` has the place `k · n / 2 ^ 32`, cut off at the point.  The draws for
one place are therefore an interval, from one multiple of `2 ^ 32 / n` to the next, both rounded
up (`place_iff`), and between two such ends lie as many whole numbers as `2 ^ 32 / n` rounded
down or rounded up (`even_interval`).  Numbers between two bounds and items of a list are both
drawn by their place, so neither favours any outcome by more than one draw (`draws_even`).

The statement starts from the recorder, and not from the draw: what is noted beside an
outcome is the written digest, the draw is the number that its first eight digits write, and
the outcome is what that draw comes to (`between_int`, `choice_list`).
-/
import Mathlib
import SeededPlay.Proofs.Draw.Shares

namespace SeededPlay

namespace Draw

/-- So many draws come to one of `n` outcomes as all draws divided by `n`, rounded down or up. -/
def IsEvenShare (n : Nat) (draws : Set UInt32) : Prop :=
  2 ^ 32 / n ≤ draws.ncard ∧ draws.ncard ≤ 2 ^ 32 ⌈/⌉ n

/-! ## The draws for one place -/

variable {n : Nat}

theorem place_iff (hn : 0 < n) {k i : Nat} :
    k * n / 2 ^ 32 = i ↔ (i * 2 ^ 32) ⌈/⌉ n ≤ k ∧ k < ((i + 1) * 2 ^ 32) ⌈/⌉ n := by
  have hcut : ∀ j, j ≤ k * n / 2 ^ 32 ↔ (j * 2 ^ 32) ⌈/⌉ n ≤ k := fun j => by
    rw [Nat.le_div_iff_mul_le (Nat.two_pow_pos 32), ceilDiv_le_iff_le_mul hn, Nat.mul_comm k]
  rw [← hcut, ← not_le, ← hcut]
  omega

/-- An interval from one multiple of a fraction to the next is as long as the fraction, rounded
down or up. -/
theorem even_interval (hn : 0 < n) (i q : Nat) :
    (i * q) ⌈/⌉ n + q / n ≤ ((i + 1) * q) ⌈/⌉ n ∧
      ((i + 1) * q) ⌈/⌉ n ≤ (i * q) ⌈/⌉ n + q ⌈/⌉ n := by
  have hfloor : n * (q / n) ≤ q := Nat.mul_div_le q n
  have hceil : q ≤ n * (q ⌈/⌉ n) := le_smul_ceilDiv hn
  have hstart : i * q ≤ n * ((i * q) ⌈/⌉ n) := le_smul_ceilDiv hn
  have hend : (i + 1) * q ≤ n * (((i + 1) * q) ⌈/⌉ n) := le_smul_ceilDiv hn
  rw [Nat.succ_mul] at hend ⊢
  constructor
  · have hle : q / n ≤ (i * q + q) ⌈/⌉ n :=
      Nat.le_of_mul_le_mul_left ((hfloor.trans (Nat.le_add_left q (i * q))).trans hend) hn
    have hback : (i * q) ⌈/⌉ n ≤ (i * q + q) ⌈/⌉ n - q / n := by
      rw [ceilDiv_le_iff_le_mul hn, Nat.mul_sub]
      omega
    omega
  · rw [ceilDiv_le_iff_le_mul hn, Nat.mul_add]
    exact Nat.add_le_add hstart hceil

theorem ncard_interval {low high : Nat} (hhigh : high ≤ 2 ^ 32) :
    {k : UInt32 | low ≤ k.toNat ∧ k.toNat < high}.ncard = high - low := by
  have himage : UInt32.toNat '' {k : UInt32 | low ≤ k.toNat ∧ k.toNat < high} =
      ↑(Finset.Ico low high) := by
    ext m
    rw [Finset.coe_Ico, Set.mem_image, Set.mem_Ico]
    constructor
    · rintro ⟨k, hk, rfl⟩
      exact hk
    · rintro ⟨hlow, hlt⟩
      have hm : (UInt32.ofNat m).toNat = m := UInt32.toNat_ofNat_of_lt' (hlt.trans_le hhigh)
      exact ⟨.ofNat m, by rw [Set.mem_ofPred_eq, hm]; exact ⟨hlow, hlt⟩, hm⟩
  have hinj : Function.Injective UInt32.toNat := fun _ _ => UInt32.toNat_inj.mp
  rw [← Set.ncard_image_of_injective _ hinj, himage, Set.ncard_coe_finset, Nat.card_Ico]

theorem isEvenShare_place (hn : 0 < n) {i : Nat} (hi : i < n) :
    IsEvenShare n {k : UInt32 | k.toNat * n / 2 ^ 32 = i} := by
  have hdraws : {k : UInt32 | k.toNat * n / 2 ^ 32 = i} =
      {k | (i * 2 ^ 32) ⌈/⌉ n ≤ k.toNat ∧ k.toNat < ((i + 1) * 2 ^ 32) ⌈/⌉ n} :=
    Set.ext fun k => place_iff hn
  have hlast : ((i + 1) * 2 ^ 32) ⌈/⌉ n ≤ 2 ^ 32 :=
    (ceilDiv_le_iff_le_mul hn).mpr (Nat.mul_le_mul_right _ hi)
  obtain ⟨hlow, hhigh⟩ := even_interval hn i (2 ^ 32)
  unfold IsEvenShare
  rw [hdraws, ncard_interval hlast]
  omega

theorem isEvenShare_place_eq (hle : n ≤ 2 ^ 21) {i : Nat} (hi : i < n) :
    IsEvenShare n {k | place k n = .ok (i : Int)} := by
  have hdraws : {k | place k n = .ok (i : Int)} = {k | k.toNat * n / 2 ^ 32 = i} := by
    ext k
    simp only [Set.mem_ofPred_eq, place_eq k hle, Except.ok.injEq, Nat.cast_inj]
  rw [hdraws]
  exact isEvenShare_place (Nat.zero_lt_of_lt hi) hi

theorem isEvenShare_between {low high m : Int} (hn : n = (high - low).natAbs + 1)
    (hle : n ≤ 2 ^ 21) (hlow : min low high ≤ m) (hhigh : m ≤ max low high) :
    IsEvenShare n {k | between k low high = .ok m} := by
  obtain ⟨i, rfl⟩ := Int.le.dest hlow
  have hi : i < n := by omega
  have hdraws : {k | between k low high = .ok (min low high + i)} =
      {k | k.toNat * n / 2 ^ 32 = i} := by
    ext k
    simp only [Set.mem_ofPred_eq, between_eq k hn hle, Except.ok.injEq, Int.add_right_inj,
      Nat.cast_inj]
  rw [hdraws]
  exact isEvenShare_place (Nat.zero_lt_of_lt hi) hi

theorem isEvenShare_pick {α : Type} {options : List α} {a : α} (hdistinct : options.Nodup)
    (hle : options.length ≤ 2 ^ 21) (ha : a ∈ options) :
    IsEvenShare options.length {k | pick k options = .ok (some a)} := by
  obtain ⟨i, hi, rfl⟩ := List.getElem_of_mem ha
  have hdraws : {k | pick k options = .ok (some options[i])} =
      {k | k.toNat * options.length / 2 ^ 32 = i} := by
    ext k
    obtain ⟨hlt, hpick⟩ := exists_pick_eq k (List.ne_nil_of_mem ha) hle
    simp only [Set.mem_ofPred_eq, hpick, Except.ok.injEq, Option.some.injEq,
      hdistinct.getElem_inj_iff]
  rw [hdraws]
  exact isEvenShare_place (Nat.zero_lt_of_lt hi) hi

end Draw

/-! ## Recorders -/

namespace Recorder

variable (r : Recorder) (nonce : Datum) (purpose : String)

theorem between_int (low high : Int) :
    (r.between nonce purpose (.int low) (.int high)).1 =
      (Draw.between (r.stream.word nonce purpose) low high).map .int := by
  have hread : ∀ n : Int, (Datum.int n).toNumber = .ok (.int n) := fun _ => rfl
  have hdraw : ∀ k, Draw.betweenNumbers k (.int low) (.int high) =
      (Draw.between k low high).map .int := fun _ => rfl
  have hbind : ∀ {α β : Type} (a : α) (f : α → Except Fault β), Except.ok a >>= f = f a :=
    fun _ _ => rfl
  rw [between, fst_draw, hread, hread, hbind, hbind, hdraw]
  -- The drawn number is left out of sight: evaluating it is out of question.
  generalize Draw.between (r.stream.word nonce purpose) low high = drawn
  cases drawn <;> rfl

theorem choice_list {items : List Datum} (hne : items ≠ []) :
    (r.choice nonce purpose (.list items)).1 =
      (Draw.pick (r.stream.word nonce purpose) items).map (·.getD .null) := by
  have hpresent : (Datum.list items).isPresent = true := by
    rw [Datum.isPresent, List.isEmpty_eq_false_iff.mpr hne, Bool.not_false]
  unfold choice
  rw [hpresent, Bool.not_true, if_neg Bool.false_ne_true]
  exact fst_draw r nonce purpose _

end Recorder

namespace Draw

/-- Draws are even.  The draw is the number that the first eight digits of the digest write.
Between two bounds with at most `2 ^ 21` integers from one to the other, given in either order,
a draw stands for the one that lies by its place above the lower bound; of a list with at most
`2 ^ 21` items it stands for the one in its place.  Each number, each place, and each item of a
list without repetitions has as many draws as all draws divided by their number, rounded down
or up. -/
theorem draws_even {α : Type} :
    (∀ (r : Recorder) (nonce : Datum) (purpose : String),
      readHex (String.ofList (slice (r.stream.digest nonce purpose).hex.toList 0 8)) =
        .ok ((r.stream.word nonce purpose).toNat : Int) ∧
      (∀ low high : Int, (r.between nonce purpose (.int low) (.int high)).1 =
        (between (r.stream.word nonce purpose) low high).map .int) ∧
      ∀ items : List Datum, items ≠ [] → (r.choice nonce purpose (.list items)).1 =
        (pick (r.stream.word nonce purpose) items).map (·.getD .null)) ∧
    (∀ (low high : Int) (n : Nat), n = (high - low).natAbs + 1 → n ≤ 2 ^ 21 →
      (∀ k, between k low high = .ok (min low high + (k.toNat * n / 2 ^ 32 : Nat)) ∧
        min low high + (k.toNat * n / 2 ^ 32 : Nat) ≤ max low high) ∧
      ∀ m, min low high ≤ m → m ≤ max low high →
        IsEvenShare n {k | between k low high = .ok m}) ∧
    ∀ options : List α, options ≠ [] → options.length ≤ 2 ^ 21 →
      (∀ k, place k options.length = .ok ((k.toNat * options.length / 2 ^ 32 : Nat) : Int) ∧
        ∃ h : k.toNat * options.length / 2 ^ 32 < options.length,
          pick k options = .ok (some options[k.toNat * options.length / 2 ^ 32])) ∧
      (∀ i < options.length,
        IsEvenShare options.length {k | place k options.length = .ok (i : Int)}) ∧
      (options.Nodup → ∀ a ∈ options,
        IsEvenShare options.length {k | pick k options = .ok (some a)}) := by
  refine ⟨fun r nonce purpose => ⟨Digest.readHex_hex _, r.between_int nonce purpose,
      fun items => r.choice_list nonce purpose⟩,
    fun low high n hn hle => ⟨fun k => ⟨between_eq k hn hle, ?_⟩,
      fun m => isEvenShare_between hn hle⟩,
    fun options hne hle => ⟨fun k => ⟨place_eq k hle, exists_pick_eq k hne hle⟩,
      fun i => isEvenShare_place_eq hle, fun hdistinct a => isEvenShare_pick hdistinct hle⟩⟩
  have hlt := place_lt k (n := n) (by omega)
  omega

theorem draws_even_chaos :
    (∀ a ∈ ["score_threshold", "survive_time", "collect_all"],
      IsEvenShare 3 {k | pick k ["score_threshold", "survive_time", "collect_all"] =
        .ok (some a)}) ∧
    ∀ m : Int, -100 ≤ m → m ≤ 99 → IsEvenShare 200 {k | between k 99 (-100) = .ok m} := by
  obtain ⟨-, hbetween, hpick⟩ := draws_even (α := String)
  refine ⟨?_, fun m hlow hhigh => ?_⟩
  · exact (hpick ["score_threshold", "survive_time", "collect_all"] (List.cons_ne_nil _ _)
      (by decide)).2.2 (by decide)
  · exact (hbetween 99 (-100) 200 (by decide) (by decide)).2 m hlow hhigh

end Draw

end SeededPlay

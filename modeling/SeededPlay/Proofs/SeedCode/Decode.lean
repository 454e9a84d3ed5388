/-
# `SeededPlay.Proofs.SeedCode.Decode` — what comes out of any text

Any text at all can be read as a seed code.  Whatever it says, the chaos that is read
is a multiple of eleven up to 99 (`SeedCode.decode_chaos`) and the seed is one of the
seed space (`SeedCode.decode_seed_lt`).

The seed is where upper case matters.  A text is turned to upper case before it is cut,
and a segment once more when it is read, after its four characters were counted.  The
second time must not make more of them, and it does not: what has an upper case of
several characters is itself the upper case of nothing
(`Text.length_upperChar_of_mem`).

An expansion is the upper case of one character by several.  A character that has one is not
ASCII, stands in no expansion, and is in the image of no run (`upperExpansions_apart`).  Every
symbol is a digit to the base, so a number grows by one digit at most
(`readSymbols?_lt`), and four symbols stay below the number of seeds.
-/
import SeededPlay.Proofs.SeedCode.Code

namespace SeededPlay

namespace Text

/-! ## Where upper case comes from -/

/-- How a character comes by its upper case: by ASCII, by an expansion, by a run of pairs,
or by being its own. -/
inductive UpperCase (c : Char) : List Char → Prop
  | ascii : c.toNat < 0x80 → UpperCase c [c.toUpper]
  | several {codes : List Nat} : 0x80 ≤ c.toNat → (c.toNat, codes) ∈ upperExpansions →
      UpperCase c (codes.map Char.ofNat)
  | shifted {r : CaseRun} : 0x80 ≤ c.toNat → r ∈ upperRuns → r.first ≤ c.toNat →
      c.toNat ≤ r.last → UpperCase c [Char.ofNat ((c.toNat : Int) + r.shift).toNat]
  | same : 0x80 ≤ c.toNat → upperExpansions.lookup c.toNat = none →
      CaseRun.shift? upperRuns c.toNat = none → UpperCase c [c]

theorem upperCase (c : Char) : UpperCase c (upperChar c) := by
  unfold upperChar
  split
  · rename_i hascii
    exact .ascii hascii
  · rename_i hlarge
    have hlarge := Nat.not_lt.mp hlarge
    unfold otherCase
    split
    · rename_i codes hcodes
      obtain ⟨before, after, hlist, -⟩ := List.lookup_eq_some_iff.mp hcodes
      refine .several hlarge ?_
      rw [hlist]
      exact List.mem_append_right _ List.mem_cons_self
    · rename_i hnone
      split
      · rename_i shift hshift
        obtain ⟨r, hr, rfl⟩ := Option.map_eq_some_iff.mp hshift
        have hin := List.find?_some hr
        simp only [Bool.and_eq_true, decide_eq_true_eq] at hin
        exact .shifted hlarge (List.mem_of_find?_eq_some hr) hin.1.1 hin.1.2
      · rename_i hshift
        exact .same hlarge hnone hshift

/-! ## Upper case is taken once -/

theorem toNat_toUpper_of_ascii {c : Char} (h : c.toNat < 0x80) : c.toUpper.toNat < 0x80 :=
  SeedCode.forall_ascii (p := fun c => c.toUpper.toNat < 0x80) (by decide) h

theorem toNat_ofNat_cases (n : Nat) : (Char.ofNat n).toNat = n ∨ (Char.ofNat n).toNat = 0 := by
  rw [Char.toNat_ofNat]
  split
  · exact Or.inl rfl
  · exact Or.inr rfl

/-- A character whose upper case is several characters is the upper case of none: it is
not ASCII, in no expansion, and in the image of no run. -/
theorem upperExpansions_apart :
    (upperExpansions.all fun e => 0x80 ≤ e.1 &&
      (upperExpansions.all fun f => !f.2.contains e.1) &&
      upperRuns.all fun r => (e.1 : Int) < r.first + r.shift || r.last + r.shift < e.1) = true := by
  decide +kernel

theorem length_upperChar {c : Char} (h : upperExpansions.lookup c.toNat = none) :
    (upperChar c).length = 1 := by
  unfold upperChar otherCase
  split
  · rfl
  · rw [h]
    simp only
    split <;> rfl

theorem length_upperChar_ofNat {n : Nat} (h : ∀ e ∈ upperExpansions, n ≠ e.1) :
    (upperChar (Char.ofNat n)).length = 1 := by
  refine length_upperChar (List.lookup_eq_none_iff.mpr fun e he => ?_)
  have hapart := List.all_eq_true.mp upperExpansions_apart e he
  simp only [Bool.and_eq_true, decide_eq_true_eq] at hapart
  have hne := h e he
  rw [bne_iff_ne]
  rcases toNat_ofNat_cases n with hn | hn <;> omega

/-- What upper case gives has an upper case of one character. -/
theorem length_upperChar_of_mem {c u : Char} (h : u ∈ upperChar c) : (upperChar u).length = 1 := by
  have hapart := fun e he => List.all_eq_true.mp upperExpansions_apart e he
  simp only [Bool.and_eq_true, decide_eq_true_eq, List.all_eq_true, Bool.not_eq_true',
    Bool.or_eq_true, and_assoc] at hapart
  have hupper := upperCase c
  generalize upperChar c = us at h hupper
  cases hupper with
  | ascii hascii =>
    rw [List.mem_singleton.mp h]
    exact congrArg List.length (if_pos (toNat_toUpper_of_ascii hascii))
  | several _ hmem =>
    obtain ⟨n, hn, rfl⟩ := List.mem_map.mp h
    refine length_upperChar_ofNat fun e he heq => ?_
    have hnot := (hapart e he).2.1 _ hmem
    rw [← heq, List.contains_iff_mem.mpr hn] at hnot
    cases hnot
  | @shifted r _ hr hfirst hlast =>
    rw [List.mem_singleton.mp h]
    refine length_upperChar_ofNat fun e he heq => ?_
    obtain ⟨hlow, -, hruns⟩ := hapart e he
    have hrun := hruns r hr
    omega
  | same _ hnone _ =>
    rw [List.mem_singleton.mp h]
    exact length_upperChar hnone

theorem mem_upperChars {cs : List Char} {u : Char} (h : u ∈ upperChars cs) :
    ∃ c, u ∈ upperChar c := by
  obtain ⟨c, -, hu⟩ := List.mem_flatMap.mp h
  exact ⟨c, hu⟩

theorem mem_of_mem_splitChars {sep u : Char} {cs piece : List Char}
    (hp : piece ∈ splitChars sep cs) (hu : u ∈ piece) : u ∈ cs := by
  induction cs generalizing piece with
  | nil =>
    rw [List.mem_singleton.mp hp] at hu
    exact hu
  | cons c cs ih =>
    rw [splitChars_cons] at hp
    split at hp
    · rcases List.mem_cons.mp hp with rfl | hp
      · exact absurd hu List.not_mem_nil
      · exact List.mem_cons_of_mem c (ih hp hu)
    · split at hp
      · rename_i first rest hsplit
        rcases List.mem_cons.mp hp with rfl | hp
        · rcases List.mem_cons.mp hu with rfl | hu
          · exact List.mem_cons_self
          · exact List.mem_cons_of_mem c (ih (hsplit ▸ List.mem_cons_self) hu)
        · exact List.mem_cons_of_mem c (ih (hsplit ▸ List.mem_cons_of_mem first hp) hu)
      · rw [List.mem_singleton.mp hp] at hu
        rw [List.mem_singleton.mp hu]
        exact List.mem_cons_self

end Text

namespace SeedCode

open Text

/-! ## Seeds -/

/-- Every symbol is a digit to the base, so a number grows by one digit at most. -/
theorem readSymbols?_lt {n m : Nat} {cs : List Char} (h : readSymbols? n cs = some m) :
    m < (n + 1) * base ^ cs.length := by
  induction cs generalizing n with
  | nil =>
    obtain rfl := Option.some.inj h
    rw [List.length_nil, Nat.pow_zero, Nat.mul_one]
    exact Nat.lt_succ_self _
  | cons c cs ih =>
    obtain ⟨d, hd, hrest⟩ := Option.bind_eq_some_iff.mp h
    obtain ⟨hlt, -⟩ := List.idxOf?_eq_some_iff.mp hd
    have hlen : alphabet.length = base := by decide
    have hdigit : n * base + d + 1 ≤ (n + 1) * base := by
      rw [Nat.succ_mul]
      omega
    calc m < (n * base + d + 1) * base ^ cs.length := ih hrest
      _ ≤ (n + 1) * base * base ^ cs.length := Nat.mul_le_mul_right _ hdigit
      _ = (n + 1) * base ^ (c :: cs).length := by
        rw [List.length_cons, Nat.pow_succ', Nat.mul_assoc]

theorem readSegment_lt {cs : List Char} (h : ∀ c ∈ cs, (upperChar c).length = 1) :
    readSegment (String.ofList cs) < seedSpace := by
  unfold readSegment
  split
  · rename_i hlen
    rw [String.length_ofList] at hlen
    have hupper : (upperChars cs).length = width := by
      unfold upperChars
      rw [List.length_flatMap, List.map_congr_left h, List.map_const', List.sum_replicate_nat,
        Nat.mul_one, hlen]
    rw [String.toList_ofList]
    cases hr : readSymbols? 0 (upperChars cs) with
    | none => exact seedSpace_pos
    | some m =>
      have hm := readSymbols?_lt hr
      rw [hupper, Nat.zero_add, Nat.one_mul, ← seedSpace_eq] at hm
      exact hm
  · exact seedSpace_pos

theorem decode_seed_lt (s : String) : (decode s).seed < seedSpace := by
  unfold decode
  split
  · rename_i verb gravity world seed hsplit
    refine readSegment_lt fun u hu => ?_
    have hpiece : seed ∈ splitChars '-' (upperChars (trimChars s.toList)) := by
      rw [hsplit]
      simp
    obtain ⟨c, hc⟩ := mem_upperChars (mem_of_mem_splitChars hpiece hu)
    exact length_upperChar_of_mem hc
  · exact seedSpace_pos

/-! ## Chaos -/

theorem chaosOfDigit_eq (c : Option Char) : ∃ d ≤ 9, chaosOfDigit c = 11 * d := by
  unfold chaosOfDigit
  split
  · split
    · rename_i c hc
      simp only [Char.isDigit, Bool.and_eq_true, decide_eq_true_eq] at hc
      have hhigh : c.toNat ≤ 57 := hc.2
      refine ⟨c.toNat - 0x30, by omega, ?_⟩
      unfold ChaosLevel.step
      omega
    · exact ⟨0, by omega, rfl⟩
  · exact ⟨0, by omega, rfl⟩

theorem decode_chaos (s : String) : ∃ d ≤ 9, (decode s).chaos = 11 * d := by
  unfold decode
  split
  · exact chaosOfDigit_eq _
  · exact ⟨0, by omega, rfl⟩

end SeedCode

end SeededPlay

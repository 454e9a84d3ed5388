/-
# `SeededPlay.Proofs.SeedCode.Spelling` — the characters that are read as symbols

A segment is turned to upper case before its symbols are looked up, and upper case is that
of the whole of Unicode.  So besides the symbols and their small ASCII letters there are
five more characters that spell symbols: the sharp s, the long s, and three ligatures
(`irregular`).  All but one of them spell two symbols at once.

`spelling` says what a character spells without the tables of upper case, and it agrees
with them wherever it matters, on all characters whose upper case is made of symbols
(`upperChar_eq_spelling`, `upperChar_of_spelling`).  The tables are gone through by the ways
in which a character comes by its upper case (`Text.UpperCase`), and nothing spells a symbol
only in two steps (`mem_alphabet_of_upper`).

## The tables

Upper case comes from three tables: the capitals of ASCII, runs of pairs, and expansions.
What is no small letter of ASCII is left alone by the first (`toUpper_eq_self`).  Runs that
lead into ASCII are those of two letters, the dotless i and the long s, and no run leads to an
irregular character (`runs_spell`).  Expansions made of symbols are those of irregular
characters, and no expansion leads to a dash, a small letter of ASCII or an irregular
character (`expansions_spell`).  An irregular character is beyond ASCII, its upper case are the
symbols that it spells, and none of them is the zero (`irregular_table`).

The dash matters as much as the symbols, because codes are cut at it: it is the upper case of
the dash alone (`eq_dash_of_mem`).
-/
import SeededPlay.Proofs.SeedCode.Decode

namespace SeededPlay

namespace Text

/-! ## Capitals of ASCII -/

theorem upperChar_of_lt {c : Char} (h : c.toNat < 0x80) : upperChar c = [c.toUpper] := if_pos h

theorem toUpper_eq_self {c : Char} (h : ¬(0x61 ≤ c.toNat ∧ c.toNat ≤ 0x7A)) : c.toUpper = c := by
  unfold Char.toUpper
  exact dif_neg h

theorem toNat_toUpper_of_lt {c : Char} (h : c.toNat < 0x80) :
    ¬(0x61 ≤ c.toUpper.toNat ∧ c.toUpper.toNat ≤ 0x7A) :=
  SeedCode.forall_ascii (p := fun c => ¬(0x61 ≤ c.toUpper.toNat ∧ c.toUpper.toNat ≤ 0x7A))
    (by decide) h

theorem toUpper_eq_dash {c : Char} (h : c.toUpper = '-') : c = '-' := by
  by_cases hsmall : 0x61 ≤ c.toNat ∧ c.toNat ≤ 0x7A
  · exact SeedCode.forall_ascii (p := fun c => c.toUpper = '-' → c = '-') (by decide) (by omega) h
  · rwa [toUpper_eq_self hsmall] at h

end Text

namespace SeedCode

open Text

/-! ## What characters spell -/

/-- The characters beyond ASCII that spell symbols. -/
def irregular : List (Char × List Char) :=
  [('ß', ['S', 'S']), ('ſ', ['S']), ('ﬀ', ['F', 'F']), ('ﬅ', ['S', 'T']), ('ﬆ', ['S', 'T'])]

/-- Whether a character beyond ASCII spells symbols. -/
def IsIrregular (c : Char) : Prop := c ∈ irregular.map (·.1)

instance : DecidablePred IsIrregular := fun c =>
  inferInstanceAs (Decidable (c ∈ irregular.map (·.1)))

/-- What a character spells: itself, as an ASCII capital if it is a small letter of ASCII,
unless it is irregular. -/
def spelling (c : Char) : List Char := (irregular.lookup c).getD [c.toUpper]

/-- What a text spells. -/
def spellings (cs : List Char) : List Char := cs.flatMap spelling

theorem spelling_of_not_irregular {c : Char} (h : ¬IsIrregular c) : spelling c = [c.toUpper] := by
  have hnone : irregular.lookup c = none := List.lookup_eq_none_iff.mpr fun e he => by
    rw [bne_iff_ne]
    rintro rfl
    exact h (List.mem_map.mpr ⟨e, he, rfl⟩)
  unfold spelling
  rw [hnone, Option.getD_none]

theorem irregular_table : (irregular.all fun e => 0x80 ≤ e.1.toNat && upperChar e.1 == spelling e.1 &&
    !(spelling e.1).isEmpty && (spelling e.1).all fun u => alphabet.contains u &&
      alphabet.idxOf u != 0) = true := by
  decide +kernel

theorem alphabet_table : (alphabet.all fun c => 0x30 ≤ c.toNat && c.toNat ≤ 0x5A) = true := by
  decide +kernel

theorem toNat_of_mem_alphabet {c : Char} (h : c ∈ alphabet) : 0x30 ≤ c.toNat ∧ c.toNat ≤ 0x5A := by
  have hc := List.all_eq_true.mp alphabet_table c h
  simpa only [Bool.and_eq_true, decide_eq_true_eq] using hc

section

variable {c : Char} (h : IsIrregular c)

include h

theorem IsIrregular.spec : 0x80 ≤ c.toNat ∧ upperChar c = spelling c ∧ spelling c ≠ [] ∧
    ∀ u ∈ spelling c, u ∈ alphabet ∧ alphabet.idxOf u ≠ 0 := by
  obtain ⟨e, he, rfl⟩ := List.mem_map.mp h
  have hrow := List.all_eq_true.mp irregular_table e he
  simp only [Bool.and_eq_true, decide_eq_true_eq, beq_iff_eq, Bool.not_eq_true',
    List.isEmpty_eq_false_iff, List.all_eq_true, List.contains_iff_mem, bne_iff_ne] at hrow
  obtain ⟨⟨⟨hlarge, hupper⟩, hne⟩, hsymbols⟩ := hrow
  exact ⟨hlarge, hupper, hne, hsymbols⟩

theorem IsIrregular.le : 0x80 ≤ c.toNat := h.spec.1

theorem IsIrregular.upperChar : upperChar c = spelling c := h.spec.2.1

theorem IsIrregular.mem_alphabet {u : Char} (hu : u ∈ spelling c) : u ∈ alphabet :=
  (h.spec.2.2.2 u hu).1

end

theorem not_irregular_of_lt {c : Char} (h : c.toNat < 0x80) : ¬IsIrregular c := fun hc =>
  absurd hc.le (Nat.not_le.mpr h)

/-! ## The tables -/

/-- Whether a code point is that of a dash, of a small letter of ASCII, or of an irregular
character: the ones that are no upper case of anything beyond ASCII. -/
def isUnreached (n : Nat) : Bool :=
  n == 0x2D || 0x61 ≤ n && n ≤ 0x7A || (irregular.map (·.1.toNat)).contains n

/-- Expansions made of symbols are those of irregular characters, and no expansion leads to
a dash, a small letter of ASCII or an irregular character. -/
theorem expansions_spell : (upperExpansions.all fun e =>
    (!(e.2.all fun n => alphabet.contains (Char.ofNat n)) ||
      e.2.map Char.ofNat == spelling (Char.ofNat e.1)) &&
    e.2.all fun n => !isUnreached (Char.ofNat n).toNat) = true := by
  decide +kernel

/-- Runs that lead into ASCII are those of two letters, the dotless i and the long s, and no
run leads to an irregular character. -/
theorem runs_spell : (upperRuns.all fun r =>
    (r.first == 0x131 && r.last == 0x131 && r.shift == 0x49 - 0x131 ||
      r.first == 0x17F && r.last == 0x17F && r.shift == 0x53 - 0x17F ||
      (r.last : Int) + r.shift < 0x2D || 0x7A < (r.first : Int) + r.shift) &&
    irregular.all fun e => (r.last : Int) + r.shift < e.1.toNat ||
      e.1.toNat < (r.first : Int) + r.shift) = true := by
  decide +kernel

theorem isUnreached_eq_true {n : Nat} (h : isUnreached n = true) :
    n = 0x2D ∨ 0x61 ≤ n ∧ n ≤ 0x7A ∨ ∃ e ∈ irregular, e.1.toNat = n := by
  unfold isUnreached at h
  simpa only [Bool.or_eq_true, Bool.and_eq_true, decide_eq_true_eq, beq_iff_eq,
    List.contains_iff_mem, List.mem_map, or_assoc] using h

theorem runs_cases {r : CaseRun} (hr : r ∈ upperRuns) {n : Nat} (hfirst : r.first ≤ n)
    (hlast : n ≤ r.last) :
    (n = 0x131 ∧ ((n : Int) + r.shift).toNat = 0x49 ∨
      n = 0x17F ∧ ((n : Int) + r.shift).toNat = 0x53 ∨
      ((n : Int) + r.shift).toNat < 0x2D ∨ 0x7A < ((n : Int) + r.shift).toNat) ∧
    ∀ e ∈ irregular, ((n : Int) + r.shift).toNat ≠ e.1.toNat := by
  have hrow := List.all_eq_true.mp runs_spell r hr
  simp only [Bool.and_eq_true, Bool.or_eq_true, decide_eq_true_eq, beq_iff_eq,
    List.all_eq_true] at hrow
  obtain ⟨hascii, hirregular⟩ := hrow
  refine ⟨by omega, fun e he => ?_⟩
  have hapart := hirregular e he
  have hpos : 0 < e.1.toNat := by
    have := (show IsIrregular e.1 from List.mem_map.mpr ⟨e, he, rfl⟩).le
    omega
  omega

theorem isUnreached_of_mem {c u : Char} (hc : 0x80 ≤ c.toNat) (hu : u ∈ upperChar c) :
    isUnreached u.toNat = false := by
  have hcase := upperCase c
  generalize hus : upperChar c = us at hcase hu
  cases hcase with
  | ascii hascii => omega
  | several _ hmem =>
    have hrow := List.all_eq_true.mp expansions_spell _ hmem
    obtain ⟨n, hn, rfl⟩ := List.mem_map.mp hu
    have hreached := List.all_eq_true.mp (Bool.and_eq_true _ _ ▸ hrow).2 n hn
    simpa only [Bool.not_eq_true'] using hreached
  | @shifted r _ hmem hfirst hlast =>
    obtain ⟨hascii, hirregular⟩ := runs_cases hmem hfirst hlast
    rw [List.mem_singleton.mp hu]
    refine Bool.eq_false_iff.mpr fun htrue => ?_
    rcases toNat_ofNat_cases ((c.toNat : Int) + r.shift).toNat with hn | hn
    · rw [hn] at htrue
      rcases isUnreached_eq_true htrue with h | h | ⟨e, he, h⟩
      · omega
      · omega
      · exact hirregular e he h.symm
    · rw [hn] at htrue
      exact absurd htrue (by decide)
  | same _ _ _ =>
    rw [List.mem_singleton.mp hu]
    refine Bool.eq_false_iff.mpr fun htrue => ?_
    rcases isUnreached_eq_true htrue with h | h | ⟨e, he, h⟩
    · omega
    · omega
    · -- An irregular character is not its own upper case.
      obtain rfl : e.1 = c := Char.toNat_inj.mp h
      have hirr : IsIrregular e.1 := List.mem_map.mpr ⟨e, he, rfl⟩
      have hself : e.1 ∈ spelling e.1 := by
        rw [← hirr.upperChar, hus]
        exact List.mem_cons_self
      have := (toNat_of_mem_alphabet (hirr.mem_alphabet hself)).2
      omega

/-! ## Spelling symbols -/

/-- A character whose upper case is made of symbols spells them. -/
theorem upperChar_eq_spelling {c : Char} (h : ∀ u ∈ upperChar c, u ∈ alphabet) :
    upperChar c = spelling c := by
  have hcase := upperCase c
  generalize hus : upperChar c = us at hcase h
  cases hcase with
  | ascii hascii => exact (spelling_of_not_irregular (not_irregular_of_lt hascii)).symm
  | @several codes _ hmem =>
    have hrow := List.all_eq_true.mp expansions_spell _ hmem
    have hsymbols : (codes.all fun n => alphabet.contains (Char.ofNat n)) = true :=
      List.all_eq_true.mpr fun n hn =>
        List.contains_iff_mem.mpr (h _ (List.mem_map.mpr ⟨n, hn, rfl⟩))
    rw [Bool.and_eq_true, hsymbols, Bool.not_true, Bool.false_or, beq_iff_eq,
      Char.ofNat_toNat] at hrow
    exact hrow.1
  | @shifted r _ hmem hfirst hlast =>
    have hsymbol := h _ List.mem_cons_self
    have hrange := toNat_of_mem_alphabet hsymbol
    have hcode : ((c.toNat : Int) + r.shift).toNat =
        (Char.ofNat ((c.toNat : Int) + r.shift).toNat).toNat := by
      rcases toNat_ofNat_cases ((c.toNat : Int) + r.shift).toNat with hn | hn <;> omega
    rcases (runs_cases hmem hfirst hlast).1 with ⟨-, hi⟩ | ⟨hlong, -⟩ | h | h
    · rw [hi] at hsymbol
      exact absurd hsymbol (by decide)
    · obtain rfl : c = 'ſ' := Char.toNat_inj.mp hlong
      rw [← hus]
      exact IsIrregular.upperChar (by decide)
    · omega
    · omega
  | same hlarge _ _ =>
    have := (toNat_of_mem_alphabet (h c List.mem_cons_self)).2
    omega

theorem upperChar_of_spelling {c : Char} (h : ∀ u ∈ spelling c, u ∈ alphabet) :
    upperChar c = spelling c := by
  by_cases hirr : IsIrregular c
  · exact hirr.upperChar
  · rw [spelling_of_not_irregular hirr] at h ⊢
    refine upperChar_of_lt (Nat.lt_of_not_le fun hlarge => ?_)
    have hsymbol := h _ List.mem_cons_self
    rw [toUpper_eq_self (by omega)] at hsymbol
    have := (toNat_of_mem_alphabet hsymbol).2
    omega

/-- Upper case of upper case spells no more symbols: what spells some is one itself. -/
theorem mem_alphabet_of_upper {c u : Char} (hu : u ∈ upperChar c)
    (h : ∀ v ∈ upperChar u, v ∈ alphabet) : u ∈ alphabet := by
  have hsmall : ¬(0x61 ≤ u.toNat ∧ u.toNat ≤ 0x7A) ∧ ¬IsIrregular u := by
    rcases Nat.lt_or_ge c.toNat 0x80 with hascii | hlarge
    · rw [upperChar_of_lt hascii] at hu
      rw [List.mem_singleton.mp hu]
      exact ⟨toNat_toUpper_of_lt hascii, not_irregular_of_lt (toNat_toUpper_of_ascii hascii)⟩
    · have hreached := isUnreached_of_mem hlarge hu
      refine ⟨fun hin => ?_, fun hirr => ?_⟩
      · have htrue : isUnreached u.toNat = true := by
          simp only [isUnreached, decide_eq_true hin.1, decide_eq_true hin.2, Bool.and_self,
            Bool.or_true, Bool.true_or]
        rw [htrue] at hreached
        cases hreached
      · obtain ⟨e, he, rfl⟩ := List.mem_map.mp hirr
        have htrue : isUnreached e.1.toNat = true := by
          have hmem : e.1.toNat ∈ irregular.map (·.1.toNat) := List.mem_map.mpr ⟨e, he, rfl⟩
          simp only [isUnreached, List.contains_iff_mem.mpr hmem, Bool.or_true]
        rw [htrue] at hreached
        cases hreached
  have hupper := upperChar_eq_spelling h
  rw [spelling_of_not_irregular hsmall.2, toUpper_eq_self hsmall.1] at hupper
  rw [hupper] at h
  exact h u List.mem_cons_self

theorem upperChar_dash : upperChar '-' = ['-'] := by decide

theorem eq_dash_of_mem {c : Char} (h : '-' ∈ upperChar c) : c = '-' := by
  rcases Nat.lt_or_ge c.toNat 0x80 with hascii | hlarge
  · rw [upperChar_of_lt hascii] at h
    exact toUpper_eq_dash (List.mem_singleton.mp h).symm
  · exact absurd (isUnreached_of_mem hlarge h) (by decide)

end SeedCode

end SeededPlay

/-
# `SeededPlay.Proofs.Number.Numerals` — what runs of digits read as

Digits come in many scripts, and blanks, signs and underscores are let through where a
numeral is read.  For a bare run of digits none of that matters: it reads as an integer
as long as it is not too long (`Numeral.readInt_whole`), and two runs with a point between
them always read as a double (`Numeral.readReal?_point`).

## The two ways of reading

A run of digits of any script is first turned into ASCII digits (`asciiDigits_of_ascii` says
that those stay as they are), and then read by value.  What begins with a digit is none of
the names of the infinities and of nan, so it is read as a decimal (`readReal?_of_digit`).
A digit is no blank, no sign and no underscore, hence nothing is trimmed off a run and
nothing joined in it.
-/
import SeededPlay.Proofs.Number.Shortest
import SeededPlay.Rules.Phrase

namespace SeededPlay

/-! ## Digits of any script -/

namespace Text

theorem isDigit_iff (c : Char) :
    isDigit c = true ↔ ∃ z ∈ digitZeros, z ≤ c.toNat ∧ c.toNat ≤ z + 9 := by
  unfold isDigit
  simp only [List.any_eq_true, Bool.and_eq_true, decide_eq_true_eq]

theorem digitZeros_apart_blankRanges :
    ∀ z ∈ digitZeros, ∀ r ∈ blankRanges, z + 9 < r.1 ∨ r.2 < z := by
  decide

theorem isBlank_of_isDigit {c : Char} (h : isDigit c = true) : isBlank c = false := by
  obtain ⟨z, hz, hlow, hhigh⟩ := (isDigit_iff c).mp h
  refine Bool.eq_false_iff.mpr fun hb => ?_
  unfold isBlank inRanges at hb
  obtain ⟨r, hr, hin⟩ := List.any_eq_true.mp hb
  simp only [Bool.and_eq_true, decide_eq_true_eq] at hin
  rcases digitZeros_apart_blankRanges z hz r hr with hlt | hlt <;> omega

theorem isNumeralBlank_of_isDigit {c : Char} (h : isDigit c = true) :
    isNumeralBlank c = false := by
  unfold isNumeralBlank
  rw [isBlank_of_isDigit h, Bool.false_and]

theorem isDigit_of_ascii {c : Char} (h : c.isDigit = true) : isDigit c = true := by
  refine (isDigit_iff c).mpr ⟨0x30, by decide, ?_⟩
  simp only [Char.isDigit, Bool.and_eq_true, decide_eq_true_eq] at h
  exact ⟨h.1, h.2⟩

theorem exists_digitValue {c : Char} (h : isDigit c = true) :
    ∃ d ≤ 9, digitValue? c = some d := by
  have hsome : (digitZeros.find? fun z => z ≤ c.toNat && c.toNat ≤ z + 9).isSome = true := by
    rw [List.find?_isSome]
    obtain ⟨z, hz, hlow, hhigh⟩ := (isDigit_iff c).mp h
    exact ⟨z, hz, by simp only [Bool.and_eq_true, decide_eq_true_eq]; exact ⟨hlow, hhigh⟩⟩
  obtain ⟨z, hz⟩ := Option.isSome_iff_exists.mp hsome
  have hin := List.find?_some hz
  simp only [Bool.and_eq_true, decide_eq_true_eq] at hin
  refine ⟨c.toNat - z, by omega, ?_⟩
  unfold digitValue?
  rw [hz, Option.map_some]

theorem trimWhere_eq_self {p : Char → Bool} {cs : List Char} (h : ∀ c ∈ cs, p c = false) :
    trimWhere p cs = cs := by
  have hdrop : ∀ l : List Char, (∀ c ∈ l, p c = false) → l.dropWhile p = l := by
    intro l hl
    cases l with
    | nil => rfl
    | cons c rest =>
      rw [List.dropWhile_cons_of_neg]
      rw [hl c List.mem_cons_self]
      exact Bool.false_ne_true
  unfold trimWhere
  rw [hdrop cs h, hdrop cs.reverse fun c hc => h c (List.mem_reverse.mp hc), List.reverse_reverse]

end Text

namespace Numeral

open Text

/-! ## Digits as ASCII digits -/

theorem asciiDigits_append (xs ys : List Char) :
    asciiDigits (xs ++ ys) = asciiDigits xs ++ asciiDigits ys := List.map_append

theorem length_asciiDigits (cs : List Char) : (asciiDigits cs).length = cs.length :=
  List.length_map _

theorem isDigit_ofNat : ∀ d ≤ 9, (Char.ofNat (0x30 + d)).isDigit = true := by
  decide

theorem isDigit_of_mem_asciiDigits {cs : List Char} (h : ∀ c ∈ cs, isDigit c = true) :
    ∀ c ∈ asciiDigits cs, c.isDigit = true := by
  intro c hc
  unfold asciiDigits at hc
  obtain ⟨b, hb, rfl⟩ := List.mem_map.mp hc
  obtain ⟨d, hd, hv⟩ := exists_digitValue (h b hb)
  rw [hv]
  exact isDigit_ofNat d hd

theorem asciiDigits_of_ascii {cs : List Char} (h : ∀ c ∈ cs, c.isDigit = true) :
    asciiDigits cs = cs := by
  unfold asciiDigits
  refine (List.map_congr_left fun c hc => ?_).trans (List.map_id cs)
  have hd := h c hc
  simp only [Char.isDigit, Bool.and_eq_true, decide_eq_true_eq] at hd
  have hlow : 48 ≤ c.toNat := hd.1
  have hhigh : c.toNat ≤ 57 := hd.2
  have hfind : (digitZeros.find? fun z => z ≤ c.toNat && c.toNat ≤ z + 9) = some 0x30 := by
    unfold digitZeros
    rw [List.find?_cons_of_pos]
    simp only [Bool.and_eq_true, decide_eq_true_eq]
    exact ⟨hlow, by omega⟩
  have hv : digitValue? c = some (c.toNat - 0x30) := by
    unfold digitValue?
    rw [hfind, Option.map_some]
  rw [hv]
  show Char.ofNat (0x30 + (c.toNat - 0x30)) = c
  have hsum : 0x30 + (c.toNat - 0x30) = c.toNat := by omega
  rw [hsum, Char.ofNat_toNat]

theorem bare_eq {cs : List Char} (h : ∀ c ∈ cs, isNumeralBlank c = false) :
    bare (String.ofList cs) = asciiDigits cs := by
  unfold bare
  rw [String.toList_ofList, trimWhere_eq_self h]

/-! ## Reading ASCII digits -/

theorem isDigit_ne {c d : Char} (hc : c.isDigit = true) (hd : d.isDigit = false) : c ≠ d := by
  rintro rfl
  rw [hc] at hd
  exact Bool.noConfusion hd

theorem signed_of_isDigit {c : Char} (hc : c.isDigit = true) (cs : List Char) :
    signed (c :: cs) = (false, c :: cs) := by
  have hminus : c ≠ '-' := isDigit_ne hc (by decide)
  have hplus : c ≠ '+' := isDigit_ne hc (by decide)
  unfold signed
  split
  · rename_i h
    exact absurd (List.cons.inj h).1 hminus
  · rename_i h
    exact absurd (List.cons.inj h).1 hplus
  · rfl

theorem joinUnderscores?_eq_some {cs : List Char} (h : ∀ c ∈ cs, c ≠ '_') :
    joinUnderscores? cs = some cs := by
  induction cs using joinUnderscores?.induct with
  | case1 => rfl
  | case2 => exact absurd rfl (h '_' List.mem_cons_self)
  | case3 c hc => simp only [joinUnderscores?, if_neg hc]
  | case4 => exact absurd rfl (h '_' (by simp))
  | case5 => exact absurd rfl (h '_' (by simp))
  | case6 => exact absurd rfl (h '_' (by simp))
  | case7 => exact absurd rfl (h '_' List.mem_cons_self)
  | case8 c rest _ _ hc ih =>
    have hrest : ∀ d ∈ rest, d ≠ '_' := fun d hd => h d (List.mem_cons_of_mem c hd)
    simp_all [joinUnderscores?]

theorem takeWhile_digits {ds rest : List Char} (hds : ∀ c ∈ ds, c.isDigit = true)
    (hrest : ∀ c ∈ rest.head?, c.isDigit = false) :
    spanDigits (ds ++ rest) = (ds, rest) := by
  have hstop : rest.takeWhile Char.isDigit = [] ∧ rest.dropWhile Char.isDigit = rest := by
    cases rest with
    | nil => exact ⟨rfl, rfl⟩
    | cons c cs =>
      have hc : ¬ c.isDigit = true := Bool.not_eq_true _ ▸ hrest c rfl
      exact ⟨List.takeWhile_cons_of_neg hc, List.dropWhile_cons_of_neg hc⟩
  unfold spanDigits
  rw [List.takeWhile_append_of_pos hds, List.dropWhile_append_of_pos hds, hstop.1, hstop.2,
    List.append_nil]

theorem decimal?_point {ds fs : List Char} (hne : ds ≠ []) (hds : ∀ c ∈ ds, c.isDigit = true)
    (hfs : ∀ c ∈ fs, c.isDigit = true) :
    decimal? (ds ++ '.' :: fs) = some ⟨ofDigits (ds ++ fs), -(fs.length : Int)⟩ := by
  have hwhole : spanDigits (ds ++ '.' :: fs) = (ds, '.' :: fs) :=
    takeWhile_digits hds fun c hc => by
      obtain rfl := Option.some.inj hc
      decide
  have hfrac : spanDigits fs = (fs, []) := by
    have h : spanDigits (fs ++ []) = (fs, []) := takeWhile_digits hfs fun c hc => by cases hc
    rwa [List.append_nil] at h
  have hempty : ds.isEmpty = false := List.isEmpty_eq_false_iff.mpr hne
  unfold decimal?
  simp only [hwhole, hfrac, hempty, Bool.false_and, Bool.false_eq_true, if_false, exponent?,
    Option.map_some, Int.zero_sub]

theorem ofList_ne_word {c d : Char} {cs ds : List Char} (h : c ≠ d) :
    String.ofList (c :: cs) ≠ String.ofList (d :: ds) := by
  intro he
  have hl := congrArg String.toList he
  rw [String.toList_ofList, String.toList_ofList] at hl
  exact h (List.cons.inj hl).1

theorem toLower_of_isDigit {c : Char} (h : c.isDigit = true) : c.toLower = c := by
  simp only [Char.isDigit, Bool.and_eq_true, decide_eq_true_eq] at h
  have hhigh : c.toNat ≤ 57 := h.2
  unfold Char.toLower
  rw [dif_neg]
  rintro ⟨hA, -⟩
  have hA : 65 ≤ c.toNat := hA
  omega

/-- What begins with a digit is no name, so it is read as a decimal. -/
theorem readReal?_of_digit {text : String} {c : Char} {cs : List Char}
    (hbare : bare text = c :: cs) (hc : c.isDigit = true) (hplain : ∀ d ∈ c :: cs, d ≠ '_') :
    readReal? text = (decimal? (c :: cs)).map (Decimal.toBinary64 false) := by
  have hname : ∀ d ds, c ≠ d →
      String.ofList ((c :: cs).map Char.toLower) ≠ String.ofList (d :: ds) := by
    intro d ds h
    rw [List.map_cons, toLower_of_isDigit hc]
    exact ofList_ne_word h
  have hi : c ≠ 'i' := isDigit_ne hc (by decide)
  have hn : c ≠ 'n' := isDigit_ne hc (by decide)
  unfold readReal?
  rw [hbare, signed_of_isDigit hc]
  simp only
  rw [if_neg, if_neg, joinUnderscores?_eq_some hplain]
  · show (decimal? (c :: cs) >>= fun d => pure (d.toBinary64 false)) = _
    cases decimal? (c :: cs) <;> rfl
  · exact hname 'n' ['a', 'n'] hn
  · rintro (h | h)
    · exact hname 'i' ['n', 'f'] hi h
    · exact hname 'i' ['n', 'f', 'i', 'n', 'i', 't', 'y'] hi h

theorem bare_point {ds fs : List Char} (hds : ∀ c ∈ ds, isDigit c = true)
    (hfs : ∀ c ∈ fs, isDigit c = true) :
    bare (String.ofList (ds ++ '.' :: fs)) = asciiDigits ds ++ '.' :: asciiDigits fs := by
  have hblank : ∀ c ∈ ds ++ '.' :: fs, isNumeralBlank c = false := by
    intro c hc
    rcases List.mem_append.mp hc with hd | hf
    · exact isNumeralBlank_of_isDigit (hds c hd)
    · rcases List.mem_cons.mp hf with rfl | hf
      · decide
      · exact isNumeralBlank_of_isDigit (hfs c hf)
  rw [bare_eq hblank, asciiDigits_append]
  rfl

theorem asciiDigits_ne_nil {ds : List Char} (h : ds ≠ []) : asciiDigits ds ≠ [] := by
  intro hnil
  have hlen := length_asciiDigits ds
  rw [hnil] at hlen
  exact h (List.length_eq_zero_iff.mp hlen.symm)

/-- A numeral with a point reads as the double nearest to it. -/
theorem readReal?_point {ds fs : List Char} (hne : ds ≠ []) (hds : ∀ c ∈ ds, isDigit c = true)
    (hfs : ∀ c ∈ fs, isDigit c = true) :
    readReal? (String.ofList (ds ++ '.' :: fs)) =
      some (Decimal.toBinary64 false
        ⟨ofDigits (asciiDigits ds ++ asciiDigits fs), -(fs.length : Int)⟩) := by
  have hbare := bare_point hds hfs
  have hds' := isDigit_of_mem_asciiDigits hds
  have hfs' := isDigit_of_mem_asciiDigits hfs
  have hplain : ∀ c ∈ asciiDigits ds ++ '.' :: asciiDigits fs, c ≠ '_' := by
    intro c hc
    rcases List.mem_append.mp hc with hd | hf
    · exact isDigit_ne (hds' c hd) (by decide)
    · rcases List.mem_cons.mp hf with rfl | hf
      · decide
      · exact isDigit_ne (hfs' c hf) (by decide)
  have hdec := decimal?_point (asciiDigits_ne_nil hne) hds' hfs'
  rw [length_asciiDigits] at hdec
  obtain ⟨a, rest, has⟩ := List.exists_cons_of_ne_nil (asciiDigits_ne_nil hne)
  rw [has, List.cons_append] at hbare hplain hdec
  rw [readReal?_of_digit hbare (hds' a (has ▸ List.mem_cons_self)) hplain, hdec, has,
    List.cons_append]
  rfl

/-- A whole numeral reads as an integer, unless it is too long. -/
theorem readInt_whole {ds : List Char} (hne : ds ≠ []) (hds : ∀ c ∈ ds, isDigit c = true) :
    readInt (String.ofList ds) =
      if digitLimit < ds.length then .error (.tooLong ds.length)
      else .ok (ofDigits (asciiDigits ds)) := by
  have hds' := isDigit_of_mem_asciiDigits hds
  have hlen := length_asciiDigits ds
  have hbare : bare (String.ofList ds) = asciiDigits ds :=
    bare_eq fun c hc => isNumeralBlank_of_isDigit (hds c hc)
  have hne' := asciiDigits_ne_nil hne
  have hjoin : joinUnderscores? (asciiDigits ds) = some (asciiDigits ds) :=
    joinUnderscores?_eq_some fun c hc => isDigit_ne (hds' c hc) (by decide)
  have hspan : spanJoined (asciiDigits ds) = (asciiDigits ds, []) := by
    have hall : ∀ c ∈ asciiDigits ds, (c.isDigit || c == '_') = true := fun c hc => by
      rw [hds' c hc, Bool.true_or]
    unfold spanJoined
    rw [List.takeWhile_eq_self_iff.mpr hall, List.dropWhile_eq_nil_iff.mpr hall]
  rw [← hlen]
  generalize asciiDigits ds = as at *
  cases as with
  | nil => exact absurd rfl hne'
  | cons a rest =>
    unfold readInt
    rw [hbare, signed_of_isDigit (hds' a List.mem_cons_self)]
    simp only [hspan, hjoin, List.isEmpty_cons, List.isEmpty_nil, Bool.not_true,
      Bool.false_eq_true, if_false]

end Numeral

end SeededPlay

/-
# `SeededPlay.Proofs.Rules.Comparisons` — integers that are compared

A comparison sees the integer of a state as a double, the nearest one, while the integer
of its text stays what it is.  The two are then compared exactly
(`Comparator.compare_iff`), so all that a comparison can get wrong is in `nearestInt`:
its answer is right for the nearest double, which is a whole number again
(`Condition.decides_comparison`).

That is the right answer for the integer itself, whatever it is compared with, exactly
if it is negative or a double (`Condition.comparisons_decided`).  All integers up to
`2 ^ 53` are doubles.  A negative integer stays on its side of zero when it is rounded,
and a text names none on that side.

## Where the nearest double answers right

The nearest double compares with the naturals as the integer itself does, if that is negative
or a double (`Comparator.holds_nearestInt`): a double stays where it is, and what is negative
stays on the same side of every natural (`Comparator.holds_congr`).  Any other integer is already told apart from itself
(`Comparator.of_holds_nearestInt`), so the condition cannot be dropped.  The numeral of the
text is no obstacle: numbers in the range of the doubles are not too long to be written out,
and the digits of a number are a numeral that writes it (`writes_toString`).
-/
import SeededPlay.Proofs.Number.Nearest
import SeededPlay.Proofs.Play.Limits
import SeededPlay.Proofs.Rules.Conditions

namespace SeededPlay

/-! ## Places of integers -/

namespace Binary64

theorem extent?_zero : zero.extent? = some (extentOfInt (nearestInt 0)) := by
  rw [nearestInt_of_le (n := 0) (Nat.zero_le _), extentOfInt, Int.zero_mul]
  rfl

theorem extentOfInt_le {a b : Int} : (extentOfInt a).le (extentOfInt b) = true ↔ a ≤ b := by
  have hone : (0 : Int) < unitsPerOne := Int.natCast_pos.mpr unitsPerOne_pos
  exact decide_eq_true_iff.trans (Int.mul_le_mul_right hone)

theorem extentOfInt_lt {a b : Int} : (extentOfInt a).lt (extentOfInt b) = true ↔ a < b := by
  unfold Extent.lt
  rw [Bool.not_eq_true', ← Bool.not_eq_true, extentOfInt_le, Int.not_le]

theorem extentOfInt_beq {a b : Int} : (extentOfInt a == extentOfInt b) = true ↔ a = b := by
  have hone : (unitsPerOne : Int) ≠ 0 := Int.natCast_ne_zero.mpr (Nat.ne_of_gt unitsPerOne_pos)
  rw [beq_iff_eq]
  exact ⟨fun h => Int.eq_of_mul_eq_mul_right hone (Extent.point.inj h), congrArg _⟩

end Binary64

/-! ## Comparators -/

namespace Comparator

/-- What a comparator says of two integers. -/
def Holds : Comparator → Int → Int → Prop
  | .gt, a, b => a > b
  | .ge, a, b => a ≥ b
  | .lt, a, b => a < b
  | .le, a, b => a ≤ b
  | .eq, a, b => a = b
  | .ne, a, b => a ≠ b

theorem compare_iff (op : Comparator) {x : Binary64} {k m : Int}
    (hx : x.extent? = some (Binary64.extentOfInt k)) :
    op.compare (.real x) (.int m) = true ↔ op.Holds k m := by
  have hreal : (Number.real x).extent? = some (Binary64.extentOfInt k) := hx
  have hint : (Number.int m).extent? = some (Binary64.extentOfInt m) := rfl
  cases op <;> simp only [compare, Number.lt, Number.le, Number.same, hreal, hint, Holds]
  case gt => exact Binary64.extentOfInt_lt
  case ge => exact Binary64.extentOfInt_le
  case lt => exact Binary64.extentOfInt_lt
  case le => exact Binary64.extentOfInt_le
  case eq => exact Binary64.extentOfInt_beq
  case ne => rw [Bool.not_eq_true', ← Bool.not_eq_true, Binary64.extentOfInt_beq]

theorem holds_congr (op : Comparator) {a b m : Int} (h : a < m ∧ b < m ∨ m < a ∧ m < b) :
    op.Holds a m ↔ op.Holds b m := by
  cases op <;> simp only [Holds] <;> omega

/-- The nearest double compares with the naturals as the integer itself does, if that is
negative or a double. -/
theorem holds_nearestInt {n : Int} (h : n < 0 ∨ Binary64.IsGrid n.natAbs) (op : Comparator)
    (m : Nat) : op.Holds (Binary64.nearestInt n) m ↔ op.Holds n m := by
  rcases h with hneg | hgrid
  · have hround : Binary64.nearestInt n ≤ -1 := by
      have hmono := Binary64.nearestInt_mono (Int.le_sub_one_of_lt hneg)
      rwa [Int.zero_sub, Binary64.nearestInt_of_le (n := -1) (by decide)] at hmono
    exact op.holds_congr (.inl (by omega))
  · rw [Binary64.nearestInt_eq_self.mpr hgrid]

theorem of_holds_nearestInt {n : Int}
    (h : eq.Holds (Binary64.nearestInt n) n.natAbs ↔ eq.Holds n n.natAbs) :
    n < 0 ∨ Binary64.IsGrid n.natAbs := by
  by_cases hneg : n < 0
  · exact .inl hneg
  · have habs : (n.natAbs : Int) = n := by omega
    rw [habs] at h
    exact .inr (Binary64.nearestInt_eq_self.mp (h.mpr rfl))

end Comparator

/-! ## Integers of a state -/

/-- A state shows an integer under a name: it holds it there, as one of its five numbers or
among the further values, or it holds nothing there, which counts as zero. -/
inductive GameState.Shows (s : GameState) (name : String) : Int → Prop
  | held {n : Int} : s.valueOf name = .ok (some (.int n)) → Shows s name n
  | absent : s.valueOf name = .ok none → Shows s name 0
  | null : s.valueOf name = .ok (some .null) → Shows s name 0

theorem GameState.Shows.measured {s : GameState} {name : String} {n : Int} (h : s.Shows name n)
    (hn : n.natAbs < 2 ^ 1024 - 2 ^ 970) :
    ∃ d x, s.valueOf name = .ok d ∧ Condition.measured d = .ok x ∧
      x.extent? = some (Binary64.extentOfInt (Binary64.nearestInt n)) := by
  cases h with
  | held hvalue =>
    obtain ⟨x, hx, hextent⟩ := Binary64.ofInt?_nearestInt hn
    have hreal : (Number.int n).toReal? = some x := hx
    refine ⟨_, x, hvalue, ?_, hextent⟩
    show Condition.measured (some (.number (.int n))) = .ok x
    rw [Condition.measured_number, hreal]
  | absent hvalue => exact ⟨_, .zero, hvalue, rfl, Binary64.extent?_zero⟩
  | null hvalue => exact ⟨_, .zero, hvalue, rfl, Binary64.extent?_zero⟩

/-! ## Numerals of integers -/

namespace Phrase

theorem toList_toString (m : Nat) : (toString m).toList = Nat.toDigits 10 m :=
  String.toList_ofList

theorem writes_toString (m : Nat) : Writes (toString m).toList (.int m) := by
  have hascii := isDigit_toDigits m
  have hvalue : Numeral.ofDigits (Numeral.asciiDigits (Nat.toDigits 10 m)) = m := by
    rw [Numeral.asciiDigits_of_ascii hascii, ofDigits_eq, Nat.ofDigitChars_ten_toDigits]
  have hwrites := Writes.whole Nat.toDigits_ne_nil fun c hc => Text.isDigit_of_ascii (hascii c hc)
  rwa [hvalue, ← toList_toString] at hwrites

theorem isNumeral_toString (m : Nat) : IsNumeral (toString m).toList := by
  rw [toList_toString]
  exact .whole Nat.toDigits_ne_nil fun c hc => Text.isDigit_of_ascii (isDigit_toDigits m c hc)

theorem not_tooLong_of_lt {m : Nat} (h : m < 2 ^ 1024) : ¬TooLong (toString m) := by
  have hpow : ∀ k, 2 ^ k ≤ 10 ^ k := Nat.pow_le_pow_left (by decide)
  have hlength : (Nat.toDigits 10 m).length ≤ 1024 :=
    (Nat.length_toDigits_le_iff (by decide) (by decide)).mpr (h.trans_le (hpow 1024))
  have hlimit : 1024 ≤ Numeral.digitLimit := by decide
  rintro ⟨-, hlong⟩
  rw [toList_toString] at hlong
  omega

end Phrase

/-! ## Comparisons -/

namespace Condition

/-- The condition that a text means is decided in a state: it holds there exactly if
something is the case. -/
def Decides (strict : Bool) (text : String) (s : GameState) (p : Prop) : Prop :=
  ∃ b, (parse strict text).bind (·.holds s) = .ok b ∧ (b = true ↔ p)

theorem Decides.congr {strict : Bool} {text : String} {s : GameState} {p q : Prop}
    (h : Decides strict text s p) : Decides strict text s q ↔ (p ↔ q) := by
  obtain ⟨b, hb, hp⟩ := h
  constructor
  · rintro ⟨b', hb', hq⟩
    obtain rfl := Except.ok.inj (hb.symm.trans hb')
    exact hp.symm.trans hq
  · exact fun hpq => ⟨b, hb, hp.trans hpq⟩

/-- A comparison with an integer is decided by the double nearest to the integer of the
state, however the other one is written. -/
theorem decides_comparison (strict : Bool) {text name numeral : String} {op : Comparator}
    (htext : WritesComparison text name op numeral) {m : Int}
    (hm : Phrase.Writes numeral.toList (.int m)) (hshort : ¬Phrase.TooLong numeral)
    {s : GameState} {n : Int} (hs : s.Shows name n) (hn : n.natAbs < 2 ^ 1024 - 2 ^ 970) :
    Decides strict text s (op.Holds (Binary64.nearestInt n) m) := by
  obtain ⟨d, x, hvalue, hmeasured, hextent⟩ := hs.measured hn
  have hparse : parse strict text = .ok (.compare name op (.int m) text) :=
    parse_eq_ok.mpr (.compare htext ((Phrase.numberOf_eq_ok htext.2.2).mpr ⟨hshort, hm⟩))
  refine ⟨op.compare (.real x) (.int m), ?_, op.compare_iff hextent⟩
  rw [hparse]
  show (s.valueOf name).bind (fun d => (measured d).bind fun x =>
    .ok (op.compare (.real x) (.int m))) = _
  rw [hvalue]
  show (measured d).bind _ = _
  rw [hmeasured]
  rfl

/-- A comparison answers for the double nearest to the integer that a state shows.  The
answers are right for the integer itself, with every comparator and every natural that is
not too long to be read, exactly if the integer is negative or a double, as the integers
up to `2 ^ 53` are. -/
theorem comparisons_decided {s : GameState} {name : String} {n : Int}
    (hname : IsName name.toList) (hs : s.Shows name n) (hn : n.natAbs < 2 ^ 1024 - 2 ^ 970) :
    (∀ strict op (m : Nat), ¬Phrase.TooLong (toString m) →
      Decides strict (name ++ String.ofList (Comparator.chars op) ++ toString m) s
        (op.Holds (Binary64.nearestInt n) m)) ∧
    ((∀ strict op (m : Nat), ¬Phrase.TooLong (toString m) →
      Decides strict (name ++ String.ofList (Comparator.chars op) ++ toString m) s
        (op.Holds n m)) ↔ n < 0 ∨ Binary64.IsGrid n.natAbs) ∧
    (n.natAbs ≤ 2 ^ 53 → Binary64.IsGrid n.natAbs) := by
  have hdecides : ∀ strict op (m : Nat), ¬Phrase.TooLong (toString m) →
      Decides strict (name ++ String.ofList (Comparator.chars op) ++ toString m) s
        (op.Holds (Binary64.nearestInt n) m) := fun strict op m hshort =>
    decides_comparison strict ⟨rfl, hname, Phrase.isNumeral_toString m⟩
      (Phrase.writes_toString m) hshort hs hn
  refine ⟨hdecides, ⟨fun h => ?_, fun h strict op m hshort => ?_⟩, Binary64.isGrid_of_le⟩
  · have hshort := Phrase.not_tooLong_of_lt (hn.trans_le (Nat.sub_le _ _))
    exact Comparator.of_holds_nearestInt
      ((hdecides false .eq n.natAbs hshort).congr.mp (h false .eq n.natAbs hshort))
  · exact (hdecides strict op m hshort).congr.mpr (Comparator.holds_nearestInt h op m)

theorem comparisons_decided_ten :
    let s : GameState := { score := .int 10 }
    IsName "score".toList ∧ s.Shows "score" 10 ∧ (10 : Int).natAbs < 2 ^ 1024 - 2 ^ 970 ∧
      Decides true "score>=10" s True := by
  intro s
  have hname : IsName "score".toList := by decide
  have hs : s.Shows "score" 10 := .held rfl
  have hn : (10 : Int).natAbs < 2 ^ 1024 - 2 ^ 970 := by decide +kernel
  have hgrid : Binary64.IsGrid (10 : Int).natAbs := Binary64.isGrid_of_le (by decide)
  have hanswer := (comparisons_decided hname hs hn).2.1.mpr (.inr hgrid) true .ge 10
    (Phrase.not_tooLong_of_lt (by decide +kernel))
  exact ⟨hname, hs, hn, hanswer.congr.mpr (iff_of_true (Int.le_refl 10) trivial)⟩

/-- The first integer that is no double does not equal itself. -/
theorem comparison_rounded :
    let s : GameState := { score := .int 9007199254740993 }
    s.Shows "score" 9007199254740993 ∧ Comparator.eq.Holds 9007199254740993 9007199254740993 ∧
      (parse false "score==9007199254740993").bind (·.holds s) = .ok false := by
  intro s
  have hs : s.Shows "score" 9007199254740993 := .held rfl
  have htext : WritesComparison "score==9007199254740993" "score" .eq (toString 9007199254740993) :=
    ⟨rfl, by decide, Phrase.isNumeral_toString _⟩
  have hshort : ¬Phrase.TooLong (toString 9007199254740993) :=
    Phrase.not_tooLong_of_lt (by decide +kernel)
  obtain ⟨b, hb, hiff⟩ := decides_comparison false htext (Phrase.writes_toString _) hshort hs
    (by decide +kernel)
  have hne : ¬Comparator.eq.Holds (Binary64.nearestInt 9007199254740993) 9007199254740993 :=
    show Binary64.nearestInt 9007199254740993 ≠ 9007199254740993 by decide +kernel
  refine ⟨hs, rfl, ?_⟩
  rwa [Bool.eq_false_iff.mpr (mt hiff.mp hne)] at hb

end Condition

end SeededPlay

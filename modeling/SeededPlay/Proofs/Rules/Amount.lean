/-
# `SeededPlay.Proofs.Rules.Amount` — the amounts of rule texts

The amount of an effect is written as a plain numeral (`IsNumeral`): a run of digits,
or two runs with a point between them.  A whole numeral reads as an integer as long
as it is not too long, a numeral with a point always reads as a double.

The result that the rule language rests on is `numberOf_text`: a number that was
read from a plain numeral, written out again, reads as itself, whenever what is
written is a plain numeral at all.  A large double is written with an exponent, and
one beyond all doubles as `inf`; neither of them is one.

## How a double is written

The digits of a double and its exponent decide the layout.  In the positional layouts there
are three places for the point: zeros behind the digits and one more behind the point
(`pointed_whole`), the point among the digits (`pointed_inner`), or a zero, the point, and
zeros before the digits (`pointed_small`).  All of them are numerals of the same value
(`exists_positional`).  The other layout has an exponent and is no numeral, since nothing but
digits and points occurs in one (`not_mem`).

An integer is written with its digits and read by Horner's scheme; one of few enough digits
reads back (`numberOf_text_int`).
-/
import SeededPlay.Proofs.Number.Numerals

namespace SeededPlay

open Numeral

/-- A run of digits of any script, or two of them with a point between. -/
inductive IsNumeral : List Char → Prop
  | whole {ds : List Char} : ds ≠ [] → (∀ c ∈ ds, Text.isDigit c = true) → IsNumeral ds
  | point {ds fs : List Char} : ds ≠ [] → (∀ c ∈ ds, Text.isDigit c = true) →
      fs ≠ [] → (∀ c ∈ fs, Text.isDigit c = true) → IsNumeral (ds ++ '.' :: fs)

namespace IsNumeral

theorem mem_cases {cs : List Char} (h : IsNumeral cs) :
    ∀ c ∈ cs, Text.isDigit c = true ∨ c = '.' := by
  intro c hc
  cases h with
  | whole _ hds => exact Or.inl (hds c hc)
  | point _ hds _ hfs =>
    rcases List.mem_append.mp hc with hd | hf
    · exact Or.inl (hds c hd)
    · rcases List.mem_cons.mp hf with rfl | hf
      · exact Or.inr rfl
      · exact Or.inl (hfs c hf)

theorem not_mem {cs : List Char} (h : IsNumeral cs) {c : Char} (hd : Text.isDigit c = false)
    (hp : c ≠ '.') : c ∉ cs := by
  intro hc
  rcases h.mem_cases c hc with hdig | rfl
  · rw [hd] at hdig
    exact Bool.noConfusion hdig
  · exact hp rfl

theorem isDigit_head {cs : List Char} (h : IsNumeral cs) :
    ∀ c ∈ cs.head?, Text.isDigit c = true := by
  cases h with
  | whole _ hds => exact fun c hc => hds c (List.mem_of_mem_head? hc)
  | @point ds fs hne hds _ _ =>
    cases ds with
    | nil => exact absurd rfl hne
    | cons d ds =>
      intro c hc
      obtain rfl := Option.some.inj hc
      exact hds d List.mem_cons_self

theorem ne_nil {cs : List Char} (h : IsNumeral cs) : cs ≠ [] := by
  cases h with
  | whole hne _ => exact hne
  | point => exact List.append_ne_nil_of_right_ne_nil _ (List.cons_ne_nil _ _)

end IsNumeral

/-! ## Numbers without an exponent -/

namespace Decimal

/-- The power of ten of the leading digit. -/
def lead (d : Decimal) : Int := (natDigits d.digits).length - 1 + d.exponent

/-- Whether a decimal is laid out positionally: zero, or of a moderate size. -/
def IsPlain (d : Decimal) : Prop := d.digits = 0 ∨ -4 ≤ d.lead ∧ d.lead < 16

theorem layout_of_isPlain (d : Decimal) (h : d.IsPlain) : d.layout = d.positional := if_pos h

theorem layout_of_not_isPlain (d : Decimal) (h : ¬d.IsPlain) : d.layout = d.scientific := if_neg h

end Decimal

/-- Whether a number is written without an exponent.  Integers are, and doubles of a
moderate size; infinity and nan are words. -/
def Number.IsPlain : Number → Prop
  | .int _ => True
  | .real (.finite _ u) => (Binary64.shortest u).IsPlain
  | .real _ => False

namespace Phrase

/-! ## Reading amounts -/

theorem contains_point_eq_false {ds : List Char} (hds : ∀ c ∈ ds, Text.isDigit c = true) :
    ds.contains '.' = false := by
  refine Bool.eq_false_iff.mpr fun h => ?_
  have hp := hds '.' (List.contains_iff_mem.mp h)
  exact absurd hp (by decide)

theorem numberOf_whole {ds : List Char} (hne : ds ≠ [])
    (hds : ∀ c ∈ ds, Text.isDigit c = true) :
    numberOf (String.ofList ds) =
      if digitLimit < ds.length then .error (.integer (.tooLong ds.length))
      else .ok (.int (ofDigits (asciiDigits ds))) := by
  unfold numberOf
  rw [String.toList_ofList, contains_point_eq_false hds, readInt_whole hne hds]
  by_cases hlong : digitLimit < ds.length
  · rw [if_pos hlong, if_pos hlong]
    rfl
  · rw [if_neg hlong, if_neg hlong]
    rfl

theorem numberOf_point {ds fs : List Char} (hne : ds ≠ [])
    (hds : ∀ c ∈ ds, Text.isDigit c = true) (hfs : ∀ c ∈ fs, Text.isDigit c = true) :
    numberOf (String.ofList (ds ++ '.' :: fs)) =
      .ok (.real (Decimal.toBinary64 false
        ⟨ofDigits (asciiDigits ds ++ asciiDigits fs), -(fs.length : Int)⟩)) := by
  have hmem : (ds ++ '.' :: fs).contains '.' = true :=
    List.contains_iff_mem.mpr (List.mem_append_right _ List.mem_cons_self)
  unfold numberOf
  rw [String.toList_ofList, hmem, if_pos rfl, readReal?_point hne hds hfs]

/-! ## Integers written out -/

theorem ofDigits_eq (cs : List Char) : ofDigits cs = Nat.ofDigitChars 10 cs 0 := by
  rw [Nat.ofDigitChars_eq_foldl]
  rfl

theorem ofDigits_lt {cs : List Char} (h : ∀ c ∈ cs, c.isDigit = true) :
    ofDigits cs < 10 ^ cs.length := by
  rw [ofDigits_eq]
  induction cs with
  | nil => exact Nat.lt_of_lt_of_eq Nat.zero_lt_one (Nat.pow_zero 10).symm
  | cons c cs ih =>
    have hc := h c List.mem_cons_self
    simp only [Char.isDigit, Bool.and_eq_true, decide_eq_true_eq] at hc
    have hhigh : c.toNat ≤ 57 := hc.2
    have hrest := ih fun d hd => h d (List.mem_cons_of_mem c hd)
    have hzero : '0'.toNat = 48 := rfl
    have hdigit : c.toNat - '0'.toNat ≤ 9 := by omega
    have hmul := Nat.mul_le_mul_left (10 ^ cs.length) hdigit
    rw [Nat.ofDigitChars_cons, Nat.ofDigitChars_eq_ofDigitChars_zero, Nat.mul_zero, Nat.zero_add,
      List.length_cons, Nat.pow_succ]
    omega

theorem text_int (n : Nat) : (Number.int n).text = String.ofList (Nat.toDigits 10 n) := rfl

theorem isDigit_toDigits (n : Nat) : ∀ c ∈ Nat.toDigits 10 n, c.isDigit = true :=
  fun _ hc => Nat.isDigit_of_mem_toDigits (by decide) (by decide) hc

theorem numberOf_text_int {n k : Nat} (hk : 0 < k) (hlimit : k ≤ digitLimit) (hn : n < 10 ^ k) :
    numberOf (Number.int n).text = .ok (.int n) := by
  have hascii := isDigit_toDigits n
  have hlen : (Nat.toDigits 10 n).length ≤ k := (Nat.length_toDigits_le_iff (by decide) hk).mpr hn
  rw [text_int, numberOf_whole Nat.toDigits_ne_nil fun c hc => Text.isDigit_of_ascii (hascii c hc),
    if_neg (by omega), asciiDigits_of_ascii hascii, ofDigits_eq, Nat.ofDigitChars_ten_toDigits]

/-! ## Doubles written out -/

/-- Digits before a point and behind it that write a decimal. -/
structure Pointed (d : Decimal) (ds fs : List Char) : Prop where
  ds_ne_nil : ds ≠ []
  isDigit_ds : ∀ c ∈ ds, c.isDigit = true
  fs_ne_nil : fs ≠ []
  isDigit_fs : ∀ c ∈ fs, c.isDigit = true
  value : Decimal.toBinary64 false ⟨ofDigits (ds ++ fs), -(fs.length : Int)⟩ = d.toBinary64 false

theorem isDigit_zeros (k : Nat) : ∀ c ∈ List.replicate k '0', c.isDigit = true := by
  intro c hc
  rw [(List.mem_replicate.mp hc).2]
  decide

theorem pointed_whole (n : Nat) {e : Int} (he : 0 ≤ e) :
    Pointed ⟨n, e⟩ (Nat.toDigits 10 n ++ List.replicate e.toNat '0') ['0'] where
  ds_ne_nil := List.append_ne_nil_of_left_ne_nil Nat.toDigits_ne_nil _
  isDigit_ds := List.forall_mem_append.mpr ⟨isDigit_toDigits n, isDigit_zeros _⟩
  fs_ne_nil := List.cons_ne_nil _ _
  isDigit_fs := isDigit_zeros 1
  value := by
    have hone : ['0'] = List.replicate 1 '0' := rfl
    have hexp : -((['0'] : List Char).length : Int) + ((e.toNat + 1 : Nat) : Int) = e := by
      rw [List.length_singleton]
      omega
    rw [ofDigits_eq, List.append_assoc, hone, List.replicate_append_replicate,
      Nat.ofDigitChars_append, Nat.ofDigitChars_ten_toDigits, Nat.ofDigitChars_replicate_zero,
      Decimal.toBinary64_shift_pow, ← hone, hexp]

theorem pointed_inner (n : Nat) {e : Int} (he : e < 0)
    (hpoint : 0 < ((Nat.toDigits 10 n).length : Int) + e) :
    let k := (((Nat.toDigits 10 n).length : Int) + e).toNat
    Pointed ⟨n, e⟩ ((Nat.toDigits 10 n).take k) ((Nat.toDigits 10 n).drop k) where
  ds_ne_nil := by
    intro h
    rcases List.take_eq_nil_iff.mp h with h | h
    · omega
    · exact Nat.toDigits_ne_nil h
  isDigit_ds := fun c hc => isDigit_toDigits n c (List.mem_of_mem_take hc)
  fs_ne_nil := by
    intro h
    have hlen := List.drop_eq_nil_iff.mp h
    omega
  isDigit_fs := fun c hc => isDigit_toDigits n c (List.mem_of_mem_drop hc)
  value := by
    have hexp : -(((Nat.toDigits 10 n).length -
        (((Nat.toDigits 10 n).length : Int) + e).toNat : Nat) : Int) = e := by
      omega
    rw [List.take_append_drop, ofDigits_eq, Nat.ofDigitChars_ten_toDigits, List.length_drop, hexp]

theorem pointed_small (n : Nat) {e : Int}
    (hpoint : ((Nat.toDigits 10 n).length : Int) + e ≤ 0) :
    Pointed ⟨n, e⟩ ['0'] (List.replicate (-(((Nat.toDigits 10 n).length : Int) + e)).toNat '0' ++
      Nat.toDigits 10 n) where
  ds_ne_nil := List.cons_ne_nil _ _
  isDigit_ds := isDigit_zeros 1
  fs_ne_nil := List.append_ne_nil_of_right_ne_nil _ Nat.toDigits_ne_nil
  isDigit_fs := List.forall_mem_append.mpr ⟨isDigit_zeros _, isDigit_toDigits n⟩
  value := by
    have hone : ['0'] = List.replicate 1 '0' := rfl
    have hexp : -(((-(((Nat.toDigits 10 n).length : Int) + e)).toNat +
        (Nat.toDigits 10 n).length : Nat) : Int) = e := by
      omega
    rw [ofDigits_eq, ← List.append_assoc, hone, List.replicate_append_replicate,
      Nat.ofDigitChars_append, Nat.ofDigitChars_replicate_zero, Nat.mul_zero,
      Nat.ofDigitChars_ten_toDigits, List.length_append, List.length_replicate, hexp]

/-- The positional text of a decimal is a numeral with a point, of the same value. -/
theorem exists_positional (d : Decimal) :
    ∃ ds fs : List Char, d.positional = ds ++ '.' :: fs ∧ Pointed d ds fs := by
  obtain ⟨n, e⟩ := d
  unfold Decimal.positional natDigits
  simp only
  split
  · rename_i he
    exact ⟨_, _, rfl, pointed_whole n he⟩
  · rename_i he
    split
    · rename_i hpoint
      exact ⟨_, _, rfl, pointed_inner n (by omega) hpoint⟩
    · rename_i hpoint
      exact ⟨_, _, rfl, pointed_small n (by omega)⟩

theorem isNumeral_positional (d : Decimal) : IsNumeral d.positional := by
  obtain ⟨ds, fs, hds, hpointed⟩ := exists_positional d
  rw [hds]
  exact IsNumeral.point hpointed.ds_ne_nil
    (fun c hc => Text.isDigit_of_ascii (hpointed.isDigit_ds c hc)) hpointed.fs_ne_nil
    fun c hc => Text.isDigit_of_ascii (hpointed.isDigit_fs c hc)

/-- A text with an exponent is no numeral. -/
theorem not_isNumeral_scientific (d : Decimal) : ¬IsNumeral d.scientific := by
  intro h
  refine h.not_mem (c := 'e') (by decide) (by decide) ?_
  unfold Decimal.scientific
  exact List.mem_append_right _ List.mem_cons_self

theorem isNumeral_layout (d : Decimal) : IsNumeral d.layout ↔ d.IsPlain := by
  by_cases h : d.IsPlain
  · rw [d.layout_of_isPlain h]
    exact iff_of_true (isNumeral_positional d) h
  · rw [d.layout_of_not_isPlain h]
    exact iff_of_false (not_isNumeral_scientific d) h

theorem not_isNumeral_infinite : ¬IsNumeral (Number.real (.infinite false)).text.toList := by
  intro h
  have hi : Text.isDigit 'i' = true := h.isDigit_head 'i' rfl
  exact absurd hi (by decide)

theorem toBinary64_false_cases (d : Decimal) :
    (∃ u, Binary64.IsGrid u ∧ u < Binary64.unitsLimit ∧ d.toBinary64 false = .finite false u) ∨
      d.toBinary64 false = .infinite false := by
  by_cases h0 : d.digits = 0
  · obtain ⟨n, e⟩ := d
    obtain rfl : n = 0 := h0
    refine Or.inl ⟨0, Binary64.isGrid_zero, ?_, Decimal.toBinary64_zero false e⟩
    rw [Binary64.unitsLimit_eq]
    exact Nat.pow_pos (by decide)
  · rw [Decimal.toBinary64_of_ne false h0]
    split
    · exact Or.inr rfl
    · split
      · refine Or.inl ⟨0, Binary64.isGrid_zero, ?_, rfl⟩
        rw [Binary64.unitsLimit_eq]
        exact Nat.pow_pos (by decide)
      · exact Binary64.ofFraction_cases false _ _

theorem numberOf_text_real {d : Decimal}
    (h : IsNumeral (Number.real (d.toBinary64 false)).text.toList) :
    numberOf (Number.real (d.toBinary64 false)).text = .ok (.real (d.toBinary64 false)) := by
  rcases toBinary64_false_cases d with ⟨u, hg, hlt, he⟩ | he
  · rw [he] at h ⊢
    have htext : (Number.real (.finite false u)).text =
        String.ofList (Binary64.shortest u).layout := rfl
    rw [htext] at h ⊢
    rw [String.toList_ofList] at h
    have hpos := (Binary64.shortest u).layout_of_isPlain ((isNumeral_layout _).mp h)
    obtain ⟨ds, fs, hds, hne, hdd, -, hff, hvalue⟩ := exists_positional (Binary64.shortest u)
    rw [hpos, hds, numberOf_point hne (fun c hc => Text.isDigit_of_ascii (hdd c hc))
      (fun c hc => Text.isDigit_of_ascii (hff c hc)), asciiDigits_of_ascii hdd,
      asciiDigits_of_ascii hff, hvalue, Binary64.toBinary64_shortest hg hlt]
  · rw [he] at h
    exact absurd h not_isNumeral_infinite

/-- A number read from a numeral, written out as a numeral, reads as itself. -/
theorem numberOf_text {T : List Char} {n : Number} (hT : IsNumeral T)
    (h : numberOf (String.ofList T) = .ok n) (hn : IsNumeral n.text.toList) :
    numberOf n.text = .ok n := by
  cases hT with
  | whole hne hds =>
    rw [numberOf_whole hne hds] at h
    split at h
    · cases h
    · rename_i hlimit
      obtain rfl := Except.ok.inj h
      refine numberOf_text_int (k := T.length) (List.length_pos_iff.mpr hne) (by omega) ?_
      have hlt := ofDigits_lt (isDigit_of_mem_asciiDigits hds)
      rwa [length_asciiDigits] at hlt
  | point hne hds _ hfs =>
    rw [numberOf_point hne hds hfs] at h
    obtain rfl := Except.ok.inj h
    exact numberOf_text_real hn

/-- A number that was read from a numeral is written as one, unless it takes an exponent or
is beyond all doubles. -/
theorem isNumeral_text {T : List Char} {n : Number} (hT : IsNumeral T)
    (h : numberOf (String.ofList T) = .ok n) : IsNumeral n.text.toList ↔ n.IsPlain := by
  cases hT with
  | whole hne hds =>
    rw [numberOf_whole hne hds] at h
    split at h
    · cases h
    · obtain rfl := Except.ok.inj h
      refine iff_of_true ?_ trivial
      rw [text_int, String.toList_ofList]
      exact IsNumeral.whole Nat.toDigits_ne_nil
        fun c hc => Text.isDigit_of_ascii (isDigit_toDigits _ c hc)
  | point hne hds _ hfs =>
    rw [numberOf_point hne hds hfs] at h
    obtain rfl := Except.ok.inj h
    rcases toBinary64_false_cases _ with ⟨u, -, -, he⟩ | he
    · rw [he]
      show IsNumeral (String.ofList (Binary64.shortest u).layout).toList ↔
        (Binary64.shortest u).IsPlain
      rw [String.toList_ofList, isNumeral_layout]
    · rw [he]
      exact iff_of_false not_isNumeral_infinite id

/-! ## The amount of most rules -/

theorem isNumeral_one : IsNumeral "1".toList := by
  refine IsNumeral.whole (List.cons_ne_nil '1' []) fun c hc => ?_
  rw [List.mem_singleton.mp hc]
  decide

theorem numberOf_one : numberOf "1" = .ok 1 :=
  numberOf_text_int (n := 1) (k := 1) (by decide) (by decide) (by decide)

end Phrase

end SeededPlay

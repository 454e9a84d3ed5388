/-
# `SeededPlay.Proofs.Rules.Segmentation` — the one way to cut a text into tokens

A text of the rule language has at most one cut into tokens.  A cut (`Token.Cut`) is said
without the scanner: the pieces put together are the text, each of them is what its kind says,
of two neighbours one is an operator, and no operator of the language that stands at the place
of one of the pieces is longer than this piece.

Scanning finds the cut if there is one (`Token.scan?_eq_some_iff`).  What a token is taken for
depends on what follows it, and `Token.Follows` says on how much: behind a number or a name
neither a word character nor a point, behind an operator nothing that makes it a longer one.
In a cut this always holds, as no token begins with a point; so the scanner never has a
fraction to give back, although in a text without a cut it may.

## Why scanning is complete

An operator is taken where no longer one stands (`operator?_of_isLongest`); operators have one
character, or an equals sign behind one of four (`operators_cases`), so it is the character
behind the first one that decides.  What may follow a token is what makes it the next one
(`next?_of_follows`), and where a token is taken, no word goes on behind a number or a name,
and no longer operator stands in the place of an operator (`next?_stops`).  The two directions
meet in the first token of a cut: a text that has a cut begins like a word exactly if that
token is no operator (`Cut.startsWord_iff`).
-/
import SeededPlay.Proofs.Rules.Tokens

namespace SeededPlay

namespace Token

/-! ## Cuts -/

/-- No operator that stands at the front of a text is longer. -/
def IsLongest (op text : List Char) : Prop := ∀ o ∈ operators, o <+: text → o.length ≤ op.length

/-- A text cut into tokens. -/
structure Cut (text : List Char) (ts : List Token) : Prop where
  whole : text = ts.flatMap Token.chars
  wellFormed : ∀ t ∈ ts, t.WellFormed
  apart : ∀ t u, [t, u] <:+: ts → t.kind = .operator ∨ u.kind = .operator
  longest : ∀ t rest, t :: rest <:+ ts → t.kind = .operator →
    IsLongest t.chars (t.chars ++ rest.flatMap Token.chars)

theorem cut_nil : Cut [] [] where
  whole := rfl
  wellFormed := nofun
  apart t u h := by cases List.infix_nil.mp h
  longest t rest h := by cases List.suffix_nil.mp h

theorem cut_cons_iff {text : List Char} {t : Token} {ts : List Token} :
    Cut text (t :: ts) ↔
      ∃ rest, text = t.chars ++ rest ∧ Cut rest ts ∧ t.WellFormed ∧
        (∀ u ∈ ts.head?, t.kind = .operator ∨ u.kind = .operator) ∧
        (t.kind = .operator → IsLongest t.chars text) := by
  constructor
  · intro h
    have htext := h.whole
    rw [List.flatMap_cons] at htext
    refine ⟨_, htext, ⟨rfl, fun u hu => h.wellFormed u (List.mem_cons_of_mem t hu),
      fun u v huv => h.apart u v (List.infix_cons huv),
      fun u rest hu => h.longest u rest (hu.trans (List.suffix_cons t ts))⟩,
      h.wellFormed t List.mem_cons_self, fun u hu => ?_, fun hk => ?_⟩
    · obtain ⟨back, rfl⟩ := List.head?_eq_some_iff.mp hu
      exact h.apart t u (List.prefix_append [t, u] back).isInfix
    · rw [htext]
      exact h.longest t ts List.suffix_rfl hk
  · rintro ⟨rest, rfl, h, hwell, hnext, hlongest⟩
    refine ⟨?_, ?_, fun u v huv => ?_, fun u back hu hk => ?_⟩
    · rw [List.flatMap_cons, ← h.whole]
    · exact List.forall_mem_cons.mpr ⟨hwell, h.wellFormed⟩
    · rcases List.infix_cons_iff.mp huv with hfront | huv
      · obtain ⟨rfl, back, rfl⟩ := List.cons_prefix_cons.mp hfront
        exact hnext v rfl
      · exact h.apart u v huv
    · rcases List.suffix_cons_iff.mp hu with heq | hu
      · obtain ⟨rfl, rfl⟩ := List.cons.inj heq
        rw [← h.whole]
        exact hlongest hk
      · exact h.longest u back hu hk

/-! ## What may follow a token -/

/-- What may follow a token without changing what it is taken for. -/
def Follows (t : Token) (rest : List Char) : Prop :=
  if t.kind = .operator then IsLongest t.chars (t.chars ++ rest)
  else startsWord rest = false ∧ rest.head? ≠ some '.'

theorem operator?_of_isLongest {op rest : List Char} (hop : op ∈ operators)
    (h : IsLongest op (op ++ rest)) : operator? (op ++ rest) = some (⟨.operator, op⟩, rest) := by
  by_cases heq : ∃ cs, rest = '=' :: cs
  · obtain ⟨cs, rfl⟩ := heq
    -- An operator that an equals sign would make longer is not the longest one.
    have hlonger : ∀ c, op = [c] → [c, '='] ∉ operators := by
      rintro c rfl hmem
      have hle := h _ hmem (List.prefix_append [c, '='] cs)
      simp at hle
    simp only [operators, List.mem_cons, List.not_mem_nil, or_false] at hop
    rcases hop with rfl | rfl | rfl | rfl | rfl | rfl | rfl | rfl | rfl | rfl <;>
      first | rfl | exact absurd (by decide) (hlonger _ rfl)
  · have hne : ∀ cs, rest ≠ '=' :: cs := fun cs hcs => heq ⟨cs, hcs⟩
    simp only [operators, List.mem_cons, List.not_mem_nil, or_false] at hop
    rcases hop with rfl | rfl | rfl | rfl | rfl | rfl | rfl | rfl | rfl | rfl <;>
      simp [operator?, hne]

theorem operators_cases : ∀ o ∈ operators,
    o.length = 1 ∨ ∃ c, o = [c, '='] ∧ (c = '>' ∨ c = '<' ∨ c = '=' ∨ c = '!') := by
  intro o ho
  simp only [operators, List.mem_cons, List.not_mem_nil, or_false] at ho
  rcases ho with rfl | rfl | rfl | rfl | rfl | rfl | rfl | rfl | rfl | rfl <;> simp

theorem isLongest_of_operator? {cs rest : List Char} {t : Token}
    (h : operator? cs = some (t, rest)) : IsLongest t.chars cs := by
  intro o ho hfront
  have hcases := operators_cases o ho
  unfold operator? at h
  split at h
  case h_5 c cs hge hle heq hne =>
    split at h
    · obtain ⟨rfl, -⟩ := Prod.mk.inj (Option.some.inj h)
      rcases hcases with hone | ⟨d, rfl, hd⟩
      · exact hone.le
      · obtain ⟨rfl, back, rfl⟩ := List.cons_prefix_cons.mp hfront
        rcases hd with rfl | rfl | rfl | rfl
        · exact (hge back rfl rfl).elim
        · exact (hle back rfl rfl).elim
        · exact (heq back rfl rfl).elim
        · exact (hne back rfl rfl).elim
    · cases h
  case h_6 => cases h
  all_goals
    obtain ⟨rfl, -⟩ := Prod.mk.inj (Option.some.inj h)
    rcases hcases with hone | ⟨d, rfl, -⟩
    · exact hone.trans_le (Nat.le_succ 1)
    · exact Nat.le_refl 2

/-- What may follow a token is what makes it the next one. -/
theorem next?_of_follows {t : Token} {rest : List Char} (hwell : t.WellFormed)
    (h : t.Follows rest) : next? (t.chars ++ rest) = some (t, rest) := by
  obtain ⟨kind, cs⟩ := t
  cases kind with
  | operator => exact next?_of_operator? (operator?_of_isLongest hwell h)
  | name => exact next?_of_isName hwell h.1
  | number =>
    unfold next?
    rw [number?_of_isNumeral hwell h.1 h.2, Option.some_or]

/-- Where a token is taken, no word goes on behind a number or a name, and no longer operator
stands in the place of an operator. -/
theorem next?_stops {cs rest : List Char} {t : Token} (h : next? cs = some (t, rest)) :
    (t.kind ≠ .operator → startsWord rest = false) ∧
      (t.kind = .operator → IsLongest t.chars cs) := by
  unfold next? at h
  rcases Option.or_eq_some_iff.mp h with h | ⟨hnum, h⟩
  · obtain ⟨hk, -, hword⟩ := number?_spec h
    exact ⟨fun _ => hword, fun hop => nomatch hk.symm.trans hop⟩
  · rcases Option.or_eq_some_iff.mp h with h | ⟨-, h⟩
    · obtain ⟨hk, -, hword⟩ := name?_spec hnum h
      exact ⟨fun _ => hword, fun hop => nomatch hk.symm.trans hop⟩
    · exact ⟨fun hne => absurd (operator?_mem h).1 hne, fun _ => isLongest_of_operator? h⟩

/-! ## Scanning and cutting -/

theorem Cut.startsWord_iff {text : List Char} {ts : List Token} (h : Cut text ts) :
    startsWord text = true ↔ ∃ u ∈ ts.head?, u.kind ≠ .operator := by
  cases ts with
  | nil =>
    rw [h.whole]
    exact ⟨nofun, fun ⟨_, hu, _⟩ => nomatch hu⟩
  | cons u us =>
    obtain ⟨rest, rfl, -, hwell, -⟩ := cut_cons_iff.mp h
    by_cases hk : u.kind = .operator
    · rw [startsWord_operator (mem_operators_of_wellFormed hwell hk)]
      exact ⟨nofun, fun ⟨v, hv, hne⟩ => absurd (Option.some.inj hv ▸ hk) hne⟩
    · have hstart := startsWord_of_wellFormed hk hwell
      refine ⟨fun _ => ⟨u, rfl, hk⟩, fun _ => ?_⟩
      cases hchars : u.chars with
      | nil => exact absurd hchars (ne_nil_of_wellFormed hk hwell)
      | cons c cs =>
        rw [hchars] at hstart
        exact hstart

theorem Cut.head?_ne_point {text : List Char} {ts : List Token} (h : Cut text ts) :
    text.head? ≠ some '.' := by
  intro hpoint
  obtain ⟨cs, rfl⟩ := List.head?_eq_some_iff.mp hpoint
  have hword : ¬∃ u ∈ ts.head?, u.kind ≠ .operator :=
    h.startsWord_iff.not.mp (by decide : ¬Text.isWord '.' = true)
  cases ts with
  | nil => cases h.whole
  | cons u us =>
    have hoperator : ∀ o ∈ operators, o ≠ [] ∧ o.head? ≠ some '.' := by decide
    obtain ⟨rest, hchars, -, hwell, -⟩ := cut_cons_iff.mp h
    have hk : u.kind = .operator := by
      by_contra hne
      exact hword ⟨u, rfl, hne⟩
    obtain ⟨hne, hhead⟩ := hoperator _ (mem_operators_of_wellFormed hwell hk)
    rw [hchars, List.head?_append_of_ne_nil _ hne] at hpoint
    exact hhead hpoint

theorem cut_of_scan? {cs : List Char} {ts : List Token} (h : scan? cs = some ts) : Cut cs ts := by
  refine scan?_induction cut_nil (fun {cs rest t ts} hn hcut => ?_) h
  obtain ⟨hword, hlongest⟩ := next?_stops hn
  refine cut_cons_iff.mpr ⟨rest, next?_append hn, hcut, next?_wellFormed hn, fun u hu => ?_,
    hlongest⟩
  by_contra hne
  obtain ⟨hk, hk'⟩ := not_or.mp hne
  have hstart := hcut.startsWord_iff.mpr ⟨u, hu, hk'⟩
  rw [hword hk] at hstart
  cases hstart

theorem scan?_of_cut {cs : List Char} {ts : List Token} (h : Cut cs ts) : scan? cs = some ts := by
  induction ts generalizing cs with
  | nil =>
    rw [h.whole]
    exact scan?_nil
  | cons t ts ih =>
    obtain ⟨rest, rfl, hcut, hwell, hnext, hlongest⟩ := cut_cons_iff.mp h
    have hfollows : t.Follows rest := by
      unfold Follows
      split
      · rename_i hk
        exact hlongest hk
      · rename_i hk
        refine ⟨Bool.eq_false_iff.mpr fun hstart => ?_, hcut.head?_ne_point⟩
        obtain ⟨u, hu, hk'⟩ := hcut.startsWord_iff.mp hstart
        exact hk' ((hnext u hu).resolve_left hk)
    rw [scan?_of_next? (next?_of_follows hwell hfollows), ih hcut, Option.map_some]

theorem scan?_eq_some_iff {cs : List Char} {ts : List Token} : scan? cs = some ts ↔ Cut cs ts :=
  ⟨cut_of_scan?, scan?_of_cut⟩

theorem cut_self {t : Token} (h : t.WellFormed) : Cut t.chars [t] := by
  refine cut_cons_iff.mpr ⟨[], (List.append_nil _).symm, cut_nil, h, nofun, fun _ o _ hfront => ?_⟩
  exact hfront.length_le

theorem chars_ne_nil {t : Token} (h : t.WellFormed) : t.chars ≠ [] := by
  by_cases hk : t.kind = .operator
  · have hoperator : ∀ o ∈ operators, o ≠ [] := by decide
    exact hoperator _ (mem_operators_of_wellFormed h hk)
  · exact ne_nil_of_wellFormed hk h

end Token

/-- Tokenizing loses nothing and is stable.  A text has the tokens of its one cut, and none if
it cannot be cut.  Each of them has a text, a name has a character that is no digit, a number is
digits with or without digits behind a point, and the text of a token by itself is cut into just
this token. -/
theorem tokenize_eq_cut (text : String) :
    (∀ ts, tokenize text = some ts ↔ Token.Cut text.toList ts) ∧
      ∀ ts, tokenize text = some ts → ∀ t ∈ ts,
        t.chars ≠ [] ∧ (t.kind = .name → ∃ c ∈ t.chars, Text.isDigit c = false) ∧
          (t.kind = .number → IsNumeral t.chars) ∧ tokenize t.text = some [t] := by
  refine ⟨fun ts => Token.scan?_eq_some_iff, fun ts hts t ht => ?_⟩
  have hwell := (Token.scan?_eq_some_iff.mp hts).wellFormed t ht
  refine ⟨Token.chars_ne_nil hwell, fun hk => ?_, Token.isNumeral_of_wellFormed hwell, ?_⟩
  · unfold Token.WellFormed at hwell
    rw [hk] at hwell
    exact hwell.2
  · unfold tokenize Token.text
    rw [String.toList_ofList]
    exact Token.scan?_of_cut (Token.cut_self hwell)

theorem tokenize_eq_cut_half :
    ∃ ts, tokenize "a1>=2.5" = some ts ∧ ts.length = 3 ∧
      Token.Cut "a1>=2.5".toList ts ∧ ∀ t ∈ ts, tokenize t.text = some [t] := by
  have hts : tokenize "a1>=2.5" = some [⟨.name, ['a', '1']⟩, ⟨.operator, ['>', '=']⟩,
      ⟨.number, ['2', '.', '5']⟩] := by cbv
  obtain ⟨hcut, hall⟩ := tokenize_eq_cut "a1>=2.5"
  exact ⟨_, hts, rfl, (hcut _).mp hts, fun t ht => (hall _ hts t ht).2.2.2⟩

end SeededPlay

/-
# `SeededPlay.Proofs.Rules.Tokens` — the words of the rule language

A token is a numeral, a name or an operator (`Token.WellFormed`), where a name is a
word that is not all digits: a word of digits alone is taken for a number before it
can be taken for a name.  Scanning cuts a text into tokens and loses nothing
(`Token.scan?_spec`).

The other way round, the texts of the language come apart where they were put
together: a name ends at the operator behind it, an operator at the word character
behind it, and what is left is one token (`Token.scan?_phrase`, `Token.scan?_single`).
With that a text is a phrase exactly if it is a name, an operator and an argument
(`Phrase.ofText?_eq_some`).

## What is taken in front

Numbers come first.  A number is a numeral up to where no word goes on (`number?_spec`), and a
fraction is a point and digits, with the same end (`fraction?_spec`).  Where there is no
number, a name is a word up to its end (`name?_spec`); it is only looked for then, so it is
not all digits.  Operators come last, and none begins like a word.  Every token is therefore
what its kind says (`next?_wellFormed`), and what holds of no tokens, and goes on to hold with
each token that is taken off in front, holds of every scan (`scan?_induction`).

## What is not taken in front

To put texts together the same facts are needed with their ends: digits with nothing of a word
behind them are taken for a number (`number?_isSome`), a numeral is one token if neither a
word nor a fraction comes behind it, and the digits at the front of a name run into the rest
of it, so they are no number (`number?_of_isName`).  Before a word an operator is taken as it
stands, never with more (`operator?_of_startsWord`).
-/
import SeededPlay.Proofs.Rules.Amount

namespace SeededPlay

/-! ## Words and names -/

/-- Some word characters. -/
def IsWord (cs : List Char) : Prop := cs ≠ [] ∧ ∀ c ∈ cs, Text.isWord c = true

/-- A word with a character that is no digit. -/
def IsName (cs : List Char) : Prop := IsWord cs ∧ ∃ c ∈ cs, Text.isDigit c = false

-- By way of `List.all`: the instance for bounded quantifiers would run through all of `Char`.
instance (cs : List Char) : Decidable (IsWord cs) :=
  decidable_of_iff (cs ≠ [] ∧ cs.all Text.isWord = true) (and_congr_right' List.all_eq_true)

instance (cs : List Char) : Decidable (IsName cs) :=
  decidable_of_iff (IsWord cs ∧ cs.all Text.isDigit = false)
    (and_congr_right' (by simp only [List.all_eq_false, Bool.not_eq_true]))

theorem Text.digitZeros_in_wordRanges :
    ∀ z ∈ digitZeros, z = 0x30 ∨ 0x80 ≤ z ∧ ∃ r ∈ wordRanges, r.1 ≤ z ∧ z + 9 ≤ r.2 := by
  decide +kernel

theorem Text.isWord_of_isDigit {c : Char} (h : isDigit c = true) : isWord c = true := by
  obtain ⟨z, hz, hlow, hhigh⟩ := (isDigit_iff c).mp h
  rcases digitZeros_in_wordRanges z hz with rfl | ⟨hz, r, hr, hfirst, hlast⟩
  · have hdigit : c.isDigit = true := by
      simp only [Char.isDigit, Bool.and_eq_true, decide_eq_true_eq]
      exact ⟨hlow, hhigh⟩
    unfold isWord Char.isAlphanum
    rw [if_pos (by omega), hdigit, Bool.or_true, Bool.true_or]
  · unfold isWord inRanges
    rw [if_neg (by omega), List.any_eq_true]
    refine ⟨r, hr, ?_⟩
    simp only [Bool.and_eq_true, decide_eq_true_eq]
    omega

theorem IsWord.cases {cs : List Char} (h : IsWord cs) :
    IsName cs ∨ ∀ c ∈ cs, Text.isDigit c = true := by
  by_cases hd : ∃ c ∈ cs, Text.isDigit c = false
  · exact Or.inl ⟨h, hd⟩
  · refine Or.inr fun c hc => ?_
    by_contra hne
    exact hd ⟨c, hc, Bool.eq_false_iff.mpr hne⟩

namespace Token

/-! ## Scanning step by step -/

theorem next?_nil : next? [] = none := rfl

theorem scan?_nil : scan? [] = some [] := by
  rw [scan?]
  rfl

theorem scan?_of_next? {cs rest : List Char} {t : Token} (h : next? cs = some (t, rest)) :
    scan? cs = (scan? rest).map (t :: ·) := by
  have hne : ¬cs.isEmpty = true := by
    intro he
    rw [List.isEmpty_iff.mp he, next?_nil] at h
    cases h
  rw [scan?, if_neg hne]
  split
  · rename_i t' rest' h'
    obtain ⟨rfl, rfl⟩ := Prod.mk.inj (Option.some.inj (h.symm.trans h'))
    rfl
  · rename_i h'
    cases h.symm.trans h'

/-! ## What tokens look like -/

/-- The operators of the language. -/
def operators : List (List Char) :=
  [['<'], ['>'], ['+'], ['-'], [':'], ['='], ['>', '='], ['<', '='], ['=', '='], ['!', '=']]

/-- Whether a token is what its kind says. -/
def WellFormed (t : Token) : Prop :=
  match t.kind with
  | .number => IsNumeral t.chars
  | .name => IsName t.chars
  | .operator => t.chars ∈ operators

theorem isNumeral_of_wellFormed {t : Token} (h : t.WellFormed) (hk : t.kind = .number) :
    IsNumeral t.chars := by
  unfold WellFormed at h
  rwa [hk] at h

theorem mem_operators_of_wellFormed {t : Token} (h : t.WellFormed) (hk : t.kind = .operator) :
    t.chars ∈ operators := by
  unfold WellFormed at h
  rwa [hk] at h

theorem fraction?_spec {cs frac rest : List Char} (h : fraction? cs = some (frac, rest)) :
    ∃ fs, frac = '.' :: fs ∧ fs ≠ [] ∧ (∀ c ∈ fs, Text.isDigit c = true) ∧
      startsWord rest = false := by
  unfold fraction? at h
  split at h
  · rename_i more
    simp only at h
    split at h
    · cases h
    · rename_i hstop
      obtain ⟨hsome, hword⟩ := Bool.or_eq_false_iff.mp (Bool.eq_false_iff.mpr hstop)
      obtain ⟨rfl, rfl⟩ := Prod.mk.inj (Option.some.inj h)
      exact ⟨_, rfl, List.isEmpty_eq_false_iff.mp hsome,
        fun _ => List.mem_takeWhile_imp, hword⟩
  · cases h

theorem number?_spec {cs rest : List Char} {t : Token} (h : number? cs = some (t, rest)) :
    t.kind = .number ∧ IsNumeral t.chars ∧ startsWord rest = false := by
  unfold number? at h
  simp only at h
  split at h
  · cases h
  · rename_i hne
    have hne : cs.takeWhile Text.isDigit ≠ [] := fun he => hne (List.isEmpty_iff.mpr he)
    split at h
    · rename_i frac rest' hfraction
      obtain ⟨rfl, rfl⟩ := Prod.mk.inj (Option.some.inj h)
      obtain ⟨fs, rfl, hfne, hfs, hword⟩ := fraction?_spec hfraction
      exact ⟨rfl, IsNumeral.point hne (fun _ => List.mem_takeWhile_imp) hfne hfs, hword⟩
    · split at h
      · cases h
      · rename_i hword
        obtain ⟨rfl, rfl⟩ := Prod.mk.inj (Option.some.inj h)
        exact ⟨rfl, IsNumeral.whole hne fun _ => List.mem_takeWhile_imp,
          Bool.eq_false_iff.mpr hword⟩

theorem span_append {p : Char → Bool} {front rest : List Char} (hfront : ∀ c ∈ front, p c = true)
    (hrest : ∀ c ∈ rest.head?, p c = false) :
    (front ++ rest).takeWhile p = front ∧ (front ++ rest).dropWhile p = rest := by
  have hstop : rest.takeWhile p = [] ∧ rest.dropWhile p = rest := by
    cases rest with
    | nil => exact ⟨rfl, rfl⟩
    | cons c cs =>
      have hc : ¬p c = true := Bool.eq_false_iff.mp (hrest c rfl)
      exact ⟨List.takeWhile_cons_of_neg hc, List.dropWhile_cons_of_neg hc⟩
  rw [List.takeWhile_append_of_pos hfront, List.dropWhile_append_of_pos hfront, hstop.1, hstop.2,
    List.append_nil]
  exact ⟨rfl, rfl⟩

theorem startsWord_eq_false {cs : List Char} :
    startsWord cs = false ↔ ∀ c ∈ cs.head?, Text.isWord c = false := by
  cases cs with
  | nil => exact ⟨nofun, fun _ => rfl⟩
  | cons c cs => exact ⟨fun h _ hc => Option.some.inj hc ▸ h, fun h => h c rfl⟩

theorem span_digits {ds rest : List Char} (hds : ∀ c ∈ ds, Text.isDigit c = true)
    (hrest : startsWord rest = false) :
    (ds ++ rest).takeWhile Text.isDigit = ds ∧ (ds ++ rest).dropWhile Text.isDigit = rest := by
  refine span_append hds fun c hc => Bool.eq_false_iff.mpr fun hdigit => ?_
  exact Bool.eq_false_iff.mp (startsWord_eq_false.mp hrest c hc) (Text.isWord_of_isDigit hdigit)

theorem number?_isSome {ds rest : List Char} (hne : ds ≠ [])
    (hds : ∀ c ∈ ds, Text.isDigit c = true) (hrest : startsWord rest = false) :
    number? (ds ++ rest) ≠ none := by
  obtain ⟨htake, hdrop⟩ := span_digits hds hrest
  have hempty : ds.isEmpty = false := List.isEmpty_eq_false_iff.mpr hne
  unfold number?
  simp only [htake, hdrop, hempty, hrest, Bool.false_eq_true, if_false]
  split <;> exact Option.some_ne_none _

theorem startsWord_dropWhile (cs : List Char) : startsWord (cs.dropWhile Text.isWord) = false := by
  cases hd : cs.dropWhile Text.isWord with
  | nil => rfl
  | cons c ds =>
    have hhead := List.head?_dropWhile_not Text.isWord cs
    rw [hd] at hhead
    exact hhead

/-- A name is a word up to its end.  It is only looked for when there is no number, so it is not
all digits. -/
theorem name?_spec {cs rest : List Char} {t : Token} (hnum : number? cs = none)
    (h : name? cs = some (t, rest)) :
    t.kind = .name ∧ IsName t.chars ∧ startsWord rest = false := by
  unfold name? at h
  simp only at h
  split at h
  · cases h
  · rename_i hne
    have hne : cs.takeWhile Text.isWord ≠ [] := fun he => hne (List.isEmpty_iff.mpr he)
    obtain ⟨rfl, rfl⟩ := Prod.mk.inj (Option.some.inj h)
    have hword := startsWord_dropWhile cs
    have hcases := IsWord.cases ⟨hne, fun _ => List.mem_takeWhile_imp⟩
    refine ⟨rfl, hcases.resolve_right fun hds => ?_, hword⟩
    refine number?_isSome hne hds hword ?_
    rw [List.takeWhile_append_dropWhile]
    exact hnum

theorem operator?_mem {cs rest : List Char} {t : Token} (h : operator? cs = some (t, rest)) :
    t.kind = .operator ∧ t.chars ∈ operators := by
  unfold operator? at h
  split at h
  case h_5 =>
    split at h
    · rename_i c _ _ _ _ _ hmem
      obtain ⟨rfl, -⟩ := Prod.mk.inj (Option.some.inj h)
      refine ⟨rfl, ?_⟩
      simp only [List.mem_cons, List.not_mem_nil, or_false] at hmem
      rcases hmem with rfl | rfl | rfl | rfl | rfl | rfl <;> decide
    · cases h
  case h_6 => cases h
  all_goals
    obtain ⟨rfl, -⟩ := Prod.mk.inj (Option.some.inj h)
    exact ⟨rfl, by decide⟩

theorem next?_wellFormed {cs rest : List Char} {t : Token} (h : next? cs = some (t, rest)) :
    t.WellFormed := by
  unfold next? at h
  unfold WellFormed
  rcases Option.or_eq_some_iff.mp h with h | ⟨hnum, h⟩
  · obtain ⟨hk, hnumeral, -⟩ := number?_spec h
    rw [hk]
    exact hnumeral
  · rcases Option.or_eq_some_iff.mp h with h | ⟨-, h⟩
    · obtain ⟨hk, hname, -⟩ := name?_spec hnum h
      rw [hk]
      exact hname
    · obtain ⟨hk, hop⟩ := operator?_mem h
      rw [hk]
      exact hop

/-- What holds of no tokens, and goes on to hold with each token that is taken off in front,
holds of every scan. -/
theorem scan?_induction {P : List Char → List Token → Prop} (nil : P [] [])
    (cons : ∀ {cs rest : List Char} {t : Token} {ts : List Token},
      next? cs = some (t, rest) → P rest ts → P cs (t :: ts))
    {cs : List Char} {ts : List Token} (h : scan? cs = some ts) : P cs ts := by
  induction cs using scan?.induct generalizing ts with
  | case1 cs he =>
    obtain rfl := List.isEmpty_iff.mp he
    rw [scan?_nil] at h
    obtain rfl := Option.some.inj h
    exact nil
  | case2 cs _ t rest hn ih =>
    rw [scan?_of_next? hn] at h
    obtain ⟨us, hus, rfl⟩ := Option.map_eq_some_iff.mp h
    exact cons hn (ih hus)
  | case3 cs he hn =>
    rw [scan?, if_neg he] at h
    split at h
    · rename_i h'
      rw [hn] at h'
      cases h'
    · cases h

/-- The tokens of a text are the text cut in pieces, each of them well-formed. -/
theorem scan?_spec {cs : List Char} {ts : List Token} (h : scan? cs = some ts) :
    cs = ts.flatMap Token.chars ∧ ∀ t ∈ ts, t.WellFormed := by
  refine scan?_induction (P := fun cs ts => cs = ts.flatMap Token.chars ∧ ∀ t ∈ ts, t.WellFormed)
    ⟨rfl, fun t ht => absurd ht List.not_mem_nil⟩ ?_ h
  rintro cs rest t ts hn ⟨hcs, hwell⟩
  refine ⟨?_, List.forall_mem_cons.mpr ⟨next?_wellFormed hn, hwell⟩⟩
  rw [List.flatMap_cons, ← hcs]
  exact next?_append hn

/-! ## Taking tokens off -/

theorem fraction?_eq_none {cs : List Char} (h : cs.head? ≠ some '.') : fraction? cs = none := by
  unfold fraction?
  split
  · exact absurd rfl h
  · rfl

theorem number?_of_isNumeral {cs rest : List Char} (h : IsNumeral cs)
    (hrest : startsWord rest = false) (hpoint : rest.head? ≠ some '.') :
    number? (cs ++ rest) = some (⟨.number, cs⟩, rest) := by
  unfold number?
  cases h with
  | whole hne hds =>
    obtain ⟨htake, hdrop⟩ := span_digits hds hrest
    have hempty : cs.isEmpty = false := List.isEmpty_eq_false_iff.mpr hne
    simp only [htake, hdrop, hempty, fraction?_eq_none hpoint, hrest, Bool.false_eq_true, if_false]
  | @point ds fs hne hds hfne hfs =>
    have hstop : startsWord ('.' :: (fs ++ rest)) = false := (by decide : Text.isWord '.' = false)
    obtain ⟨htake, hdrop⟩ := span_digits hds hstop
    obtain ⟨hftake, hfdrop⟩ := span_digits hfs hrest
    have hempty : ds.isEmpty = false := List.isEmpty_eq_false_iff.mpr hne
    have hfempty : fs.isEmpty = false := List.isEmpty_eq_false_iff.mpr hfne
    rw [List.append_assoc, List.cons_append]
    simp only [htake, hdrop, hempty, fraction?, hftake, hfdrop, hfempty, hrest, Bool.or_self,
      Bool.false_eq_true, if_false]

/-- The digits at the front of a name run into the rest of it, so they are no number. -/
theorem number?_of_isName {name rest : List Char} (h : IsName name) :
    number? (name ++ rest) = none := by
  obtain ⟨⟨-, hword⟩, c, hc, hdigit⟩ := h
  obtain ⟨tail, htail⟩ : ∃ tail, name.dropWhile Text.isDigit = tail := ⟨_, rfl⟩
  cases tail with
  | nil =>
    rw [List.dropWhile_eq_nil_iff.mp htail c hc] at hdigit
    cases hdigit
  | cons d ds =>
    have hd : ¬Text.isDigit d = true := by
      have hhead := List.head?_dropWhile_not Text.isDigit name
      rw [htail] at hhead
      exact Bool.eq_false_iff.mp hhead
    have hd' : Text.isWord d = true :=
      hword d ((List.dropWhile_suffix _).subset (htail ▸ List.mem_cons_self))
    have hname : name = name.takeWhile Text.isDigit ++ d :: ds := by
      rw [← htail, List.takeWhile_append_dropWhile]
    have hpoint : d ≠ '.' := by
      rintro rfl
      exact absurd hd' (by decide)
    have hstart : startsWord (d :: (ds ++ rest)) = true := hd'
    have hfraction : fraction? (d :: (ds ++ rest)) = none :=
      fraction?_eq_none fun h => hpoint (Option.some.inj h)
    unfold number?
    rw [hname, List.append_assoc, List.takeWhile_append_of_pos fun _ => List.mem_takeWhile_imp,
      List.dropWhile_append_of_pos fun _ => List.mem_takeWhile_imp, List.cons_append,
      List.dropWhile_cons_of_neg hd]
    simp only [hfraction, hstart, if_true, ite_self]

theorem next?_of_isName {name rest : List Char} (h : IsName name)
    (hrest : startsWord rest = false) : next? (name ++ rest) = some (⟨.name, name⟩, rest) := by
  obtain ⟨htake, hdrop⟩ := span_append h.1.2 (startsWord_eq_false.mp hrest)
  have hempty : name.isEmpty = false := List.isEmpty_eq_false_iff.mpr h.1.1
  have hname : name? (name ++ rest) = some (⟨.name, name⟩, rest) := by
    unfold name?
    simp only [htake, hdrop, hempty, Bool.false_eq_true, if_false]
  unfold next?
  rw [number?_of_isName h, hname, Option.none_or, Option.some_or]

theorem startsWord_operator {op : List Char} (h : op ∈ operators) (rest : List Char) :
    startsWord (op ++ rest) = false := by
  have hall : ∀ op ∈ operators, ∃ c cs, op = c :: cs ∧ Text.isWord c = false := by
    intro op hop
    simp only [operators, List.mem_cons, List.not_mem_nil, or_false] at hop
    rcases hop with rfl | rfl | rfl | rfl | rfl | rfl | rfl | rfl | rfl | rfl <;>
      exact ⟨_, _, rfl, by decide⟩
  obtain ⟨c, cs, rfl, hc⟩ := hall op h
  exact hc

theorem next?_of_operator? {cs rest : List Char} {t : Token}
    (h : operator? cs = some (t, rest)) : next? cs = some (t, rest) := by
  have hcs := operator?_append h
  have hstart := startsWord_operator (operator?_mem h).2 rest
  rw [← hcs] at hstart
  cases cs with
  | nil => cases h
  | cons c cs =>
    have hword : ¬Text.isWord c = true := Bool.eq_false_iff.mp hstart
    have hdigit : ¬Text.isDigit c = true := fun hd => hword (Text.isWord_of_isDigit hd)
    have hnum : number? (c :: cs) = none := by
      unfold number?
      rw [List.takeWhile_cons_of_neg hdigit]
      rfl
    have hname : name? (c :: cs) = none := by
      unfold name?
      rw [List.takeWhile_cons_of_neg hword]
      rfl
    unfold next?
    rw [hnum, hname, Option.none_or, Option.none_or, h]

theorem operator?_of_startsWord {op rest : List Char} (hop : op ∈ operators)
    (hrest : startsWord rest = true) :
    operator? (op ++ rest) = some (⟨.operator, op⟩, rest) := by
  cases rest with
  | nil => cases hrest
  | cons c cs =>
    have hne : c ≠ '=' := by
      rintro rfl
      have hword : Text.isWord '=' = true := hrest
      exact absurd hword (by decide)
    simp only [operators, List.mem_cons, List.not_mem_nil, or_false] at hop
    rcases hop with rfl | rfl | rfl | rfl | rfl | rfl | rfl | rfl | rfl | rfl <;>
      simp [operator?, hne]

/-! ## Scanning what was put together -/

theorem scan?_phrase {name op rest : List Char} (hname : IsName name)
    (hop : operator? (op ++ rest) = some (⟨.operator, op⟩, rest)) :
    scan? (name ++ (op ++ rest)) =
      (scan? rest).map fun ts => ⟨.name, name⟩ :: ⟨.operator, op⟩ :: ts := by
  have hstart := startsWord_operator (operator?_mem hop).2 rest
  rw [scan?_of_next? (next?_of_isName hname hstart), scan?_of_next? (next?_of_operator? hop),
    Option.map_map]
  rfl

theorem scan?_single {t : Token} (hk : t.kind ≠ .operator) (h : t.WellFormed) :
    scan? t.chars = some [t] := by
  have hnext : next? t.chars = some (t, []) := by
    obtain ⟨kind, cs⟩ := t
    cases kind with
    | number =>
      have hn : number? (cs ++ []) = some (⟨.number, cs⟩, []) := number?_of_isNumeral h rfl nofun
      rw [List.append_nil] at hn
      unfold next?
      rw [hn, Option.some_or]
    | name =>
      have hn : next? (cs ++ []) = some (⟨.name, cs⟩, []) := next?_of_isName h rfl
      rwa [List.append_nil] at hn
    | operator => exact absurd rfl hk
  rw [scan?_of_next? hnext, scan?_nil]
  rfl

theorem ne_nil_of_wellFormed {t : Token} (hk : t.kind ≠ .operator) (h : t.WellFormed) :
    t.chars ≠ [] := by
  obtain ⟨kind, cs⟩ := t
  cases kind with
  | number => exact IsNumeral.ne_nil h
  | name => exact h.1.1
  | operator => exact absurd rfl hk

theorem startsWord_of_wellFormed {t : Token} (hk : t.kind ≠ .operator) (h : t.WellFormed) :
    startsWord t.chars = true := by
  have hne := ne_nil_of_wellFormed hk h
  obtain ⟨kind, cs⟩ := t
  cases cs with
  | nil => exact absurd rfl hne
  | cons c cs =>
    cases kind with
    | number => exact Text.isWord_of_isDigit (IsNumeral.isDigit_head h c rfl)
    | name => exact h.1.2 c List.mem_cons_self
    | operator => exact absurd rfl hk

end Token

/-! ## Phrases -/

namespace Phrase

/-- A text is a phrase exactly if it is a name, an operator and an argument. -/
theorem ofText?_eq_some {text : String} {p : Phrase} (hk : p.argument.kind ≠ .operator) :
    ofText? text = some p ↔
      text.toList = p.name.toList ++ (p.operator ++ p.argument.chars) ∧ IsName p.name.toList ∧
        p.operator ∈ Token.operators ∧ p.argument.WellFormed := by
  unfold ofText? tokenize
  constructor
  · intro h
    split at h
    · rename_i name op arg hscan
      obtain rfl := Option.some.inj h
      obtain ⟨hchars, hwell⟩ := Token.scan?_spec hscan
      have hname : IsName name := hwell ⟨.name, name⟩ (by simp)
      have hop : op ∈ Token.operators := hwell ⟨.operator, op⟩ (by simp)
      have harg : arg.WellFormed := hwell arg (by simp)
      rw [String.toList_ofList]
      refine ⟨?_, hname, hop, harg⟩
      rw [hchars]
      simp only [List.flatMap_cons, List.flatMap_nil, List.append_nil]
    · cases h
  · rintro ⟨htext, hname, hop, harg⟩
    have hstart := Token.startsWord_of_wellFormed hk harg
    rw [htext, Token.scan?_phrase hname (Token.operator?_of_startsWord hop hstart),
      Token.scan?_single hk harg]
    simp only [Option.map_some, String.ofList_toList]

end Phrase

end SeededPlay

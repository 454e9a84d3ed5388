/-
# `SeededPlay.Proofs.Rules.Conditions` — the texts that mean conditions

The language of conditions has four shapes of texts: blank texts, `flag:` and `has:`
with a word behind them, and comparisons, which are a name, a comparator and a numeral
(`WritesComparison`).  What a reader makes of a text is a relation with one rule for
each shape, and one for the texts without any, which only a permissive reader takes
(`Condition.Reads`).  The reader gives exactly what the relation says
(`Condition.parse_eq_ok`), and it fails exactly on the texts that are left over
(`Condition.parse_eq_error`).

Left over are, for a strict reader, the texts of no shape.  For every reader there is
one more kind, the same as among effects: a comparison with a whole numeral of more
than 4300 digits is in the language, but its number is refused.

## Shapes exclude each other

A comparator is known by its characters, and none of them is a colon, so a comparison is not
one of the other shapes; a text with a mark in it that is not white space is not blank.  A
text of no shape has no other meaning, so the rule for it excludes the others
(`Reads.inLanguage_iff`), and within the language it makes no difference whether the reader
is strict (`Reads.of_inLanguage`).
-/
import SeededPlay.Proofs.Rules.Grammar
import SeededPlay.Rules.Condition

namespace SeededPlay

/-! ## The four shapes -/

/-- A name, a comparator and a numeral. -/
def WritesComparison (text name : String) (op : Comparator) (numeral : String) : Prop :=
  text = name ++ String.ofList op.chars ++ numeral ∧ IsName name.toList ∧
    IsNumeral numeral.toList

namespace Comparator

theorem chars_mem_operators (op : Comparator) : op.chars ∈ Token.operators := by
  cases op <;> decide

theorem chars_ne_colon (op : Comparator) : op.chars ≠ [':'] := by
  cases op <;> decide

theorem ofChars?_eq_some {cs : List Char} {op : Comparator} :
    ofChars? cs = some op ↔ op.chars = cs := by
  constructor
  · intro h
    simpa using List.find?_some h
  · rintro rfl
    cases op <;> rfl

end Comparator

namespace Condition

/-- Nothing but white space. -/
def Blank (text : String) : Prop := ∀ c ∈ text.toList, Text.isBlank c = true

/-- The texts of the language of conditions. -/
def InLanguage (text : String) : Prop :=
  Blank text ∨ (∃ word, WritesWord ':' text "flag" word) ∨
    (∃ word, WritesWord ':' text "has" word) ∨
    ∃ name op numeral, WritesComparison text name op numeral

end Condition

namespace Phrase

theorem ofText?_comparison {text name numeral : String} {op : Comparator}
    (h : WritesComparison text name op numeral) :
    ofText? text = some ⟨name, op.chars, ⟨.number, numeral.toList⟩⟩ := by
  obtain ⟨rfl, hname, hnumeral⟩ := h
  refine (ofText?_eq_some TokenKind.noConfusion).mpr
    ⟨?_, hname, op.chars_mem_operators, hnumeral⟩
  rw [String.toList_append, String.toList_append, String.toList_ofList, List.append_assoc]

end Phrase

namespace Condition

/-! ## What texts mean -/

/-- What a text that is not blank means before its reader decides about the ones that mean
nothing. -/
def meaning (text : String) : Except Fault (Option Condition) :=
  match Phrase.ofText? text with
  | some p => ofPhrase p text
  | none => .ok none

theorem meaning_of_phrase {text : String} {p : Phrase} (hp : Phrase.ofText? text = some p) :
    meaning text = ofPhrase p text := by
  simp only [meaning, hp]

theorem parse_of_blank (strict : Bool) {text : String} (h : Blank text) :
    parse strict text = .ok .always := by
  have hall : text.toList.all Text.isBlank = true := List.all_eq_true.mpr h
  simp only [parse, hall, if_true]
  rfl

theorem parse_of_not_blank (strict : Bool) {text : String} (h : ¬Blank text) :
    parse strict text = (meaning text).bind fun
      | some c => .ok c
      | none =>
        if strict then .error (.unparsable ⟨.condition, text⟩) else .ok (.unknown text) := by
  have hall : ¬text.toList.all Text.isBlank = true := fun hall => h (List.all_eq_true.mp hall)
  unfold parse meaning
  rw [if_neg hall]
  cases Phrase.ofText? text with
  | none => cases strict <;> rfl
  | some p =>
    show (ofPhrase p text).bind _ = (ofPhrase p text).bind _
    cases ofPhrase p text with
    | error f => rfl
    | ok c? =>
      cases c? with
      | some c => rfl
      | none => cases strict <;> rfl

theorem not_blank {text : String} {c : Char} (hc : c ∈ text.toList)
    (hmark : Text.isBlank c = false) : ¬Blank text := by
  intro h
  rw [h c hc] at hmark
  exact Bool.noConfusion hmark

theorem not_blank_of_word {text name word : String} (h : WritesWord ':' text name word) :
    ¬Blank text := by
  obtain ⟨rfl, -⟩ := h
  refine not_blank (c := ':') ?_ (by decide)
  rw [Phrase.toList_joined]
  exact List.mem_append_right _ List.mem_cons_self

theorem not_blank_of_comparison {text name numeral : String} {op : Comparator}
    (h : WritesComparison text name op numeral) : ¬Blank text := by
  obtain ⟨rfl, -⟩ := h
  obtain ⟨c, hc, hmark⟩ : ∃ c ∈ op.chars, Text.isBlank c = false := by
    cases op <;> exact ⟨_, List.mem_cons_self, by decide⟩
  refine not_blank (c := c) ?_ hmark
  rw [String.toList_append, String.toList_append, String.toList_ofList]
  exact List.mem_append_left _ (List.mem_append_right _ hc)

theorem meaning_flag {text word : String} (h : WritesWord ':' text "flag" word) :
    meaning text = .ok (some (.flag word)) := by
  obtain ⟨p, hp, hname, hop, hword⟩ := Phrase.exists_ofText?_word (by decide) h
  rw [meaning_of_phrase hp]
  simp only [ofPhrase, hop, hname, hword, if_true, Option.map_some]

theorem meaning_has {text word : String} (h : WritesWord ':' text "has" word) :
    meaning text = .ok (some (.has word)) := by
  obtain ⟨p, hp, hname, hop, hword⟩ := Phrase.exists_ofText?_word (by decide) h
  rw [meaning_of_phrase hp]
  simp only [ofPhrase, hop, hname, hword, if_true, Option.map_some]

theorem meaning_comparison {text name numeral : String} {op : Comparator}
    (h : WritesComparison text name op numeral) : meaning text =
      (Phrase.numberOf numeral).map fun n => some (.compare name op n text) := by
  have hchars : Comparator.ofChars? op.chars = some op := Comparator.ofChars?_eq_some.mpr rfl
  have htext : Token.text ⟨.number, numeral.toList⟩ = numeral := String.ofList_toList
  rw [meaning_of_phrase (Phrase.ofText?_comparison h)]
  simp only [ofPhrase, op.chars_ne_colon, if_false, hchars, Phrase.numeral?, if_true, htext]

theorem meaning_other {text : String} (h : ¬InLanguage text) : meaning text = .ok none := by
  obtain ⟨-, h⟩ := not_or.mp h
  obtain ⟨hflag, h⟩ := not_or.mp h
  obtain ⟨hhas, hcompare⟩ := not_or.mp h
  cases hp : Phrase.ofText? text with
  | none => simp only [meaning, hp]
  | some p =>
    have hword : ∀ name, p.operator = [':'] → p.name = name →
        (¬∃ word, WritesWord ':' text name word) → p.word? = none := by
      rintro name hop rfl hnone
      exact Option.eq_none_iff_forall_ne_some.mpr fun word hw =>
        hnone ⟨word, Phrase.writesWord_of_word? hp hop hw⟩
    rw [meaning_of_phrase hp, ofPhrase]
    split
    · rename_i hop
      split
      · rename_i hname
        rw [hword "flag" hop hname hflag]
        rfl
      · rename_i hname
        rw [hword "has" hop hname hhas]
        rfl
      · rfl
    · split
      · rename_i op numeral hop hn
        have hwrites := Phrase.isNumeral_of_numeral? hp hn
        rw [← Comparator.ofChars?_eq_some.mp hop] at hwrites
        exact absurd ⟨p.name, op, numeral, hwrites⟩ hcompare
      · rfl

/-! ## What readers make of texts -/

theorem parse_flag (strict : Bool) {text word : String} (h : WritesWord ':' text "flag" word) :
    parse strict text = .ok (.flag word) := by
  rw [parse_of_not_blank strict (not_blank_of_word h), meaning_flag h]
  rfl

theorem parse_has (strict : Bool) {text word : String} (h : WritesWord ':' text "has" word) :
    parse strict text = .ok (.has word) := by
  rw [parse_of_not_blank strict (not_blank_of_word h), meaning_has h]
  rfl

theorem parse_comparison (strict : Bool) {text name numeral : String} {op : Comparator}
    (h : WritesComparison text name op numeral) : parse strict text =
      (Phrase.numberOf numeral).map fun n => .compare name op n text := by
  rw [parse_of_not_blank strict (not_blank_of_comparison h), meaning_comparison h]
  cases Phrase.numberOf numeral <;> rfl

theorem parse_other (strict : Bool) {text : String} (h : ¬InLanguage text) : parse strict text =
    if strict then .error (.unparsable ⟨.condition, text⟩) else .ok (.unknown text) := by
  rw [parse_of_not_blank strict fun hblank => h (.inl hblank), meaning_other h]
  rfl

/-- What a reader makes of a text: one rule for each shape, and one for the texts without
any. -/
inductive Reads (strict : Bool) (text : String) : Condition → Prop
  | always : Blank text → Reads strict text .always
  | flag {word : String} : WritesWord ':' text "flag" word → Reads strict text (.flag word)
  | has {word : String} : WritesWord ':' text "has" word → Reads strict text (.has word)
  | compare {name numeral : String} {op : Comparator} {n : Number} :
      WritesComparison text name op numeral → Phrase.numberOf numeral = .ok n →
      Reads strict text (.compare name op n text)
  | unknown : strict = false → ¬InLanguage text → Reads strict text (.unknown text)

section

variable {strict : Bool} {text : String}

/-- A reader gives what the rules say, and nothing else. -/
theorem parse_eq_ok {c : Condition} : parse strict text = .ok c ↔ Reads strict text c := by
  constructor
  · intro h
    by_cases hin : InLanguage text
    · rcases hin with hblank | ⟨word, hw⟩ | ⟨word, hw⟩ | ⟨name, op, numeral, hw⟩
      · obtain rfl := Except.ok.inj ((parse_of_blank strict hblank).symm.trans h)
        exact .always hblank
      · obtain rfl := Except.ok.inj ((parse_flag strict hw).symm.trans h)
        exact .flag hw
      · obtain rfl := Except.ok.inj ((parse_has strict hw).symm.trans h)
        exact .has hw
      · obtain ⟨n, hn, rfl⟩ := map_eq_ok.mp ((parse_comparison strict hw).symm.trans h)
        exact .compare hw hn
    · cases strict with
      | true => cases (parse_other true hin).symm.trans h
      | false =>
        obtain rfl := Except.ok.inj ((parse_other false hin).symm.trans h)
        exact .unknown rfl hin
  · intro h
    cases h with
    | always hblank => exact parse_of_blank strict hblank
    | flag hw => exact parse_flag strict hw
    | has hw => exact parse_has strict hw
    | compare hw hn =>
      rw [parse_comparison strict hw, hn]
      rfl
    | unknown hs hin =>
      subst hs
      exact parse_other false hin

/-- A strict reader refuses what is outside the language; every reader refuses a numeral
that is too long, and nothing else. -/
theorem parse_eq_error {f : Fault} :
    parse strict text = .error f ↔
      strict = true ∧ f = .unparsable ⟨.condition, text⟩ ∧ ¬InLanguage text ∨
      ∃ name op numeral, WritesComparison text name op numeral ∧ Phrase.TooLong numeral ∧
        f = .integer (.tooLong numeral.toList.length) := by
  constructor
  · intro h
    by_cases hin : InLanguage text
    · rcases hin with hblank | ⟨word, hw⟩ | ⟨word, hw⟩ | ⟨name, op, numeral, hw⟩
      · cases (parse_of_blank strict hblank).symm.trans h
      · cases (parse_flag strict hw).symm.trans h
      · cases (parse_has strict hw).symm.trans h
      · refine .inr ⟨name, op, numeral, hw, (Phrase.numberOf_eq_error hw.2.2).mp ?_⟩
        have hmap := (parse_comparison strict hw).symm.trans h
        cases hn : Phrase.numberOf numeral with
        | ok n =>
          rw [hn] at hmap
          cases hmap
        | error e =>
          rw [hn] at hmap
          exact congrArg Except.error (Except.error.inj hmap)
    · cases strict with
      | true => exact .inl ⟨rfl, (Except.error.inj ((parse_other true hin).symm.trans h)).symm, hin⟩
      | false => cases (parse_other false hin).symm.trans h
  · rintro (⟨rfl, rfl, hin⟩ | ⟨name, op, numeral, hw, hlong⟩)
    · exact parse_other true hin
    · rw [parse_comparison strict hw, (Phrase.numberOf_eq_error hw.2.2).mpr hlong]
      rfl

end

/-! ### The whole language -/

/-- A text of no shape has no other meaning, so the rule for it excludes the others. -/
theorem Reads.inLanguage_iff {strict : Bool} {text : String} {c : Condition}
    (h : Reads strict text c) : InLanguage text ↔ c ≠ .unknown text := by
  cases h with
  | always hblank => exact ⟨fun _ => Condition.noConfusion, fun _ => .inl hblank⟩
  | flag hw => exact ⟨fun _ => Condition.noConfusion, fun _ => .inr (.inl ⟨_, hw⟩)⟩
  | has hw => exact ⟨fun _ => Condition.noConfusion, fun _ => .inr (.inr (.inl ⟨_, hw⟩))⟩
  | compare hw _ =>
    exact ⟨fun _ => Condition.noConfusion, fun _ => .inr (.inr (.inr ⟨_, _, _, hw⟩))⟩
  | unknown _ hin => exact ⟨fun h => absurd h hin, fun h => absurd rfl h⟩

theorem Reads.of_inLanguage {strict strict' : Bool} {text : String} {c : Condition}
    (hin : InLanguage text) (h : Reads strict text c) : Reads strict' text c := by
  cases h with
  | always hblank => exact .always hblank
  | flag hw => exact .flag hw
  | has hw => exact .has hw
  | compare hw hn => exact .compare hw hn
  | unknown _ hout => exact absurd hin hout

/-- A reader accepts exactly the language.  Each kind of condition has its shape of text,
any other text is an unknown condition that carries it, and a strict reader refuses
exactly those.  Only the numerals have a limit: a comparison with a whole numeral of more
than 4300 digits is refused by every reader. -/
theorem parse_accepts (text : String) :
    (∀ strict, parse strict text = .ok .always ↔ Blank text) ∧
    (∀ strict word, parse strict text = .ok (.flag word) ↔ WritesWord ':' text "flag" word) ∧
    (∀ strict word, parse strict text = .ok (.has word) ↔ WritesWord ':' text "has" word) ∧
    (∀ strict name op n carried, parse strict text = .ok (.compare name op n carried) ↔
      carried = text ∧ ∃ numeral, WritesComparison text name op numeral ∧
        ¬Phrase.TooLong numeral ∧ Phrase.Writes numeral.toList n) ∧
    (∀ strict carried, parse strict text = .ok (.unknown carried) ↔
      strict = false ∧ carried = text ∧ ¬InLanguage text) ∧
    (∀ strict f, parse strict text = .error f ↔
      strict = true ∧ f = .unparsable ⟨.condition, text⟩ ∧ ¬InLanguage text ∨
      ∃ name op numeral, WritesComparison text name op numeral ∧ Phrase.TooLong numeral ∧
        f = .integer (.tooLong numeral.toList.length)) ∧
    ∀ c, parse true text = .ok c ↔ parse false text = .ok c ∧ c ≠ .unknown text := by
  refine ⟨fun strict => ?_, fun strict word => ?_, fun strict word => ?_,
    fun strict name op n carried => ?_, fun strict carried => ?_, fun _ _ => parse_eq_error,
    fun c => ?_⟩
  · rw [parse_eq_ok]
    exact ⟨fun | .always hblank => hblank, .always⟩
  · rw [parse_eq_ok]
    exact ⟨fun | .flag hw => hw, .flag⟩
  · rw [parse_eq_ok]
    exact ⟨fun | .has hw => hw, .has⟩
  · rw [parse_eq_ok]
    constructor
    · intro h
      cases h with
      | compare hw hn => exact ⟨rfl, _, hw, (Phrase.numberOf_eq_ok hw.2.2).mp hn⟩
    · rintro ⟨rfl, numeral, hw, hn⟩
      exact .compare hw ((Phrase.numberOf_eq_ok hw.2.2).mpr hn)
  · rw [parse_eq_ok]
    constructor
    · intro h
      cases h with
      | unknown hs hin => exact ⟨hs, rfl, hin⟩
    · rintro ⟨hs, rfl, hin⟩
      exact .unknown hs hin
  · rw [parse_eq_ok, parse_eq_ok]
    constructor
    · intro h
      have hin : InLanguage text := by
        by_contra hout
        cases (parse_other true hout).symm.trans (parse_eq_ok.mpr h)
      exact ⟨h.of_inLanguage hin, h.inLanguage_iff.mp hin⟩
    · rintro ⟨h, hknown⟩
      exact h.of_inLanguage (h.inLanguage_iff.mpr hknown)

theorem parse_paddedTarget :
    WritesComparison ("score" ++ String.ofList Comparator.gt.chars ++ Effect.paddedOne) "score" .gt
        Effect.paddedOne ∧
      Phrase.Writes Effect.paddedOne.toList (.int 1) ∧
      ∀ strict c, parse strict
        ("score" ++ String.ofList Comparator.gt.chars ++ Effect.paddedOne) ≠ .ok c := by
  have hname : IsName "score".toList := by decide
  have hlist : Effect.paddedOne.toList = List.replicate 4300 '0' ++ ['1'] := String.toList_ofList
  have hdigits : ∀ c ∈ Effect.paddedOne.toList, Text.isDigit c = true := by
    rw [hlist]
    exact fun c hc => Text.isDigit_of_ascii (Effect.isDigit_paddedOne c hc)
  have hne : Effect.paddedOne.toList ≠ [] := by
    rw [hlist]
    exact List.append_ne_nil_of_right_ne_nil _ (List.cons_ne_nil '1' [])
  have hw : WritesComparison ("score" ++ String.ofList Comparator.gt.chars ++ Effect.paddedOne)
      "score" .gt Effect.paddedOne := ⟨rfl, hname, IsNumeral.whole hne hdigits⟩
  have hlong : Phrase.TooLong Effect.paddedOne := by
    refine ⟨Phrase.not_mem_of_digits hdigits, ?_⟩
    rw [hlist, List.length_append, List.length_replicate]
    decide
  refine ⟨hw, Effect.writes_paddedOne, fun strict c hc => ?_⟩
  have herror : parse strict _ = .error _ :=
    parse_eq_error.mpr (.inr ⟨_, _, _, hw, hlong, rfl⟩)
  cases hc.symm.trans herror

end Condition

end SeededPlay

/-
# `SeededPlay.Proofs.Rules.Grammar` — the texts that mean effects

The language of effects has three shapes of texts: a name, a sign and a numeral
(`WritesAmount`), and a name and a word with a colon or an equals sign between them
(`WritesWord`).  Each shape is read as what it says and nothing else is read at all
(`Effect.meaning_amount` to `Effect.meaning_other`), so a reader accepts exactly the
language (`Effect.parse_grammar`).

There is one exception, and it is in the numerals: a whole numeral of more than 4300
digits is in the language, but its number is refused (`Phrase.TooLong`), by strict and
by permissive readers alike.

## From texts to meanings and back

A text that is cut into a name, an operator and an argument was joined from them
(`eq_joined`).  A word behind a mark is one token, a name or a number, and what is taken for a
word or a numeral is one.  So each shape is recovered from the phrase that it is cut into, and
with `meaning_other` the three shapes are everything that means something.

A text with a meaning means that to every reader (`parse_of_meaning`).  Readers differ on the
other texts only: `parse_cases` goes through the shapes, and through none of them.  A numeral
is refused only for its length (`numberOf_eq_error`), and one that is not too long is read as
the number that it writes (`numberOf_eq_ok`).
-/
import SeededPlay.Proofs.Attempt
import SeededPlay.Proofs.Rules.Tokens
import SeededPlay.Rules.Effect

namespace SeededPlay

/-! ## The numbers of numerals -/

namespace Phrase

/-- The number that a numeral writes: its digits to the base ten, in any script, or, with
a point, the double nearest to the fraction. -/
inductive Writes : List Char → Number → Prop
  | whole {ds : List Char} : ds ≠ [] → (∀ c ∈ ds, Text.isDigit c = true) →
      Writes ds (.int (Numeral.ofDigits (Numeral.asciiDigits ds)))
  | point {ds fs : List Char} : ds ≠ [] → (∀ c ∈ ds, Text.isDigit c = true) →
      fs ≠ [] → (∀ c ∈ fs, Text.isDigit c = true) →
      Writes (ds ++ '.' :: fs) (.real (Decimal.toBinary64 false
        ⟨Numeral.ofDigits (Numeral.asciiDigits ds ++ Numeral.asciiDigits fs),
          -(fs.length : Int)⟩))

/-- A whole numeral with more digits than are read. -/
def TooLong (numeral : String) : Prop :=
  '.' ∉ numeral.toList ∧ Numeral.digitLimit < numeral.toList.length

theorem not_mem_of_digits {ds : List Char} (hds : ∀ c ∈ ds, Text.isDigit c = true) :
    '.' ∉ ds := fun h => absurd (hds '.' h) (by decide)

theorem numberOf_of_writes {numeral : String} {n : Number} (h : Writes numeral.toList n) :
    TooLong numeral ∧ numberOf numeral = .error (.integer (.tooLong numeral.toList.length)) ∨
      ¬TooLong numeral ∧ numberOf numeral = .ok n := by
  obtain ⟨cs, hcs⟩ : ∃ cs, numeral.toList = cs := ⟨_, rfl⟩
  have hnumeral : numeral = String.ofList cs := by rw [← hcs, String.ofList_toList]
  unfold TooLong
  rw [hcs] at h ⊢
  rw [hnumeral]
  cases h with
  | whole hne hds =>
    rw [numberOf_whole hne hds]
    by_cases hlong : Numeral.digitLimit < cs.length
    · rw [if_pos hlong]
      exact Or.inl ⟨⟨not_mem_of_digits hds, hlong⟩, rfl⟩
    · rw [if_neg hlong]
      exact Or.inr ⟨fun h => hlong h.2, rfl⟩
  | point hne hds _ hfs =>
    rw [numberOf_point hne hds hfs]
    exact Or.inr ⟨fun h => h.1 (List.mem_append_right _ List.mem_cons_self), rfl⟩

theorem exists_writes {cs : List Char} (h : IsNumeral cs) : ∃ n, Writes cs n := by
  cases h with
  | whole hne hds => exact ⟨_, .whole hne hds⟩
  | point hne hds hfne hfs => exact ⟨_, .point hne hds hfne hfs⟩

theorem numberOf_eq_ok {numeral : String} {n : Number} (h : IsNumeral numeral.toList) :
    numberOf numeral = .ok n ↔ ¬TooLong numeral ∧ Writes numeral.toList n := by
  constructor
  · intro hn
    obtain ⟨m, hm⟩ := exists_writes h
    rcases numberOf_of_writes hm with ⟨-, he⟩ | ⟨hshort, hok⟩
    · cases hn.symm.trans he
    · obtain rfl := Except.ok.inj (hn.symm.trans hok)
      exact ⟨hshort, hm⟩
  · rintro ⟨hshort, hn⟩
    exact (numberOf_of_writes hn).elim (fun h => absurd h.1 hshort) (·.2)

/-- A numeral is refused only for its length. -/
theorem numberOf_eq_error {numeral : String} {f : Fault} (h : IsNumeral numeral.toList) :
    numberOf numeral = .error f ↔
      TooLong numeral ∧ f = .integer (.tooLong numeral.toList.length) := by
  obtain ⟨m, hm⟩ := exists_writes h
  rcases numberOf_of_writes hm with ⟨hlong, he⟩ | ⟨hshort, hok⟩
  · rw [he]
    exact ⟨fun hf => ⟨hlong, (Except.error.inj hf).symm⟩, fun hf => congrArg _ hf.2.symm⟩
  · rw [hok]
    exact ⟨nofun, fun hf => absurd hf.1 hshort⟩

/-! ## Arguments -/

theorem numeral?_eq_some {p : Phrase} {numeral : String} (h : p.numeral? = some numeral) :
    p.argument.kind = .number ∧ p.argument.text = numeral := by
  unfold numeral? at h
  split at h
  · rename_i hk
    exact ⟨hk, Option.some.inj h⟩
  · cases h

theorem word?_eq_some {p : Phrase} {word : String} (h : p.word? = some word) :
    p.argument.kind ≠ .operator ∧ (∀ c ∈ p.argument.chars, Text.isWord c = true) ∧
      p.argument.text = word := by
  unfold word? at h
  split at h
  · rename_i hw
    simp only [Token.isWord, Bool.and_eq_true, decide_eq_true_eq, List.all_eq_true] at hw
    exact ⟨hw.1, hw.2, Option.some.inj h⟩
  · cases h

end Phrase

theorem IsWord.exists_token {cs : List Char} (h : IsWord cs) :
    ∃ t : Token, t.chars = cs ∧ t.kind ≠ .operator ∧ t.WellFormed ∧ t.isWord = true := by
  have hall := List.all_eq_true.mpr h.2
  rcases h.cases with hname | hds
  · refine ⟨⟨.name, cs⟩, rfl, TokenKind.noConfusion, hname, ?_⟩
    unfold Token.isWord
    rw [hall]
    rfl
  · refine ⟨⟨.number, cs⟩, rfl, TokenKind.noConfusion, IsNumeral.whole h.1 hds, ?_⟩
    unfold Token.isWord
    rw [hall]
    rfl

/-! ## The three shapes -/

/-- A name, a sign and a numeral. -/
def WritesAmount (text name : String) (sign : Sign) (numeral : String) : Prop :=
  text = name ++ String.singleton sign.char ++ numeral ∧ IsName name.toList ∧
    IsNumeral numeral.toList

/-- A name and a word with a mark between them. -/
def WritesWord (mark : Char) (text name word : String) : Prop :=
  text = name ++ String.singleton mark ++ word ∧ IsName name.toList ∧ IsWord word.toList

/-- The texts of the language of effects. -/
def InLanguage (text : String) : Prop :=
  (∃ name sign numeral, WritesAmount text name sign numeral) ∨
    (∃ name word, WritesWord ':' text name word) ∨ ∃ name word, WritesWord '=' text name word

namespace Phrase

theorem toList_joined {name arg : String} {mark : Char} :
    (name ++ String.singleton mark ++ arg).toList = name.toList ++ ([mark] ++ arg.toList) := by
  rw [String.toList_append, String.toList_append, String.toList_singleton, List.append_assoc]

theorem eq_joined {text : String} {p : Phrase} (hp : ofText? text = some p)
    (hk : p.argument.kind ≠ .operator) :
    text = p.name ++ String.ofList p.operator ++ p.argument.text ∧ IsName p.name.toList ∧
      p.argument.WellFormed := by
  obtain ⟨htext, hname, -, hwell⟩ := (ofText?_eq_some hk).mp hp
  refine ⟨String.toList_inj.mp ?_, hname, hwell⟩
  have harg : p.argument.text.toList = p.argument.chars := String.toList_ofList
  rw [htext, String.toList_append, String.toList_append, String.toList_ofList, harg,
    List.append_assoc]

theorem isNumeral_of_numeral? {text numeral : String} {p : Phrase} (hp : ofText? text = some p)
    (h : p.numeral? = some numeral) :
    text = p.name ++ String.ofList p.operator ++ numeral ∧ IsName p.name.toList ∧
      IsNumeral numeral.toList := by
  obtain ⟨hk, rfl⟩ := numeral?_eq_some h
  obtain ⟨htext, hname, hwell⟩ := eq_joined hp (by rw [hk]; exact TokenKind.noConfusion)
  refine ⟨htext, hname, ?_⟩
  unfold Token.text
  rw [String.toList_ofList]
  exact Token.isNumeral_of_wellFormed hwell hk

theorem writesWord_of_word? {text word : String} {p : Phrase} {mark : Char}
    (hp : ofText? text = some p) (hop : p.operator = [mark]) (h : p.word? = some word) :
    WritesWord mark text p.name word := by
  obtain ⟨hk, hall, rfl⟩ := word?_eq_some h
  obtain ⟨htext, hname, hwell⟩ := eq_joined hp hk
  rw [hop, ← String.singleton_eq_ofList] at htext
  refine ⟨htext, hname, ?_⟩
  unfold Token.text
  rw [String.toList_ofList]
  exact ⟨Token.ne_nil_of_wellFormed hk hwell, hall⟩

theorem ofText?_amount {text name numeral : String} {sign : Sign}
    (h : WritesAmount text name sign numeral) :
    ofText? text = some ⟨name, [sign.char], ⟨.number, numeral.toList⟩⟩ := by
  obtain ⟨rfl, hname, hnumeral⟩ := h
  have hop : [sign.char] ∈ Token.operators := by cases sign <;> decide
  exact (ofText?_eq_some TokenKind.noConfusion).mpr ⟨toList_joined, hname, hop, hnumeral⟩

theorem exists_ofText?_word {text name word : String} {mark : Char}
    (hmark : [mark] ∈ Token.operators) (h : WritesWord mark text name word) :
    ∃ p, ofText? text = some p ∧ p.name = name ∧ p.operator = [mark] ∧ p.word? = some word := by
  obtain ⟨rfl, hname, hword⟩ := h
  obtain ⟨t, hchars, hk, hwell, ht⟩ := hword.exists_token
  refine ⟨⟨name, [mark], t⟩, (ofText?_eq_some hk).mpr ⟨?_, hname, hmark, hwell⟩, rfl, rfl, ?_⟩
  · rw [toList_joined, hchars]
  · unfold word? Token.text
    rw [if_pos ht, hchars, String.ofList_toList]

end Phrase

/-! ## What texts mean -/

namespace Effect

/-- What a text means before its reader decides about the ones that mean nothing. -/
def meaning (text : String) : Except Fault (Option Effect) :=
  match Phrase.ofText? text with
  | some p => ofPhrase p
  | none => .ok none

theorem meaning_of_phrase {text : String} {p : Phrase} (hp : Phrase.ofText? text = some p) :
    meaning text = ofPhrase p := by
  unfold meaning
  rw [hp]

theorem parse_eq (strict : Bool) (text : String) :
    parse strict text = (meaning text).bind fun
      | some e => .ok e
      | none => if strict then .error (.unparsable ⟨.effect, text⟩) else .ok (.custom text) := by
  unfold parse meaning
  cases Phrase.ofText? text with
  | none => cases strict <;> rfl
  | some p =>
    show (ofPhrase p).bind _ = (ofPhrase p).bind _
    cases ofPhrase p with
    | error f => rfl
    | ok e? =>
      cases e? with
      | some e => rfl
      | none => cases strict <;> rfl

theorem parse_of_meaning {text : String} {e : Effect} (strict : Bool)
    (h : meaning text = .ok (some e)) : parse strict text = .ok e := by
  rw [parse_eq, h]
  rfl

theorem meaning_amount {text name numeral : String} {sign : Sign}
    (h : WritesAmount text name sign numeral) : meaning text =
      (Phrase.numberOf numeral).map fun n => some (.arithmetic name sign n) := by
  have htext : Token.text ⟨.number, numeral.toList⟩ = numeral := String.ofList_toList
  rw [meaning_of_phrase (Phrase.ofText?_amount h)]
  unfold ofPhrase Phrase.numeral?
  cases sign <;> simp only [Sign.char, if_true, htext]

theorem meaning_signal {text name word : String} (h : WritesWord ':' text name word) :
    meaning text = .ok (some (if word = "trigger" then .trigger name else .signal name word)) := by
  obtain ⟨p, hp, rfl, hop, hword⟩ := Phrase.exists_ofText?_word (by decide) h
  rw [meaning_of_phrase hp]
  unfold ofPhrase
  simp only [hop, hword, Option.map_some]

theorem meaning_flag {text name word : String} (h : WritesWord '=' text name word) :
    meaning text = .ok (some (.flag word)) := by
  obtain ⟨p, hp, -, hop, hword⟩ := Phrase.exists_ofText?_word (by decide) h
  rw [meaning_of_phrase hp]
  unfold ofPhrase
  simp only [hop, hword, Option.map_some]

theorem meaning_other {text : String} (h : ¬InLanguage text) : meaning text = .ok none := by
  cases hp : Phrase.ofText? text with
  | none =>
    unfold meaning
    rw [hp]
  | some p =>
    have hnumeral : ∀ sign : Sign, p.operator = [sign.char] → p.numeral? = none := by
      refine fun sign hop => Option.eq_none_iff_forall_ne_some.mpr fun numeral hn => ?_
      obtain ⟨htext, hname, hnum⟩ := Phrase.isNumeral_of_numeral? hp hn
      rw [hop, ← String.singleton_eq_ofList] at htext
      exact h (.inl ⟨p.name, sign, numeral, htext, hname, hnum⟩)
    have hsignal : p.operator = [':'] → p.word? = none := fun hop =>
      Option.eq_none_iff_forall_ne_some.mpr fun word hw =>
        h (.inr (.inl ⟨p.name, word, Phrase.writesWord_of_word? hp hop hw⟩))
    have hflag : p.operator = ['='] → p.word? = none := fun hop =>
      Option.eq_none_iff_forall_ne_some.mpr fun word hw =>
        h (.inr (.inr ⟨p.name, word, Phrase.writesWord_of_word? hp hop hw⟩))
    rw [meaning_of_phrase hp]
    unfold ofPhrase
    simp only
    split
    · rename_i hop
      rw [hnumeral .plus hop]
    · rename_i hop
      rw [hnumeral .minus hop]
    · rename_i hop
      rw [hsignal hop]
      rfl
    · rename_i hop
      rw [hflag hop]
      rfl
    · rfl

/-! ## What readers make of texts -/

theorem parse_amount (strict : Bool) {text name numeral : String} {sign : Sign}
    (h : WritesAmount text name sign numeral) :
    parse strict text = (Phrase.numberOf numeral).map (.arithmetic name sign) := by
  rw [parse_eq, meaning_amount h]
  cases Phrase.numberOf numeral <;> rfl

theorem parse_signal (strict : Bool) {text name word : String}
    (h : WritesWord ':' text name word) : parse strict text =
      .ok (if word = "trigger" then .trigger name else .signal name word) :=
  parse_of_meaning strict (meaning_signal h)

theorem parse_flag (strict : Bool) {text name word : String} (h : WritesWord '=' text name word) :
    parse strict text = .ok (.flag word) :=
  parse_of_meaning strict (meaning_flag h)

theorem parse_other (strict : Bool) {text : String} (h : ¬InLanguage text) : parse strict text =
    if strict then .error (.unparsable ⟨.effect, text⟩) else .ok (.custom text) := by
  rw [parse_eq, meaning_other h]
  rfl

/-- A text has one of the three shapes, and is read as what it says, or has none. -/
theorem parse_cases (strict : Bool) (text : String) :
    (∃ name sign numeral, WritesAmount text name sign numeral ∧
      parse strict text = (Phrase.numberOf numeral).map (.arithmetic name sign)) ∨
    (∃ name word, WritesWord ':' text name word ∧ parse strict text =
      .ok (if word = "trigger" then .trigger name else .signal name word)) ∨
    (∃ name word, WritesWord '=' text name word ∧ parse strict text = .ok (.flag word)) ∨
    ¬InLanguage text ∧ parse strict text =
      if strict then .error (.unparsable ⟨.effect, text⟩) else .ok (.custom text) := by
  by_cases h : InLanguage text
  · rcases h with ⟨name, sign, numeral, h⟩ | ⟨name, word, h⟩ | ⟨name, word, h⟩
    · exact Or.inl ⟨name, sign, numeral, h, parse_amount strict h⟩
    · exact Or.inr (Or.inl ⟨name, word, h, parse_signal strict h⟩)
    · exact Or.inr (Or.inr (Or.inl ⟨name, word, h, parse_flag strict h⟩))
  · exact Or.inr (Or.inr (Or.inr ⟨h, parse_other strict h⟩))

/-! ### Each effect has its texts -/

section

variable {strict : Bool} {text : String}

theorem parse_eq_arithmetic {name : String} {sign : Sign} {n : Number} :
    parse strict text = .ok (.arithmetic name sign n) ↔
      ∃ numeral, WritesAmount text name sign numeral ∧ Phrase.numberOf numeral = .ok n := by
  constructor
  · intro h
    rcases parse_cases strict text with ⟨name', sign', numeral, hw, hp⟩ | ⟨name', word, -, hp⟩ |
      ⟨name', word, -, hp⟩ | ⟨-, hp⟩
    · obtain ⟨m, hm, heq⟩ := map_eq_ok.mp (hp.symm.trans h)
      obtain ⟨rfl, rfl, rfl⟩ := Effect.arithmetic.inj heq
      exact ⟨numeral, hw, hm⟩
    · have heq := Except.ok.inj (hp.symm.trans h)
      split at heq <;> cases heq
    · cases hp.symm.trans h
    · cases strict <;> cases hp.symm.trans h
  · rintro ⟨numeral, hw, hn⟩
    rw [parse_amount strict hw, hn]
    rfl

theorem parse_eq_trigger {name : String} :
    parse strict text = .ok (.trigger name) ↔ WritesWord ':' text name "trigger" := by
  constructor
  · intro h
    rcases parse_cases strict text with ⟨name', sign', numeral, -, hp⟩ | ⟨name', word, hw, hp⟩ |
      ⟨name', word, -, hp⟩ | ⟨-, hp⟩
    · obtain ⟨m, -, heq⟩ := map_eq_ok.mp (hp.symm.trans h)
      cases heq
    · have heq := Except.ok.inj (hp.symm.trans h)
      split at heq
      · rename_i hword
        obtain rfl := Effect.trigger.inj heq
        rwa [hword] at hw
      · cases heq
    · cases hp.symm.trans h
    · cases strict <;> cases hp.symm.trans h
  · intro hw
    rw [parse_signal strict hw, if_pos rfl]

theorem parse_eq_signal {name word : String} :
    parse strict text = .ok (.signal name word) ↔
      WritesWord ':' text name word ∧ word ≠ "trigger" := by
  constructor
  · intro h
    rcases parse_cases strict text with ⟨name', sign', numeral, -, hp⟩ | ⟨name', word', hw, hp⟩ |
      ⟨name', word', -, hp⟩ | ⟨-, hp⟩
    · obtain ⟨m, -, heq⟩ := map_eq_ok.mp (hp.symm.trans h)
      cases heq
    · have heq := Except.ok.inj (hp.symm.trans h)
      split at heq
      · cases heq
      · rename_i hword
        obtain ⟨rfl, rfl⟩ := Effect.signal.inj heq
        exact ⟨hw, hword⟩
    · cases hp.symm.trans h
    · cases strict <;> cases hp.symm.trans h
  · rintro ⟨hw, hword⟩
    rw [parse_signal strict hw, if_neg hword]

theorem parse_eq_flag {word : String} :
    parse strict text = .ok (.flag word) ↔ ∃ name, WritesWord '=' text name word := by
  constructor
  · intro h
    rcases parse_cases strict text with ⟨name', sign', numeral, -, hp⟩ | ⟨name', word', -, hp⟩ |
      ⟨name', word', hw, hp⟩ | ⟨-, hp⟩
    · obtain ⟨m, -, heq⟩ := map_eq_ok.mp (hp.symm.trans h)
      cases heq
    · have heq := Except.ok.inj (hp.symm.trans h)
      split at heq <;> cases heq
    · obtain rfl := Effect.flag.inj (Except.ok.inj (hp.symm.trans h))
      exact ⟨name', hw⟩
    · cases strict <;> cases hp.symm.trans h
  · rintro ⟨name, hw⟩
    exact parse_flag strict hw

theorem parse_eq_custom {carried : String} :
    parse strict text = .ok (.custom carried) ↔
      strict = false ∧ carried = text ∧ ¬InLanguage text := by
  constructor
  · intro h
    rcases parse_cases strict text with ⟨name', sign', numeral, -, hp⟩ | ⟨name', word', -, hp⟩ |
      ⟨name', word', -, hp⟩ | ⟨hout, hp⟩
    · obtain ⟨m, -, heq⟩ := map_eq_ok.mp (hp.symm.trans h)
      cases heq
    · have heq := Except.ok.inj (hp.symm.trans h)
      split at heq <;> cases heq
    · cases hp.symm.trans h
    · cases strict
      · have heq := Except.ok.inj (hp.symm.trans h)
        exact ⟨rfl, (Effect.custom.inj heq).symm, hout⟩
      · cases hp.symm.trans h
  · rintro ⟨rfl, rfl, hout⟩
    exact parse_other false hout

/-- A reader that is strict refuses what is outside the language; every reader refuses a
numeral that is too long, and nothing else. -/
theorem parse_eq_error {f : Fault} :
    parse strict text = .error f ↔
      strict = true ∧ f = .unparsable ⟨.effect, text⟩ ∧ ¬InLanguage text ∨
      ∃ name sign numeral, WritesAmount text name sign numeral ∧ Phrase.TooLong numeral ∧
        f = .integer (.tooLong numeral.toList.length) := by
  constructor
  · intro h
    rcases parse_cases strict text with ⟨name, sign, numeral, hw, hp⟩ | ⟨name, word, -, hp⟩ |
      ⟨name, word, -, hp⟩ | ⟨hout, hp⟩
    · cases hn : Phrase.numberOf numeral with
      | ok n =>
        rw [hn] at hp
        cases hp.symm.trans h
      | error e =>
        rw [hn] at hp
        obtain rfl := Except.error.inj (hp.symm.trans h)
        exact Or.inr ⟨name, sign, numeral, hw, (Phrase.numberOf_eq_error hw.2.2).mp hn⟩
    · cases hp.symm.trans h
    · cases hp.symm.trans h
    · cases strict
      · cases hp.symm.trans h
      · exact Or.inl ⟨rfl, (Except.error.inj (hp.symm.trans h)).symm, hout⟩
  · rintro (⟨rfl, rfl, hout⟩ | ⟨name, sign, numeral, hw, hlong⟩)
    · exact parse_other true hout
    · rw [parse_amount strict hw, (Phrase.numberOf_eq_error hw.2.2).mpr hlong]
      rfl

end

/-! ### The whole grammar -/

/-- What strict readers read is what permissive readers read within the language. -/
theorem parse_strict_eq_ok {text : String} {e : Effect} :
    parse true text = .ok e ↔ parse false text = .ok e ∧ InLanguage text := by
  by_cases h : InLanguage text
  · have hsame : parse true text = parse false text := by
      rcases h with ⟨name, sign, numeral, h⟩ | ⟨name, word, h⟩ | ⟨name, word, h⟩
      · rw [parse_amount true h, parse_amount false h]
      · rw [parse_signal true h, parse_signal false h]
      · rw [parse_flag true h, parse_flag false h]
    rw [hsame, and_iff_left h]
  · rw [parse_other true h]
    exact ⟨nofun, fun he => absurd he.2 h⟩

/-- A reader accepts exactly the language.  Each kind of effect has its shape of text,
any other text is a custom effect that carries it, and a strict reader refuses exactly
those.  Only the numerals have a limit: a text with a whole numeral of more than 4300
digits is refused by every reader. -/
theorem parse_grammar (text : String) :
    (∀ strict name sign n, parse strict text = .ok (.arithmetic name sign n) ↔
      ∃ numeral, WritesAmount text name sign numeral ∧ ¬Phrase.TooLong numeral ∧
        Phrase.Writes numeral.toList n) ∧
    (∀ strict name,
      parse strict text = .ok (.trigger name) ↔ WritesWord ':' text name "trigger") ∧
    (∀ strict name word, parse strict text = .ok (.signal name word) ↔
      WritesWord ':' text name word ∧ word ≠ "trigger") ∧
    (∀ strict word, parse strict text = .ok (.flag word) ↔ ∃ name, WritesWord '=' text name word) ∧
    (∀ strict carried, parse strict text = .ok (.custom carried) ↔
      strict = false ∧ carried = text ∧ ¬InLanguage text) ∧
    (∀ strict f, parse strict text = .error f ↔
      strict = true ∧ f = .unparsable ⟨.effect, text⟩ ∧ ¬InLanguage text ∨
      ∃ name sign numeral, WritesAmount text name sign numeral ∧ Phrase.TooLong numeral ∧
        f = .integer (.tooLong numeral.toList.length)) ∧
    ∀ e, parse true text = .ok e ↔ parse false text = .ok e ∧ InLanguage text := by
  refine ⟨fun strict name sign n => ?_, fun _ _ => parse_eq_trigger, fun _ _ _ => parse_eq_signal,
    fun _ _ => parse_eq_flag, fun _ _ => parse_eq_custom, fun _ _ => parse_eq_error,
    fun _ => parse_strict_eq_ok⟩
  rw [parse_eq_arithmetic]
  refine exists_congr fun numeral => and_congr_right fun hw => ?_
  exact Phrase.numberOf_eq_ok hw.2.2

/-! ### A numeral that is too long -/

/-- The number one, in 4301 digits. -/
def paddedOne : String := String.ofList (List.replicate 4300 '0' ++ ['1'])

theorem isDigit_paddedOne : ∀ c ∈ List.replicate 4300 '0' ++ ['1'], c.isDigit = true := by
  intro c hc
  rcases List.mem_append.mp hc with hc | hc
  · rw [(List.mem_replicate.mp hc).2]
    decide
  · rw [List.mem_singleton.mp hc]
    decide

theorem writes_paddedOne : Phrase.Writes paddedOne.toList (.int 1) := by
  have hdigits := isDigit_paddedOne
  have hvalue : Numeral.ofDigits (Numeral.asciiDigits (List.replicate 4300 '0' ++ ['1'])) = 1 := by
    rw [Numeral.asciiDigits_of_ascii hdigits, Phrase.ofDigits_eq, Nat.ofDigitChars_append,
      Nat.ofDigitChars_replicate_zero, Nat.mul_zero]
    rfl
  have hw := Phrase.Writes.whole (List.append_ne_nil_of_right_ne_nil _ (List.cons_ne_nil '1' []))
    fun c hc => Text.isDigit_of_ascii (hdigits c hc)
  rw [hvalue] at hw
  unfold paddedOne
  rw [String.toList_ofList]
  exact hw

/-- A text of the language that adds one to the score, and that no reader reads. -/
theorem parse_paddedOne :
    WritesAmount ("score" ++ String.singleton Sign.plus.char ++ paddedOne) "score" .plus paddedOne ∧
      Phrase.Writes paddedOne.toList (.int 1) ∧
      ∀ strict e, parse strict ("score" ++ String.singleton Sign.plus.char ++ paddedOne) ≠ .ok e := by
  have hname : IsName "score".toList := by decide
  have hlist : paddedOne.toList = List.replicate 4300 '0' ++ ['1'] := String.toList_ofList
  have hdigits : ∀ c ∈ paddedOne.toList, Text.isDigit c = true := by
    rw [hlist]
    exact fun c hc => Text.isDigit_of_ascii (isDigit_paddedOne c hc)
  have hne : paddedOne.toList ≠ [] := by
    rw [hlist]
    exact List.append_ne_nil_of_right_ne_nil _ (List.cons_ne_nil '1' [])
  have hw : WritesAmount ("score" ++ String.singleton Sign.plus.char ++ paddedOne) "score" .plus
      paddedOne := ⟨rfl, hname, IsNumeral.whole hne hdigits⟩
  have hlong : Phrase.TooLong paddedOne := by
    refine ⟨Phrase.not_mem_of_digits hdigits, ?_⟩
    rw [hlist, List.length_append, List.length_replicate]
    decide
  refine ⟨hw, writes_paddedOne, fun strict e he => ?_⟩
  have herror : parse strict _ = .error _ :=
    parse_eq_error.mpr (Or.inr ⟨_, _, _, hw, hlong, rfl⟩)
  cases he.symm.trans herror

end Effect

end SeededPlay

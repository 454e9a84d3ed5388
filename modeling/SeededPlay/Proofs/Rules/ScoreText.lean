/-
# `SeededPlay.Proofs.Rules.ScoreText` — effects on the score, and their flipped texts

An effect that changes the score is the word `score`, a sign and an amount
(`Effect.scoreText`).  A text means such an effect exactly when it is written that
way with a numeral that can be read, so the effect and its text determine each other
up to the spelling of the numeral (`parse_eq_score`, `parse_scoreText`).

Flipping writes the amount anew.  The new text can always be read by a permissive
reader; a strict one refuses it when the amount is written with an exponent.  What
matters for taking a flip back is `flips_scoreText`: once a flipped text can be
read, flipping it again gives one that can be read, too.

A score text whose amount is no numeral is outside the language
(`not_inLanguage_scoreText`), and a permissive reader only carries it
(`parse_scoreText_other`); what a strict reader reads, every reader reads the same
(`parse_permissive`).
-/
import SeededPlay.Proofs.Rules.Grammar

namespace SeededPlay

namespace Effect

/-- The text of a change of the score. -/
def scoreText (sign : Sign) (amount : String) : String :=
  "score" ++ String.singleton sign.char ++ amount

theorem toList_scoreText (sign : Sign) (amount : String) :
    (scoreText sign amount).toList =
      's' :: 'c' :: 'o' :: 'r' :: 'e' :: sign.char :: amount.toList := by
  unfold scoreText
  rw [String.toList_append, String.toList_append, String.toList_singleton]
  rfl

theorem scoreText_inj {s s' : Sign} {a a' : String} (h : scoreText s a = scoreText s' a') :
    s = s' ∧ a = a' := by
  have hl := congrArg String.toList h
  rw [toList_scoreText, toList_scoreText] at hl
  simp only [List.cons.injEq, true_and] at hl
  refine ⟨?_, String.toList_inj.mp hl.2⟩
  cases s <;> cases s' <;> first | rfl | exact absurd hl.1 (by decide)

/-! ## The tokens of a score text -/

theorem tokenize_scoreText (sign : Sign) (amount : String) :
    tokenize (scoreText sign amount) = (Token.scan? amount.toList).map fun ts =>
      ⟨.name, ['s', 'c', 'o', 'r', 'e']⟩ :: ⟨.operator, [sign.char]⟩ :: ts := by
  have hname : IsName ['s', 'c', 'o', 'r', 'e'] := by decide
  have hop : Token.operator? ([sign.char] ++ amount.toList) =
      some (⟨.operator, [sign.char]⟩, amount.toList) := by cases sign <;> rfl
  unfold tokenize
  rw [toList_scoreText]
  exact Token.scan?_phrase hname hop

theorem ofText?_scoreText {sign : Sign} {amount : String} {p : Phrase}
    (h : Phrase.ofText? (scoreText sign amount) = some p) : p.operator = [sign.char] ∧
      (p.argument.kind = .number → IsNumeral amount.toList) := by
  unfold Phrase.ofText? at h
  rw [tokenize_scoreText] at h
  split at h
  · rename_i name op arg htok
    obtain ⟨ts, hts, heq⟩ := Option.map_eq_some_iff.mp htok
    simp only [List.cons.injEq] at heq
    obtain ⟨-, hop, rfl⟩ := heq
    obtain ⟨hchars, hwell⟩ := Token.scan?_spec hts
    have hamount : arg.chars = amount.toList := by
      rw [hchars, List.flatMap_cons, List.flatMap_nil, List.append_nil]
    obtain rfl := Option.some.inj h
    refine ⟨(congrArg Token.chars hop).symm, fun hk => ?_⟩
    rw [← hamount]
    exact Token.isNumeral_of_wellFormed (hwell arg List.mem_cons_self) hk
  · cases h

/-! ## Reading score texts -/

theorem writesAmount_scoreText (sign : Sign) {amount : String} (h : IsNumeral amount.toList) :
    WritesAmount (scoreText sign amount) "score" sign amount := by
  have hname : IsName "score".toList := by decide
  exact ⟨rfl, hname, h⟩

theorem parse_scoreText (strict : Bool) (sign : Sign) {amount : String} {n : Number}
    (h : IsNumeral amount.toList) (hn : Phrase.numberOf amount = .ok n) :
    parse strict (scoreText sign amount) = .ok (.arithmetic "score" sign n) :=
  parse_eq_arithmetic.mpr ⟨amount, writesAmount_scoreText sign h, hn⟩

theorem parse_scoreText_one (strict : Bool) (sign : Sign) :
    parse strict (scoreText sign "1") = .ok (.arithmetic "score" sign 1) :=
  parse_scoreText strict sign Phrase.isNumeral_one Phrase.numberOf_one

theorem not_inLanguage_scoreText (sign : Sign) {amount : String} (h : ¬IsNumeral amount.toList) :
    ¬InLanguage (scoreText sign amount) := by
  have hword : ∀ mark : Char, [mark] ∈ Token.operators → mark ≠ sign.char →
      ¬∃ name word, WritesWord mark (scoreText sign amount) name word := by
    rintro mark hmark hne ⟨name, word, hw⟩
    obtain ⟨p, hp, -, hop, -⟩ := Phrase.exists_ofText?_word hmark hw
    exact hne (List.singleton_inj.mp (hop.symm.trans (ofText?_scoreText hp).1))
  rintro (⟨name, s, numeral, hw⟩ | hw | hw)
  · exact h ((ofText?_scoreText (Phrase.ofText?_amount hw)).2 rfl)
  · exact hword ':' (by decide) (by cases sign <;> decide) hw
  · exact hword '=' (by decide) (by cases sign <;> decide) hw

theorem parse_scoreText_other (sign : Sign) {amount : String} (h : ¬IsNumeral amount.toList) :
    parse false (scoreText sign amount) = .ok (.custom (scoreText sign amount)) :=
  parse_other false (not_inLanguage_scoreText sign h)

theorem parse_permissive {strict : Bool} {text : String} {e : Effect}
    (h : parse strict text = .ok e) : parse false text = .ok e := by
  cases strict with
  | false => exact h
  | true => exact (parse_strict_eq_ok.mp h).1

/-- A text that means a change of the score is a score text with a numeral. -/
theorem parse_eq_score {strict : Bool} {text : String} {sign : Sign} {n : Number}
    (h : parse strict text = .ok (.arithmetic "score" sign n)) :
    ∃ amount : String, text = scoreText sign amount ∧ IsNumeral amount.toList ∧
      Phrase.numberOf amount = .ok n := by
  obtain ⟨amount, ⟨htext, -, hnum⟩, hn⟩ := parse_eq_arithmetic.mp h
  exact ⟨amount, htext, hnum, hn⟩

/-! ## Flipping -/

/-- Whether the text, flipped if it changes the score, can still be read. -/
def Flips (strict : Bool) (text : String) : Prop :=
  ∀ sign n, parse false text = .ok (.arithmetic "score" sign n) →
    ∃ e, parse strict (scoreText sign.flip n.text) = .ok e

theorem parse_flipped {text : String} {sign s : Sign} {n : Number}
    (h : parse false text = .ok (.arithmetic "score" sign n)) :
    ∃ e, parse false (scoreText s n.text) = .ok e := by
  obtain ⟨amount, -, hnum, hn⟩ := parse_eq_score h
  by_cases htext : IsNumeral n.text.toList
  · rw [← String.ofList_toList (s := amount)] at hn
    exact ⟨_, parse_scoreText false s htext (Phrase.numberOf_text hnum hn htext)⟩
  · exact ⟨_, parse_scoreText_other s htext⟩

/-- Once a flipped text can be read, so can the text that flipping it again gives. -/
theorem flips_scoreText {strict : Bool} {text : String} {sign s : Sign} {n : Number} {e : Effect}
    (h : parse false text = .ok (.arithmetic "score" sign n))
    (hread : parse strict (scoreText s n.text) = .ok e) : Flips strict (scoreText s n.text) := by
  intro s' m hm
  cases strict with
  | false => exact parse_flipped hm
  | true =>
    obtain ⟨amount, -, hnum, hn⟩ := parse_eq_score h
    obtain ⟨amount', heq, hnum', hn'⟩ := parse_eq_score hm
    obtain ⟨rfl, rfl⟩ := scoreText_inj heq
    rw [← String.ofList_toList (s := amount)] at hn
    have hagain := Phrase.numberOf_text hnum hn hnum'
    obtain rfl := Except.ok.inj (hn'.symm.trans hagain)
    exact ⟨_, parse_scoreText true _ hnum' hagain⟩

end Effect

end SeededPlay

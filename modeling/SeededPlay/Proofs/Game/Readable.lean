/-
# `SeededPlay.Proofs.Game.Readable` — generated games speak the rule language

Every rule of the stock is written in the language, so the rules of a game can be read
by strict and permissive readers alike (`Choices.readable_rules`), and linting finds
nothing in them (`Choices.lint_rules`).  In particular a game can always be generated
(`Game.generate_ok`) and its session can always be started (`Session.start_ok`).

The stock is a finite list, but its amounts are texts for a reader that knows numerals of
any length.  So a text is checked to be written in the language first (`stock_written`),
which is a matter of its characters, and what is written in the language is read by every
reader (`exists_parse`).
-/
import SeededPlay.Proofs.Chaos.Success
import SeededPlay.Proofs.Game.Rules
import SeededPlay.Play.Session

namespace SeededPlay

/-! ## Texts that are written in the language -/

namespace Effect

/-- Whether a text is a name, a mark and an argument that suits the mark. -/
def isWritten (cs : List Char) : Bool :=
  ['+', '-', ':', '='].any fun mark =>
    let name := cs.takeWhile (· != mark)
    let argument := (cs.dropWhile (· != mark)).tail
    cs == name ++ ([mark] ++ argument) && decide (IsName name) &&
      if mark == ':' || mark == '=' then decide (IsWord argument)
      else !argument.isEmpty && argument.all Text.isDigit &&
        decide (argument.length ≤ Numeral.digitLimit)

theorem exists_parse_amount (strict : Bool) {name digits : List Char} (sign : Sign)
    (hname : IsName name) (hne : digits ≠ []) (hdigits : ∀ c ∈ digits, Text.isDigit c = true)
    (hlen : digits.length ≤ Numeral.digitLimit) : ∃ e, parse strict
      (String.ofList name ++ String.singleton sign.char ++ String.ofList digits) = .ok e := by
  have hnumeral := IsNumeral.whole hne hdigits
  have hnumber := Phrase.numberOf_whole hne hdigits
  rw [if_neg (Nat.not_lt.mpr hlen)] at hnumber
  refine ⟨_, parse_eq_arithmetic.mpr ⟨_, ⟨rfl, ?_, ?_⟩, hnumber⟩⟩
  · rw [String.toList_ofList]
    exact hname
  · rw [String.toList_ofList]
    exact hnumeral

theorem exists_parse (strict : Bool) {text : String} (h : isWritten text.toList = true) :
    ∃ e, parse strict text = .ok e := by
  obtain ⟨mark, hmark, h⟩ := List.any_eq_true.mp h
  simp only at h
  generalize text.toList.takeWhile (· != mark) = name at h
  generalize (text.toList.dropWhile (· != mark)).tail = argument at h
  rw [Bool.and_eq_true, Bool.and_eq_true, beq_iff_eq, decide_eq_true_eq] at h
  obtain ⟨⟨htext, hname⟩, harg⟩ := h
  have htext : text = String.ofList name ++ String.singleton mark ++ String.ofList argument := by
    refine String.toList_inj.mp (htext.trans ?_)
    rw [Phrase.toList_joined, String.toList_ofList, String.toList_ofList]
  rw [htext]
  have hamount : ∀ sign : Sign, (!argument.isEmpty && argument.all Text.isDigit &&
      decide (argument.length ≤ Numeral.digitLimit)) = true → ∃ e, parse strict
        (String.ofList name ++ String.singleton sign.char ++ String.ofList argument) = .ok e := by
    intro sign h
    simp only [Bool.and_eq_true, Bool.not_eq_true', List.isEmpty_eq_false_iff, List.all_eq_true,
      decide_eq_true_eq] at h
    exact exists_parse_amount strict sign hname h.1.1 h.1.2 h.2
  have hword : ∀ m : Char, IsWord argument → WritesWord m
      (String.ofList name ++ String.singleton m ++ String.ofList argument) (String.ofList name)
      (String.ofList argument) := by
    intro m h
    refine ⟨rfl, ?_, ?_⟩
    · rw [String.toList_ofList]
      exact hname
    · rw [String.toList_ofList]
      exact h
  simp only [List.mem_cons, List.not_mem_nil, or_false] at hmark
  rcases hmark with rfl | rfl | rfl | rfl
  · exact hamount .plus harg
  · exact hamount .minus harg
  · exact ⟨_, parse_signal strict (hword ':' (of_decide_eq_true harg))⟩
  · exact ⟨_, parse_flag strict (hword '=' (of_decide_eq_true harg))⟩

end Effect

namespace Rule

theorem lint_of_readable {r : Rule} (h : r.Readable true) : Lint.rule r = .ok [] := by
  obtain ⟨⟨c, hc⟩, ⟨e, he⟩⟩ := readable_iff.mp h
  unfold Lint.rule
  rw [hc, he]
  rfl

end Rule

theorem Lint.rules_of_readable {rules : List Rule} (h : ∀ r ∈ rules, r.Readable true) :
    Lint.rules rules = .ok [] := by
  induction rules with
  | nil => rfl
  | cons r rules ih =>
    unfold Lint.rules
    rw [Rule.lint_of_readable (h r List.mem_cons_self),
      ih fun r' hr' => h r' (List.mem_cons_of_mem r hr')]
    rfl

/-! ## The stock -/

theorem stock_written : (stock.all fun r => Effect.isWritten r.effect.toList &&
    (r.condition == none || r.condition == some "health>0")) = true := by
  decide +kernel

theorem stock_readable (strict : Bool) : ∀ r ∈ stock, r.Readable strict := by
  intro r hr
  have h := List.all_eq_true.mp stock_written r hr
  rw [Bool.and_eq_true, Bool.or_eq_true, beq_iff_eq, beq_iff_eq] at h
  have hzero : IsNumeral "0".toList := by
    refine IsNumeral.whole (List.cons_ne_nil '0' []) fun c hc => ?_
    rw [List.mem_singleton.mp hc]
    decide
  have hnumber : Phrase.numberOf "0" = .ok 0 :=
    Phrase.numberOf_text_int (n := 0) (k := 1) (by decide) (by decide) (by decide)
  have hcondition : ∃ c, Condition.parseOption strict r.condition = .ok c := by
    rcases h.2 with hnone | halive
    · rw [hnone]
      exact ⟨_, rfl⟩
    · rw [halive]
      exact ⟨_, parse_health_above strict hzero hnumber⟩
  exact Rule.readable_iff.mpr ⟨hcondition, Effect.exists_parse strict h.1⟩

namespace Choices

/-- The rules of a generated game can be read, also strictly. -/
theorem readable_rules (strict : Bool) (c : Choices) : ∀ r ∈ c.rules, r.Readable strict :=
  fun r hr => stock_readable strict r (mem_stock_of_rules hr)

theorem lint_rules (c : Choices) : Lint.rules c.rules = .ok [] :=
  Lint.rules_of_readable (c.readable_rules true)

end Choices

/-! ## Generating and starting -/

namespace Game

/-- A game is what its draft says, and a review. -/
theorem generate_ok (settings : Settings) (c : Choices) (seed : Nat) :
    ∃ review, generate settings c seed = .ok { draft settings c seed with review } := by
  have hreview : ∃ play, (draft settings c seed).playReview = .ok play := by
    unfold playReview Review.ofPlay
    have hrules : (draft settings c seed).rules = c.rules := rfl
    rw [hrules, c.lint_rules]
    exact ⟨_, rfl⟩
  obtain ⟨play, hplay⟩ := hreview
  unfold generate
  simp only [hplay]
  exact ⟨_, rfl⟩

end Game

namespace Session

theorem start_ok {g : Game} {strict : Bool} (h : ∀ r ∈ g.rules, r.Readable strict) :
    ∃ session, start g strict = .ok session ∧
      session.chaos.seed = (SeedCode.decode g.code).seed := by
  obtain ⟨cs, hcs⟩ := Engine.exists_compile h
  have hrules : Engine.ofRules strict g.rules = .ok ⟨strict, cs⟩ := map_eq_ok.mpr ⟨cs, hcs, rfl⟩
  unfold start
  simp only [hrules]
  exact ⟨_, rfl, rfl⟩

end Session

end SeededPlay

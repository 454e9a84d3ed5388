/-
# `SeededPlay.Proofs.Game.Fingerprint` — the line of the choices says all of them

The choices that shape a seed are written into one line, with bars between the fields and
commas between the verbs.  Nothing is escaped, and one field is free text that may hold bars
and commas itself.  The line can be read back all the same.  Cut at its bars, it falls into
the fields before the free text, the pieces of the free text, and the fields behind it
(`Choices.splitOn_fingerprint`).  The fields on both sides are words and a number, which
hold no bar, so there are five pieces in front and three behind, however many are between.
The pieces between are the free text, cut; and the verbs are the pieces between commas.

## What the fields must not hold

The fields beside the free text are words of closed vocabularies and a number, so that they
hold no bar and no comma is checked word by word (`Vocabulary.isCell_word`).  Joined words can be cut
again, and the pieces that are not empty are the words (`words_joined`): a list of no verbs
and a list of one empty word would be one text otherwise.
-/
import Mathlib
import SeededPlay.Proofs.Rules.Comparisons
import SeededPlay.Proofs.SeedCode.Code
import SeededPlay.Game.Seed

namespace SeededPlay

/-! ## Joined texts, cut again -/

namespace Text

theorem splitOn_joinWith (c : Char) {parts : List String} (h : parts ≠ []) :
    (joinWith (String.singleton c) parts).toList.splitOn c =
      parts.flatMap fun p => p.toList.splitOn c := by
  simp only [joinWith, String.toList_intercalate, String.toList_singleton]
  induction parts with
  | nil => exact absurd rfl h
  | cons p rest ih =>
    cases rest with
    | nil => simp
    | cons q rest =>
      rw [List.map_cons, List.intercalate_cons_of_ne_nil (by simp), List.append_assoc,
        List.singleton_append, List.splitOn_append_cons_self, ih (List.cons_ne_nil q rest)]
      rfl

theorem not_mem_joinWith {c : Char} {sep : String} {parts : List String} (hsep : c ∉ sep.toList)
    (h : ∀ p ∈ parts, c ∉ p.toList) : c ∉ (joinWith sep parts).toList := by
  simp only [joinWith, String.toList_intercalate]
  induction parts with
  | nil => exact List.not_mem_nil
  | cons p rest ih =>
    obtain ⟨hp, hrest⟩ := List.forall_mem_cons.mp h
    cases rest with
    | nil => simpa using hp
    | cons q rest =>
      rw [List.map_cons, List.intercalate_cons_of_ne_nil (by simp)]
      simp only [List.mem_append, not_or]
      exact ⟨⟨hp, hsep⟩, ih hrest⟩

theorem flatMap_splitOn {c : Char} {parts : List String} (h : ∀ p ∈ parts, c ∉ p.toList) :
    (parts.flatMap fun p => p.toList.splitOn c) = parts.map String.toList := by
  induction parts with
  | nil => rfl
  | cons p rest ih =>
    obtain ⟨hp, hrest⟩ := List.forall_mem_cons.mp h
    rw [List.flatMap_cons, ih hrest, List.splitOn_eq_singleton hp]
    rfl

end Text

/-! ## Words -/

/-- A text without bars and commas. -/
def IsCell (s : String) : Prop := '|' ∉ s.toList ∧ ',' ∉ s.toList

instance (s : String) : Decidable (IsCell s) := inferInstanceAs (Decidable (_ ∧ _))

theorem Vocabulary.isCell_word {α : Type} [Vocabulary α]
    (h : ∀ a ∈ (members : List α), IsCell (word a)) (a : α) : IsCell (word a) := h a (mem_members a)

namespace Verb

theorem isCell_word : ∀ v : Verb, IsCell (Vocabulary.word v) := Vocabulary.isCell_word (by decide)

theorem word_ne_nil (v : Verb) : (Vocabulary.word v).toList ≠ [] := by
  cases v <;> decide

theorem words_joined (vs : List Verb) :
    ((Text.joinWith "," (vs.map Vocabulary.word)).toList.splitOn ',').filter (· ≠ []) =
      vs.map fun v => (Vocabulary.word v).toList := by
  cases vs with
  | nil => rfl
  | cons v vs =>
    have hcells : ∀ p ∈ (v :: vs).map Vocabulary.word, ',' ∉ p.toList :=
      List.forall_mem_map.mpr fun v _ => (isCell_word v).2
    have hne : ∀ p ∈ (v :: vs).map fun v => (Vocabulary.word v).toList, decide (p ≠ []) = true :=
      List.forall_mem_map.mpr fun v _ => decide_eq_true (word_ne_nil v)
    have hsplit : (Text.joinWith "," ((v :: vs).map Vocabulary.word)).toList.splitOn ',' =
        ((v :: vs).map Vocabulary.word).map String.toList :=
      (Text.splitOn_joinWith ',' (by simp)).trans (Text.flatMap_splitOn hcells)
    rw [hsplit, List.map_map]
    exact List.filter_eq_self.mpr hne

theorem joined_injective {vs ws : List Verb} (h : Text.joinWith "," (vs.map Vocabulary.word) =
    Text.joinWith "," (ws.map Vocabulary.word)) : vs = ws := by
  have hwords := words_joined vs
  rw [h, words_joined ws] at hwords
  have hinj : Function.Injective fun v : Verb => (Vocabulary.word v).toList :=
    fun _ _ h => Vocabulary.word_injective (String.toList_inj.mp h)
  exact (List.map_injective_iff.mpr hinj hwords).symm

theorem bar_not_mem_joined (vs : List Verb) :
    '|' ∉ (Text.joinWith "," (vs.map Vocabulary.word)).toList :=
  Text.not_mem_joinWith (by decide) (List.forall_mem_map.mpr fun v _ => (isCell_word v).1)

end Verb

namespace ChaosLevel

theorem bar_not_mem (level : ChaosLevel) : '|' ∉ (toString level.value).toList := by
  intro h
  rw [Phrase.toList_toString] at h
  exact absurd (Phrase.isDigit_toDigits level.value '|' h) (by decide)

theorem value_text_injective {a b : ChaosLevel} (h : toString a.value = toString b.value) :
    a = b := by
  have hdigits : Nat.toDigits 10 a.value = Nat.toDigits 10 b.value := by
    rw [← Phrase.toList_toString, h, Phrase.toList_toString]
  have hvalue := Nat.ofDigitChars_ten_toDigits (n := a.value)
  rw [hdigits, Nat.ofDigitChars_ten_toDigits] at hvalue
  exact ext hvalue.symm

end ChaosLevel

/-! ## The line -/

namespace Choices

/-- The fields before the free text. -/
def front (c : Choices) : List String :=
  [Vocabulary.word c.genre, Vocabulary.word c.visualStyle,
    Text.joinWith "," (c.verbs.map Vocabulary.word), Vocabulary.word c.gravity,
    Vocabulary.word c.boundary]

/-- The fields behind the free text. -/
def back (c : Choices) : List String :=
  [Vocabulary.word c.archetype, Vocabulary.word c.difficulty, toString c.chaos.value]

theorem bar_not_mem_front (c : Choices) : ∀ p ∈ c.front, '|' ∉ p.toList := by
  have hgenre := Vocabulary.isCell_word (by decide) c.genre
  have hstyle := Vocabulary.isCell_word (by decide) c.visualStyle
  have hgravity := Vocabulary.isCell_word (by decide) c.gravity
  have hboundary := Vocabulary.isCell_word (by decide) c.boundary
  simp only [front, List.forall_mem_cons]
  exact ⟨hgenre.1, hstyle.1, Verb.bar_not_mem_joined c.verbs, hgravity.1, hboundary.1, nofun⟩

theorem bar_not_mem_back (c : Choices) : ∀ p ∈ c.back, '|' ∉ p.toList := by
  have harchetype := Vocabulary.isCell_word (by decide) c.archetype
  have hdifficulty := Vocabulary.isCell_word (by decide) c.difficulty
  simp only [back, List.forall_mem_cons]
  exact ⟨harchetype.1, hdifficulty.1, c.chaos.bar_not_mem, nofun⟩

/-- The pieces of the line: the fields in front, the free text in pieces, the fields behind. -/
theorem splitOn_fingerprint (c : Choices) : c.fingerprint.toList.splitOn '|' =
    c.front.map String.toList ++ (c.world.toList.splitOn '|' ++ c.back.map String.toList) := by
  have hline : c.fingerprint = Text.joinWith (String.singleton '|') (c.front ++ c.world :: c.back) :=
    rfl
  rw [hline, Text.splitOn_joinWith '|' (by simp), List.flatMap_append, List.flatMap_cons,
    Text.flatMap_splitOn c.bar_not_mem_front, Text.flatMap_splitOn c.bar_not_mem_back]

/-- Two choices have the same line exactly if they agree on every field that shapes the
seed, whatever their free texts hold. -/
theorem fingerprint_eq_iff (a b : Choices) : a.fingerprint = b.fingerprint ↔
    a.genre = b.genre ∧ a.visualStyle = b.visualStyle ∧ a.verbs = b.verbs ∧
      a.gravity = b.gravity ∧ a.boundary = b.boundary ∧ a.world = b.world ∧
      a.archetype = b.archetype ∧ a.difficulty = b.difficulty ∧ a.chaos = b.chaos := by
  constructor
  · intro h
    have hpieces := a.splitOn_fingerprint
    rw [h, b.splitOn_fingerprint] at hpieces
    -- There are as many fields in front of the free text in both lines, and as many behind it.
    obtain ⟨hfront, hrest⟩ := List.append_inj hpieces.symm rfl
    obtain ⟨hworld, hback⟩ := List.append_inj' hrest rfl
    have hjoin : ∀ cs : List Char, ['|'].intercalate (cs.splitOn '|') = cs :=
      fun _ => List.intercalate_splitOn '|'
    have htext : a.world = b.world := by
      rw [← String.toList_inj, ← hjoin a.world.toList, hworld, hjoin]
    have hinj : Function.Injective (List.map String.toList) :=
      List.map_injective_iff.mpr fun _ _ => String.toList_inj.mp
    have hfields := hinj hfront
    have hfields' := hinj hback
    simp only [front, back, List.cons.injEq, and_true] at hfields hfields'
    obtain ⟨hgenre, hstyle, hverbs, hgravity, hboundary⟩ := hfields
    obtain ⟨harchetype, hdifficulty, hchaos⟩ := hfields'
    exact ⟨Vocabulary.word_injective hgenre, Vocabulary.word_injective hstyle,
      Verb.joined_injective hverbs, Vocabulary.word_injective hgravity,
      Vocabulary.word_injective hboundary, htext, Vocabulary.word_injective harchetype,
      Vocabulary.word_injective hdifficulty, ChaosLevel.value_text_injective hchaos⟩
  · rintro ⟨hgenre, hstyle, hverbs, hgravity, hboundary, hworld, harchetype, hdifficulty, hchaos⟩
    simp only [fingerprint, hgenre, hstyle, hverbs, hgravity, hboundary, hworld, harchetype,
      hdifficulty, hchaos]

end Choices

end SeededPlay

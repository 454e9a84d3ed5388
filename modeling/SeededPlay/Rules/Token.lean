/-
# `SeededPlay.Rules.Token` — the tokens of the rule language

Rule texts are made of numbers, names and operators with nothing between them.  A
run of digits is a number unless a word character follows, and then the whole
word is a name; a number may have a fraction.  Operators are taken longest first.
A text with any other character has no tokens.

`Token.next?` takes one token off the front and `next?_shorter` says that the
rest is shorter, which is what `tokenize` runs on.
-/
import SeededPlay.Text.Classes

namespace SeededPlay

inductive TokenKind where
  | number
  | name
  | operator
deriving DecidableEq, Repr

structure Token where
  kind : TokenKind
  chars : List Char
deriving DecidableEq, Repr

namespace Token

def text (t : Token) : String := String.ofList t.chars

/-- Whether a token is made of word characters only. -/
def isWord (t : Token) : Bool := t.kind ≠ .operator && t.chars.all Text.isWord

/-- Whether a list begins with a word character. -/
def startsWord : List Char → Bool
  | c :: _ => Text.isWord c
  | [] => false

/-- The fraction at the front, with its point, and the rest; no fraction when no
digit follows the point or when the digits run into a word. -/
def fraction? : List Char → Option (List Char × List Char)
  | '.' :: cs =>
    let ds := cs.takeWhile Text.isDigit
    let rest := cs.dropWhile Text.isDigit
    if ds.isEmpty || startsWord rest then none else some ('.' :: ds, rest)
  | _ => none

/-- A number at the front, and the rest. -/
def number? (cs : List Char) : Option (Token × List Char) :=
  let ds := cs.takeWhile Text.isDigit
  let rest := cs.dropWhile Text.isDigit
  if ds.isEmpty then none
  else match fraction? rest with
    | some (frac, rest) => some (⟨.number, ds ++ frac⟩, rest)
    | none => if startsWord rest then none else some (⟨.number, ds⟩, rest)

/-- A name at the front, and the rest. -/
def name? (cs : List Char) : Option (Token × List Char) :=
  let ws := cs.takeWhile Text.isWord
  if ws.isEmpty then none else some (⟨.name, ws⟩, cs.dropWhile Text.isWord)

/-- An operator at the front, and the rest. -/
def operator? : List Char → Option (Token × List Char)
  | '>' :: '=' :: cs => some (⟨.operator, ['>', '=']⟩, cs)
  | '<' :: '=' :: cs => some (⟨.operator, ['<', '=']⟩, cs)
  | '=' :: '=' :: cs => some (⟨.operator, ['=', '=']⟩, cs)
  | '!' :: '=' :: cs => some (⟨.operator, ['!', '=']⟩, cs)
  | c :: cs => if c ∈ ['<', '>', '+', '-', ':', '='] then some (⟨.operator, [c]⟩, cs) else none
  | [] => none

/-- One token off the front. -/
def next? (cs : List Char) : Option (Token × List Char) :=
  (number? cs).or ((name? cs).or (operator? cs))

theorem fraction?_append {cs frac rest : List Char} (h : fraction? cs = some (frac, rest)) :
    cs = frac ++ rest := by
  unfold fraction? at h
  split at h
  · rename_i cs
    simp only at h
    split at h
    · cases h
    · simp only [Option.some.injEq, Prod.mk.injEq] at h
      obtain ⟨rfl, rfl⟩ := h
      simp
  · cases h

theorem number?_append {cs rest : List Char} {t : Token} (h : number? cs = some (t, rest)) :
    cs = t.chars ++ rest := by
  unfold number? at h
  simp only at h
  split at h
  · cases h
  · split at h
    · rename_i frac rest' hf
      simp only [Option.some.injEq, Prod.mk.injEq] at h
      obtain ⟨rfl, rfl⟩ := h
      have := fraction?_append hf
      simp only [List.append_assoc]
      rw [← this]
      exact (List.takeWhile_append_dropWhile).symm
    · split at h
      · cases h
      · simp only [Option.some.injEq, Prod.mk.injEq] at h
        obtain ⟨rfl, rfl⟩ := h
        exact (List.takeWhile_append_dropWhile).symm

theorem name?_append {cs rest : List Char} {t : Token} (h : name? cs = some (t, rest)) :
    cs = t.chars ++ rest := by
  unfold name? at h
  simp only at h
  split at h
  · cases h
  · simp only [Option.some.injEq, Prod.mk.injEq] at h
    obtain ⟨rfl, rfl⟩ := h
    exact (List.takeWhile_append_dropWhile).symm

theorem operator?_append {cs rest : List Char} {t : Token}
    (h : operator? cs = some (t, rest)) : cs = t.chars ++ rest := by
  unfold operator? at h
  split at h
  case h_5 =>
    split at h
    · simp only [Option.some.injEq, Prod.mk.injEq] at h
      obtain ⟨rfl, rfl⟩ := h
      rfl
    · cases h
  case h_6 => cases h
  all_goals
    simp only [Option.some.injEq, Prod.mk.injEq] at h
    obtain ⟨rfl, rfl⟩ := h
    rfl

theorem next?_append {cs rest : List Char} {t : Token} (h : next? cs = some (t, rest)) :
    cs = t.chars ++ rest := by
  unfold next? at h
  rcases Option.or_eq_some_iff.mp h with h | ⟨_, h⟩
  · exact number?_append h
  · rcases Option.or_eq_some_iff.mp h with h | ⟨_, h⟩
    · exact name?_append h
    · exact operator?_append h

theorem number?_ne_nil {cs rest : List Char} {t : Token} (h : number? cs = some (t, rest)) :
    t.chars ≠ [] := by
  unfold number? at h
  simp only at h
  split at h
  · cases h
  · rename_i hne
    have hne : cs.takeWhile Text.isDigit ≠ [] := by
      intro he
      exact hne (by rw [he]; rfl)
    split at h
    · simp only [Option.some.injEq, Prod.mk.injEq] at h
      obtain ⟨rfl, rfl⟩ := h
      simp [hne]
    · split at h
      · cases h
      · simp only [Option.some.injEq, Prod.mk.injEq] at h
        obtain ⟨rfl, rfl⟩ := h
        exact hne

theorem name?_ne_nil {cs rest : List Char} {t : Token} (h : name? cs = some (t, rest)) :
    t.chars ≠ [] := by
  unfold name? at h
  simp only at h
  split at h
  · cases h
  · rename_i hne
    simp only [Option.some.injEq, Prod.mk.injEq] at h
    obtain ⟨rfl, rfl⟩ := h
    intro he
    exact hne (List.isEmpty_iff.mpr he)

theorem operator?_ne_nil {cs rest : List Char} {t : Token}
    (h : operator? cs = some (t, rest)) : t.chars ≠ [] := by
  unfold operator? at h
  split at h
  case h_5 =>
    split at h
    · simp only [Option.some.injEq, Prod.mk.injEq] at h
      obtain ⟨rfl, rfl⟩ := h
      simp
    · cases h
  case h_6 => cases h
  all_goals
    simp only [Option.some.injEq, Prod.mk.injEq] at h
    obtain ⟨rfl, rfl⟩ := h
    simp

theorem next?_ne_nil {cs rest : List Char} {t : Token} (h : next? cs = some (t, rest)) :
    t.chars ≠ [] := by
  unfold next? at h
  rcases Option.or_eq_some_iff.mp h with h | ⟨_, h⟩
  · exact number?_ne_nil h
  · rcases Option.or_eq_some_iff.mp h with h | ⟨_, h⟩
    · exact name?_ne_nil h
    · exact operator?_ne_nil h

/-- Taking a token off leaves less. -/
theorem next?_shorter {cs rest : List Char} {t : Token} (h : next? cs = some (t, rest)) :
    rest.length < cs.length := by
  have ha := next?_append h
  have hn := List.length_pos_iff.mpr (next?_ne_nil h)
  rw [ha, List.length_append]
  omega

/-- The tokens of a list of characters, or none if some character belongs to no token. -/
def scan? (cs : List Char) : Option (List Token) :=
  if cs.isEmpty then some []
  else match _h : next? cs with
    | some (t, rest) => (scan? rest).map (t :: ·)
    | none => none
termination_by cs.length
decreasing_by exact next?_shorter _h

end Token

/-- The tokens of a text, or none if some character belongs to no token. -/
def tokenize (text : String) : Option (List Token) := Token.scan? text.toList

end SeededPlay

/-
# `SeededPlay.Proofs.Record.Reload` — readers get back what was written

A reader undoes a writer (`Record.Undoes`) when it reads every written value as the value
it came from.  The readers of plain values undo the plain ways of writing them, and a
reader of lists, of named values or of something optional undoes the writer of its parts
if the reader of the parts does.  Fields are looked up one after another by simplification.

In the other direction, a reader that accepts tells what it was given: words are accepted
only as the texts that they are, and a record of fields is accepted field by field.

Something optional is written as null when it is missing, which must not be how something
present is written (`Undoes.optional`); of all readers of parts this is the only condition.
-/
import SeededPlay.Record.Check
import SeededPlay.Terms

namespace SeededPlay

namespace Check

variable {α β : Type}

theorem map_eq_valid {f : α → β} {x : Check α} {b : β} (h : f <$> x = .valid b) :
    ∃ a, x = .valid a ∧ b = f a := by
  cases x with
  | valid a =>
    cases h
    exact ⟨a, rfl, rfl⟩
  | invalid issues => cases h

theorem seq_eq_valid {f : Check (α → β)} {x : Check α} {b : β} (h : f <*> x = .valid b) :
    ∃ g a, f = .valid g ∧ x = .valid a ∧ b = g a := by
  cases f with
  | valid g =>
    cases x with
    | valid a =>
      cases h
      exact ⟨g, a, rfl, rfl, rfl⟩
    | invalid issues => cases h
  | invalid issues =>
    cases x with
    | valid a => cases h
    | invalid others => cases h

theorem within_eq_valid {step : Step} {x : Check α} {a : α} (h : within step x = .valid a) :
    x = .valid a := by
  cases x with
  | valid b => exact h
  | invalid issues => cases h

theorem andThen_eq_valid {x : Check α} {f : α → Check β} {b : β} (h : x.andThen f = .valid b) :
    ∃ a, x = .valid a ∧ f a = .valid b := by
  cases x with
  | valid a => exact ⟨a, rfl, h⟩
  | invalid issues => cases h

end Check

theorem Vocabulary.datum_of_ofDatum? {α : Type} [Vocabulary α] {d : Datum} {a : α}
    (h : ofDatum? d = some a) : d = datum a := by
  cases d with
  | text s => exact congrArg Datum.text (word_of_ofWord? h).symm
  | _ => cases h

namespace Record

variable {α : Type} {read : Datum → Check α} {write : α → Datum}

/-! ## What was written is read -/

/-- A reader gets back whatever a writer wrote. -/
def Undoes (read : Datum → Check α) (write : α → Datum) : Prop := ∀ a, read (write a) = .valid a

theorem undoes_text : Undoes text .text := fun _ => rfl

theorem undoes_int : Undoes int .int := fun _ => rfl

theorem undoes_real : Undoes real .real := fun _ => rfl

theorem undoes_bool : Undoes bool .bool := fun _ => rfl

theorem undoes_term [Vocabulary α] : Undoes (α := α) term Vocabulary.datum := by
  intro a
  unfold term
  rw [Vocabulary.ofDatum?_datum]

/-- What is missing is written as null, which must not be how something present is. -/
theorem Undoes.optional (h : Undoes read write) (hnull : ∀ a, write a ≠ .null) :
    Undoes (optional read) fun a => (a.map write).getD .null := by
  intro a
  cases a with
  | none => rfl
  | some a =>
    change Record.optional read (write a) = .valid (some a)
    unfold Record.optional
    split
    · exact absurd ‹_› (hnull a)
    · rw [h a]
      rfl

theorem Undoes.itemsFrom (h : Undoes read write) (i : Nat) (xs : List α) :
    itemsFrom read i (xs.map write) = .valid xs := by
  induction xs generalizing i with
  | nil => rfl
  | cons x xs ih =>
    rw [List.map_cons, Record.itemsFrom, h x, ih (i + 1)]
    rfl

theorem Undoes.list (h : Undoes read write) : Undoes (list read) fun xs => .list (xs.map write) :=
  fun xs => h.itemsFrom 0 xs

theorem Undoes.namedValues (h : Undoes read write) (fs : Fields α) :
    namedValues read (fs.map fun (name, a) => (name, write a)) = .valid fs := by
  induction fs with
  | nil => rfl
  | cons f fs ih =>
    obtain ⟨name, a⟩ := f
    rw [List.map_cons, Record.namedValues, h a, ih]
    rfl

theorem Undoes.fields (h : Undoes read write) :
    Undoes (fields read) fun fs => .record (fs.map fun (name, a) => (name, write a)) :=
  fun fs => h.namedValues fs

/-! ## Fields looked up one after another -/

@[simp] theorem ofFields_record (title : String) (read : List (String × Datum) → Check α)
    (fs : List (String × Datum)) : ofFields title read (.record fs) = read fs := rfl

@[simp] theorem required_cons (k : String) (d : Datum) (fs : List (String × Datum)) (name : String) :
    required ((k, d) :: fs) name read =
      if k = name then (read d).within (.field name) else required fs name read := by
  unfold required
  by_cases h : k = name
  · rw [Fields.get?, if_pos h, if_pos h]
  · rw [Fields.get?, if_neg h, if_neg h]

@[simp] theorem optionalField_cons (k : String) (d : Datum) (fs : List (String × Datum))
    (name : String) (other : α) : optionalField ((k, d) :: fs) name read other =
      if k = name then (read d).within (.field name) else optionalField fs name read other := by
  unfold optionalField
  by_cases h : k = name
  · rw [Fields.get?, if_pos h, if_pos h]
  · rw [Fields.get?, if_neg h, if_neg h]

/-! ## What is accepted was written -/

theorem term_eq_valid [Vocabulary α] {d : Datum} {a : α} (h : term d = .valid a) :
    d = Vocabulary.datum a := by
  unfold term at h
  split at h
  case h_1 b hb =>
    cases h
    exact Vocabulary.datum_of_ofDatum? hb
  case h_2 => cases h

theorem itemsFrom_term_eq_valid [Vocabulary α] {i : Nat} {ds : List Datum} {xs : List α}
    (h : itemsFrom term i ds = .valid xs) : ds = xs.map Vocabulary.datum := by
  induction ds generalizing i xs with
  | nil =>
    cases h
    rfl
  | cons d ds ih =>
    obtain ⟨g, rest, hg, hrest, rfl⟩ := Check.seq_eq_valid h
    obtain ⟨a, ha, rfl⟩ := Check.map_eq_valid hg
    rw [term_eq_valid (Check.within_eq_valid ha), ih hrest, List.map_cons]

theorem sizedList_eq_valid {least most : Nat} {ds : List Datum} {xs : List α}
    (h : sizedList read least most (.list ds) = .valid xs) :
    ds.length ≤ most ∧ least ≤ xs.length ∧ itemsFrom read 0 ds = .valid xs := by
  dsimp only [sizedList] at h
  split at h
  case isTrue => cases h
  case isFalse hmost =>
    obtain ⟨ys, hys, h⟩ := Check.andThen_eq_valid h
    split at h
    case isTrue => cases h
    case isFalse hleast =>
      cases h
      exact ⟨Nat.not_lt.mp hmost, Nat.not_lt.mp hleast, hys⟩

theorem optionalField_eq_valid {fs : List (String × Datum)} {name : String} {other a : α}
    (h : optionalField fs name read other = .valid a) :
    (∃ d, Fields.get? fs name = some d ∧ read d = .valid a) ∨
      Fields.get? fs name = none ∧ a = other := by
  unfold optionalField at h
  split at h
  case h_1 d hget => exact .inl ⟨d, hget, Check.within_eq_valid h⟩
  case h_2 hget =>
    cases h
    exact .inr ⟨hget, rfl⟩

end Record

end SeededPlay

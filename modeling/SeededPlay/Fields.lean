/-
# `SeededPlay.Fields` — named values in order

Parameters, flags and raw records are lists of named values.  A new name goes to
the end, a known name keeps its place, and what a reader sees is `get?`.  The
lemmas say what each operation does to `get?`, so that nothing below needs to
look at the list.
-/

namespace SeededPlay

/-- Named values, in the order in which the names came. -/
abbrev Fields (α : Type) := List (String × α)

namespace Fields

variable {α : Type}

/-- The value under a name. -/
def get? (fields : Fields α) (name : String) : Option α :=
  match fields with
  | [] => none
  | (k, v) :: rest => if k = name then some v else get? rest name

/-- Whether a name is present. -/
def has (fields : Fields α) (name : String) : Bool := (fields.get? name).isSome

/-- The value under a name, or another value. -/
def getD (fields : Fields α) (name : String) (other : α) : α := (fields.get? name).getD other

/-- A value put under a name. -/
def set (fields : Fields α) (name : String) (value : α) : Fields α :=
  match fields with
  | [] => [(name, value)]
  | (k, v) :: rest => if k = name then (k, value) :: rest else (k, v) :: set rest name value

/-- A name taken out. -/
def erase (fields : Fields α) (name : String) : Fields α :=
  fields.filter fun f => f.1 ≠ name

/-- The names, in order. -/
def names (fields : Fields α) : List String := fields.map (·.1)

@[simp] theorem get?_nil (name : String) : get? ([] : Fields α) name = none := rfl

theorem get?_set (fields : Fields α) (name other : String) (value : α) :
    (fields.set name value).get? other =
      if name = other then some value else fields.get? other := by
  induction fields with
  | nil => simp [set, get?]
  | cons f rest ih =>
    obtain ⟨k, v⟩ := f
    unfold set
    by_cases hk : k = name
    · subst hk
      simp only [if_pos]
      by_cases ho : k = other
      · simp [get?, ho]
      · simp [get?, ho]
    · rw [if_neg hk]
      by_cases ho : k = other
      · subst ho
        have : ¬name = k := fun h => hk h.symm
        simp [get?, this]
      · simp only [get?, if_neg ho, ih]

@[simp] theorem get?_set_self (fields : Fields α) (name : String) (value : α) :
    (fields.set name value).get? name = some value := by
  simp [get?_set]

theorem get?_set_of_ne (fields : Fields α) {name other : String} (value : α) (h : name ≠ other) :
    (fields.set name value).get? other = fields.get? other := by
  simp [get?_set, h]

theorem get?_erase (fields : Fields α) (name other : String) :
    (fields.erase name).get? other = if name = other then none else fields.get? other := by
  induction fields with
  | nil => simp [erase, get?]
  | cons f rest ih =>
    obtain ⟨k, v⟩ := f
    unfold erase at ih ⊢
    by_cases hk : k = name
    · subst hk
      simp only [List.filter_cons, ne_eq, not_true_eq_false, decide_false, Bool.false_eq_true,
        if_false, ih, get?]
      by_cases ho : k = other <;> simp [ho]
    · simp only [List.filter_cons, ne_eq, hk, not_false_eq_true, decide_true, if_true, get?]
      by_cases ho : k = other
      · subst ho
        have : ¬name = k := fun h => hk h.symm
        simp [this]
      · simpa [ho] using ih

end Fields

end SeededPlay

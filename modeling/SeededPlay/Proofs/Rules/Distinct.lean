/-
# `SeededPlay.Proofs.Rules.Distinct` — first comes, first stays

Of items with one key the first one is kept.  What was seen before some items enters only
through the keys of these items (`distinctFrom_congr`), so keeping goes through appending
(`distinctFrom_append`).  The keys that are kept are those that are new, each once.

What is kept stays in order (`distinctFrom_sublist`), and of plain items, which are their own
keys, each is kept (`mem_distinctBy`).
-/
import Mathlib
import SeededPlay.Rules.Bundle

namespace SeededPlay

variable {α κ : Type} [DecidableEq κ] {key : α → κ}

theorem distinctFrom_sublist (seen : List κ) (xs : List α) :
    (distinctFrom key seen xs).Sublist xs := by
  induction xs generalizing seen with
  | nil => exact List.Sublist.refl []
  | cons x xs ih =>
    simp only [distinctFrom]
    split
    · exact (ih seen).cons x
    · exact (ih (key x :: seen)).cons_cons x

theorem distinctBy_subset (key : α → κ) (xs : List α) : distinctBy key xs ⊆ xs :=
  (distinctFrom_sublist [] xs).subset

/-- Of what was seen before, only the keys of the items themselves matter. -/
theorem distinctFrom_congr {xs : List α} {seen seen' : List κ}
    (h : ∀ x ∈ xs, key x ∈ seen ↔ key x ∈ seen') :
    distinctFrom key seen xs = distinctFrom key seen' xs := by
  induction xs generalizing seen seen' with
  | nil => rfl
  | cons x xs ih =>
    obtain ⟨hx, hxs⟩ := List.forall_mem_cons.mp h
    have hcons : ∀ y ∈ xs, key y ∈ key x :: seen ↔ key y ∈ key x :: seen' := by
      intro y hy
      simp only [List.mem_cons, hxs y hy]
    simp only [distinctFrom, hx, ih hxs, ih hcons]

theorem distinctFrom_append (seen : List κ) (xs ys : List α) :
    distinctFrom key seen (xs ++ ys) =
      distinctFrom key seen xs ++ distinctFrom key (xs.map key ++ seen) ys := by
  induction xs generalizing seen with
  | nil => rfl
  | cons x xs ih =>
    simp only [List.cons_append, distinctFrom, List.map_cons]
    split
    · rename_i hx
      rw [ih seen]
      -- The key of `x` had been seen, so noting it once more makes no difference.
      refine congrArg _ (distinctFrom_congr fun y _ => ?_)
      simp only [List.mem_cons, List.mem_append]
      exact ⟨Or.inr, fun h => h.elim (fun hy => Or.inr (hy ▸ hx)) id⟩
    · rw [ih (key x :: seen), List.cons_append]
      refine congrArg _ (congrArg _ (distinctFrom_congr fun y _ => ?_))
      simp only [List.mem_cons, List.mem_append]
      exact or_left_comm

theorem mem_keys_distinctFrom {k : κ} {seen : List κ} {xs : List α} :
    k ∈ (distinctFrom key seen xs).map key ↔ k ∈ xs.map key ∧ k ∉ seen := by
  induction xs generalizing seen with
  | nil => simp [distinctFrom]
  | cons x xs ih =>
    simp only [distinctFrom]
    split
    · rename_i hx
      rw [ih, List.map_cons, List.mem_cons]
      constructor
      · exact fun ⟨hk, hnew⟩ => ⟨.inr hk, hnew⟩
      · rintro ⟨rfl | hk, hnew⟩
        · exact absurd hx hnew
        · exact ⟨hk, hnew⟩
    · rename_i hx
      simp only [List.map_cons, List.mem_cons, ih]
      by_cases hk : k = key x
      · simp [hk, hx]
      · simp [hk]

theorem mem_distinctBy {xs : List κ} {x : κ} : x ∈ distinctBy (·) xs ↔ x ∈ xs := by
  have hkeys : x ∈ (distinctBy (·) xs).map (·) ↔ x ∈ xs.map (·) ∧ x ∉ [] := mem_keys_distinctFrom
  simpa using hkeys

theorem nodup_keys_distinctFrom (seen : List κ) (xs : List α) :
    ((distinctFrom key seen xs).map key).Nodup := by
  induction xs generalizing seen with
  | nil => exact List.nodup_nil
  | cons x xs ih =>
    simp only [distinctFrom]
    split
    · exact ih seen
    · refine List.nodup_cons.mpr ⟨fun hx => ?_, ih (key x :: seen)⟩
      exact (mem_keys_distinctFrom.mp hx).2 List.mem_cons_self

end SeededPlay

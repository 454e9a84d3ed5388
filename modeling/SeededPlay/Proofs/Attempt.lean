/-
# `SeededPlay.Proofs.Attempt` — reasoning about what can fail

A reading succeeds when each of its parts does (`bind_eq_ok`, `map_eq_ok`).  An
attempt reaches a state whether it succeeds or fails (`reached`), and the invariants
of play are about that state: `Keeps` says that an attempt keeps a property of the
state on both of its ends.  It goes through sequencing, so that an operation keeps
what its steps keep.

What an attempt does not depend on is a statement about two of them.  `Agree` says
that two attempts, begun in related states, go the same way: both succeed or both fail
with the same fault, and the states at the end are related again.

## How the lemmas are used

An operation of the engine is a `do` block, and a proof about it follows the block.  Where
the operation is known to succeed, `bind_eq_ok`, `lift_eq_ok`, `within_eq_ok` and their
kin take it apart: a sequence succeeds when both of its parts do, and a change of a part
of the state succeeds in the whole when it succeeds in the part.  Where it may fail and an
invariant is to survive the failure, `Keeps` puts it together the other way round, one
lemma for each way of building an attempt.  Those that only read are covered by
`Keeps.lift_bind`, and the results of what they read are then at hand.
-/
import Mathlib
import SeededPlay.Attempt

namespace SeededPlay

variable {σ τ α β : Type}

/-! ## Readings -/

theorem bind_eq_ok {x : Except Fault α} {f : α → Except Fault β} {b : β} :
    x >>= f = .ok b ↔ ∃ a, x = .ok a ∧ f a = .ok b := by
  constructor
  · intro h
    cases x with
    | error e => cases h
    | ok a => exact ⟨a, rfl, h⟩
  · rintro ⟨a, rfl, h⟩
    exact h

theorem map_eq_ok {x : Except Fault α} {f : α → β} {b : β} :
    x.map f = .ok b ↔ ∃ a, x = .ok a ∧ f a = b := by
  constructor
  · intro h
    cases x with
    | error e => cases h
    | ok a => exact ⟨a, rfl, Except.ok.inj h⟩
  · rintro ⟨a, rfl, rfl⟩
    rfl

theorem mapM_eq_ok {f : α → Except Fault β} {xs : List α} {ys : List β} :
    xs.mapM f = .ok ys ↔ xs.map f = ys.map .ok := by
  induction xs generalizing ys with
  | nil =>
    rw [List.mapM_nil, List.map_nil, eq_comm (a := []), List.map_eq_nil_iff, eq_comm (a := ys)]
    exact ⟨fun h => Except.ok.inj h, fun h => congrArg _ h⟩
  | cons x xs ih =>
    rw [List.mapM_cons, List.map_cons, bind_eq_ok]
    constructor
    · rintro ⟨y, hy, h⟩
      obtain ⟨rest, hrest, h⟩ := bind_eq_ok.mp h
      obtain rfl := Except.ok.inj h
      rw [List.map_cons, hy, ih.mp hrest]
    · intro h
      cases ys with
      | nil => cases h
      | cons y rest =>
        obtain ⟨hy, hrest⟩ := List.cons.inj h
        exact ⟨y, hy, bind_eq_ok.mpr ⟨rest, ih.mpr hrest, rfl⟩⟩

theorem exists_mapM {f : α → Except Fault β} {xs : List α} (h : ∀ x ∈ xs, ∃ y, f x = .ok y) :
    ∃ ys, xs.mapM f = .ok ys := by
  induction xs with
  | nil => exact ⟨[], rfl⟩
  | cons x xs ih =>
    obtain ⟨y, hy⟩ := h x List.mem_cons_self
    obtain ⟨ys, hys⟩ := ih fun x' hx' => h x' (List.mem_cons_of_mem x hx')
    refine ⟨y :: ys, ?_⟩
    rw [List.mapM_cons, hy, hys]
    rfl

theorem eq_ok_of_toOption {x : Except Fault α} {a : α} (h : x.toOption = some a) : x = .ok a := by
  cases x with
  | error e => cases h
  | ok b => exact congrArg _ (Option.some.inj h)

/-! ## The state that is reached -/

namespace Attempt

/-- The state at the end of an attempt, failed or not. -/
def reached : EStateM.Result Fault σ α → σ
  | .ok _ s => s
  | .error _ s => s

@[simp] theorem reached_ok (a : α) (s : σ) :
    reached (.ok a s : EStateM.Result Fault σ α) = s := rfl

@[simp] theorem reached_error (e : Fault) (s : σ) :
    reached (.error e s : EStateM.Result Fault σ α) = s := rfl

@[simp] theorem get_apply (s : σ) : (get : Attempt σ σ) s = .ok s s := rfl

@[simp] theorem modify_apply (f : σ → σ) (s : σ) :
    (modify f : Attempt σ PUnit) s = .ok ⟨⟩ (f s) := rfl

theorem discard_apply (x : Attempt σ α) (s : σ) :
    (discard x) s = match x s with
      | .ok _ s' => .ok ⟨⟩ s'
      | .error e s' => .error e s' := by
  show EStateM.map _ x s = _
  unfold EStateM.map
  cases x s <;> rfl

theorem reached_discard (x : Attempt σ α) (s : σ) : reached (discard x s) = reached (x s) := by
  rw [discard_apply]
  cases x s <;> rfl

theorem within_apply (part : τ → σ) (put : τ → σ → τ) (x : Attempt σ α) (t : τ) :
    x.within part put t = match x (part t) with
      | .ok a s => .ok a (put t s)
      | .error e s => .error e (put t s) := rfl

theorem reached_within (part : τ → σ) (put : τ → σ → τ) (x : Attempt σ α) (t : τ) :
    reached (x.within part put t) = put t (reached (x (part t))) := by
  rw [within_apply]
  cases x (part t) <;> rfl

/-! ## Attempts that succeed -/

/-- What a success gives, and what it reaches.  Runs on fixed inputs are evaluated through this:
with a match in its place they would be evaluated anew whenever two statements about one run
are compared. -/
def done? (x : Attempt σ α) (s : σ) : Option (α × σ) :=
  match x s with
  | .ok a s' => some (a, s')
  | .error _ _ => none

theorem done?_eq_some {x : Attempt σ α} {s s' : σ} {a : α} :
    done? x s = some (a, s') ↔ x s = .ok a s' := by
  unfold done?
  cases x s with
  | ok b t =>
    rw [Option.some.injEq, Prod.mk.injEq, EStateM.Result.ok.injEq]
  | error f t => exact iff_of_false nofun nofun

theorem bind_eq_ok {x : Attempt σ α} {f : α → Attempt σ β} {s s' : σ} {b : β} :
    (x >>= f) s = .ok b s' ↔ ∃ a t, x s = .ok a t ∧ f a t = .ok b s' := by
  rw [bind_apply]
  constructor
  · intro h
    cases hx : x s with
    | ok a t =>
      rw [hx] at h
      exact ⟨a, t, rfl, h⟩
    | error e t =>
      rw [hx] at h
      cases h
  · rintro ⟨a, t, hx, h⟩
    rw [hx]
    exact h

theorem pure_eq_ok {a b : α} {s s' : σ} :
    (pure a : Attempt σ α) s = .ok b s' ↔ a = b ∧ s = s' := by
  rw [pure_apply, EStateM.Result.ok.injEq]

theorem lift_eq_ok {r : Except Fault α} {s s' : σ} {a : α} :
    lift r s = .ok a s' ↔ r = .ok a ∧ s = s' := by
  cases r with
  | ok b => rw [lift_ok, EStateM.Result.ok.injEq, Except.ok.injEq]
  | error e =>
    rw [lift_error]
    constructor
    · intro h
      cases h
    · rintro ⟨h, -⟩
      cases h

theorem map_eq_ok {x : Attempt σ α} {f : α → β} {s s' : σ} {b : β} :
    (f <$> x) s = .ok b s' ↔ ∃ a, x s = .ok a s' ∧ f a = b := by
  rw [map_eq_pure_bind, bind_eq_ok]
  constructor
  · rintro ⟨a, t, hx, h⟩
    obtain ⟨hf, rfl⟩ := pure_eq_ok.mp h
    exact ⟨a, hx, hf⟩
  · rintro ⟨a, hx, hf⟩
    exact ⟨a, s', hx, pure_eq_ok.mpr ⟨hf, rfl⟩⟩

theorem discard_eq_ok {x : Attempt σ α} {s s' : σ} {u : Unit} :
    discard x s = .ok u s' ↔ ∃ a, x s = .ok a s' := by
  rw [discard_apply]
  constructor
  · intro h
    cases hx : x s with
    | ok a t =>
      rw [hx] at h
      obtain ⟨-, rfl⟩ := EStateM.Result.ok.inj h
      exact ⟨a, rfl⟩
    | error e t =>
      rw [hx] at h
      cases h
  · rintro ⟨a, hx⟩
    rw [hx]

theorem within_eq_ok {part : τ → σ} {put : τ → σ → τ} {x : Attempt σ α} {t t' : τ} {a : α} :
    x.within part put t = .ok a t' ↔ ∃ s, x (part t) = .ok a s ∧ t' = put t s := by
  unfold within
  constructor
  · intro h
    cases hx : x (part t) with
    | ok b s =>
      rw [hx] at h
      obtain ⟨rfl, rfl⟩ := EStateM.Result.ok.inj h
      exact ⟨s, rfl, rfl⟩
    | error e s =>
      rw [hx] at h
      cases h
  · rintro ⟨s, hx, rfl⟩
    rw [hx]

theorem discard_eq_bind (x : Attempt σ α) : discard x = x >>= fun _ => pure () := by
  show Function.const α () <$> x = _
  rw [map_eq_pure_bind]

theorem discard_bind (x : Attempt σ α) (f : Unit → Attempt σ β) :
    (discard x >>= f) = x >>= fun _ => f () := by
  rw [discard_eq_bind, bind_assoc]
  simp only [pure_bind]

/-! ## What is kept -/

/-- Whether an attempt keeps a property of the state, at both of its ends. -/
def Keeps (P : σ → Prop) (x : Attempt σ α) : Prop := ∀ s, P s → P (reached (x s))

namespace Keeps

variable {P : σ → Prop} {x : Attempt σ α} {f : α → Attempt σ β}

theorem pure (a : α) : Keeps P (pure a : Attempt σ α) := fun _ h => h

theorem lift (r : Except Fault α) : Keeps P (Attempt.lift r : Attempt σ α) := by
  intro s h
  cases r <;> exact h

theorem bind (hx : Keeps P x) (hf : ∀ a, Keeps P (f a)) : Keeps P (x >>= f) := by
  intro s h
  have hreached := hx s h
  rw [bind_apply]
  cases hr : x s with
  | ok a s' =>
    rw [hr] at hreached
    exact hf a s' hreached
  | error e s' =>
    rw [hr] at hreached
    exact hreached

/-- A reading that fails changes nothing, so only its results matter. -/
theorem lift_bind {r : Except Fault α} (hf : ∀ a, r = .ok a → Keeps P (f a)) :
    Keeps P (Attempt.lift r >>= f) := by
  cases r with
  | error e => exact fun _ h => h
  | ok a => exact hf a rfl

theorem get : Keeps P (get : Attempt σ σ) := fun _ h => h

theorem modify {g : σ → σ} (hg : ∀ s, P s → P (g s)) :
    Keeps P (modify g : Attempt σ PUnit) := fun s h => hg s h

theorem discard (hx : Keeps P x) : Keeps P (discard x) := by
  intro s h
  rw [reached_discard]
  exact hx s h

/-- A change of a part keeps in the whole what it keeps in the part. -/
theorem within {Q : τ → Prop} {part : τ → σ} {put : τ → σ → τ} (hx : Keeps P x)
    (hpart : ∀ t, Q t → P (part t)) (hput : ∀ t s, P s → Q (put t s)) :
    Keeps Q (x.within part put) := by
  intro t ht
  have hreached := hx (part t) (hpart t ht)
  unfold Attempt.within
  cases hr : x (part t) with
  | ok a s =>
    rw [hr] at hreached
    exact hput t s hreached
  | error e s =>
    rw [hr] at hreached
    exact hput t s hreached

theorem of_ok {s s' : σ} {a : α} (hx : Keeps P x) (h : x s = .ok a s') (hs : P s) : P s' := by
  have hreached := hx s hs
  rw [h] at hreached
  exact hreached

end Keeps

/-! ## Two attempts that go the same way -/

/-- Two results of one kind: related outcomes or the same fault, in related states. -/
inductive Same (R : σ → σ → Prop) (V : α → β → Prop) :
    EStateM.Result Fault σ α → EStateM.Result Fault σ β → Prop
  | ok {a : α} {b : β} {s t : σ} : V a b → R s t → Same R V (.ok a s) (.ok b t)
  | error (f : Fault) {s t : σ} : R s t → Same R V (.error f s) (.error f t)

/-- Two attempts that go the same way from related states. -/
def Agree (R : σ → σ → Prop) (V : α → β → Prop) (x : Attempt σ α) (y : Attempt σ β) : Prop :=
  ∀ s t, R s t → Same R V (x s) (y t)

theorem Same.reached {R : σ → σ → Prop} {V : α → β → Prop} {x : EStateM.Result Fault σ α}
    {y : EStateM.Result Fault σ β} (h : Same R V x y) :
    R (Attempt.reached x) (Attempt.reached y) := by
  cases h with
  | ok _ hr => exact hr
  | error _ hr => exact hr

theorem Same.imp {R Q : σ → σ → Prop} {V W : α → β → Prop} {x : EStateM.Result Fault σ α}
    {y : EStateM.Result Fault σ β} (h : Same R V x y)
    (hR : R (Attempt.reached x) (Attempt.reached y) → Q (Attempt.reached x) (Attempt.reached y))
    (hV : ∀ a b, V a b → W a b) : Same Q W x y := by
  cases h with
  | ok hv hr => exact .ok (hV _ _ hv) (hR hr)
  | error f hr => exact .error f (hR hr)

namespace Agree

variable {γ δ : Type} {R : σ → σ → Prop} {V : α → β → Prop} {W : γ → δ → Prop}

theorem pure {a : α} {b : β} (h : V a b) : Agree R V (pure a) (pure b) :=
  fun _ _ hst => .ok h hst

theorem lift {r : Except Fault α} : Agree R Eq (Attempt.lift r) (Attempt.lift r) := by
  intro s t hst
  cases r with
  | ok a => exact .ok rfl hst
  | error f => exact .error f hst

theorem get : Agree R R get get := fun _ _ hst => .ok hst hst

theorem modify {g k : σ → σ} (h : ∀ s t, R s t → R (g s) (k t)) :
    Agree R Eq (modify g) (modify k) := fun s t hst => .ok rfl (h s t hst)

theorem bind {x : Attempt σ α} {y : Attempt σ β} {f : α → Attempt σ γ} {g : β → Attempt σ δ}
    (hxy : Agree R V x y) (hfg : ∀ a b, V a b → Agree R W (f a) (g b)) :
    Agree R W (x >>= f) (y >>= g) := by
  intro s t hst
  have hsame := hxy s t hst
  rw [bind_apply, bind_apply]
  cases hx : x s with
  | ok a s' =>
    rw [hx] at hsame
    cases hy : y t with
    | ok b t' =>
      rw [hy] at hsame
      cases hsame with
      | ok hv hst' => exact hfg a b hv s' t' hst'
    | error e t' =>
      rw [hy] at hsame
      cases hsame
  | error e s' =>
    rw [hx] at hsame
    cases hy : y t with
    | ok b t' =>
      rw [hy] at hsame
      cases hsame
    | error e' t' =>
      rw [hy] at hsame
      cases hsame with
      | error _ hst' => exact .error e hst'

theorem discard {x : Attempt σ α} {y : Attempt σ β} (hxy : Agree R V x y) :
    Agree R Eq (discard x) (discard y) := by
  rw [discard_eq_bind, discard_eq_bind]
  exact hxy.bind fun _ _ _ => Agree.pure rfl

end Agree

end Attempt

end SeededPlay

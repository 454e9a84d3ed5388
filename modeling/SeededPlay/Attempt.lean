/-
# `SeededPlay.Attempt` — changes that may fail part way

Playing changes rules, parameters and state step by step, and a step can fail after
others have taken effect.  An attempt keeps what was changed before it failed, so
both of its ends carry the value that was reached.
-/
import SeededPlay.Fault

namespace SeededPlay

/-- A change of `σ` with an outcome in `α`; a failure keeps what was reached. -/
abbrev Attempt (σ α : Type) := EStateM Fault σ α

namespace Attempt

variable {σ τ α β : Type}

/-- An outcome that changes nothing. -/
def lift (r : Except Fault α) : Attempt σ α := fun s =>
  match r with
  | .ok a => .ok a s
  | .error e => .error e s

/-- A change of a part, made in the whole. -/
def within (part : τ → σ) (put : τ → σ → τ) (x : Attempt σ α) : Attempt τ α := fun t =>
  match x (part t) with
  | .ok a s => .ok a (put t s)
  | .error e s => .error e (put t s)

theorem bind_apply (x : Attempt σ α) (f : α → Attempt σ β) (s : σ) :
    (x >>= f) s = match x s with
      | .ok a s' => f a s'
      | .error e s' => .error e s' := by
  show EStateM.bind x f s = _
  unfold EStateM.bind
  cases x s <;> rfl

@[simp] theorem pure_apply (a : α) (s : σ) : (pure a : Attempt σ α) s = .ok a s := rfl

@[simp] theorem lift_ok (a : α) (s : σ) : (lift (.ok a) : Attempt σ α) s = .ok a s := rfl

@[simp] theorem lift_error (e : Fault) (s : σ) :
    (lift (.error e) : Attempt σ α) s = .error e s := rfl

end Attempt

end SeededPlay

/-
# `SeededPlay.Chaos.Level` — how much chaos

Chaos is graded from 0 to 100.  Any raw value gives a level: it is read as a
double, rounded to the nearest whole number (a tie to the even one) and clamped;
what cannot be read or rounded gives no chaos at all.
-/
import SeededPlay.Numeric

namespace SeededPlay

/-- A chaos level, 0 to 100. -/
structure ChaosLevel where
  value : Nat
  le_most : value ≤ 100
deriving DecidableEq, Repr

namespace ChaosLevel

instance : Inhabited ChaosLevel := ⟨⟨0, by omega⟩⟩

/-- No chaos. -/
def none : ChaosLevel := ⟨0, by omega⟩

/-- The level nearest to an integer. -/
def clamp (n : Int) : ChaosLevel :=
  ⟨(max 0 (min 100 n)).toNat, by omega⟩

/-- The level nearest to a double; none for nan and the infinities. -/
def ofReal (x : Binary64) : ChaosLevel :=
  match x.roundEven? with
  | some n => clamp n
  | Option.none => none

/-- The level that a raw value asks for. -/
def ofDatum (d : Datum) : ChaosLevel :=
  match d.toReal with
  | .ok x => ofReal x
  | .error _ => none

/-- A level as a raw value. -/
def datum (level : ChaosLevel) : Datum := .int level.value

end ChaosLevel

end SeededPlay

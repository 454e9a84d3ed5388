/-
# `SeededPlay.Game.Seed` — the seed of a game

Choices are written as one line of words, the line is hashed, and the first word
of the digest, mixed with a salt, is reduced into the seed space.  Without a salt
fresh random bits take its place, so that two games of the same choices differ.
-/
import SeededPlay.Game.Choices
import SeededPlay.Hash.Sha256

namespace SeededPlay.Choices

/-- The choices that shape the seed, in one line. -/
def fingerprint (c : Choices) : String :=
  Text.joinWith "|" [Vocabulary.word c.genre, Vocabulary.word c.visualStyle,
    Text.joinWith "," (c.verbs.map Vocabulary.word), Vocabulary.word c.gravity,
    Vocabulary.word c.boundary, c.world, Vocabulary.word c.archetype,
    Vocabulary.word c.difficulty, toString c.chaos.value]

/-- The seed of the choices under a salt. -/
def seedOf (c : Choices) (salt : UInt32) : Nat :=
  ((Sha256.hash c.fingerprint.toUTF8.toList).a ^^^ salt).toNat % SeedCode.seedSpace

/-- The last 32 bits of an integer. -/
def lowBits (n : Int) : UInt32 := UInt32.ofInt n

/-- The seed of the choices under a raw salt; random bits stand in for a missing one. -/
def createSeed (c : Choices) (salt : Option Datum) (entropy : UInt32) : Except Fault Nat :=
  match salt with
  | none => .ok (c.seedOf entropy)
  | some d => d.toInt.map fun n => c.seedOf (lowBits n)

end SeededPlay.Choices

/-
# `SeededPlay.Hash.Sha256` — the 256-bit hash

A message is padded to whole blocks of sixteen words; every block is stretched to
sixty-four words and stirred into eight chaining words, which are the digest.
The keyed hash wraps a message twice, each time behind the key.
-/
import SeededPlay.Text.Quoted

namespace SeededPlay

/-- Eight words: the chaining value of the hash, and its result. -/
structure Digest where
  a : UInt32
  b : UInt32
  c : UInt32
  d : UInt32
  e : UInt32
  f : UInt32
  g : UInt32
  h : UInt32
deriving DecidableEq, Repr, Inhabited

namespace Sha256

/-- The constants of the rounds: the fractions of the cube roots of the first
sixty-four primes. -/
def roundConstants : List UInt32 := [
  0x428a2f98, 0x71374491, 0xb5c0fbcf, 0xe9b5dba5, 0x3956c25b, 0x59f111f1, 0x923f82a4, 0xab1c5ed5,
  0xd807aa98, 0x12835b01, 0x243185be, 0x550c7dc3, 0x72be5d74, 0x80deb1fe, 0x9bdc06a7, 0xc19bf174,
  0xe49b69c1, 0xefbe4786, 0x0fc19dc6, 0x240ca1cc, 0x2de92c6f, 0x4a7484aa, 0x5cb0a9dc, 0x76f988da,
  0x983e5152, 0xa831c66d, 0xb00327c8, 0xbf597fc7, 0xc6e00bf3, 0xd5a79147, 0x06ca6351, 0x14292967,
  0x27b70a85, 0x2e1b2138, 0x4d2c6dfc, 0x53380d13, 0x650a7354, 0x766a0abb, 0x81c2c92e, 0x92722c85,
  0xa2bfe8a1, 0xa81a664b, 0xc24b8b70, 0xc76c51a3, 0xd192e819, 0xd6990624, 0xf40e3585, 0x106aa070,
  0x19a4c116, 0x1e376c08, 0x2748774c, 0x34b0bcb5, 0x391c0cb3, 0x4ed8aa4a, 0x5b9cca4f, 0x682e6ff3,
  0x748f82ee, 0x78a5636f, 0x84c87814, 0x8cc70208, 0x90befffa, 0xa4506ceb, 0xbef9a3f7, 0xc67178f2]

/-- The first chaining value: the fractions of the square roots of the first eight primes. -/
def initial : Digest :=
  ⟨0x6a09e667, 0xbb67ae85, 0x3c6ef372, 0xa54ff53a, 0x510e527f, 0x9b05688c, 0x1f83d9ab, 0x5be0cd19⟩

/-- A word turned to the right. -/
def rotate (x : UInt32) (n : UInt32) : UInt32 := (x >>> n) ||| (x <<< (32 - n))

/-- The bytes of a number, the highest first. -/
def bigEndian : Nat → Nat → List UInt8
  | 0, _ => []
  | width + 1, n => bigEndian width (n / 256) ++ [UInt8.ofNat (n % 256)]

/-- How many zeros follow the mark so that the length ends a block. -/
def zeroCount (size : Nat) : Nat := (119 - size % 64) % 64

/-- A message with the mark, the zeros and its length in bits behind it. -/
def pad (message : List UInt8) : List UInt8 :=
  message ++ 0x80 :: List.replicate (zeroCount message.length) 0 ++
    bigEndian 8 (message.length * 8)

/-- Bytes as words. -/
def words : List UInt8 → List UInt32
  | a :: b :: c :: d :: rest =>
    (a.toUInt32 <<< 24 ||| b.toUInt32 <<< 16 ||| c.toUInt32 <<< 8 ||| d.toUInt32) :: words rest
  | _ => []

/-- The next word of a schedule. -/
def nextWord (w : Array UInt32) : UInt32 :=
  let back (n : Nat) : UInt32 := w.getD (w.size - n) 0
  let x := back 15
  let y := back 2
  let s0 := rotate x 7 ^^^ rotate x 18 ^^^ (x >>> 3)
  let s1 := rotate y 17 ^^^ rotate y 19 ^^^ (y >>> 10)
  back 16 + s0 + back 7 + s1

/-- A block stretched to sixty-four words. -/
def schedule (block : List UInt32) : List UInt32 :=
  ((List.range 48).foldl (fun w _ => w.push (nextWord w)) block.toArray).toList

/-- One round, with its constant and its word. -/
def round (s : Digest) (kw : UInt32 × UInt32) : Digest :=
  let s1 := rotate s.e 6 ^^^ rotate s.e 11 ^^^ rotate s.e 25
  let choice := (s.e &&& s.f) ^^^ ((~~~s.e) &&& s.g)
  let t1 := s.h + s1 + choice + kw.1 + kw.2
  let s0 := rotate s.a 2 ^^^ rotate s.a 13 ^^^ rotate s.a 22
  let majority := (s.a &&& s.b) ^^^ (s.a &&& s.c) ^^^ (s.b &&& s.c)
  ⟨t1 + (s0 + majority), s.a, s.b, s.c, s.d + t1, s.e, s.f, s.g⟩

/-- A block stirred into a chaining value. -/
def compress (s : Digest) (block : List UInt32) : Digest :=
  let t := (roundConstants.zip (schedule block)).foldl round s
  ⟨s.a + t.a, s.b + t.b, s.c + t.c, s.d + t.d, s.e + t.e, s.f + t.f, s.g + t.g, s.h + t.h⟩

/-- Whole blocks stirred in one after another; `count` is how many there are. -/
def absorb : Nat → Digest → List UInt32 → Digest
  | 0, s, _ => s
  | count + 1, s, ws => absorb count (compress s (ws.take 16)) (ws.drop 16)

/-- The digest of a message. -/
def hash (message : List UInt8) : Digest :=
  let ws := words (pad message)
  absorb (ws.length / 16) initial ws

end Sha256

namespace Digest

def words (d : Digest) : List UInt32 := [d.a, d.b, d.c, d.d, d.e, d.f, d.g, d.h]

def bytes (d : Digest) : List UInt8 := d.words.flatMap fun w => Sha256.bigEndian 4 w.toNat

/-- The digest in base sixteen. -/
def hex (d : Digest) : String := String.ofList (d.bytes.flatMap fun b => Text.hexPadded 2 b.toNat)

end Digest

namespace Sha256

/-- How many bytes a block has. -/
def blockSize : Nat := 64

/-- A key of exactly one block: a longer key is hashed, and zeros fill it up. -/
def blockKey (key : List UInt8) : List UInt8 :=
  let short := if blockSize < key.length then (hash key).bytes else key
  short ++ List.replicate (blockSize - short.length) 0

/-- The digest of a message under a key. -/
def keyed (key message : List UInt8) : Digest :=
  let k := blockKey key
  let inner := hash (k.map (· ^^^ 0x36) ++ message)
  hash (k.map (· ^^^ 0x5c) ++ inner.bytes)

end Sha256

end SeededPlay

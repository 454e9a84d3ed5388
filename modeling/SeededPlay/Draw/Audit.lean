/-
# `SeededPlay.Draw.Audit` — draws on record

A recorder makes draws from a stream and, when it keeps an audit, notes each one
with all that is needed to make it again.  A draw that fails, or that has nothing
to pick from, leaves no note.
-/
import SeededPlay.Draw.Hexadecimal
import SeededPlay.Text.Json

namespace SeededPlay

/-- One draw on record. -/
structure DrawNote where
  channel : String
  nonce : Datum
  purpose : String
  digest : Digest
  fraction : Binary64
  outcome : Datum
deriving Repr, Inhabited

namespace DrawNote

/-- The note as a raw record. -/
def dump (n : DrawNote) : Datum :=
  .record [("channel", .text n.channel), ("nonce", n.nonce), ("purpose", .text n.purpose),
    ("combined_hash", .text n.digest.hex), ("raw_value", .real n.fraction),
    ("outcome", n.outcome)]

/-- The note as ASCII text. -/
def json (n : DrawNote) : String := Json.write true 0 n.dump

end DrawNote

/-- A stream whose draws may be noted. -/
structure Recorder where
  stream : Stream
  keeps : Bool
  notes : List DrawNote
deriving Inhabited

namespace Recorder

/-- A draw made and noted; `pick` says what it comes to, if anything. -/
def draw (r : Recorder) (nonce : Datum) (purpose : String)
    (pick : UInt32 → Except Fault (Option Datum)) : Except Fault Datum × Recorder :=
  let digest := r.stream.digest nonce purpose
  match pick digest.a with
  | .error e => (.error e, r)
  | .ok none => (.ok .null, r)
  | .ok (some d) =>
    let note := ⟨r.stream.channel, nonce, purpose, digest, Draw.fraction digest.a, d⟩
    (.ok d, if r.keeps then { r with notes := r.notes ++ [note] } else r)

def random (r : Recorder) (nonce : Datum) (purpose : String) : Except Fault Datum × Recorder :=
  r.draw nonce purpose fun k => .ok (some (.real (Draw.fraction k)))

/-- A number between two raw bounds. -/
def between (r : Recorder) (nonce : Datum) (purpose : String) (low high : Datum) :
    Except Fault Datum × Recorder :=
  r.draw nonce purpose fun k => do
    return some (.number (← Draw.betweenNumbers k (← low.toNumber) (← high.toNumber)))

/-- One of the items of a raw list, or one of the characters of a text. -/
def choice (r : Recorder) (nonce : Datum) (purpose : String) (options : Datum) :
    Except Fault Datum × Recorder :=
  if !options.isPresent then (.ok .null, r)
  else match options with
    | .record _ => (.error .noSuchKey, r)
    | _ => r.draw nonce purpose fun k => options.elements.bind (Draw.pick k)

/-- A raw pair of an item and its weight. -/
def weightedPair (d : Datum) : Except Fault (Datum × Number) := do
  match ← d.elements with
  | [item, weight] => return (item, ← weight.toNumber)
  | other => throw (.itemCount 2 other.length)

/-- One of the items of a raw list of pairs, by weight. -/
def weighted (r : Recorder) (nonce : Datum) (purpose : String) (options : Datum) :
    Except Fault Datum × Recorder :=
  r.draw nonce purpose fun k => do
    Draw.pickWeighted k (← (← options.elements).mapM weightedPair)

/-- All that is on record. -/
def log (r : Recorder) : Datum :=
  .record [("internal_seed", r.stream.seed), ("channel", .text r.stream.channel),
    ("total_draws", .int r.notes.length), ("draws", .list (r.notes.map DrawNote.dump))]

end Recorder

end SeededPlay

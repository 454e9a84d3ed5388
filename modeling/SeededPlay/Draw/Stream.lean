/-
# `SeededPlay.Draw.Stream` — draws that can be made again

A draw depends on nothing but the seed, the channel, a nonce and a purpose: these
are hashed under the seed as key, and the first word of the digest is the draw.
Divided by `2 ^ 32` it is a fraction of one, from which numbers, items and
weighted items are picked in double arithmetic.
-/
import SeededPlay.Hash.Sha256
import SeededPlay.Numeric

namespace SeededPlay

/-- A source of draws. -/
structure Stream where
  seed : Datum
  channel : String
deriving Repr, Inhabited

namespace Stream

/-- What is hashed for a draw. -/
def message (s : Stream) (nonce : Datum) (purpose : String) : String :=
  s.channel ++ ":" ++ nonce.plain ++ ":" ++ purpose

/-- The digest of a draw. -/
def digest (s : Stream) (nonce : Datum) (purpose : String) : Digest :=
  Sha256.keyed s.seed.plain.toUTF8.toList (s.message nonce purpose).toUTF8.toList

/-- The first word of the digest of a draw. -/
def word (s : Stream) (nonce : Datum) (purpose : String) : UInt32 := (s.digest nonce purpose).a

end Stream

namespace Draw

/-- How many draws there are. -/
def range : Nat := Nat.pow 2 32

/-- A draw as a fraction of one. -/
def fraction (k : UInt32) : Binary64 := Binary64.ofRatio k.toNat range

/-- A draw as a place among `n`. -/
def place (k : UInt32) (n : Nat) : Except Fault Int :=
  (Binary64.ofInt? n).elim (.error .outOfRange) fun size => Datum.truncate ((fraction k).mul size)

/-- A draw as an integer between two bounds, both included, in either order. -/
def between (k : UInt32) (low high : Int) : Except Fault Int :=
  let (low, high) := if high < low then (high, low) else (low, high)
  (place k (high - low + 1).toNat).map (low + ·)

/-- A draw as a number between two bounds in either order.  Between integers it is an
integer and may be any of them; otherwise it lies whole steps above the lower bound. -/
def betweenNumbers (k : UInt32) (low high : Number) : Except Fault Number :=
  match low, high with
  | .int low, .int high => (between k low high).map .int
  | low, high => do
    let (low, high) := if high.lt low then (high, low) else (low, high)
    match (high.sub? low).bind fun d => (d.add? (.int 1)).bind Number.toReal? with
    | none => throw .outOfRange
    | some width =>
      let steps ← Datum.truncate ((fraction k).mul width)
      match low.add? (.int steps) with
      | some n => return n
      | none => throw .outOfRange

/-- The item that a draw picks; none of an empty list. -/
def pick {α : Type} (k : UInt32) (options : List α) : Except Fault (Option α) :=
  if options.isEmpty then .ok none
  else do
    let i ← place k options.length
    match options[i.toNat]? with
    | some a => return some a
    | none => throw .noSuchPlace

/-- The sum of some weights, from the left. -/
def total : List Number → Except Fault Number
  | ws => ws.foldlM (fun sum w => match sum.add? w with
    | some sum => .ok sum
    | none => .error .outOfRange) (.int 0)

/-- The first item at which the running sum of the weights passes the target. -/
def firstPast {α : Type} (target : Binary64) : Binary64 → List (α × Number) →
    Except Fault (Option α)
  | _, [] => .ok none
  | running, (a, w) :: rest => do
    match w.toReal? with
    | none => throw .outOfRange
    | some w =>
      let running := running.add w
      if target.lt running then return some a else firstPast target running rest

/-- The item that a draw picks by weight.  Only positive weights count; without any
nothing is picked, and the last item stands in should no sum pass the target. -/
def pickWeighted {α : Type} (k : UInt32) (options : List (α × Number)) :
    Except Fault (Option α) := do
  let pool := options.filter fun o => (Number.int 0).lt o.2
  match pool.getLast? with
  | none => return none
  | some last =>
    let sum ← total (pool.map (·.2))
    match sum.toReal? with
    | none => throw .outOfRange
    | some sum =>
      let picked ← firstPast ((fraction k).mul sum) .zero pool
      return some (picked.getD last.1)

end Draw

end SeededPlay

/-
# `SeededPlay.Chaos.Scheduler` — which mutation, and when

A scheduler activates mutations at milestones of the score, at the beat of a timer
and on demand, and takes them back when their time has run out, when the level no
longer permits them, or when the cap is reached and the oldest has to go.

The pick has two steps: first a category by weight, among those with a candidate,
then a candidate of that category.  Both draws depend on the seed and on how many
activations there have been, on nothing else.  A candidate is permitted by the
level, not active, and writes no parameter that an active mutation writes; at the
cap the oldest mutation counts as gone already, and it is taken back only once a
successor is certain.

An operation that is `shown` the state may read its clock and score and raise its
flags; the others go by the scheduler's own clock.
-/
import SeededPlay.Chaos.Config
import SeededPlay.Chaos.Undo
import SeededPlay.SeedCode.Segment

namespace SeededPlay

structure ActiveMutation where
  mutation : Mutation
  /-- How many activations there had been. -/
  nonce : Nat
  started : Datum
  expires : Option Number
  undo : Undo
deriving Repr, Inhabited

namespace ActiveMutation

def id (a : ActiveMutation) : String := a.mutation.id

def dump (a : ActiveMutation) : Datum :=
  .record [("id", .text a.id), ("category", Vocabulary.datum a.mutation.category),
    ("nonce", .int a.nonce), ("started_ms", a.started),
    ("expires_ms", (a.expires.map .number).getD .null)]

/-- Whether the time of a mutation has run out at a raw time. -/
def isOver (elapsed : Datum) (a : ActiveMutation) : Except Fault Bool :=
  match a.expires with
  | none => .ok false
  | some t => elapsed.toNumber.map t.le

end ActiveMutation

structure Scheduler where
  seed : Nat
  /-- The parameters without any mutation. -/
  base : Fields Datum
  scene : Scene
  level : ChaosLevel
  /-- The weights of the categories; a missing one is zero. -/
  weights : Fields Datum
  /-- The active mutations, the oldest first. -/
  active : List ActiveMutation
  /-- The categories of all activations so far. -/
  history : List Category
  activations : Nat
  clock : Datum
  lastTrigger : Datum
  lastScore : Binary64
deriving Inhabited

namespace Scheduler

/-- The weights that a level brings. -/
def weightsOf (level : ChaosLevel) : Fields Datum :=
  level.tier.weighted.map fun (c, w) => (Vocabulary.word c, .int w)

/-- A scheduler before anything has happened. -/
def start (level : ChaosLevel) (seed : Nat) (rules : Engine) (params : Fields Datum)
    (state : GameState) : Scheduler where
  seed := seed
  base := params
  scene := ⟨rules, params, state⟩
  level := level
  weights := weightsOf level
  active := []
  history := []
  activations := 0
  clock := .real .zero
  lastTrigger := .real .zero
  lastScore := .zero

def tier (s : Scheduler) : Tier := s.level.tier

def cap (s : Scheduler) : Nat := s.tier.cap

/-- The source of all draws. -/
def stream (s : Scheduler) : Stream := ⟨.int s.seed, "chaos"⟩

def state (s : Scheduler) : GameState := s.scene.state

def params (s : Scheduler) : Fields Datum := s.scene.params

def dump (s : Scheduler) : Datum :=
  .record [("level", .int s.level.value), ("tier", Vocabulary.datum s.tier),
    ("active", .list (s.active.map ActiveMutation.dump)), ("parameters", .record s.params),
    ("category_history", .list (s.history.map Vocabulary.datum))]

/-- A change of the scene, made in the scheduler. -/
def onScene {α : Type} (x : Attempt Scene α) : Attempt Scheduler α :=
  x.within Scheduler.scene fun s scene => { s with scene }

/-! ## Taking back -/

/-- A mutation taken back; false if it is not active. -/
def revert (m : Mutation) : Attempt Scheduler Bool := do
  match (← get).active.find? (·.mutation = m) with
  | none => return false
  | some a =>
    onScene (m.revert a.undo)
    modify fun s => { s with active := s.active.eraseP (·.mutation = m) }
    return true

/-- The mutation of a name taken back; false if it is not active. -/
def revertNamed (id : String) : Attempt Scheduler Bool :=
  match (Vocabulary.ofWord? id : Option Mutation) with
  | some m => revert m
  | none => return false

/-- Mutations taken back one after another. -/
def revertEach : List Mutation → Attempt Scheduler Unit
  | [] => return ()
  | m :: ms => do
    discard (revert m)
    revertEach ms

/-- The mutations whose time has run out. -/
def expired (elapsed : Datum) : List ActiveMutation → Except Fault (List Mutation)
  | [] => .ok []
  | a :: rest => do
    let ended ← a.isOver elapsed
    let more ← expired elapsed rest
    return if ended then a.mutation :: more else more

/-- Every mutation whose time has run out taken back; those are returned. -/
def expire (elapsed : Datum) : Attempt Scheduler (List Mutation) := do
  let gone ← Attempt.lift (expired elapsed (← get).active)
  revertEach gone
  return gone

/-- Every mutation taken back, the newest first, and the parameters as they were. -/
def revertAll : Attempt Scheduler Unit := do
  revertEach ((← get).active.reverse.map (·.mutation))
  modify fun s => { s with scene := { s.scene with params := s.base } }

/-! ## The level -/

/-- The oldest mutations taken back, up to a count. -/
def revertOldest : Nat → Attempt Scheduler Unit
  | 0 => return ()
  | n + 1 => do
    match (← get).active with
    | [] => return ()
    | a :: _ =>
      discard (revert a.mutation)
      revertOldest n

/-- A new level.  What it does not permit is taken back, and then the oldest
mutations until the rest fits under the cap. -/
def setLevel (level : ChaosLevel) : Attempt Scheduler Unit := do
  modify fun s => { s with level, weights := weightsOf level }
  let refused := (← get).active.filter fun a => !level.eligible.contains a.mutation
  revertEach (refused.map (·.mutation))
  let s ← get
  revertOldest (s.active.length - s.cap)

/-- Other weights until the level is set again. -/
def setWeights (weights : Fields Datum) : Attempt Scheduler Unit :=
  modify fun s => { s with weights }

/-! ## Activation -/

/-- Whether the cap is reached. -/
def isFull (s : Scheduler) : Bool := s.cap ≤ s.active.length

/-- The active mutations that stay active beside the next one. -/
def staying (s : Scheduler) : List ActiveMutation :=
  if s.isFull then s.active.drop 1 else s.active

/-- The mutations that may be next. -/
def candidates (s : Scheduler) : List Mutation :=
  s.level.eligible.filter fun m =>
    s.staying.all fun a => a.mutation ≠ m && !m.clashes a.mutation

/-- The weight of a category. -/
def weight (s : Scheduler) (c : Category) : Except Fault Number :=
  (s.weights.getD (Vocabulary.word c) (.int 0)).toNumber

/-- The categories of some mutations, each once, with their weights. -/
def weighed (s : Scheduler) (ms : List Mutation) : Except Fault (List (Category × Number)) :=
  (distinctBy (·) (ms.map Mutation.category)).mapM fun c => return (c, ← s.weight c)

/-- The category that is drawn for the next mutation, if any has weight. -/
def drawCategory (s : Scheduler) (ms : List Mutation) : Except Fault (Option Category) := do
  Draw.pickWeighted (s.stream.word (.int s.activations) "category") (← s.weighed ms)

/-- The mutation that is drawn next, if any. -/
def drawMutation (s : Scheduler) : Except Fault (Option Mutation) := do
  let ms := s.candidates
  match ← s.drawCategory ms with
  | none => return none
  | some c =>
    Draw.pick (s.stream.word (.int s.activations) "mutation") (ms.filter (·.category = c))

/-- The time that an activation goes by. -/
def now (s : Scheduler) (shown : Bool) : Datum :=
  if shown then
    match s.state.elapsed with
    | .null => s.clock
    | t => t
  else s.clock

/-- When a mutation that starts at a raw time runs out. -/
def expiry (m : Mutation) (now : Datum) : Except Fault (Option Number) :=
  match m.duration with
  | none => .ok none
  | some d => do
    match (← now.toNumber).add? (.int d) with
    | some t => return some t
    | none => throw .outOfRange

/-- A mutation applied and put at the end of the active ones. -/
def begin (m : Mutation) (shown : Bool) : Attempt Scheduler ActiveMutation := do
  let s ← get
  let undo ← onScene (m.apply s.stream (.int s.activations) shown)
  let a := ⟨m, s.activations, s.now shown, ← Attempt.lift (expiry m (s.now shown)), undo⟩
  modify fun s => { s with
    active := s.active ++ [a]
    history := s.history ++ [m.category]
    activations := s.activations + 1 }
  return a

/-- The oldest mutation taken back if the cap is reached. -/
def makeRoom : Attempt Scheduler Unit := do
  let s ← get
  if s.isFull then
    match s.active with
    | a :: _ => discard (revert a.mutation)
    | [] => return ()

/-- One mutation drawn and activated; none if there is nothing to draw. -/
def activate (shown : Bool) : Attempt Scheduler (Option ActiveMutation) := do
  let s ← get
  if s.cap = 0 then return none
  match ← Attempt.lift s.drawMutation with
  | none => return none
  | some m =>
    makeRoom
    return some (← begin m shown)

/-- Several activations; those that happened are returned. -/
def activateTimes (shown : Bool) : Nat → Attempt Scheduler (List ActiveMutation)
  | 0 => return []
  | n + 1 => do
    let first ← activate shown
    let rest ← activateTimes shown n
    return first.toList ++ rest

/-! ## Milestones and the timer -/

/-- The last milestone at or below a score, by its number. -/
def milestoneAt (interval : Nat) (score : Binary64) : Except Fault Int :=
  Datum.floor (score.div (.ofInt interval))

/-- How many milestones lie between two scores. -/
def crossed (interval : Nat) (previous score : Binary64) : Except Fault Int := do
  let after ← milestoneAt interval score
  let before ← milestoneAt interval previous
  return after - before

/-- The score as a double; what is not there is zero. -/
def scoreOf (s : Scheduler) (shown : Bool) : Except Fault Binary64 :=
  if shown && s.state.score.isPresent then s.state.score.toReal else .ok .zero

/-- One activation for every milestone that the score has passed on its way up. -/
def observe (shown : Bool) : Attempt Scheduler (List ActiveMutation) := do
  let s ← get
  let score ← Attempt.lift (s.scoreOf shown)
  modify fun s => { s with lastScore := score }
  match s.tier.milestone with
  | none => return []
  | some interval =>
    let n ← Attempt.lift (crossed interval s.lastScore score)
    activateTimes shown n.toNat

/-- Whether the timer has run down between two raw times. -/
def isDue (s : Scheduler) (elapsed last : Datum) : Except Fault Bool :=
  match s.tier.period with
  | none => .ok false
  | some period => do
    let difference ← (← elapsed.minus last).toNumber
    return (Number.int period).le difference

/-- The clock put to a raw time: what has run out is taken back, and a mutation is
activated if the timer has run down. -/
def tick (elapsed : Datum) (shown : Bool) : Attempt Scheduler (Option ActiveMutation) := do
  modify fun s => { s with clock := elapsed }
  discard (expire elapsed)
  let s ← get
  if ← Attempt.lift (s.isDue elapsed s.lastTrigger) then
    modify fun s => { s with lastTrigger := elapsed }
    activate shown
  else return none

end Scheduler

end SeededPlay

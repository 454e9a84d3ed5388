/-
# `SeededPlay.Play.Session` — one play-through

A session plays a game: events run its rules against the state, effects about
chaos and milestones of the score set mutations off, and the clock drives the
timer.  The chaos is keyed by the seed that the code of the game carries.  A reset
starts over from the game; nothing is patched back.
-/
import SeededPlay.Chaos.Scheduler
import SeededPlay.Game.Game

namespace SeededPlay

structure Session where
  game : Game
  strict : Bool
  chaos : Scheduler
  /-- How many events were handled since the start. -/
  events : Nat
deriving Inhabited

namespace Session

def state (s : Session) : GameState := s.chaos.state

/-- The state in which a game starts. -/
def initialState (g : Game) : GameState :=
  { abilities := .list (g.verbs.map Vocabulary.datum) }

/-- A session at the start of a game. -/
def start (g : Game) (strict : Bool) : Except Fault Session := do
  let rules ← Engine.ofRules strict g.rules
  let seed := (SeedCode.decode g.code).seed
  let chaos := Scheduler.start (.ofDatum (.int g.chaos.level)) seed rules g.world.params
    (initialState g)
  return ⟨g, strict, chaos, 0⟩

/-- The session at its start again. -/
def reset (s : Session) : Except Fault Session := start s.game s.strict

/-- A change of the chaos, made in the session. -/
def onChaos {α : Type} (x : Attempt Scheduler α) : Attempt Session α :=
  x.within Session.chaos fun s chaos => { s with chaos }

/-- A change of the scene, made in the session. -/
def onScene {α : Type} (x : Attempt Scene α) : Attempt Session α := onChaos (Scheduler.onScene x)

/-- One activation for every effect about chaos. -/
def signalChaos : List Effect → Attempt Session Unit
  | [] => return ()
  | e :: es => do
    if e.type = "chaos" then discard (onChaos (Scheduler.activate true))
    signalChaos es

/-- A raw trigger handled: its effects, with chaos and milestones seen to. -/
def handle (trigger : Datum) : Attempt Session (List Effect) := do
  let effects ← onScene (Scene.dispatchDatum trigger)
  modify fun s => { s with events := s.events + 1 }
  signalChaos effects
  discard (onChaos (Scheduler.observe true))
  return effects

/-- The clock moved forward; the mutation that the timer set off is returned. -/
def tick (delta : Datum) : Attempt Session (Option ActiveMutation) := do
  onScene (Scene.advance delta)
  let s ← get
  onChaos (Scheduler.tick s.state.elapsed true)

/-- Whether the player has no health left. -/
def isOver (s : Session) : Except Fault Bool := s.state.health.atMost (.int 0)

/-- What a renderer is shown. -/
def snapshot (s : Session) : Except Fault (Fields Datum) := do
  return [("seed_code", .text s.game.code), ("state", ← s.state.dump),
    ("rules", .list (s.chaos.scene.rules.rules.map Rule.dump)),
    ("chaos_tier", Vocabulary.datum s.chaos.tier),
    ("active_mutations", .list (s.chaos.active.map fun a => .text a.id)),
    ("parameters", .record s.chaos.params)]

end Session

end SeededPlay

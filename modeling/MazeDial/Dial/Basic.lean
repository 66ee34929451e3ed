import MazeDial.Dial.Code
import MazeDial.Dial.Plan
import MazeDial.Generation.Generator

/-!
# The dial

A dial shows the time of day as a maze, and on request other scenes. It is
refreshed again and again; a refresh that finds no cycle under way starts one if
a new maze is due, and a refresh that finds or starts one does a slice of work
on it. A new maze is due when the user has asked for one, or when the dial shows
the time and the local minute is another than at the last look. Only the latter
starts the random source anew, from the minute, so a minute always looks alike.

Touches are ignored while a cycle is under way; the button is not.
-/

namespace MazeDial

/-- A watch dial with its clock. -/
structure Dial (κ σ : Type) where
  clock : κ
  settings : Settings
  generator : Generator σ
  scene : Scene
  /-- Whether the user has asked for a new maze. -/
  requested : Bool
  /-- The local minute when a refresh last looked. -/
  lastMinute : Option Nat
  /-- When the last long tap on the time was, unless the time has been returned
      to by a long tap since. -/
  lastLongTap : Option Duration
  /-- The last swipes, the latest first. -/
  swipes : List Swipe

/-- Why a new maze is due. -/
inductive Cause where
  /-- The minute has changed. -/
  | rollover
  /-- The user has asked for it. -/
  | request
  deriving DecidableEq, Repr

/-- The seed that a cycle starts from at a local minute, if it starts anew. -/
def Cause.seed (minute : Nat) : Cause → Option UInt64
  | .rollover => some minute.toUInt64
  | .request => none

namespace Dial

variable {κ σ : Type}

/-- A dial that has shown nothing yet. -/
def new (clock : κ) (settings : Settings) (source : σ) : Except Fault (Dial κ σ) := do
  let budget ← settings.budget
  return {
    clock := clock
    settings := settings
    generator := .new (.fresh .dial) source budget
    scene := .watchFace
    requested := false
    lastMinute := none
    lastLongTap := none
    swipes := [] }

/-- Whether a cycle is under way. -/
def isGenerating (dial : Dial κ σ) : Bool :=
  dial.generator.phase.isGenerating

/-- Why a new maze is due at a local minute, if it is. A request comes before a
    change of the minute. -/
def due (dial : Dial κ σ) (minute : Nat) : Option Cause :=
  if dial.requested then some .request
  else if dial.scene = .watchFace && dial.lastMinute != some minute then some .rollover
  else none

variable [RandomSource σ] [Clock κ]

/-- Starts a cycle for the scene of the dial. Requests made while it runs are kept
    for the next one. -/
def begin (dial : Dial κ σ) (minute : Nat) (cause : Cause) : Logged (Dial κ σ) := do
  let plan ← dial.scene.plan dial.settings.clockType minute
  Logged.note (.sceneStarted dial.scene (cause = .rollover))
  let generator ← dial.generator.start plan (cause.seed minute)
  return { dial with generator := generator, requested := false }

/-- Does a slice of work and hands out the maze if that finished it. -/
def work (effort : Nat) (dial : Dial κ σ) : Logged (Option Maze × Dial κ σ) := do
  let (generator, clock) ← dial.generator.step effort dial.clock
  let (maze, generator) := generator.collect
  return (maze, { dial with generator := generator, clock := clock })

/-- Called once each refresh period. Answers the maze when a new one is finished. -/
def refresh (effort : Nat) (dial : Dial κ σ) : Logged (Option Maze × Dial κ σ) := do
  if dial.isGenerating then
    dial.work effort
  else
    let (now, clock) ← Clock.now dial.clock
    let minute := localMinute now dial.settings.utcOffset
    let cause := dial.due minute
    let dial := { dial with clock := clock, lastMinute := some minute }
    match cause with
    | none => return (none, dial)
    | some cause =>
      let dial ← dial.begin minute cause
      dial.work effort

/-- Refreshes until one answers a maze, but no more than `limit` times; answers how
    many refreshes that took. -/
def refreshUntil (effort : Nat) :
    Nat → Dial κ σ → Logged ((Nat × Option Maze) × Dial κ σ)
  | 0, dial => return ((0, none), dial)
  | limit + 1, dial => do
    let (maze, dial) ← dial.refresh effort
    if maze.isSome then return ((1, maze), dial)
    else
      let ((calls, maze), dial) ← refreshUntil effort limit dial
      return ((calls + 1, maze), dial)

omit [RandomSource σ]

/-- Whether a long tap follows another closely enough to make a double one. -/
def isDoubleTap (dial : Dial κ σ) (now : Duration) : Except Fault Bool :=
  match dial.lastLongTap with
  | none => .ok false
  | some last =>
    (last.add dial.settings.doubleTapWindow).map fun limit => decide (now.nanos < limit.nanos)

/-- A long tap on the time asks for a new maze; a double one switches to the blank
    scene and forgets the swipes. -/
def longTapOnTime (dial : Dial κ σ) (now : Duration) : Logged (Dial κ σ) := do
  let double ← dial.isDoubleTap now
  let dial := if double then { dial with scene := .blank, swipes := [] } else dial
  Logged.note (.pulse (.ofMillis 20))
  return { dial with requested := true, lastLongTap := some now }

/-- A long tap on any other scene switches back to the time. The next double tap
    begins afresh. -/
def longTapElsewhere (dial : Dial κ σ) : Logged (Dial κ σ) := do
  Logged.note (.pulse (.ofMillis 20))
  return { dial with scene := .watchFace, requested := true, lastLongTap := none }

/-- A swipe off the time is remembered; when that completes the code of a picture
    which is not shown, the dial switches to it. -/
def swipeElsewhere (dial : Dial κ σ) (swipe : Swipe) : Logged (Dial κ σ) := do
  let dial := { dial with swipes := remember swipe dial.swipes }
  match (unlocked dial.swipes).filter (· ≠ dial.scene) with
  | none => return dial
  | some picture =>
    Logged.note (.codeEntered picture)
    Logged.note (.pulse (.ofMillis 10))
    return { dial with scene := picture, requested := true }

/-- Handles a touch; answers whether it was used. -/
def touch (dial : Dial κ σ) (event : Touch) : Logged (Bool × Dial κ σ) := do
  if dial.isGenerating then
    return (false, dial)
  else
    let (now, clock) ← Clock.now dial.clock
    let dial := { dial with clock := clock }
    let onTime := decide (dial.scene = .watchFace)
    match event with
    | .tap => return (false, dial)
    | .longTap =>
      let dial ← if onTime then dial.longTapOnTime now else dial.longTapElsewhere
      return (true, dial)
    | .swipe direction =>
      if onTime then return (false, dial)
      else
        let dial ← dial.swipeElsewhere direction
        return (true, dial)

omit [Clock κ]

/-- Handles the button, which switches back to the time; answers whether it was
    used. -/
def button (dial : Dial κ σ) : Bool × Dial κ σ :=
  if dial.scene = .watchFace then (false, dial)
  else (true, { dial with scene := .watchFace, requested := true })

end Dial

end MazeDial

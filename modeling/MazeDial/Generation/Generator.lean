import MazeDial.Carving.Slice
import MazeDial.Generation.Placement
import MazeDial.Repair.Flood
import MazeDial.Time.Clock

/-!
# Generators

A generator makes one maze after another, each in a cycle: the board is reset
and stamped, carved in slices that keep to a budget of time, and repaired when
carving is done. A cycle can be started at any time, and whatever was under way
is then thrown away. A finished maze waits until it is collected.
-/

namespace MazeDial

/-- A maker of mazes. -/
structure Generator (σ : Type) where
  maze : Maze
  source : σ
  progress : Progress
  phase : Phase
  /-- How long a slice may carve before it stops at the next path. -/
  budget : Duration
  /-- What the repair of the last finished cycle took. -/
  lastRepair : RepairReport

namespace Generator

variable {σ κ : Type}

/-- A generator before its first cycle. -/
def new (maze : Maze) (source : σ) (budget : Duration) : Generator σ where
  maze := maze
  source := source
  progress := .initial
  phase := .idle
  budget := budget
  lastRepair := .none

variable [RandomSource σ] [Clock κ]

/-- Starts a cycle. With a seed, the random source starts anew before anything is
    drawn from it. -/
def start (generator : Generator σ) (plan : List Placement) (reseed : Option UInt64) :
    Logged (Generator σ) := do
  if generator.phase.isGenerating then
    Logged.note (.discarding generator.phase)
  let source := match reseed with
    | some seed => RandomSource.seeded seed
    | none => generator.source
  let (maze, source) ← stampAll plan generator.maze.reset source
  Logged.note (.cycleStarted plan.length reseed.isSome)
  return { generator with
    maze := maze, source := source, progress := .initial, phase := .carving }

/-- Whether a clock is past a deadline; at the deadline it is not. -/
def isPast (deadline : Duration) (clock : κ) : Except Fault (Bool × κ) := do
  let (now, clock) ← Clock.now clock
  return (decide (deadline.nanos < now.nanos), clock)

/-- Carves until the budget is used up or no cell is empty. A slice that cannot
    go on is a fault. -/
def carveSlice (effort : Nat) (generator : Generator σ) (clock : κ) :
    Logged (Generator σ × κ) := do
  let (now, clock) ← Clock.now clock
  let deadline ← now.add generator.budget
  let slice ← carve effort (isPast deadline) generator.maze generator.source
    { generator.progress with deadline := deadline } clock
  let carved : Generator σ := { generator with
    maze := slice.maze, source := slice.source, progress := slice.progress }
  match slice.outcome with
  | .paused => return (carved, slice.timer)
  | .done => return ({ carved with phase := .repairing }, slice.timer)
  | .stuck place target =>
    Logged.note (.cycleFailed place target)
    Logged.fail (.generationFailed place target)

/-- Joins the regions that carving left apart and finishes the cycle. -/
def repair (generator : Generator σ) : Logged (Generator σ) := do
  let (maze, source, report) ← joinRegions generator.maze generator.source
  Logged.note (.cycleFinished report.wallsRemoved)
  return { generator with
    maze := maze, source := source, lastRepair := report, phase := .done }

/-- One slice of the cycle: some carving, and the repair when carving is done.
    Between cycles nothing happens. -/
def step (effort : Nat) (generator : Generator σ) (clock : κ) :
    Logged (Generator σ × κ) := do
  let (generator, clock) ←
    if generator.phase = .carving then generator.carveSlice effort clock
    else pure (generator, clock)
  if generator.phase = .repairing then
    let generator ← generator.repair
    return (generator, clock)
  else return (generator, clock)

/-- Steps while a cycle is under way, but no more than `limit` times; answers how
    many steps that took. -/
def run (effort : Nat) : Nat → Generator σ → κ → Logged (Nat × Generator σ × κ)
  | 0, generator, clock => return (0, generator, clock)
  | limit + 1, generator, clock => do
    if generator.phase.isGenerating then
      let (generator, clock) ← generator.step effort clock
      let (steps, generator, clock) ← run effort limit generator clock
      return (steps + 1, generator, clock)
    else return (0, generator, clock)

omit [RandomSource σ]

/-- The finished maze, if there is one. -/
def finished (generator : Generator σ) : Option Maze :=
  if generator.phase = .done then some generator.maze else none

/-- Hands out the finished maze, if there is one; the generator is then idle. -/
def collect (generator : Generator σ) : Option Maze × Generator σ :=
  if generator.phase = .done then
    (some generator.maze, { generator with phase := .idle })
  else (none, generator)

end Generator

end MazeDial

import MazeDial.Dial.Plan
import MazeDial.Generation.Generator
import MazeDial.Maze.Passage
import MazeDial.Text.Numeral

/-!
# Surveys

A survey makes mazes of one kind in cycles of its own seeds, 0, 1, 2 and so on,
and counts how they came out: the walls that repair took out, the mazes that are
perfect, with one passage fewer than cells, and those that are disconnected.
-/

namespace MazeDial

/-- What the mazes of a survey are grown around. -/
inductive SurveyMode where
  | digits
  | blank
  | heart
  | none
  deriving DecidableEq, Repr

namespace SurveyMode

/-- The word for a mode. -/
def word : SurveyMode → String
  | .digits => "digits"
  | .blank => "blank"
  | .heart => "heart"
  | .none => "none"

/-- The mode with a word, or the complaint that there is none. -/
def ofWord (word : String) : Except String SurveyMode :=
  match word with
  | "digits" => .ok .digits
  | "blank" => .ok .blank
  | "heart" => .ok .heart
  | "none" => .ok .none
  | _ => .error s!"Unknown seed mode {word}. Use digits, blank, heart or none."

/-- The placements of a mode. -/
def plan : SurveyMode → List Placement
  | .digits => [.fixed ⟨3, 1⟩ Pattern.one, .fixed ⟨10, 1⟩ Pattern.two,
      .fixed ⟨3, 13⟩ Pattern.five, .fixed ⟨10, 13⟩ Pattern.nine]
  | .blank => [.scattered Pattern.blank 0 20 3 20]
  | .heart => [.fixed ⟨2, 4⟩ Pattern.heart]
  | .none => []

end SurveyMode

/-- What is to be surveyed. -/
structure SurveyOrder where
  mode : SurveyMode
  cycles : Nat

/-- Reads the number of cycles, a hundred unless it is a numeral, and the mode,
    digits unless given. -/
def SurveyOrder.ofOptions (options : List String) : Except String SurveyOrder := do
  let cycles := (options[0]?.bind parseCount).getD 100
  let mode ← SurveyMode.ofWord (options[1]?.getD "digits")
  return ⟨mode, cycles⟩

/-- The counts of a survey. -/
structure Tally where
  wallsRemoved : Nat
  perfect : Nat
  disconnected : Nat
  deriving DecidableEq, Repr

/-- The counts after one more maze. -/
def Tally.count (tally : Tally) (maze : Maze) (report : RepairReport) : Tally where
  wallsRemoved := tally.wallsRemoved + report.wallsRemoved
  perfect := tally.perfect + (if maze.openEdgeCount = maze.size.area - 1 then 1 else 0)
  disconnected := tally.disconnected + (if maze.isConnected then 0 else 1)

/-- A survey under way. -/
structure Survey (σ : Type) where
  order : SurveyOrder
  generator : Generator σ
  tally : Tally

namespace Survey

variable {σ κ : Type} [RandomSource σ]

/-- A survey before its first cycle. -/
def new (order : SurveyOrder) : Survey σ where
  order := order
  generator := .new (.fresh .dial) (RandomSource.seeded 0) (.ofMillis 60000)
  tally := ⟨0, 0, 0⟩

variable [Clock κ]

/-- Makes the maze of one cycle, from the cycle's number as its seed, and counts
    it. -/
def cycle (effort : Nat) (survey : Survey σ) (number : Nat) (clock : κ) :
    Logged (Survey σ × κ) := do
  let generator ← survey.generator.start survey.order.mode.plan (some number.toUInt64)
  let (_, generator, clock) ← generator.run effort effort clock
  if generator.phase.isGenerating then
    Logged.fail .unfinished
  let (maze, generator) := generator.collect
  let tally := match maze with
    | none => survey.tally
    | some maze => survey.tally.count maze generator.lastRepair
  return ({ survey with generator := generator, tally := tally }, clock)

/-- So many cycles, numbered from `number` on. -/
def cycles (effort : Nat) : Nat → Nat → Survey σ → κ → Logged (Survey σ × κ)
  | 0, _, survey, clock => return (survey, clock)
  | left + 1, number, survey, clock => do
    let (survey, clock) ← survey.cycle effort number clock
    cycles effort left (number + 1) survey clock

/-- All the cycles of an order. -/
def ofOrder (effort : Nat) (order : SurveyOrder) (clock : κ) : Logged (Survey σ × κ) :=
  cycles effort order.cycles 0 (.new order) clock

omit [RandomSource σ]

/-- What is reported at the end; `timing` holds the lines about the time it took. -/
def report (survey : Survey σ) (timing : List String) : List String :=
  if survey.order.cycles = 0 then ["No cycles run."]
  else
    [s!"Seed mode: {survey.order.mode.word}", s!"Cycles: {survey.order.cycles}"] ++ timing ++
      [s!"Walls removed by repair: {survey.tally.wallsRemoved}",
        s!"Perfect mazes: {survey.tally.perfect}",
        s!"Disconnected mazes: {survey.tally.disconnected}"]

end Survey

end MazeDial

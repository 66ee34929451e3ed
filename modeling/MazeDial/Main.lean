import MazeDial.Simulator.Options
import MazeDial.Simulator.Session
import MazeDial.Simulator.Survey
import Std.Time.DateTime.Timestamp

/-!
# The command line

Started under the name `survey` the program makes a survey, and under any other
name it runs a dial in a terminal. Only reading the clock, the keyboard and the
environment and writing text happen here.

The size of the terminal is taken from `COLUMNS` and `LINES`. The keyboard is
read a line at a time, an empty line standing for the enter key. During one
refresh the clock stands still.
-/

namespace MazeDial

/-- The time now, as a clock that stands still. -/
def readClock : IO ManualClock := do
  let now ← Std.Time.Timestamp.now
  match Duration.ofNanos now.toNanosecondsSinceUnixEpoch.toInt.toNat with
  | .ok time => return ⟨time, .zero⟩
  | .error _ => return ⟨.zero, .zero⟩

/-- A seed from the operating system. -/
def readSeed : IO UInt64 := do
  let bytes ← IO.getRandomBytes 8
  return bytes.toList.foldl (fun seed byte => seed * 256 + byte.toUInt64) 0

/-- A dimension of the terminal from the environment. -/
def readDimension (name : String) (usual : UInt16) : IO UInt16 := do
  let text ← IO.getEnv name
  return ((text.bind parseCount).map Nat.toUInt16).getD usual

/-- The keys in a line of input. -/
def keysOf : Nat → List Char → List Key
  | 0, _ => []
  | more + 1, symbols =>
    match Key.read symbols with
    | none => []
    | some (key, rest) => key :: keysOf more rest

/-- The keys that a line of input stands for; its end quits. -/
def keysOfLine (line : String) : List Key :=
  match line.toList.filter (· ≠ '\n') with
  | [] => if line.isEmpty then [.escape] else [.enter]
  | symbols => keysOf symbols.length symbols

/-- Writes text to the terminal. -/
def write (text : String) : IO Unit := do
  let output ← IO.getStdout
  output.putStr text
  output.flush

/-- Cleans up after a fault and says what it was. -/
def crash (terminal : Terminal) (fault : Fault) : IO UInt32 := do
  write terminal.crash.2
  IO.eprintln fault.message
  return 101

/-- Handles keys one after another. There is no session after the one that quits. -/
def pressAll : List Key → Session ManualClock KeyStream →
    Logged (Option (Session ManualClock KeyStream))
  | [], session => pure (some session)
  | key :: keys, session => do
    match ← session.press key with
    | none => return none
    | some session => pressAll keys session

/-- The rounds of a session: keys, then a refresh. -/
partial def runSession (session : Session ManualClock KeyStream)
    (line : Task (Except IO.Error String)) : IO UInt32 := do
  IO.sleep (session.dial.settings.refreshPeriod.nanos / 1000000).toUInt32
  let clock ← readClock
  let session := { session with dial := { session.dial with clock := clock } }
  let arrived ← IO.hasFinished line
  let keys := if arrived then
      match line.get with
      | .ok text => keysOfLine text
      | .error _ => [.escape]
    else []
  match (pressAll keys session).result with
  | .error fault => crash session.terminal fault
  | .ok none =>
    write session.finish
    return 0
  | .ok (some session) =>
    match (session.refresh ampleEffort).result with
    | .error fault => crash session.terminal fault
    | .ok (session, written) =>
      write written
      let input ← IO.getStdin
      let line ← if arrived then IO.asTask input.getLine else pure line
      runSession session line

/-- Runs a dial in the terminal. -/
def simulate (options : List String) : IO UInt32 := do
  let (settings, complaints) := Settings.ofOptions options
  complaints.forM IO.eprintln
  let terminal := Terminal.ofSize (← readDimension "COLUMNS" 80) (← readDimension "LINES" 24)
  let source := KeyStream.ofSeed (← readSeed)
  match Session.start settings (← readClock) source terminal with
  | .error fault => crash terminal fault
  | .ok (session, written) =>
    write written
    let input ← IO.getStdin
    runSession session (← IO.asTask input.getLine)

/-- The shortest, mean and longest of some times in nanoseconds, as a line. -/
def timingLine (times : List Nat) : String :=
  let text (nanos : Nat) : String :=
    match Duration.ofNanos nanos with
    | .ok duration => duration.text
    | .error fault => fault.message
  s!"Cycle time: min {text (times.min?.getD 0)}, " ++
    s!"avg {text (times.foldr (· + ·) 0 / times.length)}, max {text (times.max?.getD 0)}"

/-- The cycles of a survey from a number on, each with the time it took. -/
def runSurvey : Nat → Nat → Survey KeyStream → List Nat →
    IO (Except Fault (Survey KeyStream × List Nat))
  | 0, _, survey, times => return .ok (survey, times)
  | left + 1, number, survey, times => do
    let begun ← IO.monoNanosNow
    match (survey.cycle ampleEffort number (← readClock)).result with
    | .error fault => return .error fault
    | .ok (survey, _) =>
      let ended ← IO.monoNanosNow
      runSurvey left (number + 1) survey ((ended - begun) :: times)

/-- Makes a survey and reports it. -/
def surveyReport (options : List String) : IO UInt32 := do
  match SurveyOrder.ofOptions options with
  | .error complaint =>
    IO.eprintln complaint
    return 0
  | .ok order =>
    match ← runSurvey order.cycles 0 (.new order) [] with
    | .error fault =>
      IO.eprintln fault.message
      return 101
    | .ok (survey, times) =>
      (survey.report [timingLine times]).forM IO.println
      return 0

end MazeDial

def main (options : List String) : IO UInt32 := do
  let path ← IO.appPath
  if path.fileName == some "survey" then MazeDial.surveyReport options
  else MazeDial.simulate options

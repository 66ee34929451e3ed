import MazeDial.Time.Share

/-!
# Settings

How a dial is set up.
-/

namespace MazeDial

/-- Whether hours are counted to twenty-four or twice to twelve. -/
inductive ClockType where
  | h24
  | h12
  deriving DecidableEq, Repr

/-- The name of a way to count hours. -/
def ClockType.name : ClockType → String
  | .h24 => "H24"
  | .h12 => "H12"

/-- The settings of a dial. -/
structure Settings where
  /-- The time between two refreshes. -/
  refreshPeriod : Duration := .ofMillis 20
  /-- The share of that time which a refresh may spend carving. -/
  budgetFraction : Float := 0.75
  clockType : ClockType := .h24
  /-- The minutes by which local time is ahead of universal time. -/
  utcOffset : Int32 := 0
  /-- Two long taps less than this apart are a double one. -/
  doubleTapWindow : Duration := .ofMillis 2500

/-- How long a refresh may carve. -/
def Settings.budget (settings : Settings) : Except Fault Duration :=
  settings.refreshPeriod.share settings.budgetFraction

end MazeDial

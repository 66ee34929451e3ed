import MazeDial.Time.Duration

/-!
# Clocks

A clock tells the time since the start of 1970 and may change by being read.
Everything that depends on time is written against `Clock`, and so holds for
clocks that stand still, jump or run backwards. The clock of this module moves
only when told to, and by a fixed tick after each reading.
-/

namespace MazeDial

/-- A source of readings. -/
class Clock (κ : Type) where
  /-- The time now, and the clock after this reading. -/
  now : κ → Except Fault (Duration × κ)

/-- A clock that is moved by hand. -/
structure ManualClock where
  time : Duration
  tick : Duration
  deriving DecidableEq

namespace ManualClock

/-- The clock moved on. -/
def advance (clock : ManualClock) (step : Duration) : Except Fault ManualClock :=
  (clock.time.add step).map fun time => { clock with time := time }

/-- A reading answers the time and then moves the clock by its tick. -/
instance : Clock ManualClock where
  now clock := (clock.advance clock.tick).map fun moved => (clock.time, moved)

end ManualClock

end MazeDial

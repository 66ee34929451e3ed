import MazeDial.Fault

/-!
# Durations

Lengths of time in whole nanoseconds, at least zero, whose whole seconds fit in
64 bits. Points in time are durations since a common origin. Sums that would be
longer than the longest duration are faults.
-/

namespace MazeDial

/-- A length of time in nanoseconds. -/
structure Duration where
  nanos : Nat
  nanos_lt : nanos < UInt64.size * 1000000000 := by decide
  deriving DecidableEq

namespace Duration

/-- The nanoseconds in a second. -/
def nanosPerSecond : Nat := 1000000000

/-- No time at all. -/
def zero : Duration := { nanos := 0 }

instance : Inhabited Duration := ⟨zero⟩

/-- The duration of so many nanoseconds, unless it is too long. -/
def ofNanos (nanos : Nat) : Except Fault Duration :=
  if bounded : nanos < UInt64.size * 1000000000 then .ok ⟨nanos, bounded⟩
  else .error .timeOverflow

/-- A duration of whole milliseconds. -/
def ofMillis (millis : UInt32) : Duration where
  nanos := millis.toNat * 1000000
  nanos_lt := by
    have small := millis.toNat_lt
    simp only [UInt64.size]
    omega

/-- The whole seconds. -/
def seconds (duration : Duration) : Nat :=
  duration.nanos / nanosPerSecond

/-- The nanoseconds beyond the whole seconds. -/
def subsecond (duration : Duration) : Nat :=
  duration.nanos % nanosPerSecond

/-- The decimal digits of a part of a unit that is a power of ten, without zeros at
    the end, after a point; nothing if no digit is left. -/
def fractionText (unit value : Nat) : String :=
  let digits := (toString (unit + value)).toList.drop 1
  match (digits.reverse.dropWhile (· == '0')).reverse with
  | [] => ""
  | kept => "." ++ String.ofList kept

/-- A duration in the largest of the units s, ms, µs and ns of which it has at
    least one, with as many decimal places as it takes. -/
def text (duration : Duration) : String :=
  let nanos := duration.nanos
  let count (unit : Nat) : String := s!"{nanos / unit}{fractionText unit (nanos % unit)}"
  if 1000000000 ≤ nanos then s!"{count 1000000000}s"
  else if 1000000 ≤ nanos then s!"{count 1000000}ms"
  else if 1000 ≤ nanos then s!"{count 1000}µs"
  else s!"{nanos}ns"

/-- One duration after another. -/
def add (first second : Duration) : Except Fault Duration :=
  ofNanos (first.nanos + second.nanos)

end Duration

end MazeDial

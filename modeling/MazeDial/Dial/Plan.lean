import MazeDial.Dial.Scene
import MazeDial.Dial.Settings
import MazeDial.Generation.Placement
import MazeDial.Pattern.Library

/-!
# Plans

Which patterns make up a scene, and where they go on the dial. The time of day
is four digits, hours above minutes, preceded on a twelve-hour clock by the sign
of the half of the day. Minutes are counted from the start of 1970 in local time
and never run below zero.
-/

namespace MazeDial

/-- The local minute of a clock reading, at an offset from universal time in
    minutes; before the start of 1970 it is zero. -/
def localMinute (reading : Duration) (utcOffset : Int32) : Nat :=
  (((reading.seconds / 60 : Nat) : Int) + utcOffset.toInt).toNat

/-- The hours of a local minute. -/
def hourOf (minute : Nat) : Nat := minute / 60 % 24

/-- An hour as a twelve-hour clock shows it: from one to twelve. -/
def twelveHour (hour : Nat) : Nat :=
  if hour % 12 = 0 then 12 else hour % 12

/-- The sign of the half of the day, on a twelve-hour clock. -/
def halfDaySign (clockType : ClockType) (hour : Nat) : List Placement :=
  match clockType with
  | .h24 => []
  | .h12 => [.fixed ⟨18, 15⟩ (if 12 ≤ hour then Pattern.pm else Pattern.am)]

/-- A digit with its corner at a place. -/
def digitAt (origin : Coord) (value : Nat) : Except Fault Placement :=
  (Pattern.digit value).map (.fixed origin)

/-- The placements that show a local minute. -/
def timePlan (clockType : ClockType) (minute : Nat) : Except Fault (List Placement) := do
  let hour := hourOf minute
  let shown := match clockType with
    | .h24 => hour
    | .h12 => twelveHour hour
  let digits ← [(⟨3, 1⟩, shown / 10), (⟨10, 1⟩, shown % 10),
    (⟨3, 13⟩, minute % 60 / 10), (⟨10, 13⟩, minute % 60 % 10)].mapM fun (origin, value) =>
      digitAt origin value
  return halfDaySign clockType hour ++ digits

/-- The placements of a scene at a local minute. -/
def Scene.plan (scene : Scene) (clockType : ClockType) (minute : Nat) :
    Except Fault (List Placement) :=
  match scene with
  | .watchFace => timePlan clockType minute
  | .blank => .ok [.scattered Pattern.blank 0 20 3 20]
  | .heart => .ok [.fixed ⟨2, 4⟩ Pattern.heart]
  | .smiley => .ok [.fixed ⟨2, 4⟩ Pattern.smiley]
  | .rocket => .ok [.fixed ⟨6, 5⟩ Pattern.rocket]

end MazeDial

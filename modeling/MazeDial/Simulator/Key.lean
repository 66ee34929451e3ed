import MazeDial.Dial.Gesture

/-!
# Keys

The keys of the simulator's keyboard and what each of them does.
-/

namespace MazeDial

/-- A key. -/
inductive Key where
  | char (symbol : Char)
  | escape
  | enter
  | up
  | right
  | down
  | left
  /-- Any key without a meaning here. -/
  | other
  deriving DecidableEq, Repr

/-- What a key does. -/
inductive Action where
  | touch (event : Touch)
  | button
  | quit
  deriving DecidableEq, Repr

namespace Key

/-- What a key does, if anything. -/
def action : Key → Option Action
  | .escape => some .quit
  | .char 'q' => some .quit
  | .enter => some (.touch .longTap)
  | .char 'l' => some (.touch .longTap)
  | .char ' ' => some (.touch .tap)
  | .char 'b' => some .button
  | .up => some (.touch (.swipe .up))
  | .right => some (.touch (.swipe .right))
  | .down => some (.touch (.swipe .down))
  | .left => some (.touch (.swipe .left))
  | _ => none

/-- The first key of what a terminal sends, and the rest. Arrow keys are sent as
    an escape sequence of three characters; an escape that starts none is the
    escape key. -/
def read : List Char → Option (Key × List Char)
  | [] => none
  | '\x1b' :: '[' :: 'A' :: rest => some (.up, rest)
  | '\x1b' :: '[' :: 'B' :: rest => some (.down, rest)
  | '\x1b' :: '[' :: 'C' :: rest => some (.right, rest)
  | '\x1b' :: '[' :: 'D' :: rest => some (.left, rest)
  | '\x1b' :: rest => some (.escape, rest)
  | '\r' :: rest => some (.enter, rest)
  | symbol :: rest => some (.char symbol, rest)

end Key

end MazeDial

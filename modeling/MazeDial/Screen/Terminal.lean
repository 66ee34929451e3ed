import MazeDial.Screen.Picture

/-!
# Terminals

What is written to a text terminal, as escape sequences and text. Of the
terminal itself only its size, whether it is in raw mode, and how often it has
been set up are kept: each setup leaves a guard behind that cleans up when the
program crashes.
-/

namespace MazeDial

/-- A text terminal. -/
structure Terminal where
  columns : UInt16
  rows : UInt16
  rawMode : Bool
  guards : Nat
  deriving DecidableEq, Repr

namespace Terminal

/-- A terminal of some size, as it is found. -/
def ofSize (columns rows : UInt16) : Terminal :=
  ⟨columns, rows, false, 0⟩

/-- Clears the screen and puts the cursor in the top-left corner. -/
def clearText : String := "\x1b[2J\x1b[1;1H"

/-- Enters the second screen, clears it and hides the cursor. -/
def enterText : String := "\x1b[?1049h\x1b[2J\x1b[?25l\x1b[1;1H"

/-- Leaves the second screen and shows the cursor. -/
def leaveText : String := "\x1b[?1049l\x1b[?25h"

/-- Text in one of the terminal's colours. -/
def colored (color : String) (text : String) : String :=
  s!"\x1b[38;5;{color}m{text}\x1b[39m"

/-- Text in bold and in one of the terminal's colours. -/
def bold (color : String) (text : String) : String :=
  s!"\x1b[38;5;{color}m\x1b[1m{text}\x1b[0m"

/-- The width that a maze needs, in columns. Each unit takes two. -/
def neededColumns (maze : Maze) : UInt16 :=
  (maze.size.width.toUInt16 * 2 + 1) * 2

/-- The height that a maze needs, with a line for the status. -/
def neededRows (maze : Maze) : UInt16 :=
  maze.size.height.toUInt16 * 2 + 2

/-- Whether a maze can be drawn. -/
def hasRoomFor (terminal : Terminal) (maze : Maze) : Bool :=
  neededColumns maze ≤ terminal.columns && neededRows maze ≤ terminal.rows

/-- What is said when a maze cannot be drawn. -/
def tooSmallMessage (terminal : Terminal) (maze : Maze) : String :=
  s!"Terminal size is too small ({terminal.columns}x{terminal.rows}) to draw the maze " ++
    s!"({neededColumns maze}x{neededRows maze}). Please resize the terminal.\r\n"

/-- What is written to draw a maze that there is room for. -/
def drawingText (maze : Maze) (status : String) : String :=
  clearText ++ String.join (maze.picture.map fun line => colored "15" line ++ "\r\n") ++
    bold "12" status

/-- Draws a maze with a status line below it, if there is room. -/
def draw (terminal : Terminal) (maze : Maze) (status : String) : Bool × String :=
  if terminal.hasRoomFor maze then (true, drawingText maze status)
  else (false, clearText ++ bold "11" (terminal.tooSmallMessage maze))

/-- Takes the terminal over. -/
def enter (terminal : Terminal) : Terminal × String :=
  ({ terminal with rawMode := true, guards := terminal.guards + 1 }, enterText)

/-- Gives the terminal back. -/
def leave (terminal : Terminal) : Terminal × String :=
  ({ terminal with rawMode := false }, leaveText)

/-- What the guards do in a crash: each gives the terminal back. -/
def crash (terminal : Terminal) : Terminal × String :=
  ({ terminal with rawMode := terminal.rawMode && terminal.guards == 0 },
    String.join (List.replicate terminal.guards leaveText))

end Terminal

end MazeDial

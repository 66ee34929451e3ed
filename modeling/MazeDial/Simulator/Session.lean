import MazeDial.Dial.Basic
import MazeDial.Screen.Terminal
import MazeDial.Simulator.Key

/-!
# Sessions

A session is a dial on a terminal. It takes the terminal over, then for each
round handles a key if one was pressed and refreshes the dial, drawing the maze
when one is finished, and in the end gives the terminal back. Everything written
to the terminal is answered as text.
-/

namespace MazeDial

/-- A dial on a terminal. -/
structure Session (κ σ : Type) where
  dial : Dial κ σ
  terminal : Terminal

namespace Session

variable {κ σ : Type}

/-- Sets up a dial on a terminal. -/
def start (settings : Settings) (clock : κ) (source : σ) (terminal : Terminal) :
    Except Fault (Session κ σ × String) := do
  let dial ← Dial.new clock settings source
  let (terminal, written) := terminal.enter
  return (⟨dial, terminal⟩, written)

/-- Gives the terminal back. -/
def finish (session : Session κ σ) : String :=
  session.terminal.leave.2

/-- The line below the maze. -/
def status (session : Session κ σ) : String :=
  s!"{session.dial.scene.name} | Enter: long tap, arrows: swipe, b: button, q: quit"

variable [RandomSource σ] [Clock κ]

/-- Handles a key. There is no session after the key that quits. -/
def press (session : Session κ σ) (key : Key) : Logged (Option (Session κ σ)) := do
  match key.action with
  | none => return some session
  | some .quit => return none
  | some .button => return some { session with dial := session.dial.button.2 }
  | some (.touch event) =>
    let (_, dial) ← session.dial.touch event
    return some { session with dial := dial }

/-- Refreshes the dial and draws the maze if one is finished. -/
def refresh (effort : Nat) (session : Session κ σ) : Logged (Session κ σ × String) := do
  let status := session.status
  let (maze, dial) ← session.dial.refresh effort
  let written := match maze with
    | none => ""
    | some maze => (session.terminal.draw maze status).2
  return ({ session with dial := dial }, written)

end Session

end MazeDial

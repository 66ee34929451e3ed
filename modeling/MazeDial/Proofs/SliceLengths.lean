import MazeDial.Proofs.Reports
import MazeDial.Proofs.Resuming
import MazeDial.Proofs.Strokes

/-!
# How long a slice is

A clock that ticks at every reading measures a slice in paths. The reading that the deadline
is taken from moves the clock on by a tick, and so does the question after each path; so the
question after a path is answered at as many ticks past the first reading as paths have been
completed. The slice stops at the first path for which these are more than the budget, and
that is one path more than whole ticks fit in the budget. A slice that carving ends before
has completed fewer. If the clock stands still, the question is never answered with yes.
-/

namespace MazeDial

namespace ManualClock

variable {clock after : ManualClock}

end ManualClock

section Carve

variable {σ τ : Type} [RandomSource σ] {expired : τ → Except Fault (Bool × τ)} {maze : Maze}
  {source : σ} {progress : Progress} {timer : τ} {slice : Slice σ τ}

end Carve

section Effort

variable {σ : Type} [RandomSource σ]

end Effort

namespace Generator

section Step

variable {σ κ : Type} [RandomSource σ] [Clock κ] {generator next : Generator σ} {effort : Nat}
  {clock after : κ}

end Step

section Ticks

variable {clock read after : ManualClock} {now deadline budget : Duration} {answers : List Bool}

end Ticks

variable {σ : Type} [RandomSource σ]

/-- What a clock allows a step of a cycle. It ends the step's slice after one path more than
    whole ticks fit in the budget; a step that finishes the cycle has completed fewer; and a
    clock that stands still lets the step finish it. -/
structure KeepsTo (clock : ManualClock) (budget : Duration) (count : Nat) (ending : Phase) :
    Prop where
  stopped : 0 < clock.tick.nanos → ending = .carving →
    count = budget.nanos / clock.tick.nanos + 1
  finished : 0 < clock.tick.nanos → ending = .done → count ≤ budget.nanos / clock.tick.nanos
  unhurried : clock.tick.nanos = 0 → ending = .done

end Generator

end MazeDial

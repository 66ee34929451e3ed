/-!
# Phases

Where a generation cycle stands.
-/

namespace MazeDial

/-- The phase of a generation cycle. -/
inductive Phase where
  /-- No cycle is under way and no maze waits to be collected. -/
  | idle
  /-- Paths are being carved, perhaps over several slices. -/
  | carving
  /-- Every cell is carved; separate regions are about to be joined. -/
  | repairing
  /-- The maze is finished and waits to be collected. -/
  | done
  deriving DecidableEq, Repr

namespace Phase

/-- The name of a phase. -/
def name : Phase → String
  | .idle => "Idle"
  | .carving => "Carving"
  | .repairing => "Repairing"
  | .done => "Done"

/-- Whether a cycle has been started and not finished. -/
def isGenerating : Phase → Bool
  | .carving => true
  | .repairing => true
  | .idle => false
  | .done => false

end Phase

end MazeDial

import MazeDial.Main
import MazeDial.Maze.Access
import MazeDial.Text.Lines
import MazeDial.Proofs.Board
import MazeDial.Proofs.Walls
import MazeDial.Proofs.Passages
import MazeDial.Proofs.Growth
import MazeDial.Proofs.Words
import MazeDial.Proofs.Draws
import MazeDial.Proofs.Trail
import MazeDial.Proofs.Walk
import MazeDial.Proofs.Paths
import MazeDial.Proofs.Carving
import MazeDial.Proofs.Boundaries
import MazeDial.Proofs.Flooding
import MazeDial.Proofs.Stamping
import MazeDial.Proofs.Forest
import MazeDial.Proofs.Steps
import MazeDial.Proofs.Cycles
import MazeDial.Proofs.Strokes
import MazeDial.Proofs.DialCalls
import MazeDial.Proofs.Histories
import MazeDial.Proofs.Plans
import MazeDial.Proofs.Reports
import MazeDial.Proofs.Scripts
import MazeDial.Proofs.Upkeep
import MazeDial.Proofs.Rollovers
import MazeDial.Proofs.DoubleTaps
import MazeDial.Proofs.Components
import MazeDial.Proofs.Regions
import MazeDial.Proofs.LoopErasure
import MazeDial.Proofs.Refusals
import MazeDial.Proofs.Joining
import MazeDial.Proofs.Resuming
import MazeDial.Proofs.Escapes
import MazeDial.Proofs.Budgets
import MazeDial.Proofs.Imprints
import MazeDial.Proofs.SliceLengths
import MazeDial.Proofs.DrawnPassages
import MazeDial.Proofs.SwipeCodes
import MazeDial.Proofs.TimesOfDay
import MazeDial.Proofs.Searches
import MazeDial.Proofs.FloodPasses
import MazeDial.Proofs.Tables
import MazeDial.Proofs.Retreats
import MazeDial.Proofs.Drawings
import MazeDial.Proofs.Starts
import MazeDial.Proofs.WordSources

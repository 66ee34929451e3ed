import MazeDial.Proofs.Stamping
import MazeDial.Proofs.Walk
import Mathlib.Data.List.DropRight

/-!
# Walks without their loops

The loop erasure of a walk, as it is defined without regard to how it is found: it
starts where the walk does, leaves each place where the walk leaves it for the last
time, and ends where the walk ends. A walk through a maze erases a loop as soon as it
has closed it. Going on by one place does the same to the erasure of a walk as to the
trail of it, so that the two are the same list, read from either end.

A carved path is therefore the loop erasure of the way its cursor took, and of this way
nothing else is left: the walls that were taken out along a loop stand again, and its
cells are empty again.
-/

namespace MazeDial

/-- The loop erasure of a walk. From each place it goes on as the walk does after its last
    visit there. -/
def loopErasure : List Coord → List Coord
  | [] => []
  | place :: rest => place :: loopErasure (rest.rtakeWhile fun later => later != place)
termination_by walk => walk.length
decreasing_by
  have shorter := (List.rtakeWhile_suffix (fun later => later != place) rest).length_le
  rw [List.length_cons]
  omega

/-- A rewound trail keeps what came before the part it is rewound in. -/
theorem rewind_append {target : Coord} {trail : List Coord} (member : target ∈ trail)
    (earlier : List Coord) : rewind target (trail ++ earlier) = rewind target trail ++ earlier := by
  induction trail with
  | nil => exact absurd member List.not_mem_nil
  | cons place rest inductionHypothesis =>
    by_cases same : place = target
    · simp [rewind, same]
    · have later : target ∈ rest := (List.mem_cons.mp member).resolve_left (Ne.symm same)
      simp only [List.cons_append, rewind, same, if_false, inductionHypothesis later]

/-- A trail that does not come back to its first place advances without it. -/
theorem advance_concat {next place : Coord} (apart : next ≠ place) (trail : List Coord) :
    advance (trail ++ [place]) next = advance trail next ++ [place] := by
  by_cases member : next ∈ trail
  · simp [advance, member, rewind_append]
  · simp [advance, member, apart]

/-- A trail that comes back to its first place starts anew. -/
theorem advance_first {place : Coord} {trail : List Coord} (absent : place ∉ trail) :
    advance (trail ++ [place]) place = [place] := by
  have rewound : rewind place (trail ++ [place]) = [place] := by
    induction trail with
    | nil => simp [rewind]
    | cons latest rest inductionHypothesis =>
      rw [List.mem_cons, not_or] at absent
      simp only [List.cons_append, rewind, Ne.symm absent.1, if_false,
        inductionHypothesis absent.2]
  rw [advance, if_pos (List.mem_append_right _ List.mem_cons_self), rewound]

/-- The loop erasure of a walk visits only places of the walk. -/
theorem mem_of_mem_loopErasure {walk : List Coord} {place : Coord}
    (member : place ∈ loopErasure walk) : place ∈ walk := by
  fun_induction loopErasure walk with
  | case1 => exact member
  | case2 first rest inductionHypothesis =>
    rcases List.mem_cons.mp member with rfl | later
    · exact List.mem_cons_self
    · exact List.mem_cons_of_mem _
        ((List.rtakeWhile_suffix _ _).subset (inductionHypothesis later))

/-- When a walk goes on by a place, its loop erasure advances like a trail: it is cut off
    where it visits the place, if it does, and goes on to it otherwise. -/
theorem loopErasure_concat (walk : List Coord) (next : Coord) :
    (loopErasure (walk ++ [next])).reverse = advance (loopErasure walk).reverse next := by
  fun_induction loopErasure walk with
  | case1 => simp [loopErasure, advance]
  | case2 place rest inductionHypothesis =>
    rw [List.cons_append, loopErasure, List.reverse_cons, List.reverse_cons]
    by_cases same : next = place
    · subst same
      have absent : next ∉ (loopErasure (rest.rtakeWhile fun later => later != next)).reverse := by
        intro member
        have visited := mem_of_mem_loopErasure (List.mem_reverse.mp member)
        simpa using List.mem_rtakeWhile_imp visited
      rw [List.rtakeWhile_concat_neg _ _ _ (by simp), advance_first absent, loopErasure]
      rfl
    · rw [List.rtakeWhile_concat_pos _ _ _ (by simpa using same), inductionHypothesis,
        advance_concat same]

/-- The trail of a walk is its loop erasure, the latest place first. -/
theorem reverse_loopErasure (walk : List Coord) :
    (loopErasure walk).reverse = walk.foldl advance [] := by
  induction walk using List.reverseRecOn with
  | nil => simp [loopErasure]
  | append_singleton walk next inductionHypothesis =>
    rw [loopErasure_concat, inductionHypothesis, List.foldl_concat]

/-- On a trail without repetitions, the places joined are those that follow each other. -/
theorem adj_trailGraph_iff {trail : List Coord} (distinct : trail.Nodup) {place other : Coord} :
    (trailGraph trail).Adj place other ↔
      [place, other] <:+: trail ∨ [other, place] <:+: trail := by
  induction trail with
  | nil => simp [trailGraph]
  | cons latest rest inductionHypothesis =>
    cases rest with
    | nil => simp [trailGraph, List.infix_cons_iff]
    | cons earlier rest =>
      obtain ⟨absent, distinctRest⟩ := List.nodup_cons.mp distinct
      have apart : latest ≠ earlier := fun same => absent (same ▸ List.mem_cons_self)
      have first_or_later (one two : Coord) : [one, two] <:+: latest :: earlier :: rest ↔
          one = latest ∧ two = earlier ∨ [one, two] <:+: earlier :: rest := by
        rw [List.infix_cons_iff, List.cons_prefix_cons, List.cons_prefix_cons]
        simp only [List.nil_prefix, and_true]
      rw [trailGraph, SimpleGraph.sup_adj, SimpleGraph.edge_adj, inductionHypothesis distinctRest,
        first_or_later, first_or_later]
      grind

/-- A maze in which the cells of a list have been carved one after another. The walls
    between cells that follow each other are down; all cells but the last, which was
    there before, are not empty any more and marked as visited. Every other wall and every
    other flag is as it was. -/
structure Maze.CarvedAlong (base : Maze) (cells : List Coord) (maze : Maze) : Prop where
  size_eq : maze.size = base.size
  down : ∀ place side, [place, place.step side] <:+: cells ∨ [place.step side, place] <:+: cells →
    maze.wall place side = false
  kept : ∀ place side,
    ¬ ([place, place.step side] <:+: cells ∨ [place.step side, place] <:+: cells) →
      maze.wall place side = base.wall place side
  taken : ∀ place ∈ cells.dropLast,
    (maze.get place).empty = false ∧ (maze.get place).visited = true
  others : ∀ place, place ∉ cells.dropLast →
    (maze.get place).empty = (base.get place).empty ∧
      (maze.get place).visited = (base.get place).visited

namespace Joins

variable {σ : Type} {base : Maze} {trail cells : List Coord} {path : Path σ}

/-- A completed walk has carved the cells of its trail and the one where it joins. -/
theorem carvedAlong (carvable : Carvable base) (joins : Joins base trail path)
    (along : cells.reverse = path.cursor :: trail) : base.CarvedAlong cells path.maze := by
  have cells_eq : cells = trail.reverse ++ [path.cursor] := by
    rw [← List.reverse_cons, ← along, List.reverse_reverse]
  have backward (place other : Coord) :
      [place, other] <:+: path.cursor :: trail ↔ [other, place] <:+: cells := by
    rw [← along]
    exact @List.reverse_infix _ [other, place] cells
  have consecutive (place other : Coord) : (trailGraph (path.cursor :: trail)).Adj place other ↔
      [place, other] <:+: cells ∨ [other, place] <:+: cells := by
    rw [adj_trailGraph_iff joins.nodup, backward, backward, or_comm]
  have taken (place : Coord) : place ∈ cells.dropLast ↔ place ∈ trail := by
    rw [cells_eq, List.dropLast_concat, List.mem_reverse]
  constructor
  · exact joins.laid.size_eq
  · intro place side following
    rw [Bool.eq_false_iff, ne_eq, joins.laid.wall_iff, consecutive]
    exact fun stands => stands.2 following
  · intro place side apart
    rw [Bool.eq_iff_iff, joins.laid.wall_iff, consecutive, and_iff_left apart]
  · intro place member
    rw [taken] at member
    rw [Bool.eq_false_iff, ne_eq, joins.laid.empty_iff, joins.laid.visited_iff]
    exact ⟨fun still => still.2 member, member⟩
  · intro place absent
    rw [taken] at absent
    constructor
    · rw [Bool.eq_iff_iff, joins.laid.empty_iff, and_iff_left absent]
    · rw [carvable.unvisited, Bool.eq_false_iff, ne_eq, joins.laid.visited_iff]
      exact absent

end Joins

variable {σ : Type} [RandomSource σ] {base : Maze}

/-- A path that is carved from an empty cell of a carvable maze always joins it. The record
    of its walk goes from neighbour to neighbour, from the start to the cell where it joins;
    and the maze it leaves is the one before with the loop erasure of this walk carved, and
    nothing else changed. -/
theorem carvePath_carves_loopErasure (carvable : Carvable base) {strides : Nat} {source : σ}
    {start : Coord} {path : Path σ} (empty : (base.get start).empty = true)
    (carved : carvePath strides base source start = .ok path) :
    path.ending = .joined ∧
      ∃ walk, carveAlong strides base source start = .ok (walk, path) ∧
        walk.head? = some start ∧ walk.getLast? = some path.cursor ∧
        walk.IsChain base.size.grid.Adj ∧ base.CarvedAlong (loopErasure walk) path.maze := by
  rw [carvePath_eq_map] at carved
  rcases carveAlong_joins carvable strides source empty with
    ⟨short, -⟩ | ⟨places, same, walked, linked, joins⟩
  · rw [short] at carved
    cases carved
  · rw [walked] at carved
    obtain rfl : same = path := Except.ok.inj carved
    refine ⟨joins.ending, _, walked, rfl, ?_, linked, joins.carvedAlong carvable ?_⟩
    · rw [← List.cons_append, List.getLast?_concat]
    · have first : advance [] start = [start] := if_neg List.not_mem_nil
      rw [reverse_loopErasure, List.foldl_cons, List.foldl_concat, first]
      exact if_neg (List.nodup_cons.mp joins.nodup).1

/-- A board of nine cells, all empty but the one in the far corner. -/
def cornered : Maze := (Maze.fresh { width := 3, height := 3 }).setEmpty ⟨2, 2⟩ false

/-- There a walk to the far corner closes a loop of four cells, of which nothing is left. -/
theorem carvePath_carves_loopErasure_closing :
    ∃ path : Path KeyStream, carvePath 100 cornered (KeyStream.ofSeed 4) ⟨0, 0⟩ = .ok path ∧
      cornered.CarvedAlong [⟨0, 0⟩, ⟨0, 1⟩, ⟨0, 2⟩, ⟨1, 2⟩, ⟨2, 2⟩] path.maze := by
  have seen : (carveAlong 100 cornered (KeyStream.ofSeed 4) ⟨0, 0⟩).toOption.map Prod.fst =
      some [⟨0, 0⟩, ⟨0, 1⟩, ⟨0, 2⟩, ⟨1, 2⟩, ⟨1, 1⟩, ⟨0, 1⟩, ⟨0, 2⟩, ⟨1, 2⟩, ⟨2, 2⟩] := by
    decide +kernel
  have erased : loopErasure [⟨0, 0⟩, ⟨0, 1⟩, ⟨0, 2⟩, ⟨1, 2⟩, ⟨1, 1⟩, ⟨0, 1⟩, ⟨0, 2⟩, ⟨1, 2⟩,
      ⟨2, 2⟩] = [⟨0, 0⟩, ⟨0, 1⟩, ⟨0, 2⟩, ⟨1, 2⟩, ⟨2, 2⟩] := by
    simp [loopErasure, List.rtakeWhile]
  have carvable : Carvable cornered := Maze.carvable_clearEmpty (carvable_fresh _) _
  have empty : (cornered.get ⟨0, 0⟩).empty = true := by decide +kernel
  cases answered : carveAlong 100 cornered (KeyStream.ofSeed 4) ⟨0, 0⟩ with
  | error fault =>
    rw [answered] at seen
    cases seen
  | ok answer =>
    obtain ⟨walk, path⟩ := answer
    rw [answered] at seen
    obtain rfl := Option.some.inj seen
    have carved := carvePath_eq_map 100 cornered (KeyStream.ofSeed 4) ⟨0, 0⟩
    rw [answered] at carved
    obtain ⟨-, record, recorded, -, -, -, along⟩ :=
      carvePath_carves_loopErasure carvable empty carved
    obtain ⟨rfl, -⟩ := Prod.mk.inj (Except.ok.inj (answered.symm.trans recorded))
    rw [erased] at along
    exact ⟨path, carved, along⟩

end MazeDial

import MazeDial.Proofs.Joining

/-!
# Searches that find what passages lead to

A search is described by the cells it has taken, in the order taken: these and the cells that
wait are the cells it has seen, each once, and passages lead to all of them from the start.
Once its neighbours have been added, everything one passage away from a cell taken has been
seen. So when no cell waits, the cells taken are closed under passages, and they are what
passages lead to from the start.

Cells are taken once, so that none waits after as many steps as the board has cells: the bound
on the steps never cuts a search short.
-/

namespace MazeDial

namespace Maze

namespace Search

variable {size : Size} {search : Search size} {place : Coord}

/-- A place of the board has been seen. -/
def Has (search : Search size) (place : Coord) : Prop :=
  size.Contains place ∧ search.seen[size.index place]? = some true

/-- A place that has been seen is not added again. -/
theorem discover_of_has (seen : search.Has place) : search.discover place = search := by
  obtain ⟨inside, marked⟩ := seen
  have bounded : size.index place < size.area := Size.index_lt inside
  rw [Vector.getElem?_eq_getElem bounded] at marked
  rw [discover, dif_pos inside]
  exact if_pos (Option.some.inj marked)

/-- A place outside the board is never added. -/
theorem discover_of_outside (outside : ¬ size.Contains place) : search.discover place = search := by
  rw [discover, dif_neg outside]

/-- Any other place waits last, and it is the only one that has been seen since. -/
theorem discover_of_new (inside : size.Contains place) (unseen : ¬ search.Has place) :
    (search.discover place).waiting = search.waiting ++ [place] ∧
      (search.discover place).reached = search.reached ∧
      ∀ other, (search.discover place).Has other ↔ other = place ∨ search.Has other := by
  have bounded : size.index place < size.area := Size.index_lt inside
  have unmarked : ¬ search.seen[size.index place] = true := by
    intro marked
    exact unseen ⟨inside, by rw [Vector.getElem?_eq_getElem bounded, marked]⟩
  have added : search.discover place =
      { search with
        seen := search.seen.set (size.index place) true bounded
        waiting := search.waiting ++ [place] } := by
    rw [discover, dif_pos inside]
    exact if_neg unmarked
  rw [added]
  refine ⟨rfl, rfl, fun other => ?_⟩
  simp only [Has, Vector.getElem?_set]
  by_cases same : other = place
  · simp [same, inside]
  · by_cases within : size.Contains other
    · have apart : size.index place ≠ size.index other :=
        fun equal => same (Size.index_injective within inside equal.symm)
      simp [same, within, apart]
    · simp [same, within]

end Search

variable {maze : Maze} {start : Coord} {taken : List Coord} {search : Search maze.size}

/-- What a search of a maze has found, with the cells it has taken. -/
structure Finds (maze : Maze) (start : Coord) (taken : List Coord)
    (search : Search maze.size) : Prop where
  begun : start ∈ taken ++ search.waiting
  has_iff : ∀ place, search.Has place ↔ place ∈ taken ++ search.waiting
  nodup : (taken ++ search.waiting).Nodup
  reached : search.reached = taken.length
  reachable : ∀ place ∈ taken ++ search.waiting, maze.graph.Reachable start place

/-- Everything one passage away from some cells is among others. -/
def ClosedIn (maze : Maze) (taken seen : List Coord) : Prop :=
  ∀ place ∈ taken, ∀ other, maze.graph.Adj place other → other ∈ seen

theorem ClosedIn.mono {seen more : List Coord} (closed : maze.ClosedIn taken seen)
    (part : seen ⊆ more) : maze.ClosedIn taken more :=
  fun place member other adjacent => part (closed place member other adjacent)

/-- Passages do not lead out of cells closed under them. -/
theorem ClosedIn.mem_of_reachable {other : Coord} (closed : maze.ClosedIn taken taken)
    (begun : start ∈ taken) (reachable : maze.graph.Reachable start other) : other ∈ taken := by
  rw [SimpleGraph.reachable_iff_reflTransGen] at reachable
  induction reachable with
  | refl => exact begun
  | tail _ adjacent inductionHypothesis => exact closed _ inductionHypothesis _ adjacent

/-- The neighbours listed are those that passages lead to. -/
theorem mem_openNeighbors_iff {place other : Coord} :
    other ∈ maze.openNeighbors place ↔ maze.graph.Adj place other := by
  simp only [openNeighbors, List.mem_map, List.mem_filter, Side.mem_all, true_and, graph]

namespace Finds

/-- A search has seen places of the board only. -/
theorem contains (finds : Finds maze start taken search) {place : Coord}
    (seen : place ∈ taken ++ search.waiting) : maze.size.Contains place :=
  ((finds.has_iff place).mpr seen).1

/-- It has taken at most as many as there are, and those that wait are not among them. -/
theorem length_le (finds : Finds maze start taken search) :
    taken.length + search.waiting.length ≤ maze.size.area := by
  rw [← List.length_append]
  exact Size.length_le_area finds.nodup fun _ => finds.contains

/-- A place that passages lead to is added, unless it has been seen; what waits keeps its
    order. -/
theorem discover (finds : Finds maze start taken search) {place : Coord}
    (inside : maze.size.Contains place) (reachable : maze.graph.Reachable start place) :
    Finds maze start taken (search.discover place) ∧
      search.waiting <+: (search.discover place).waiting ∧
      place ∈ taken ++ (search.discover place).waiting := by
  by_cases seen : search.Has place
  · rw [Search.discover_of_has seen]
    exact ⟨finds, List.prefix_rfl, (finds.has_iff place).mp seen⟩
  · obtain ⟨waiting, reached, has⟩ := Search.discover_of_new inside seen
    have absent : place ∉ taken ++ search.waiting := fun member =>
      seen ((finds.has_iff place).mpr member)
    rw [waiting]
    refine ⟨⟨?_, ?_, ?_, reached.trans finds.reached, ?_⟩, List.prefix_append _ _, by simp⟩
    · rw [waiting, ← List.append_assoc]
      exact List.mem_append_left _ finds.begun
    · intro other
      rw [has, finds.has_iff, waiting]
      simp only [List.mem_append, List.mem_singleton]
      tauto
    · rw [waiting, ← List.append_assoc]
      exact List.nodup_append_comm.mp (List.nodup_cons.mpr ⟨absent, finds.nodup⟩)
    · intro other member
      rw [waiting, ← List.append_assoc, List.mem_append, List.mem_singleton] at member
      rcases member with before | rfl
      · exact finds.reachable other before
      · exact reachable

/-- So are places one after another. -/
theorem discoverAll (finds : Finds maze start taken search) (places : List Coord)
    (inside : ∀ place ∈ places, maze.size.Contains place)
    (reachable : ∀ place ∈ places, maze.graph.Reachable start place) :
    Finds maze start taken (places.foldl Search.discover search) ∧
      search.waiting <+: (places.foldl Search.discover search).waiting ∧
      ∀ place ∈ places, place ∈ taken ++ (places.foldl Search.discover search).waiting := by
  induction places generalizing search with
  | nil => exact ⟨finds, List.prefix_rfl, fun _ member => absurd member List.not_mem_nil⟩
  | cons place rest inductionHypothesis =>
    rw [List.forall_mem_cons] at inside reachable
    obtain ⟨added, kept, seen⟩ := finds.discover inside.1 reachable.1
    obtain ⟨all, later, others⟩ := inductionHypothesis added inside.2 reachable.2
    refine ⟨all, kept.trans later, List.forall_mem_cons.mpr ⟨?_, others⟩⟩
    rcases List.mem_append.mp seen with before | waits
    · exact List.mem_append_left _ before
    · exact List.mem_append_right _ (later.subset waits)

/-- A cell that waits is taken without being seen anew. -/
theorem take {place : Coord} {waiting : List Coord} (finds : Finds maze start taken search)
    (next : search.waiting = place :: waiting) :
    Finds maze start (taken ++ [place])
      { search with waiting := waiting, reached := search.reached + 1 } := by
  have same : (taken ++ [place]) ++ waiting = taken ++ search.waiting := by
    rw [next, List.append_assoc, List.singleton_append]
  refine ⟨same ▸ finds.begun, fun other => ?_, same ▸ finds.nodup, ?_, same ▸ finds.reachable⟩
  · rw [same]
    exact finds.has_iff other
  · rw [List.length_append, List.length_singleton, finds.reached]

/-- After a step the neighbours of the cell taken have been seen, and what had been seen still
    has. -/
theorem step {place : Coord} {waiting : List Coord} (finds : Finds maze start taken search)
    (closed : maze.ClosedIn taken (taken ++ search.waiting))
    (next : search.waiting = place :: waiting) :
    let stepped := (maze.openNeighbors place).foldl Search.discover
      { search with waiting := waiting, reached := search.reached + 1 }
    Finds maze start (taken ++ [place]) stepped ∧
      maze.ClosedIn (taken ++ [place]) ((taken ++ [place]) ++ stepped.waiting) := by
  intro stepped
  have came : maze.graph.Reachable start place :=
    finds.reachable place (by rw [next]; exact List.mem_append_right _ List.mem_cons_self)
  have near {other : Coord} (listed : other ∈ maze.openNeighbors place) :
      maze.graph.Adj place other := mem_openNeighbors_iff.mp listed
  obtain ⟨found, kept, neighbors⟩ := (finds.take next).discoverAll (maze.openNeighbors place)
    (fun other listed => (graph_le_grid maze (near listed)).2.1)
    (fun other listed => came.trans (near listed).reachable)
  refine ⟨found, ?_⟩
  intro first member other adjacent
  -- What was seen from the cells taken before may have been the cell taken now.
  rcases List.mem_append.mp member with before | here
  · have seen := closed first before other adjacent
    rw [next, ← List.singleton_append, ← List.append_assoc] at seen
    rcases List.mem_append.mp seen with among | waits
    · exact List.mem_append_left _ among
    · exact List.mem_append_right _ (kept.subset waits)
  · obtain rfl := List.mem_singleton.mp here
    exact neighbors other (mem_openNeighbors_iff.mpr adjacent)

/-- With steps for the cells not yet taken, a search goes on until none waits, and the cells
    taken are closed under passages then. -/
theorem run {steps : Nat} (finds : Finds maze start taken search)
    (closed : maze.ClosedIn taken (taken ++ search.waiting))
    (enough : maze.size.area ≤ steps + taken.length) :
    ∃ last, Finds maze start last (Search.run maze steps search) ∧
      (Search.run maze steps search).waiting = [] ∧ maze.ClosedIn last last := by
  induction steps generalizing taken search with
  | zero =>
    have none : search.waiting = [] := by
      have most := finds.length_le
      exact List.eq_nil_of_length_eq_zero (by omega)
    rw [none, List.append_nil] at closed
    exact ⟨taken, finds, none, closed⟩
  | succ steps inductionHypothesis =>
    rw [Search.run]
    cases next : search.waiting with
    | nil =>
      rw [next, List.append_nil] at closed
      exact ⟨taken, finds, next, closed⟩
    | cons place waiting =>
      obtain ⟨found, closed⟩ := finds.step closed next
      apply inductionHypothesis found closed
      rw [List.length_append, List.length_singleton]
      omega

/-- When none waits, the cells taken are what passages lead to. -/
theorem reachable_eq (finds : Finds maze start taken search) (none : search.waiting = [])
    (closed : maze.ClosedIn taken taken) :
    {place | maze.graph.Reachable start place} = {place | place ∈ taken} := by
  have begun := finds.begun
  have reachable := finds.reachable
  rw [none, List.append_nil] at begun reachable
  ext place
  exact ⟨closed.mem_of_reachable begun, reachable place⟩

end Finds

/-- The search that starts at a place. -/
def searchFrom (maze : Maze) (start : Coord) : Search maze.size :=
  (⟨Vector.replicate _ false, [], 0⟩ : Search maze.size).discover start

theorem reachableFrom_eq (maze : Maze) (start : Coord) :
    maze.reachableFrom start =
      (Search.run maze maze.size.area (maze.searchFrom start)).reached := rfl

/-- On the board it has found its start. -/
theorem finds_searchFrom (inside : maze.size.Contains start) :
    Finds maze start [] (maze.searchFrom start) := by
  have blank (place : Coord) :
      ¬ (⟨Vector.replicate _ false, [], 0⟩ : Search maze.size).Has place := by
    rintro ⟨within, marked⟩
    simp [Vector.getElem?_replicate] at marked
  obtain ⟨waiting, reached, has⟩ := Search.discover_of_new inside (blank start)
  have only : [] ++ (maze.searchFrom start).waiting = [start] := waiting
  refine ⟨?_, ?_, ?_, reached, ?_⟩
  · exact only ▸ List.mem_cons_self
  · intro place
    rw [only, List.mem_singleton]
    exact (has place).trans (or_iff_left (blank place))
  · exact only ▸ List.nodup_singleton start
  · rw [only]
    intro place member
    rw [List.mem_singleton.mp member]

/-- Outside the board it has nothing to take. -/
theorem run_searchFrom_outside (outside : ¬ maze.size.Contains start) (steps : Nat) :
    (Search.run maze steps (maze.searchFrom start)).waiting = [] ∧
      (Search.run maze steps (maze.searchFrom start)).reached = 0 := by
  rw [searchFrom, Search.discover_of_outside outside]
  cases steps with
  | zero => exact ⟨rfl, rfl⟩
  | succ steps => exact ⟨rfl, rfl⟩

/-- No cell waits after as many steps as the board has cells. -/
theorem searchFrom_ends (maze : Maze) (start : Coord) {steps : Nat}
    (enough : maze.size.area ≤ steps) :
    (Search.run maze steps (maze.searchFrom start)).waiting = [] := by
  by_cases inside : maze.size.Contains start
  · obtain ⟨last, -, none, -⟩ := (finds_searchFrom inside).run nofun (by simpa using enough)
    exact none
  · exact (run_searchFrom_outside inside steps).1

/-- A search counts the cells that passages lead to. -/
theorem reachableFrom_eq_ncard (inside : maze.size.Contains start) :
    maze.reachableFrom start = {place | maze.graph.Reachable start place}.ncard := by
  obtain ⟨last, found, none, closed⟩ :=
    (finds_searchFrom inside).run nofun (Nat.le_add_right maze.size.area _)
  have distinct := found.nodup
  rw [none, List.append_nil] at distinct
  rw [found.reachable_eq none closed, ncard_listed distinct, reachableFrom_eq, found.reached]

/-- The search from the corner counts the whole board exactly if every cell can reach every
    other one. -/
theorem isConnected_iff (maze : Maze) : maze.isConnected = true ↔ maze.Whole := by
  have corner := maze.size.contains_corner
  have part : {place | maze.graph.Reachable ⟨0, 0⟩ place} ⊆ maze.size.board :=
    fun place reachable => contains_of_reachable reachable corner
  rw [isConnected, beq_iff_eq, reachableFrom_eq_ncard corner, ← maze.size.ncard_board]
  constructor
  · intro all place other inside otherInside
    have same := Set.eq_of_subset_of_ncard_le part all.ge maze.size.finite_board
    have came : maze.graph.Reachable ⟨0, 0⟩ place := same.ge inside
    have went : maze.graph.Reachable ⟨0, 0⟩ other := same.ge otherInside
    exact came.symm.trans went
  · intro whole
    have same : {place | maze.graph.Reachable ⟨0, 0⟩ place} = maze.size.board :=
      part.antisymm fun place inside => whole _ place corner inside
    rw [same]

/-- The pairs of neighbours on the board without a wall between them. -/
def openPairs (maze : Maze) : Set (Sym2 Coord) :=
  {pair | ∃ place side, maze.size.Contains place ∧ maze.size.Contains (place.step side) ∧
    maze.wall place side = false ∧ s(place, place.step side) = pair}

/-- These are the edges of the graph. -/
theorem edgeSet_eq_openPairs (maze : Maze) : maze.graph.edgeSet = maze.openPairs := by
  ext pair
  constructor
  · induction pair with
    | h place other =>
      intro adjacent
      obtain ⟨side, isOpen, rfl⟩ : maze.graph.Adj place other := adjacent
      obtain ⟨across, down⟩ := isOpen_iff.mp isOpen
      exact ⟨place, side, contains_of_isOpen isOpen, across, down, rfl⟩
  · rintro ⟨place, side, inside, across, down, rfl⟩
    exact (adj_step_iff inside across).mpr down

/-- From a place of the board, a search has nothing left to take after as many steps as the
    board has cells, and counts the cells that lie on ways of passages from there, itself
    included; from a place outside the board it counts none. The search from the corner
    counts all cells exactly if every cell can reach every other one, and the passages
    counted are the pairs of neighbours on the board without a wall between them. -/
theorem searches_count_ways (maze : Maze) :
    (∀ start steps, maze.size.area ≤ steps →
      (Search.run maze steps (maze.searchFrom start)).waiting = []) ∧
    (∀ start, maze.size.Contains start → maze.reachableFrom start =
      {place | Relation.ReflTransGen maze.graph.Adj start place}.ncard) ∧
    (∀ start, ¬ maze.size.Contains start → maze.reachableFrom start = 0) ∧
    (maze.isConnected = true ↔ ∀ place other, maze.size.Contains place →
      maze.size.Contains other → Relation.ReflTransGen maze.graph.Adj place other) ∧
    maze.openEdgeCount = maze.openPairs.ncard := by
  simp only [← SimpleGraph.reachable_iff_reflTransGen]
  refine ⟨fun start _ => maze.searchFrom_ends start, fun _ => reachableFrom_eq_ncard,
    fun _ outside => (run_searchFrom_outside outside _).2, maze.isConnected_iff, ?_⟩
  rw [← edgeSet_eq_openPairs, openEdgeCount_eq_ncard]

/-- On a board with one passage, two cells lie on ways from the corner. -/
theorem searches_count_ways_onePassage :
    onePassage.size.Contains ⟨0, 0⟩ ∧
      {place | Relation.ReflTransGen onePassage.graph.Adj ⟨0, 0⟩ place}.ncard = 2 ∧
      onePassage.openPairs.ncard = 1 ∧ onePassage.isConnected = false := by
  have inside : onePassage.size.Contains ⟨0, 0⟩ := by decide
  obtain ⟨-, counts, -, -, edges⟩ := searches_count_ways onePassage
  have two : onePassage.reachableFrom ⟨0, 0⟩ = 2 := by decide +kernel
  have one : onePassage.openEdgeCount = 1 := by decide +kernel
  have torn : onePassage.isConnected = false := by decide +kernel
  exact ⟨inside, (counts _ inside).symm.trans two, edges.symm.trans one, torn⟩

end Maze

end MazeDial

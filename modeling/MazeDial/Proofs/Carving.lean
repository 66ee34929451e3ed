import MazeDial.Proofs.Paths
import MazeDial.Proofs.Walk
import Mathlib.Logic.Relation

/-!
# Carving as growth

A completed path has joined its cells to the maze one after another, from the
place where it met the maze back to its start: each of them had no passage until
then. So carving attaches single cells, and never joins two parts of the maze or
closes a loop. This survives any number of paths, and with it how they are
distributed over calls.

A maze with empty cells only is given a root first. The root then is a cell like
those that were never empty, and all others are attached.
-/

namespace MazeDial

open SimpleGraph

/-- A trail of vertices without edges is attached to a vertex off the trail, the
    latest place first. -/
theorem sprouting_trailGraph {graph : SimpleGraph Coord} {joint : Coord} {trail : List Coord}
    (distinct : (joint :: trail).Nodup) (bare : ∀ place ∈ trail, graph.IsIsolated place) :
    Sprouting graph trail.reverse (graph ⊔ trailGraph (joint :: trail)) := by
  induction trail generalizing graph joint with
  | nil =>
    have alone : trailGraph [joint] = ⊥ := rfl
    rw [alone, sup_bot_eq]
    exact .start
  | cons latest rest inductionHypothesis =>
    obtain ⟨absent, distinctRest⟩ := List.nodup_cons.mp distinct
    have apart : latest ≠ joint := by
      intro same
      exact absent (same ▸ List.mem_cons_self)
    have attached : Sprouting graph [latest] (graph ⊔ edge latest joint) :=
      .sprout .start (bare latest List.mem_cons_self) apart
    have stillBare : ∀ place ∈ rest, (graph ⊔ edge latest joint).IsIsolated place := by
      rintro place member other (before | new)
      · exact bare place (List.mem_cons_of_mem _ member) other before
      · rcases ((edge_adj ..).mp new).1 with ⟨rfl, -⟩ | ⟨rfl, -⟩
        · exact (List.nodup_cons.mp distinctRest).1 member
        · exact absent (List.mem_cons_of_mem _ member)
    have further := attached.trans (inductionHypothesis distinctRest stillBare)
    rwa [sup_assoc, edge_comm, ← List.reverse_cons, ← trailGraph] at further

/-- What carving has done to a carvable maze: it attached the listed cells, all of them
    empty before, and the maze can still be carved. -/
structure Carves (base : Maze) (attached : List Coord) (after : Maze) : Prop where
  size_eq : after.size = base.size
  carvable : Carvable after
  grown : Sprouting base.graph attached after.graph
  nodup : attached.Nodup
  wasEmpty : ∀ place ∈ attached, (base.get place).empty = true
  empty_iff : ∀ place, (after.get place).empty = true ↔
    (base.get place).empty = true ∧ place ∉ attached

namespace Carves

variable {base middle after : Maze} {attached further : List Coord}

protected theorem refl (carvable : Carvable base) : Carves base [] base where
  size_eq := rfl
  carvable := carvable
  grown := .start
  nodup := List.nodup_nil
  wasEmpty _ member := absurd member List.not_mem_nil
  empty_iff place := by simp

/-- Carving goes on from where it stopped. -/
protected theorem trans (first : Carves base attached middle)
    (second : Carves middle further after) : Carves base (further ++ attached) after where
  size_eq := second.size_eq.trans first.size_eq
  carvable := second.carvable
  grown := first.grown.trans second.grown
  nodup := by
    apply List.nodup_append.mpr
    refine ⟨second.nodup, first.nodup, ?_⟩
    rintro place inFurther _ inAttached rfl
    exact ((first.empty_iff place).mp (second.wasEmpty place inFurther)).2 inAttached
  wasEmpty place member := by
    rcases List.mem_append.mp member with inFurther | inAttached
    · exact ((first.empty_iff place).mp (second.wasEmpty place inFurther)).1
    · exact first.wasEmpty place inAttached
  empty_iff place := by
    rw [second.empty_iff, first.empty_iff, List.mem_append, not_or, and_assoc,
      and_comm (a := place ∉ attached)]

/-- The parts of the maze are joined no further and no less than before. -/
theorem reachable_iff (carves : Carves base attached after) {first second : Coord}
    (firstOccupied : (base.get first).empty = false)
    (secondOccupied : (base.get second).empty = false) :
    after.graph.Reachable first second ↔ base.graph.Reachable first second := by
  have notAttached {place : Coord} (occupied : (base.get place).empty = false) :
      place ∉ attached := by
    intro member
    rw [carves.wasEmpty place member] at occupied
    cases occupied
  exact carves.grown.reachable_iff (notAttached firstOccupied) (notAttached secondOccupied)

/-- Each cell attached opened one passage. -/
theorem openEdgeCount_eq (carves : Carves base attached after) :
    after.openEdgeCount = base.openEdgeCount + attached.length := by
  rw [Maze.openEdgeCount_eq_ncard, Maze.openEdgeCount_eq_ncard]
  exact (carves.grown.linking.ncard_edgeSet base.finite_edgeSet).2

section Full

variable (full : ∀ place, (after.get place).empty = false)

include full

/-- When no cell is empty, all empty cells have been attached. -/
theorem mem_attached_iff (carves : Carves base attached after) (place : Coord) :
    place ∈ attached ↔ (base.get place).empty = true := by
  constructor
  · exact carves.wasEmpty place
  · intro empty
    by_contra absent
    have still := (carves.empty_iff place).mpr ⟨empty, absent⟩
    rw [full] at still
    cases still

theorem length_attached (carves : Carves base attached after) :
    attached.length = base.emptyCells.length := by
  apply List.Perm.length_eq
  apply (List.perm_ext_iff_of_nodup carves.nodup base.emptyCells_nodup).mpr
  intro place
  rw [carves.mem_attached_iff full, Maze.mem_emptyCells]

/-- When no cell is empty, each that was reaches one that was not. -/
theorem reaches_occupied (carves : Carves base attached after) {place : Coord}
    (empty : (base.get place).empty = true) :
    ∃ other, base.size.Contains other ∧ (base.get other).empty = false ∧
      after.graph.Reachable place other := by
  obtain ⟨other, absent, reachable⟩ :=
    carves.grown.rooted ((carves.mem_attached_iff full place).mpr empty)
  have inside : after.size.Contains place := carves.size_eq.symm ▸ Maze.contains_of_empty empty
  refine ⟨other, carves.size_eq ▸ Maze.contains_of_reachable reachable inside, ?_, reachable⟩
  rw [carves.mem_attached_iff full] at absent
  exact Bool.eq_false_iff.mpr absent

end Full

end Carves

variable {σ τ : Type}

/-- A path that has joined the maze attaches the cells of its trail. -/
theorem Joins.carves {base : Maze} {trail : List Coord} {path : Path σ} (carvable : Carvable base)
    (joins : Joins base trail path) : Carves base trail.reverse path.maze.clearVisited := by
  have linked : (path.cursor :: trail).IsChain base.size.grid.Adj := by
    apply List.isChain_cons.mpr
    constructor
    · intro place latest
      have same : some place = some path.previous := latest.symm.trans joins.latest
      exact Option.some.inj same ▸ joins.neighbors
    · exact joins.isTrail.linked
  have graph_eq : path.maze.graph = base.graph ⊔ trailGraph (path.cursor :: trail) :=
    joins.laid.graph_eq (trailGraph_le linked)
  refine ⟨by simp [joins.laid.size_eq], ⟨?_, ?_⟩, ?_, ?_, ?_, ?_⟩
  · intro place
    simp [Maze.get_clearVisited]
  · intro place side empty across
    rw [Maze.get_clearVisited, joins.laid.empty_iff] at empty
    rw [Maze.size_clearVisited, joins.laid.size_eq] at across
    rw [Maze.wall_clearVisited, joins.laid.wall_iff]
    constructor
    · exact carvable.walled place side empty.1 across
    · intro adjacent
      rcases List.mem_cons.mp (mem_of_adj_trailGraph adjacent) with rfl | member
      · exact nomatch joins.carved.symm.trans empty.1
      · exact empty.2 member
  · rw [Maze.graph_clearVisited, graph_eq]
    exact sprouting_trailGraph joins.nodup
      fun place member => carvable.isIsolated (joins.isTrail.empty place member)
  · exact List.nodup_reverse.mpr joins.isTrail.nodup
  · exact fun place member => joins.isTrail.empty place (List.mem_reverse.mp member)
  · intro place
    rw [Maze.get_clearVisited, joins.laid.empty_iff, List.mem_reverse]

variable [RandomSource σ]

section Lawful

variable [LawfulRandomSource σ] {here there : Station σ}

/-- From a carvable maze carving comes to one more path, or to its end when no cell is
    empty. It is never stuck. -/
theorem Takes.carves {turn : Turn σ} (taken : Takes here turn) (carvable : Carvable here.maze) :
    (∃ next attached, turn = .path next ∧ attached ≠ [] ∧
        Carves here.maze attached next.maze) ∨
      ∃ final, turn = .ended .done final ∧ final.maze = here.maze ∧
        ∀ place, (here.maze.get place).empty = false := by
  cases taken with
  | done chosen ended => exact .inr ⟨_, ended, rfl, Maze.carved_of_chooseStart chosen⟩
  | @path start drawn strides path chosen carved followed =>
    have empty := Maze.empty_of_chooseStart chosen
    rcases carvePath_joins carvable strides drawn empty with
      ⟨short, -⟩ | ⟨same, trail, walked, joins⟩
    · rw [carved] at short
      cases short
    · obtain rfl := Except.ok.inj (carved.symm.trans walked)
      rw [Path.turn, joins.ending] at followed
      refine .inl ⟨_, trail.reverse, followed, ?_, joins.carves carvable⟩
      intro none
      have latest := joins.latest
      rw [List.reverse_eq_nil_iff.mp none] at latest
      cases latest

/-- Carving that comes to its end on a carvable maze is done: it leaves the maze as it is,
    and no cell is empty. -/
theorem Takes.ended_done {outcome : Outcome} (taken : Takes here (.ended outcome there))
    (carvable : Carvable here.maze) :
    outcome = .done ∧ there.maze = here.maze ∧ ∀ place, (there.maze.get place).empty = false := by
  rcases taken.carves carvable with ⟨_, _, path, -⟩ | ⟨final, ended, stays, full⟩
  · cases path
  · obtain ⟨done, rfl⟩ := Turn.ended.inj ended
    exact ⟨done, stays, stays ▸ full⟩

/-- Any number of paths attach cells, and each path one at least. -/
theorem Paths.carves {count : Nat} (paths : Paths count here there)
    (carvable : Carvable here.maze) :
    ∃ attached, Carves here.maze attached there.maze ∧ count ≤ attached.length := by
  induction paths with
  | none => exact ⟨[], .refl carvable, Nat.le_refl 0⟩
  | path taken _ inductionHypothesis =>
    rcases taken.carves carvable with ⟨next, attached, same, some, first⟩ | ⟨_, ended, -⟩
    · obtain rfl := Turn.path.inj same
      obtain ⟨further, rest, enough⟩ := inductionHypothesis first.carvable
      refine ⟨further ++ attached, first.trans rest, ?_⟩
      have positive : 0 < attached.length := List.length_pos_iff.mpr some
      rw [List.length_append]
      omega
    · cases ended

omit [LawfulRandomSource σ] in
/-- What planting a root does: nothing where some cell is not empty; else a cell chosen
    like a start is no longer empty. -/
inductive Planted (maze : Maze) (source : σ) (planted : Maze × σ) : Prop
  | unneeded {place : Coord} (inside : maze.size.Contains place)
      (occupied : (maze.get place).empty = false) (same : planted = (maze, source))
  | root {root : Coord} {drawn : σ}
      (vacant : ∀ place, maze.size.Contains place → (maze.get place).empty = true)
      (chosen : maze.chooseStart source = .ok (some root, drawn))
      (same : planted = (maze.setEmpty root false, drawn))

/-- Planting never fails. -/
theorem plantRoot_spec (maze : Maze) (source : σ) :
    ∃ planted, (plantRoot maze source).result = .ok planted ∧ Planted maze source planted := by
  by_cases every : maze.size.coords.all (fun place => (maze.get place).empty) = true
  · have vacant : ∀ place, maze.size.Contains place → (maze.get place).empty = true :=
      fun place inside => List.all_eq_true.mp every place (Size.mem_coords.mpr inside)
    obtain ⟨found, drawn, chosen, none_iff, -⟩ := maze.chooseStart_spec source
    cases found with
    | none =>
      have corner : maze.size.Contains ⟨0, 0⟩ := maze.size.contains_corner
      exact nomatch (none_iff.mp rfl ⟨0, 0⟩).symm.trans (vacant _ corner)
    | some root =>
      refine ⟨(maze.setEmpty root false, drawn), ?_, .root vacant chosen rfl⟩
      rw [plantRoot, if_pos every, Logged.result_bind_eq_ok]
      exact ⟨(some root, drawn), chosen, rfl⟩
  · obtain ⟨place, inside, occupied⟩ := Maze.rooted_iff.mpr every
    refine ⟨(maze, source), ?_, .unneeded inside occupied rfl⟩
    rw [plantRoot_of_rooted ⟨place, inside, occupied⟩]
    rfl

omit [LawfulRandomSource σ] in
/-- A root takes out no wall. -/
theorem Planted.graph_eq {maze : Maze} {source : σ} {planted : Maze × σ}
    (rooted : Planted maze source planted) : planted.1.graph = maze.graph := by
  cases rooted with
  | unneeded _ _ same => rw [same]
  | root _ _ same => rw [same, Maze.graph_setEmpty]

omit [LawfulRandomSource σ] in
theorem Planted.size_eq {maze : Maze} {source : σ} {planted : Maze × σ}
    (rooted : Planted maze source planted) : planted.1.size = maze.size := by
  cases rooted with
  | unneeded _ _ same => rw [same]
  | root _ _ same => rw [same, Maze.size_setEmpty]

omit [LawfulRandomSource σ] in
/-- A root empties no cell. -/
theorem Planted.occupied {maze : Maze} {source : σ} {planted : Maze × σ}
    (rooted : Planted maze source planted) {place : Coord}
    (occupied : (maze.get place).empty = false) : (planted.1.get place).empty = false := by
  cases rooted with
  | unneeded _ _ same => rwa [same]
  | root _ _ same => rw [same, (Maze.flags_clearEmpty _ place).1, occupied, Bool.false_and]

omit [LawfulRandomSource σ] in
/-- A carvable maze with a root is carvable. -/
theorem Planted.carvable {maze : Maze} {source : σ} {planted : Maze × σ}
    (rooted : Planted maze source planted) (carvable : Carvable maze) : Carvable planted.1 := by
  cases rooted with
  | unneeded _ _ same =>
    subst same
    exact carvable
  | root _ _ same =>
    subst same
    exact Maze.carvable_clearEmpty carvable _

/-- Paths from a rooted maze attach cells to it. -/
theorem Paths.carves_planted {count : Nat} {planted : Maze × σ}
    (rooted : (plantRoot here.maze here.source).result = .ok planted)
    (paths : Paths count (here.planted planted) there) (carvable : Carvable here.maze) :
    Planted here.maze here.source planted ∧ ∃ attached, Carves planted.1 attached there.maze := by
  obtain ⟨answer, answered, planting⟩ := plantRoot_spec here.maze here.source
  obtain rfl := Except.ok.inj (rooted.symm.trans answered)
  obtain ⟨attached, carves, -⟩ := paths.carves (planting.carvable carvable)
  exact ⟨planting, attached, carves⟩

/-- A call on a carvable maze pauses or is done; it attaches cells to the rooted maze,
    and when it is done no cell is empty. -/
theorem Calls.carves {outcome : Outcome} (called : Calls here outcome there)
    (carvable : Carvable here.maze) :
    (outcome = .paused ∨ outcome = .done ∧ ∀ place, (there.maze.get place).empty = false) ∧
      ∃ planted attached, Planted here.maze here.source planted ∧
        Carves planted.1 attached there.maze := by
  obtain ⟨planted, count, last, rooted, paths, ends⟩ := called.paths
  obtain ⟨planting, attached, carves⟩ := paths.carves_planted rooted carvable
  rcases ends with ⟨paused, -, rfl⟩ | taken
  · exact ⟨.inl paused, planted, attached, planting, carves⟩
  · obtain ⟨done, stays, full⟩ := taken.ended_done carves.carvable
    rw [← stays] at carves
    exact ⟨.inr ⟨done, full⟩, planted, attached, planting, carves⟩

/-- What `carve` answers on a carvable maze: it pauses or is done, and is never stuck. The
    maze can still be carved, and when carving is done no cell is empty. -/
theorem carve_spec {effort : Nat} {expired : τ → Except Fault (Bool × τ)} {maze : Maze}
    {source : σ} {progress : Progress} {timer : τ} {slice : Slice σ τ} (carvable : Carvable maze)
    (carved : (carve effort expired maze source progress timer).result = .ok slice) :
    (slice.outcome = .paused ∨
      slice.outcome = .done ∧ ∀ place, (slice.maze.get place).empty = false) ∧
      Carvable slice.maze := by
  have called : Calls ⟨maze, source, progress.cursor, progress.previous⟩ slice.outcome
      slice.station := .of_carve carved
  obtain ⟨ends, planted, attached, planting, carves⟩ := called.carves carvable
  exact ⟨ends, carves.carvable⟩

/-- On a fresh maze of four cells one call is done. -/
theorem exists_carve_done_fresh :
    ∃ slice, (carve 1000 (fun timer => .ok (false, timer)) (Maze.fresh { width := 2, height := 2 })
      (KeyStream.ofSeed 0) .initial ()).result = .ok slice ∧ slice.outcome = .done := by
  have seen : (carve 1000 (fun timer => .ok (false, timer))
      (Maze.fresh { width := 2, height := 2 }) (KeyStream.ofSeed 0) .initial
      ()).result.toOption.map (fun slice => slice.outcome) = some .done := by
    decide +kernel
  exact Logged.exists_of_seen seen

/-- Calls until carving no longer pauses carve a carvable maze out: they are done, and
    all empty cells but the root have been attached. -/
theorem CarvesOut.carves {outcome : Outcome} (carved : CarvesOut here outcome there)
    (carvable : Carvable here.maze) :
    outcome = .done ∧ (∀ place, (there.maze.get place).empty = false) ∧
      ∃ planted attached, Planted here.maze here.source planted ∧
        Carves planted.1 attached there.maze := by
  obtain ⟨planted, count, last, rooted, paths, taken⟩ := carved.paths
  obtain ⟨planting, attached, carves⟩ := paths.carves_planted rooted carvable
  obtain ⟨done, stays, full⟩ := taken.ended_done carves.carvable
  rw [← stays] at carves
  exact ⟨done, full, planted, attached, planting, carves⟩

end Lawful

/-- The timers that asking one may lead to. -/
def Asking (expired : τ → Except Fault (Bool × τ)) : τ → τ → Prop :=
  Relation.ReflTransGen fun timer after => ∃ stop, expired timer = .ok (stop, after)

/-- From a station carving comes, after some paths, to a walk that goes on for so many
    directions. -/
inductive Station.Wanders (strides : Nat) (here : Station σ) : Prop
  | after {count : Nat} {there : Station σ} {start : Coord} {drawn : σ}
      (paths : Paths count here there)
      (chosen : there.maze.chooseStart there.source = .ok (some start, drawn))
      (wanders : MazeDial.Wanders strides (there.maze.claim start) drawn start) :
      Station.Wanders strides here

/-- A walk after one more path is a walk after some paths. -/
theorem Takes.wanders {strides : Nat} {here next : Station σ} (taken : Takes here (.path next))
    (wanders : next.Wanders strides) : here.Wanders strides := by
  obtain ⟨paths, chosen, wanders⟩ := wanders
  exact ⟨.path taken paths, chosen, wanders⟩

/-- A call of `carve` runs short of effort: its walks go on for longer, or there may be more
    paths, one for each cell. -/
inductive Station.RunsShort (effort : Nat) (here : Station σ) : Prop
  | walk {planted : Maze × σ} (rooted : (plantRoot here.maze here.source).result = .ok planted)
      (wanders : (here.planted planted).Wanders effort)
  | paths (few : effort ≤ here.maze.size.area)

section Faults

variable [LawfulRandomSource σ] {expired : τ → Except Fault (Bool × τ)} {maze : Maze}
  {source : σ} {progress : Progress} {timer : τ} {fault : Fault}

/-- No more paths are taken from a station than the board has cells. -/
theorem Paths.count_le {count : Nat} {here there : Station σ} (paths : Paths count here there)
    (carvable : Carvable here.maze) : count ≤ here.maze.size.area := by
  obtain ⟨attached, carves, enough⟩ := paths.carves carvable
  have most : attached.length ≤ here.maze.size.area :=
    Size.length_le_area carves.nodup
      fun place member => Maze.contains_of_empty (carves.wasEmpty place member)
  omega

/-- Carving a carvable maze stops without an answer only when all the paths allowed are
    taken, at a walk that goes on for all the directions allowed, or at a fault of a timer
    that it has come to by asking. -/
theorem carvePaths_halts {strides limit paths : Nat} (carvable : Carvable maze)
    (failed : (carvePaths strides expired limit paths maze source progress timer).result =
      .error fault) :
    fault = .unfinished ∧
        ((∃ there, Paths limit ⟨maze, source, progress.cursor, progress.previous⟩ there) ∨
          Station.Wanders strides ⟨maze, source, progress.cursor, progress.previous⟩) ∨
      ∃ asked, Asking expired timer asked ∧ expired asked = .error fault := by
  induction limit generalizing paths maze source progress timer with
  | zero => exact .inl ⟨(Except.error.inj failed).symm, .inl ⟨_, .none⟩⟩
  | succ limit inductionHypothesis =>
    obtain ⟨found, drawn, chosen, -, isEmpty⟩ := maze.chooseStart_spec source
    rw [carvePaths, chosen] at failed
    simp only [Logged.result_bind_eq_error, Logged.result_lift, reduceCtorEq, false_or,
      Except.ok.injEq, exists_eq_left'] at failed
    cases found with
    | none => cases failed
    | some start =>
      rcases carvePath_joins carvable strides drawn (isEmpty start rfl) with
        ⟨short, wanders⟩ | ⟨path, trail, walked, joins⟩
      · simp only [short, Logged.result_bind_eq_error, Logged.result_lift, Except.error.injEq,
          reduceCtorEq, false_and, exists_false, or_false] at failed
        exact .inl ⟨failed.symm, .inr ⟨.none, chosen, wanders⟩⟩
      · have taken : Takes ⟨maze, source, progress.cursor, progress.previous⟩ path.turn :=
          .path chosen walked rfl
        rw [Path.turn, joins.ending] at taken
        simp only [walked, joins.ending, Logged.result_bind_eq_error, Logged.result_lift,
          Logged.result_note, reduceCtorEq, false_or, Except.ok.injEq, exists_eq_left'] at failed
        obtain ⟨-, -, asking | ⟨⟨stop, asked⟩, answered, failed⟩⟩ := failed
        · exact .inr ⟨timer, .refl, asking⟩
        · cases stop with
          | true => cases failed
          | false =>
            rcases inductionHypothesis (joins.carves carvable).carvable failed with
              ⟨short, ⟨there, further⟩ | wanders⟩ | ⟨later, further, unread⟩
            · exact .inl ⟨short, .inl ⟨there, .path taken further⟩⟩
            · exact .inl ⟨short, .inr (taken.wanders wanders)⟩
            · exact .inr ⟨later, .head ⟨false, answered⟩ further, unread⟩

/-- One call of `carve` on a carvable maze stops without an answer only if it runs short of
    effort, or at a fault of a timer that it has come to by asking. -/
theorem carve_halts {effort : Nat} (carvable : Carvable maze)
    (failed : (carve effort expired maze source progress timer).result = .error fault) :
    fault = .unfinished ∧
        Station.RunsShort effort ⟨maze, source, progress.cursor, progress.previous⟩ ∨
      ∃ asked, Asking expired timer asked ∧ expired asked = .error fault := by
  obtain ⟨planted, answered, planting⟩ := plantRoot_spec maze source
  rw [carve, Logged.result_bind_eq_error, answered] at failed
  rcases failed with refused | ⟨_, same, failed⟩
  · cases refused
  · obtain rfl := Except.ok.inj same
    have rooted := planting.carvable carvable
    rcases carvePaths_halts rooted failed with ⟨short, ⟨there, paths⟩ | wanders⟩ | asked
    · exact .inl ⟨short, .paths (planting.size_eq ▸ paths.count_le rooted)⟩
    · exact .inl ⟨short, .walk answered wanders⟩
    · exact .inr asked

/-- Where any effort may be too little and any timer may fail, it does not matter which
    did. -/
theorem carve_fault {effort : Nat} (carvable : Carvable maze)
    (failed : (carve effort expired maze source progress timer).result = .error fault) :
    fault = .unfinished ∨ ∃ asked, expired asked = .error fault := by
  rcases carve_halts carvable failed with ⟨short, -⟩ | ⟨asked, -, unread⟩
  · exact .inl short
  · exact .inr ⟨asked, unread⟩

end Faults

end MazeDial

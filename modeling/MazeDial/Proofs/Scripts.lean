import MazeDial.Proofs.DialCalls
import MazeDial.Proofs.Plans

/-!
# Scripted draws

A script is a source whose numbers are written down beforehand. Nothing says that a
random walk ever comes to the maze; but from every carvable maze there are draws by
which carving comes to its end, and a script can hold them. As long as a cell is empty
and another is not, two such cells are neighbours somewhere; the script names the empty
one as a start and the side that leads to the other, and that path is one cell long.
-/

namespace MazeDial

/-- A source whose numbers are written down: those that are left, and those that it
    starts anew from. Where the script has ended, it goes on with zeros. -/
structure Script (numbers : List Nat) where
  left : List Nat

namespace Script

variable {numbers : List Nat}

/-- The next number, brought between two bounds. -/
def next (least greatest : Nat) (script : Script numbers) : Nat × Script numbers :=
  (max least (min greatest (script.left.headD 0)), ⟨script.left.tail⟩)

instance : RandomSource (Script numbers) where
  seeded _ := ⟨numbers⟩
  byte least greatest script :=
    let (number, script) := script.next least.toNat greatest.toNat
    (number.toUInt8, script)
  index := next

instance : LawfulRandomSource (Script numbers) where
  byte_bounds least greatest script choice := by
    have ordered : least.toNat ≤ greatest.toNat := choice
    have bounded : greatest.toNat < UInt8.size := greatest.toNat_lt
    have small : (script.next least.toNat greatest.toNat).1 < UInt8.size := by
      simp only [next]
      omega
    simp only [RandomSource.byte, UInt8.le_iff_toNat_le, UInt8.toNat_ofNat_of_lt' small]
    simp only [next]
    omega
  index_bounds least greatest script choice _ := by
    simp only [RandomSource.index, next]
    omega

end Script

variable {numbers : List Nat}

/-- A byte that is written down is drawn, if it lies within the bounds. -/
theorem drawByte_script {least greatest byte : UInt8} (lower : least ≤ byte)
    (upper : byte ≤ greatest) (rest : List Nat) :
    drawByte least greatest (⟨byte.toNat :: rest⟩ : Script numbers) = .ok (byte, ⟨rest⟩) := by
  have lower' : least.toNat ≤ byte.toNat := lower
  have upper' : byte.toNat ≤ greatest.toNat := upper
  have within : max least.toNat (min greatest.toNat byte.toNat) = byte.toNat := by omega
  rw [drawByte_ok (UInt8.le_trans lower upper)]
  simp only [RandomSource.byte, Script.next, List.headD_cons, List.tail_cons, within]
  exact congrArg Except.ok (Prod.ext (UInt8.ofNat_toNat) rfl)

/-- An empty cell that is written down is chosen as a start at the first try. -/
theorem Maze.chooseStart_script {maze : Maze} {place : Coord}
    (empty : (maze.get place).empty = true) (rest : List Nat) :
    maze.chooseStart (⟨place.x.toNat :: place.y.toNat :: rest⟩ : Script numbers) =
      .ok (some place, ⟨rest⟩) := by
  obtain ⟨column, row⟩ := contains_of_empty empty
  have most {byte bound : UInt8} (below : byte < bound) : byte ≤ bound - 1 := by grind
  rw [chooseStart, startSamples, sampleStart, drawByte_script UInt8.zero_le (most column)]
  simp only [bind, Except.bind, drawByte_script UInt8.zero_le (most row), empty, if_true]
  rfl

/-- Each side has a number that a direction can be. -/
theorem Side.exists_index (side : Side) : ∃ direction : UInt8, direction ≤ 3 ∧
    Side.ofIndex direction = side := by
  cases side
  · exact ⟨0, by decide, rfl⟩
  · exact ⟨1, by decide, rfl⟩
  · exact ⟨2, by decide, rfl⟩
  · exact ⟨3, by decide, rfl⟩

/-- Where a cell is empty and another is not, two such cells are neighbours. -/
theorem Maze.exists_edge_of_void {maze : Maze} {place other : Coord}
    (empty : (maze.get place).empty = true) (inside : maze.size.Contains other)
    (occupied : (maze.get other).empty = false) :
    ∃ start side, (maze.get start).empty = true ∧ maze.size.Contains (start.step side) ∧
      (maze.get (start.step side)).empty = false := by
  by_contra none
  push Not at none
  have shared (here : Coord) (side : Side) (here_inside : maze.size.Contains here)
      (across : maze.size.Contains (here.step side)) :
      (maze.get here).empty = true ↔ (maze.get (here.step side)).empty = true := by
    constructor
    · intro start
      exact Bool.not_eq_false _ ▸ none here side start across
    · intro start
      have back := none (here.step side) side.opposite start
      rw [step_opposite across] at back
      exact Bool.not_eq_false _ ▸ back here_inside
  have same := @shared_of_step maze.size (fun here => (maze.get here).empty = true) shared _ _
    (contains_of_empty empty) inside
  simp [empty, occupied] at same

/-- An empty cell can be attached to a neighbour that is not empty by one direction. -/
theorem exists_direction {maze : Maze} (carvable : Carvable maze) {place : Coord} {side : Side}
    (empty : (maze.get place).empty = true) (across : maze.size.Contains (place.step side))
    (occupied : (maze.get (place.step side)).empty = false) :
    ∃ (direction : UInt8) (after : Maze), Carves maze [place] after.clearVisited ∧
      ∀ numbers strides rest, carvePath (strides + 1) maze
        (⟨direction.toNat :: rest⟩ : Script numbers) place =
          .ok ⟨after, ⟨rest⟩, place, place.step side, .joined⟩ := by
  obtain ⟨direction, small, named⟩ := side.exists_index
  have walking := Walking.claim carvable empty
  have breachable : (maze.claim place).isBreachable place side = true := by
    have standing : (maze.claim place).wall place side = true := by
      rw [Maze.wall_claim]
      exact carvable.walled place side empty across
    simp [Maze.isBreachable, standing, across]
  obtain ⟨after, strode, joined⟩ := Maze.stride_join walking.isTrail walking.laid breachable occupied
  have joins : Joins maze [place]
      (⟨after, (⟨[]⟩ : Script []), place, place.step side, .joined⟩ : Path (Script [])) :=
    ⟨walking.isTrail, rfl, .symm ⟨walking.inside, across, side, rfl⟩, occupied, rfl, joined⟩
  refine ⟨direction, after, joins.carves carvable, ?_⟩
  intro numbers strides rest
  rw [carvePath, walkOn, drawByte_script UInt8.zero_le small]
  simp only [named, strode]

/-- What was attached is no longer empty. -/
theorem Carves.length_emptyCells {base after : Maze} {attached : List Coord}
    (carves : Carves base attached after) :
    base.emptyCells.length = after.emptyCells.length + attached.length := by
  have split : base.emptyCells.Perm (after.emptyCells ++ attached) := by
    apply (List.perm_ext_iff_of_nodup base.emptyCells_nodup _).mpr
    · intro place
      rw [List.mem_append, Maze.mem_emptyCells, Maze.mem_emptyCells, carves.empty_iff]
      constructor
      · intro empty
        by_cases member : place ∈ attached
        · exact .inr member
        · exact .inl ⟨empty, member⟩
      · rintro (⟨empty, -⟩ | member)
        · exact empty
        · exact carves.wasEmpty place member
    · apply List.nodup_append.mpr
      refine ⟨after.emptyCells_nodup, carves.nodup, ?_⟩
      rintro place inAfter _ inAttached rfl
      exact ((carves.empty_iff place).mp (Maze.mem_emptyCells.mp inAfter)).2 inAttached
  rw [split.length_eq, List.length_append]

/-- A script carves a maze out, if a slice has effort enough and is not interrupted. -/
def CarvedBy (maze : Maze) (script : List Nat) : Prop :=
  ∀ (numbers : List Nat) (strides limit paths : Nat) (progress : Progress) (τ : Type)
    (expired : τ → Except Fault (Bool × τ)) (timer : τ), 0 < strides →
    maze.emptyCells.length < limit → expired timer = .ok (false, timer) →
      ∃ slice, (carvePaths strides expired limit paths maze (⟨script⟩ : Script numbers) progress
        timer).result = .ok slice ∧ slice.outcome = .done ∧ slice.timer = timer

/-- Every carvable maze in which some cell is not empty is carved out by some script.
    The induction is on the number of empty cells, of which each path takes one. -/
theorem exists_script {maze : Maze} (carvable : Carvable maze) {other : Coord}
    (inside : maze.size.Contains other) (occupied : (maze.get other).empty = false) :
    ∃ script, CarvedBy maze script := by
  generalize count : maze.emptyCells.length = remaining
  induction remaining generalizing maze with
  | zero =>
    refine ⟨[], ?_⟩
    intro numbers strides limit paths progress τ expired timer _ enough _
    obtain ⟨limit, rfl⟩ := Nat.exists_eq_succ_of_ne_zero (Nat.ne_zero_of_lt enough)
    have full (place : Coord) : (maze.get place).empty = false := by
      by_contra empty
      have listed := Maze.mem_emptyCells.mpr (Bool.not_eq_false _ ▸ empty)
      rw [List.length_eq_zero_iff.mp count] at listed
      exact absurd listed List.not_mem_nil
    obtain ⟨found, drawn, chosen, none_iff, -⟩ :=
      maze.chooseStart_spec (⟨[]⟩ : Script numbers)
    obtain rfl := none_iff.mpr full
    refine ⟨⟨.done, maze, drawn, { progress with paused := false }, timer⟩, ?_, rfl, rfl⟩
    rw [carvePaths, chosen]
    rfl
  | succ remaining inductionHypothesis =>
    have void : maze.emptyCells ≠ [] := by
      intro none
      rw [none] at count
      cases count
    obtain ⟨first, member⟩ := List.exists_mem_of_ne_nil _ void
    obtain ⟨start, side, empty, across, carved⟩ :=
      Maze.exists_edge_of_void (Maze.mem_emptyCells.mp member) inside occupied
    obtain ⟨direction, after, carves, walked⟩ := exists_direction carvable empty across carved
    have fewer : after.clearVisited.emptyCells.length = remaining := by
      have lengths := carves.length_emptyCells
      rw [count, List.length_singleton] at lengths
      exact (Nat.succ.inj lengths).symm
    have stillOccupied : (after.clearVisited.get other).empty = false := by
      rw [Bool.eq_false_iff, ne_eq, carves.empty_iff]
      simp [occupied]
    obtain ⟨script, carvedBy⟩ := inductionHypothesis carves.carvable
      (carves.size_eq.symm ▸ inside) stillOccupied fewer
    refine ⟨start.x.toNat :: start.y.toNat :: direction.toNat :: script, ?_⟩
    intro numbers strides limit paths progress τ expired timer positive enough running
    obtain ⟨limit, rfl⟩ := Nat.exists_eq_succ_of_ne_zero (Nat.ne_zero_of_lt enough)
    obtain ⟨strides, rfl⟩ := Nat.exists_eq_succ_of_ne_zero (Nat.ne_of_gt positive)
    obtain ⟨slice, further, ends⟩ := carvedBy numbers (strides + 1) limit (paths + 1)
      { progress with cursor := start.step side, previous := some start } τ expired timer positive
      (by omega) running
    refine ⟨slice, ?_, ends⟩
    rw [carvePaths, Maze.chooseStart_script empty]
    refine Logged.result_bind_eq_ok.mpr ⟨(some start, _), rfl, ?_⟩
    refine Logged.result_bind_eq_ok.mpr ⟨_, walked .., ?_⟩
    refine Logged.result_bind_eq_ok.mpr ⟨(), rfl, ?_⟩
    exact Logged.result_bind_eq_ok.mpr ⟨(false, timer), running, further⟩

/-- Every carvable maze is carved out by some script in one slice. A maze of empty cells
    only is given its root in the corner. -/
theorem exists_script_carve {maze : Maze} (carvable : Carvable maze) :
    ∃ script, ∀ (numbers : List Nat) (effort : Nat) (progress : Progress) (τ : Type)
      (expired : τ → Except Fault (Bool × τ)) (timer : τ), maze.size.area < effort →
      expired timer = .ok (false, timer) →
        ∃ slice, (carve effort expired maze (⟨script⟩ : Script numbers) progress timer).result =
          .ok slice ∧ slice.outcome = .done ∧ slice.timer = timer := by
  by_cases vacant : ∀ place, maze.size.Contains place → (maze.get place).empty = true
  · have empty : (maze.get ⟨0, 0⟩).empty = true := vacant _ maze.size.contains_corner
    have rooted : Planted maze (⟨[0, 0]⟩ : Script []) (maze.setEmpty ⟨0, 0⟩ false, ⟨[]⟩) :=
      .root vacant (Maze.chooseStart_script empty []) rfl
    have rootedCarvable : Carvable (maze.setEmpty ⟨0, 0⟩ false) := rooted.carvable carvable
    have occupied : ((maze.setEmpty ⟨0, 0⟩ false).get ⟨0, 0⟩).empty = false := by
      simp [(Maze.flags_clearEmpty _ _).1]
    obtain ⟨script, carvedBy⟩ :=
      exists_script rootedCarvable (Size.contains_corner _) occupied
    refine ⟨0 :: 0 :: script, ?_⟩
    intro numbers effort progress τ expired timer enough running
    have few := (maze.setEmpty ⟨0, 0⟩ false).length_emptyCells_le
    rw [Maze.size_setEmpty] at few
    obtain ⟨slice, carved, ends⟩ :=
      carvedBy numbers effort effort 0 progress τ expired timer (by omega) (by omega) running
    refine ⟨slice, ?_, ends⟩
    obtain ⟨planted, answered, planting⟩ :=
      plantRoot_spec maze (⟨0 :: 0 :: script⟩ : Script numbers)
    cases planting with
    | unneeded inside taken => exact nomatch (vacant _ inside).symm.trans taken
    | root _ chosen same =>
      have drawn := Except.ok.inj (chosen.symm.trans (Maze.chooseStart_script empty script))
      obtain ⟨root, rest⟩ := Prod.mk.inj drawn
      rw [Option.some.inj root, rest] at same
      exact Logged.result_bind_eq_ok.mpr ⟨_, same ▸ answered, carved⟩
  · push Not at vacant
    obtain ⟨place, inside, taken⟩ := vacant
    have occupied : (maze.get place).empty = false := Bool.eq_false_iff.mpr taken
    obtain ⟨script, carvedBy⟩ := exists_script carvable inside occupied
    refine ⟨script, ?_⟩
    intro numbers effort progress τ expired timer enough running
    have few := maze.length_emptyCells_le
    obtain ⟨slice, carved, ends⟩ :=
      carvedBy numbers effort effort 0 progress τ expired timer (by omega) (by omega) running
    refine ⟨slice, ?_, ends⟩
    rw [carve, plantRoot_of_rooted ⟨place, inside, occupied⟩]
    exact carved

namespace Generator

/-- A repair that is due is done. -/
theorem exists_conclude {σ κ : Type} [RandomSource σ] [LawfulRandomSource σ]
    (generator : Generator σ) (clock : κ) (due : generator.phase = .repairing)
    (unvisited : ∀ place, (generator.maze.get place).visited = false) :
    ∃ last, (generator.conclude clock).result = .ok (last, clock) ∧ last.phase = .done := by
  obtain ⟨final, joined, -⟩ := joinRegions_spec unvisited generator.source
  have answered : (joinRegions generator.maze generator.source).result = .ok final := joined
  rw [conclude_of_eq _ due, answered]
  exact ⟨_, rfl, rfl⟩

/-- A cycle on a carvable maze is finished in one step by some script, if the clock stands
    still. -/
theorem exists_script_step {maze : Maze} (carvable : Carvable maze) :
    ∃ script, ∀ (numbers : List Nat) (generator : Generator (Script numbers)) (κ : Type) [Clock κ]
      (clock : κ) (effort : Nat) (now deadline : Duration),
      generator.phase = .carving → generator.maze = maze → generator.source = ⟨script⟩ →
      Clock.now clock = .ok (now, clock) → now.add generator.budget = .ok deadline →
      maze.size.area < effort →
        ∃ last, (generator.step effort clock).result = .ok (last, clock) ∧ last.phase = .done := by
  obtain ⟨script, carves⟩ := exists_script_carve carvable
  refine ⟨script, ?_⟩
  intro numbers generator κ _ clock effort now deadline carving sameMaze sameSource still late
    enough
  have running : isPast deadline clock = .ok (false, clock) := by
    have before : ¬ deadline.nanos < now.nanos := by
      unfold Duration.add Duration.ofNanos at late
      split at late
      · rw [← Except.ok.inj late]
        simp
      · cases late
    simp [isPast, still, before, bind, Except.bind, pure, Except.pure]
  obtain ⟨slice, carved, done, same⟩ := carves numbers effort
    { generator.progress with deadline := deadline } κ (isPast deadline) clock enough running
  have sliced : (generator.carveSlice effort clock).result =
      .ok ({ generator with
        maze := slice.maze, source := slice.source, progress := slice.progress,
        phase := .repairing }, clock) := by
    rw [← sameMaze, ← sameSource] at carved
    simp only [carveSlice, Logged.result_bind_eq_ok, Logged.result_lift]
    exact ⟨_, still, _, late, _, carved, by rw [done, same]; rfl⟩
  obtain ⟨-, carvable⟩ := carve_spec carvable carved
  obtain ⟨last, concluded, ends⟩ := exists_conclude { generator with
    maze := slice.maze, source := slice.source, progress := slice.progress, phase := .repairing }
    clock rfl carvable.unvisited
  rw [step_eq, if_pos carving]
  exact ⟨last, Logged.result_bind_eq_ok.mpr ⟨_, sliced, concluded⟩, ends⟩

end Generator

namespace Dial

/-- The time of a minute is shown by one refresh, whatever else the dial holds, if its
    cycle draws from some script and the clock stands still. -/
theorem exists_script_refresh (clockType : ClockType) (minute : Nat) :
    ∃ script, ∀ (numbers : List Nat) (κ : Type) [Clock κ] (dial : Dial κ (Script numbers))
      (effort : Nat) (cause : Cause) (now deadline : Duration),
      dial.isGenerating = false → dial.scene = .watchFace →
      dial.settings.clockType = clockType → dial.generator.maze.size = .dial →
      Clock.now dial.clock = .ok (now, dial.clock) →
      localMinute now dial.settings.utcOffset = minute → dial.due minute = some cause →
      Generator.seedSource dial.generator.source (cause.seed minute) = ⟨script⟩ →
      now.add dial.generator.budget = .ok deadline → Size.dial.area < effort →
        ∃ maze generator, (dial.refresh effort).result = .ok (some maze,
          { dial with generator := generator, lastMinute := some minute, requested := false }) ∧
            generator.phase = .idle := by
  obtain ⟨plan, planned, fits⟩ := timePlan_fitting clockType minute
  obtain ⟨board, stamped⟩ := stampAll_fixed (Maze.fresh .dial)
    (fun placement member => (fits placement member).1)
    (fun placement member => (fits placement member).2)
  have stable : ∀ (maze : Maze) (place : Coord) (side : Side),
      Carvable maze ∧ maze.size = .dial → Carvable (maze.knockDown place side) ∧
        (maze.knockDown place side).size = .dial :=
    fun _ place side ⟨carvable, size⟩ =>
      ⟨Maze.carvable_knockDown carvable place side, (Maze.size_knockDown ..).trans size⟩
  obtain ⟨carvable, size⟩ : Carvable board ∧ board.size = .dial :=
    stampAll_stable stable ⟨carvable_fresh _, rfl⟩ (stamped (Script []) ⟨[]⟩)
  obtain ⟨script, steps⟩ := Generator.exists_script_step carvable
  refine ⟨script, ?_⟩
  intro numbers κ _ dial effort cause now deadline idle onTime sameType sameSize still read due seed
    late enough
  let begun : Generator (Script numbers) := { dial.generator with
    maze := board, source := ⟨script⟩, progress := .initial, phase := .carving }
  have started : (dial.generator.start plan (cause.seed minute)).result = .ok begun := by
    rw [Generator.start_result, Maze.reset_eq_fresh, sameSize, seed, stamped]
    rfl
  obtain ⟨last, stepped, done⟩ :=
    steps numbers begun κ dial.clock effort now deadline rfl rfl rfl still late (size ▸ enough)
  let looked : Dial κ (Script numbers) := { dial with lastMinute := some minute }
  have beginning : (looked.begin minute cause).result =
      .ok { looked with generator := begun, requested := false } := by
    have planning : looked.scene.plan looked.settings.clockType minute = .ok plan := by
      rw [show looked.scene = .watchFace from onTime, sameType]
      exact planned
    refine Logged.result_bind_eq_ok.mpr ⟨plan, planning, ?_⟩
    refine Logged.result_bind_eq_ok.mpr ⟨(), rfl, ?_⟩
    exact Logged.result_bind_eq_ok.mpr ⟨begun, started, rfl⟩
  have working : (work effort { looked with generator := begun, requested := false }).result =
      .ok (some last.maze,
        { looked with generator := { last with phase := .idle }, requested := false }) := by
    have collected : last.collect = (some last.maze, { last with phase := .idle }) := if_pos done
    refine Logged.result_bind_eq_ok.mpr ⟨(last, dial.clock), stepped, ?_⟩
    simp only [collected]
    rfl
  refine ⟨last.maze, { last with phase := .idle }, ?_, rfl⟩
  rw [refresh, if_neg (Bool.eq_false_iff.mp idle)]
  refine Logged.result_bind_eq_ok.mpr ⟨(now, dial.clock), still, ?_⟩
  simp only [read, due]
  exact Logged.result_bind_eq_ok.mpr ⟨_, beginning, working⟩

end Dial

/-- A clock that does not tick stands still when it is read. -/
theorem ManualClock.now_still (time : Duration) :
    Clock.now (⟨time, .zero⟩ : ManualClock) = .ok (time, ⟨time, .zero⟩) := by
  have same : time.add .zero = .ok time := by
    rw [Duration.add, Duration.ofNanos, dif_pos (by exact time.nanos_lt)]
    rfl
  simp only [Clock.now, advance, same]
  rfl

namespace Dial

variable {σ : Type}

/-- A new dial over a clock that stands still. -/
def still (time : Duration) (settings : Settings) (source : σ) (budget : Duration) :
    Dial ManualClock σ :=
  ⟨⟨time, .zero⟩, settings, .new (.fresh .dial) source budget, .watchFace, false, none, none, []⟩

/-- Settings whose budget is seen make such a dial. -/
theorem exists_still (time : Duration) (settings : Settings) (source : σ) (nanos : Nat)
    (seen : settings.budget.toOption.map Duration.nanos = some nanos)
    (short : time.nanos + nanos < UInt64.size * 1000000000) :
    ∃ budget deadline, new ⟨time, .zero⟩ settings source = .ok (still time settings source budget) ∧
      time.add budget = .ok deadline := by
  cases share : settings.budget with
  | error fault =>
    rw [share] at seen
    cases seen
  | ok budget =>
    rw [share] at seen
    have length : budget.nanos = nanos := Option.some.inj seen
    refine ⟨budget, ⟨time.nanos + budget.nanos, length ▸ short⟩, ?_, dif_pos (length ▸ short)⟩
    rw [new, share]
    rfl

end Dial

end MazeDial

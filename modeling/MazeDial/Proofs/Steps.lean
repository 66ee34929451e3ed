import MazeDial.Generation.Generator
import MazeDial.Proofs.Paths

/-!
# The calls of a generator

What each call of a generator does, said once and for all that follows. Starting a
cycle stamps a board as it was made; nothing of the generator but its random
source goes into it. A step is one call of `carve` and, when carving is done, the
repair; the budget and the clock decide only where the call ends.
-/

namespace MazeDial

namespace Generator

variable {σ κ : Type}

/-- Where carving stands in a generator. -/
def station (generator : Generator σ) : Station σ :=
  ⟨generator.maze, generator.source, generator.progress.cursor, generator.progress.previous⟩

variable [RandomSource σ]

/-- The source that a cycle draws from. -/
def seedSource (source : σ) (reseed : Option UInt64) : σ :=
  match reseed with
  | some seed => RandomSource.seeded seed
  | none => source

/-- A cycle starts on the stamped board, and for all but the budget and the last repair
    it makes no difference which generator it is started on. -/
theorem start_result (generator : Generator σ) (plan : List Placement) (reseed : Option UInt64) :
    (generator.start plan reseed).result =
      (stampAll plan generator.maze.reset (seedSource generator.source reseed)).map fun stamped =>
        { generator with
          maze := stamped.1, source := stamped.2, progress := .initial, phase := .carving } := by
  simp only [start, seedSource]
  cases stampAll plan generator.maze.reset
      (match reseed with
        | some seed => RandomSource.seeded seed
        | none => generator.source) <;>
    cases generator.phase.isGenerating <;> rfl

/-- What a step does to a generator that answers. -/
inductive Moves (generator : Generator σ) : Generator σ → Prop
  /-- Between cycles nothing happens. -/
  | rest (idle : generator.phase.isGenerating = false) : Moves generator generator
  /-- Carving stops at the end of the budget. -/
  | paused {next : Generator σ} (carving : generator.phase = .carving)
      (called : Calls generator.station .paused next.station) (still : next.phase = .carving) :
      Moves generator next
  /-- Carving is done and the maze is repaired. -/
  | finished {there : Station σ} {final : Maze × σ × RepairReport} {next : Generator σ}
      (carving : generator.phase = .carving) (called : Calls generator.station .done there)
      (joined : (joinRegions there.maze there.source).result = .ok final)
      (same : (next.maze, next.source, next.lastRepair) = final)
      (unpaused : next.progress.paused = false) (done : next.phase = .done) :
      Moves generator next
  /-- A maze that was only to be repaired is repaired. -/
  | repaired {final : Maze × σ × RepairReport} {next : Generator σ}
      (repairing : generator.phase = .repairing)
      (joined : (joinRegions generator.maze generator.source).result = .ok final)
      (same : (next.maze, next.source, next.lastRepair) = final) (done : next.phase = .done) :
      Moves generator next

variable [Clock κ]

/-- A slice is one call of `carve`, from a first reading to the deadline that is a budget
    later. It reports what that call reports and keeps what it leaves; when carving is done,
    a repair is due. -/
theorem carveSlice_eq_ok {effort : Nat} {generator next : Generator σ} {clock after : κ}
    {notes : List Note} (answered : generator.carveSlice effort clock = ⟨notes, .ok (next, after)⟩) :
    ∃ now read deadline slice phase, Clock.now clock = .ok (now, read) ∧
      now.add generator.budget = .ok deadline ∧
      carve effort (isPast deadline) generator.maze generator.source
        { generator.progress with deadline := deadline } read = ⟨notes, .ok slice⟩ ∧
      next = { generator with
        maze := slice.maze, source := slice.source, progress := slice.progress, phase := phase } ∧
      after = slice.timer ∧
      (slice.outcome = .paused ∧ phase = generator.phase ∨
        slice.outcome = .done ∧ phase = .repairing) := by
  simp only [carveSlice, Logged.bind_eq_ok, Logged.lift_eq_ok] at answered
  obtain ⟨_, ⟨now, read⟩, _, ⟨rfl, reading⟩, ⟨_, deadline, _, ⟨rfl, due⟩, ⟨reported, slice, last,
    carved, answered, rfl⟩, rfl⟩, rfl⟩ := answered
  cases ended : slice.outcome with
  | paused =>
    rw [ended] at answered
    obtain ⟨rfl, same⟩ := Logged.pure_eq_ok.mp answered
    obtain ⟨rfl, rfl⟩ := Prod.mk.inj same
    exact ⟨now, read, deadline, slice, generator.phase, reading, due, by simpa using carved, rfl,
      rfl, .inl ⟨ended, rfl⟩⟩
  | done =>
    rw [ended] at answered
    obtain ⟨rfl, same⟩ := Logged.pure_eq_ok.mp answered
    obtain ⟨rfl, rfl⟩ := Prod.mk.inj same
    exact ⟨now, read, deadline, slice, .repairing, reading, due, by simpa using carved, rfl,
      rfl, .inr ⟨ended, rfl⟩⟩
  | stuck place target =>
    rw [ended] at answered
    obtain ⟨_, _, _, -, failed, -⟩ := Logged.bind_eq_ok.mp answered
    cases failed

/-- The call is made from where carving stands. -/
theorem carveSlice_result {effort : Nat} {generator next : Generator σ} {clock after : κ}
    (answered : (generator.carveSlice effort clock).result = .ok (next, after)) :
    ∃ outcome, Calls generator.station outcome next.station ∧
      (outcome = .paused ∧ next.phase = generator.phase ∨
        outcome = .done ∧ next.phase = .repairing ∧ next.progress.paused = false) := by
  obtain ⟨notes, answered⟩ := Logged.exists_notes answered
  obtain ⟨now, read, deadline, slice, phase, -, -, called, rfl, -, ends⟩ :=
    carveSlice_eq_ok answered
  have carved := congrArg Logged.result called
  refine ⟨slice.outcome, (Calls.of_carve carved :), ?_⟩
  rcases ends with ⟨paused, rfl⟩ | ⟨done, rfl⟩
  · exact .inl ⟨paused, rfl⟩
  · exact .inr ⟨done, rfl, carve_unpaused carved done⟩

/-- A repair joins the regions of the maze and finishes the cycle. -/
theorem repair_result (generator : Generator σ) :
    generator.repair.result =
      (joinRegions generator.maze generator.source).result.map fun final =>
        { generator with
          maze := final.1, source := final.2.1, lastRepair := final.2.2, phase := .done } := by
  rw [repair, Logged.result_bind]
  cases (joinRegions generator.maze generator.source).result <;> rfl

omit [Clock κ] in
/-- The second half of a step: the repair, if carving is done. -/
def conclude (generator : Generator σ) (clock : κ) : Logged (Generator σ × κ) :=
  if generator.phase = .repairing then do
    let generator ← generator.repair
    return (generator, clock)
  else return (generator, clock)

/-- A step carves, if carving is under way, and repairs, if repair is due. -/
theorem step_eq (effort : Nat) (generator : Generator σ) (clock : κ) :
    generator.step effort clock =
      (if generator.phase = .carving then generator.carveSlice effort clock
        else pure (generator, clock)) >>= fun sliced => conclude sliced.1 sliced.2 := by
  simp only [step]
  split <;> rfl

omit [Clock κ] in
/-- Without a repair due nothing is left to do. -/
theorem conclude_of_ne {generator : Generator σ} (clock : κ)
    (undue : generator.phase ≠ .repairing) :
    generator.conclude clock = pure (generator, clock) := by
  rw [conclude, if_neg undue]

omit [Clock κ] in
theorem conclude_of_eq {generator : Generator σ} (clock : κ) (due : generator.phase = .repairing) :
    (generator.conclude clock).result =
      (joinRegions generator.maze generator.source).result.map fun final =>
        ({ generator with
          maze := final.1, source := final.2.1, lastRepair := final.2.2, phase := .done }, clock) := by
  rw [conclude, if_pos due, Logged.result_bind, repair_result]
  cases (joinRegions generator.maze generator.source).result <;> rfl

omit [Clock κ] in
/-- A repair that was due has joined the regions, and changed nothing else but the phase. -/
theorem exists_of_conclude {generator next : Generator σ} {clock after : κ}
    (due : generator.phase = .repairing)
    (concluded : (generator.conclude clock).result = .ok (next, after)) :
    ∃ final, (joinRegions generator.maze generator.source).result = .ok final ∧
      next = { generator with
        maze := final.1, source := final.2.1, lastRepair := final.2.2, phase := .done } ∧
      after = clock := by
  rw [conclude_of_eq _ due] at concluded
  cases joined : (joinRegions generator.maze generator.source).result with
  | error fault =>
    rw [joined] at concluded
    cases concluded
  | ok final =>
    rw [joined] at concluded
    obtain ⟨rfl, rfl⟩ := Prod.mk.inj (Except.ok.inj concluded)
    exact ⟨final, rfl, rfl, rfl⟩

/-- A step that answers is one of the moves. -/
theorem step_moves {effort : Nat} {generator next : Generator σ} {clock after : κ}
    (answered : (generator.step effort clock).result = .ok (next, after)) :
    Moves generator next := by
  rw [step_eq, Logged.result_bind_eq_ok] at answered
  obtain ⟨⟨sliced, read⟩, first, concluded⟩ := answered
  by_cases carving : generator.phase = .carving
  · rw [if_pos carving] at first
    obtain ⟨outcome, called, ⟨rfl, still⟩ | ⟨rfl, due, unpaused⟩⟩ := carveSlice_result first
    · rw [carving] at still
      rw [conclude_of_ne _ (by simp [still])] at concluded
      obtain ⟨rfl, -⟩ := Prod.mk.inj (Except.ok.inj concluded)
      exact .paused carving called still
    · obtain ⟨final, joined, rfl, -⟩ := exists_of_conclude due concluded
      exact .finished carving called joined rfl unpaused rfl
  · rw [if_neg carving] at first
    obtain ⟨rfl, rfl⟩ := Prod.mk.inj (Except.ok.inj first)
    by_cases due : generator.phase = .repairing
    · obtain ⟨final, joined, rfl, -⟩ := exists_of_conclude due concluded
      exact .repaired due joined rfl rfl
    · rw [conclude_of_ne _ due] at concluded
      obtain ⟨rfl, -⟩ := Prod.mk.inj (Except.ok.inj concluded)
      refine .rest ?_
      cases phase : generator.phase with
      | carving => exact absurd phase carving
      | repairing => exact absurd phase due
      | idle => rfl
      | done => rfl

end Generator

end MazeDial

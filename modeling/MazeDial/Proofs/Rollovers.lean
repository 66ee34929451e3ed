import MazeDial.Proofs.Upkeep

/-!
# A minute always looks alike

A cycle that is begun because the minute has changed starts its source anew from the
minute, before anything is drawn. So its maze is settled by the minute and the way to
count hours: it does not matter on which dial it is made, over which clock and source,
what that dial showed before, how the work was sliced and what was touched meanwhile.

What a cycle depends on is said for all cycles first: the size of the board, the plan,
and the source that it draws from.
-/

namespace MazeDial

variable {σ κ : Type} [RandomSource σ]

/-- Steps from the same station end alike, however they are sliced. -/
theorem Generator.Steps.agree {first other last otherLast : Generator σ}
    (steps : Steps first last) (otherSteps : Steps other otherLast)
    (same : first.station = other.station) (carving : first.phase = .carving)
    (otherCarving : other.phase = .carving) (done : last.phase = .done)
    (otherDone : otherLast.phase = .done) : last.maze = otherLast.maze := by
  obtain ⟨there, carved, joined⟩ := steps.carvesOut carving done
  obtain ⟨otherThere, otherCarved, otherJoined⟩ := otherSteps.carvesOut otherCarving otherDone
  rw [same] at carved
  obtain ⟨-, rfl⟩ := carved.agree otherCarved
  exact congrArg Prod.fst (Except.ok.inj (joined.symm.trans otherJoined))

namespace Cycle

/-- The source that a cycle draws from: that of its generator, or one started anew. -/
def source (cycle : Cycle σ) : σ :=
  Generator.seedSource cycle.generator.source (cycle.cause.seed cycle.minute)

/-- Cycles that show the same on boards of the same size and draw from the same source
    stand at the same station when they have begun. -/
theorem Begins.agree {cycle other : Cycle σ} {started otherStarted : Generator σ}
    (begins : cycle.Begins started) (otherBegins : other.Begins otherStarted)
    (sameSize : cycle.generator.maze.size = other.generator.maze.size)
    (samePlan : cycle.scene.plan cycle.clockType cycle.minute =
      other.scene.plan other.clockType other.minute)
    (sameSource : cycle.source = other.source) : started.station = otherStarted.station := by
  obtain ⟨plan, planned, answered⟩ := begins
  obtain ⟨otherPlan, otherPlanned, otherAnswered⟩ := otherBegins
  rw [samePlan] at planned
  obtain rfl := Except.ok.inj (planned.symm.trans otherPlanned)
  obtain ⟨board, stamped, standing, -⟩ := Generator.station_of_start answered
  obtain ⟨otherBoard, otherStamped, otherStanding, -⟩ := Generator.station_of_start otherAnswered
  have same : board = otherBoard := by
    apply Except.ok.inj
    rw [← stamped, ← otherStamped, sameSize]
    exact congrArg (stampAll plan _) sameSource
  rw [standing, otherStanding, same]

/-- They are finished by the same maze. -/
theorem Yields.agree {cycle other : Cycle σ} {maze otherMaze : Maze} (yields : cycle.Yields maze)
    (otherYields : other.Yields otherMaze)
    (sameSize : cycle.generator.maze.size = other.generator.maze.size)
    (samePlan : cycle.scene.plan cycle.clockType cycle.minute =
      other.scene.plan other.clockType other.minute)
    (sameSource : cycle.source = other.source) : maze = otherMaze := by
  obtain ⟨last, ⟨started, begins, steps⟩, done, rfl⟩ := yields
  obtain ⟨otherLast, ⟨otherStarted, otherBegins, otherSteps⟩, otherDone, rfl⟩ := otherYields
  apply steps.agree otherSteps _ begins.carving otherBegins.carving done otherDone
  exact begins.agree otherBegins sameSize samePlan sameSource

/-- What is settled about a cycle that was begun because the minute has changed: it shows
    the time, counted in one way, on the board of a dial. -/
structure Rollover (cycle : Cycle σ) (clockType : ClockType) : Prop where
  cause : cycle.cause = .rollover
  scene : cycle.scene = .watchFace
  clockType_eq : cycle.clockType = clockType
  size_eq : cycle.generator.maze.size = .dial

/-- It draws from the source that the minute starts. -/
theorem Rollover.source_eq {cycle : Cycle σ} {clockType : ClockType}
    (rollover : cycle.Rollover clockType) :
    cycle.source = RandomSource.seeded cycle.minute.toUInt64 := by
  rw [source, rollover.cause]
  rfl

end Cycle

namespace History

variable [LawfulRandomSource σ] [Clock κ]

/-- Every cycle that a run has begun because the minute has changed is such a cycle. -/
theorem rollover_of_run {clock : κ} {settings : Settings} {source : σ} {first dial : Dial κ σ}
    {history : List (Deed κ σ)} {cycle : Cycle σ}
    (made : Dial.new clock settings source = .ok first) (run : Dial.Run first history dial)
    (listed : cycle ∈ cycles history) (cause : cycle.cause = .rollover) :
    cycle.Rollover settings.clockType := by
  have clockType := clockType_of_run made run listed
  obtain ⟨newer, deed, earlier, rfl, begun⟩ := exists_deed listed
  obtain ⟨minute, reason, -, due, rfl⟩ := exists_due made run begun
  obtain rfl : reason = .rollover := cause
  obtain ⟨ledTo, -⟩ := run.answers
  obtain ⟨onTime, -⟩ := (Dial.due_eq_some due).2 rfl
  exact ⟨rfl, onTime, clockType, (ledTo.kept made).size_eq⟩

/-- On any two dials that count hours alike, two cycles which were begun because the minute
    had changed to the same one are finished by the same maze, whatever the sources, the
    other settings, the clocks and the histories are. -/
theorem minute_looks_alike {κ' : Type} [Clock κ'] {clock : κ} {otherClock : κ'}
    {settings otherSettings : Settings} {source otherSource : σ} {first dial : Dial κ σ}
    {otherFirst otherDial : Dial κ' σ} {history : List (Deed κ σ)}
    {otherHistory : List (Deed κ' σ)} {cycle otherCycle : Cycle σ} {maze otherMaze : Maze}
    (sameType : settings.clockType = otherSettings.clockType)
    (made : Dial.new clock settings source = .ok first)
    (otherMade : Dial.new otherClock otherSettings otherSource = .ok otherFirst)
    (run : Dial.Run first history dial) (otherRun : Dial.Run otherFirst otherHistory otherDial)
    (done : (cycle, maze) ∈ finished history)
    (otherDone : (otherCycle, otherMaze) ∈ finished otherHistory)
    (cause : cycle.cause = .rollover) (otherCause : otherCycle.cause = .rollover)
    (sameMinute : cycle.minute = otherCycle.minute) : maze = otherMaze := by
  have account := account_of_run made run
  have otherAccount := account_of_run otherMade otherRun
  have rollover := rollover_of_run made run (account.mem_cycles done) cause
  have otherRollover := rollover_of_run otherMade otherRun (otherAccount.mem_cycles otherDone)
    otherCause
  apply (account.ledger.yields _ done).agree (otherAccount.ledger.yields _ otherDone)
  · rw [rollover.size_eq, otherRollover.size_eq]
  · rw [rollover.scene, otherRollover.scene, rollover.clockType_eq, otherRollover.clockType_eq,
      sameType, sameMinute]
  · rw [rollover.source_eq, otherRollover.source_eq, sameMinute]

/-- A dial an hour ahead of universal time, and another one, an hour later, on it, that works
    in other slices, drew from elsewhere before and has its button pressed after. -/
theorem minute_looks_alike_elsewhere :
    ∃ script, ∃ first dial otherFirst otherDial : Dial ManualClock (Script script),
      ∃ history otherHistory cycle otherCycle maze,
      Dial.new ⟨.zero, .zero⟩ { utcOffset := 60 } ⟨[]⟩ = .ok first ∧
      Dial.new ⟨.ofMillis 3600000, .zero⟩ { refreshPeriod := .ofMillis 40 } ⟨[7]⟩ =
        .ok otherFirst ∧
      Dial.Run first history dial ∧ Dial.Run otherFirst otherHistory otherDial ∧
      (cycle, maze) ∈ finished history ∧ (otherCycle, maze) ∈ finished otherHistory ∧
      cycle.cause = .rollover ∧ otherCycle.cause = .rollover := by
  obtain ⟨script, shows⟩ := exists_shown .h24 60
  obtain ⟨first, dial, -, shown, cycle, maze, made, run, finishes, cause, minute, -⟩ :=
    shows .zero { utcOffset := 60 } ⟨[]⟩ 15000000 rfl rfl (by decide +kernel) (by decide)
  obtain ⟨otherFirst, otherDial, -, otherShown, otherCycle, otherMaze, otherMade, otherRun,
    otherFinishes, otherCause, otherMinute, -⟩ := shows (.ofMillis 3600000)
      { refreshPeriod := .ofMillis 40 } ⟨[7]⟩ 30000000 rfl rfl (by decide +kernel) (by decide)
  have pressed := otherRun.call .button
  have done : (cycle, maze) ∈ finished [shown] := finishes ▸ List.mem_cons_self
  have otherDone : (otherCycle, otherMaze) ∈
      finished [⟨otherDial, .button otherDial.button.1, otherDial.button.2⟩, otherShown] := by
    rw [finished_of_none rfl, otherFinishes]
    exact List.mem_cons_self
  have sameType : ({ utcOffset := 60 } : Settings).clockType =
      ({ refreshPeriod := .ofMillis 40 } : Settings).clockType := rfl
  obtain rfl := minute_looks_alike sameType made otherMade run pressed done otherDone cause
    otherCause (minute.trans otherMinute.symm)
  exact ⟨script, first, dial, otherFirst, _, _, _, cycle, otherCycle, maze, made, otherMade, run,
    pressed, done, otherDone, cause, otherCause⟩

end History

end MazeDial

import MazeDial.Pattern.Library
import MazeDial.Proofs.Carving
import MazeDial.Proofs.Flooding
import MazeDial.Proofs.Stamping
import MazeDial.Proofs.Steps

/-!
# Cycles

What holds of a generator at every moment, whatever was called before. While it
carves, its maze can be carved; when it is done, its maze is finished; it never
waits for a repair, and only carving is ever paused. Each call preserves this, and
starting a cycle brings it about from any generator.

A cycle depends on nothing but the size of the board, the plan and the random
source. What the generator did before is reset, and how its steps were cut leaves
no trace in the maze, the source or the report.
-/

namespace MazeDial

/-- A maze as it is handed out: every cell reaches every other one, and no flag is set. -/
structure Maze.Finished (maze : Maze) : Prop where
  whole : maze.Whole
  carved : ∀ place, (maze.get place).empty = false
  unvisited : ∀ place, (maze.get place).visited = false

namespace Clock

variable {κ : Type} [Clock κ]

/-- The clocks that readings of one may lead to. -/
def Leads : κ → κ → Prop :=
  Relation.ReflTransGen fun clock after => ∃ now, Clock.now clock = .ok (now, after)

/-- A slice that begins at a clock is stopped by the time: a reading fails, or the first
    one is so late that the end of the slice is too long a duration. -/
inductive Overruns (budget : Duration) (clock : κ) (fault : Fault) : Prop
  | unread {asked : κ} (leads : Leads clock asked) (failed : Clock.now asked = .error fault)
  | late {now : Duration} {after : κ} (reading : Clock.now clock = .ok (now, after))
      (failed : now.add budget = .error fault)

end Clock

namespace Generator

variable {σ : Type}

/-- What holds of a generator between two calls. -/
structure Sound (generator : Generator σ) : Prop where
  settled : generator.phase ≠ .repairing
  paused : generator.progress.paused = true → generator.phase = .carving
  carvable : generator.phase = .carving → Carvable generator.maze
  finished : generator.phase = .done → generator.maze.Finished

theorem sound_new (maze : Maze) (source : σ) (budget : Duration) :
    (new maze source budget).Sound where
  settled := nofun
  paused := nofun
  carvable := nofun
  finished := nofun

/-- Handing out the maze leaves a generator that has nothing to hand out. -/
theorem Sound.collect {generator : Generator σ} (sound : generator.Sound) :
    generator.collect.2.Sound := by
  unfold Generator.collect
  split
  · next done =>
    refine ⟨nofun, ?_, nofun, nofun⟩
    intro paused
    exact nomatch done.symm.trans (sound.paused paused)
  · exact sound

/-- What is shown or handed out is the maze of a cycle that is done. -/
theorem done_of_handed_out {generator : Generator σ} {handed : Maze}
    (out : generator.finished = some handed ∨ generator.collect.1 = some handed) :
    generator.phase = .done ∧ generator.maze = handed := by
  rcases out with shown | collected
  · unfold Generator.finished at shown
    split at shown
    · next done => exact ⟨done, Option.some.inj shown⟩
    · cases shown
  · unfold Generator.collect at collected
    split at collected
    · next done => exact ⟨done, Option.some.inj collected⟩
    · cases collected

variable [RandomSource σ]

/-- A cycle that starts is the generator on a stamped board, with the budget it had. -/
theorem start_eq_ok {generator started : Generator σ} {plan : List Placement}
    {reseed : Option UInt64} (answered : (generator.start plan reseed).result = .ok started) :
    ∃ stamped, stampAll plan (Maze.fresh generator.maze.size)
        (seedSource generator.source reseed) = .ok stamped ∧
      started = { generator with
        maze := stamped.1, source := stamped.2, progress := .initial, phase := .carving } := by
  rw [start_result, Maze.reset_eq_fresh] at answered
  cases stamped : stampAll plan (Maze.fresh generator.maze.size)
      (seedSource generator.source reseed) with
  | error fault =>
    rw [stamped] at answered
    cases answered
  | ok board =>
    rw [stamped] at answered
    exact ⟨board, rfl, (Except.ok.inj answered).symm⟩

/-- A started cycle stands at the stamped board, before its first path. Of the generator
    only the size of the board and the source have gone into it. -/
theorem station_of_start {generator started : Generator σ} {plan : List Placement}
    {reseed : Option UInt64} (answered : (generator.start plan reseed).result = .ok started) :
    ∃ stamped, stampAll plan (Maze.fresh generator.maze.size)
        (seedSource generator.source reseed) = .ok stamped ∧
      started.station = ⟨stamped.1, stamped.2, Progress.initial.cursor, none⟩ ∧
      started.phase = .carving := by
  obtain ⟨board, stamped, rfl⟩ := start_eq_ok answered
  exact ⟨board, stamped, rfl, rfl⟩

/-- A started cycle has a board that can be carved, whatever the generator held before. -/
theorem carvable_of_start {generator started : Generator σ} {plan : List Placement}
    {reseed : Option UInt64} (answered : (generator.start plan reseed).result = .ok started) :
    Carvable started.maze ∧ started.phase = .carving := by
  obtain ⟨board, stamped, standing, carving⟩ := station_of_start answered
  have stable : ∀ maze place side, Carvable maze → Carvable (maze.knockDown place side) :=
    fun _ place side carvable => Maze.carvable_knockDown carvable place side
  have carvable : Carvable board.1 := stampAll_stable stable (carvable_fresh _) stamped
  have same : started.maze = board.1 := congrArg Station.maze standing
  exact ⟨same ▸ carvable, carving⟩

/-- A fitting plan that leaves a choice of place everywhere starts a cycle. -/
theorem start_ok [LawfulRandomSource σ] {generator : Generator σ} {plan : List Placement}
    (fitting : ∀ placement ∈ plan, placement.Fitting generator.maze.size)
    (drawable : ∀ placement ∈ plan, placement.Drawable) (reseed : Option UInt64) :
    ∃ started, (generator.start plan reseed).result = .ok started := by
  have resetFitting : ∀ placement ∈ plan, placement.Fitting generator.maze.reset.size := fitting
  obtain ⟨stamped, answered⟩ :=
    stampAll_ok resetFitting drawable (seedSource generator.source reseed)
  rw [start_result, answered]
  exact ⟨_, rfl⟩

theorem sound_of_start {generator started : Generator σ} {plan : List Placement}
    {reseed : Option UInt64} (answered : (generator.start plan reseed).result = .ok started) :
    started.Sound := by
  obtain ⟨carvable, carving⟩ := carvable_of_start answered
  constructor
  · intro repairing
    cases carving.symm.trans repairing
  · exact fun _ => carving
  · exact fun _ => carvable
  · intro done
    cases carving.symm.trans done

/-- A maze that has been carved out and repaired is finished. -/
theorem finished_of_repaired {base : Maze} {source : σ} {final : Maze × σ × RepairReport}
    (repaired : Repaired base source final) (carved : ∀ place, (base.get place).empty = false) :
    final.1.Finished where
  whole := repaired.whole
  carved place := (repaired.empty_eq place).trans (carved place)
  unvisited := repaired.unvisited

section Lawful

variable [LawfulRandomSource σ] {generator next : Generator σ}

/-- A step preserves what holds between two calls. -/
theorem Sound.moves (sound : generator.Sound) (moves : Moves generator next) : next.Sound := by
  cases moves with
  | rest => exact sound
  | paused carving called still =>
    obtain ⟨-, planted, attached, planting, carves⟩ := called.carves (sound.carvable carving)
    constructor
    · intro repairing
      cases still.symm.trans repairing
    · exact fun _ => still
    · exact fun _ => carves.carvable
    · intro done
      cases still.symm.trans done
  | @finished there final _ carving called joined same unpaused done =>
    obtain ⟨ends, planted, attached, planting, carves⟩ := called.carves (sound.carvable carving)
    obtain ⟨-, carved⟩ := ends.resolve_left nofun
    obtain ⟨answer, answered, repaired⟩ :=
      joinRegions_spec carves.carvable.unvisited there.source
    obtain rfl := Except.ok.inj (joined.symm.trans answered)
    constructor
    · intro repairing
      cases done.symm.trans repairing
    · intro paused
      cases unpaused.symm.trans paused
    · intro carving
      cases done.symm.trans carving
    · intro _
      have finished := finished_of_repaired repaired carved
      rwa [← same] at finished
  | repaired repairing => exact absurd repairing sound.settled

end Lawful

/-- The generators that calls lead to from a given one, in any number and order. -/
inductive Run (first : Generator σ) : Generator σ → Prop
  | new : Run first first
  | start {generator started : Generator σ} {plan : List Placement} {reseed : Option UInt64}
      (before : Run first generator)
      (answered : (generator.start plan reseed).result = .ok started) : Run first started
  | step {κ : Type} [Clock κ] {effort : Nat} {generator next : Generator σ} {clock after : κ}
      (before : Run first generator)
      (answered : (generator.step effort clock).result = .ok (next, after)) : Run first next
  | collect {generator : Generator σ} (before : Run first generator) :
      Run first generator.collect.2

/-- At every moment of every run a generator is sound. -/
theorem Run.sound [LawfulRandomSource σ] {first generator : Generator σ}
    (run : Run first generator) (sound : first.Sound) : generator.Sound := by
  induction run with
  | new => exact sound
  | start _ answered => exact sound_of_start answered
  | step _ answered inductionHypothesis => exact inductionHypothesis.moves (step_moves answered)
  | collect _ inductionHypothesis => exact inductionHypothesis.collect

/-- Adding durations fails only when the sum is too long. -/
theorem fault_of_add {first second : Duration} {fault : Fault}
    (failed : first.add second = .error fault) : fault = .timeOverflow := by
  unfold Duration.add Duration.ofNanos at failed
  split at failed
  · cases failed
  · exact (Except.error.inj failed).symm

section Faults

variable {κ : Type} [Clock κ]

/-- Asking whether a deadline has passed is a reading, which is later than the deadline or
    is not. -/
theorem now_of_isPast {deadline : Duration} {clock after : κ} {past : Bool}
    (answered : isPast deadline clock = .ok (past, after)) :
    ∃ now, Clock.now clock = .ok (now, after) ∧ past = decide (deadline.nanos < now.nanos) := by
  cases reading : Clock.now clock with
  | error fault =>
    rw [isPast, reading] at answered
    cases answered
  | ok read =>
    rw [isPast, reading] at answered
    obtain ⟨same, rfl⟩ := Prod.mk.inj (Except.ok.inj answered)
    exact ⟨read.1, rfl, same.symm⟩

/-- It fails only when the clock does. -/
theorem fault_of_isPast {deadline : Duration} {clock : κ} {fault : Fault}
    (failed : isPast deadline clock = .error fault) : Clock.now clock = .error fault := by
  cases reading : Clock.now clock with
  | error other =>
    rw [isPast, reading] at failed
    exact congrArg Except.error (Except.error.inj failed)
  | ok now =>
    rw [isPast, reading] at failed
    cases failed

/-- Why a step may stop without an answer: its call of `carve` runs short of effort, or it
    is stopped by the time. -/
inductive Halts (generator : Generator σ) (effort : Nat) (clock : κ) (fault : Fault) : Prop
  | short (unfinished : fault = .unfinished) (short : generator.station.RunsShort effort)
  | late (overruns : Clock.Overruns generator.budget clock fault)

variable {generator : Generator σ} {effort : Nat} {clock : κ} {fault : Fault}

/-- Its fault is then want of effort, a sum of durations, or a fault of some clock. -/
theorem Halts.fault_cases (halts : generator.Halts effort clock fault) :
    fault = .unfinished ∨ fault = .timeOverflow ∨
      ∃ reading : κ, Clock.now reading = .error fault := by
  cases halts with
  | short unfinished => exact .inl unfinished
  | late overruns =>
    cases overruns with
    | unread _ failed => exact .inr (.inr ⟨_, failed⟩)
    | late _ failed => exact .inr (.inl (fault_of_add failed))

variable [LawfulRandomSource σ]

/-- A slice of a carvable maze stops for no other reason. -/
theorem carveSlice_halts (carvable : Carvable generator.maze)
    (failed : (generator.carveSlice effort clock).result = .error fault) :
    generator.Halts effort clock fault := by
  simp only [carveSlice, Logged.result_bind_eq_error, Logged.result_lift] at failed
  obtain unread | ⟨⟨now, read⟩, reading, late | ⟨deadline, -, uncarved | ⟨slice, carved, ended⟩⟩⟩ :=
    failed
  · exact .late (.unread .refl unread)
  · exact .late (.late reading late)
  · rcases carve_halts carvable uncarved with ⟨unfinished, short⟩ | ⟨asked, asking, unread⟩
    · exact .short unfinished short
    · have leads : Clock.Leads read asked := by
        apply asking.lift id
        rintro timer after ⟨stop, answered⟩
        obtain ⟨later, reading, -⟩ := now_of_isPast answered
        exact ⟨later, reading⟩
      exact .late (.unread (.head ⟨now, reading⟩ leads) (fault_of_isPast unread))
  · rcases (carve_spec carvable carved).1 with paused | ⟨done, -⟩
    · rw [paused] at ended
      cases ended
    · rw [done] at ended
      cases ended

/-- Carving that is done leaves a maze that can be repaired: no cell is visited. -/
theorem Sound.joinRegions_ok (sound : generator.Sound) (carving : generator.phase = .carving)
    {there : Station σ} (called : Calls generator.station .done there) :
    (∀ place, (there.maze.get place).visited = false) ∧
      ∃ final, (joinRegions there.maze there.source).result = .ok final := by
  obtain ⟨-, planted, attached, planting, carves⟩ := called.carves (sound.carvable carving)
  obtain ⟨final, joined, -⟩ := joinRegions_spec carves.carvable.unvisited there.source
  exact ⟨carves.carvable.unvisited, final, joined⟩

/-- A step of a sound generator stops for no other reason: a walk is never stuck, and a
    repair always succeeds. -/
theorem Sound.step_halts (sound : generator.Sound)
    (failed : (generator.step effort clock).result = .error fault) :
    generator.Halts effort clock fault := by
  rw [step_eq, Logged.result_bind_eq_error] at failed
  rcases failed with stopped | ⟨⟨sliced, read⟩, first, unrepaired⟩
  · by_cases carving : generator.phase = .carving
    · rw [if_pos carving] at stopped
      exact carveSlice_halts (sound.carvable carving) stopped
    · rw [if_neg carving] at stopped
      cases stopped
  · by_cases due : sliced.phase = .repairing
    · by_cases carving : generator.phase = .carving
      · rw [if_pos carving] at first
        obtain ⟨outcome, called, ⟨rfl, still⟩ | ⟨rfl, -, -⟩⟩ := carveSlice_result first
        · exact nomatch due.symm.trans (still.trans carving)
        · obtain ⟨-, final, joined⟩ := sound.joinRegions_ok carving called
          have answered : (joinRegions sliced.maze sliced.source).result = .ok final := joined
          rw [conclude_of_eq _ due, answered] at unrepaired
          cases unrepaired
      · rw [if_neg carving] at first
        obtain ⟨rfl, -⟩ := Prod.mk.inj (Except.ok.inj first)
        exact absurd due sound.settled
    · rw [conclude_of_ne _ due] at unrepaired
      cases unrepaired

end Faults

/-- Steps lead from one generator to another, each with a clock and an effort of its own. -/
inductive Steps : Generator σ → Generator σ → Prop
  | refl {generator : Generator σ} : Steps generator generator
  | step {κ : Type} [Clock κ] {effort : Nat} {generator next last : Generator σ} {clock after : κ}
      (answered : (generator.step effort clock).result = .ok (next, after))
      (further : Steps next last) : Steps generator last

/-- When a cycle is done, steps change nothing. -/
theorem Steps.eq_of_done {generator last : Generator σ} (steps : Steps generator last)
    (done : generator.phase = .done) : last = generator := by
  induction steps with
  | refl => rfl
  | step answered _ inductionHypothesis =>
    cases step_moves answered with
    | rest => exact inductionHypothesis done
    | paused carving => exact nomatch done.symm.trans carving
    | finished carving => exact nomatch done.symm.trans carving
    | repaired repairing => exact nomatch done.symm.trans repairing

/-- Steps that take a cycle to its end carve the maze out and repair it. -/
theorem Steps.carvesOut {generator last : Generator σ} (steps : Steps generator last)
    (carving : generator.phase = .carving) (done : last.phase = .done) :
    ∃ there, CarvesOut generator.station .done there ∧
      (joinRegions there.maze there.source).result =
        .ok (last.maze, last.source, last.lastRepair) := by
  induction steps with
  | refl => exact nomatch carving.symm.trans done
  | step answered further inductionHypothesis =>
    cases step_moves answered with
    | rest idle =>
      rw [carving] at idle
      cases idle
    | paused _ called still =>
      obtain ⟨there, carved, joined⟩ := inductionHypothesis still done
      exact ⟨there, .resume called carved, joined⟩
    | @finished there final _ _ called joined same _ ended =>
      obtain rfl := further.eq_of_done ended
      rw [same]
      exact ⟨there, .last called nofun, joined⟩
    | repaired repairing => exact nomatch carving.symm.trans repairing

/-- In every run of a new generator, a maze that is handed out is finished; no repair is
    ever left to be done, and carving alone is ever paused. -/
theorem handed_out_is_finished [LawfulRandomSource σ] {maze : Maze} {source : σ}
    {budget : Duration} {generator : Generator σ} (run : Run (new maze source budget) generator) :
    (∀ handed, generator.finished = some handed ∨ generator.collect.1 = some handed →
      handed.Finished) ∧
    generator.phase ≠ .repairing ∧
    (generator.progress.paused = true → generator.phase = .carving) := by
  have sound : generator.Sound := run.sound (sound_new maze source budget)
  refine ⟨?_, sound.settled, sound.paused⟩
  intro handed out
  obtain ⟨done, rfl⟩ := done_of_handed_out out
  exact sound.finished done

/-- A small board with a blank pattern on it is handed out after one step. -/
theorem handed_out_is_finished_blank :
    ∃ generator handed, Run (new (Maze.fresh { width := 4, height := 2 }) (KeyStream.ofSeed 1)
      (.ofMillis 5)) generator ∧ generator.finished = some handed ∧ handed.Finished := by
  have seen : (((new (Maze.fresh { width := 4, height := 2 }) (KeyStream.ofSeed 1)
      (.ofMillis 5)).start [.fixed ⟨0, 0⟩ Pattern.blank] (some 2) >>= fun started =>
        started.step 1000 (⟨.zero, .zero⟩ : ManualClock)).result.toOption.map fun last =>
          last.1.phase) = some .done := by
    decide +kernel
  obtain ⟨⟨last, after⟩, answered, done⟩ := Logged.exists_of_seen seen
  obtain ⟨started, begun, stepped⟩ := Logged.result_bind_eq_ok.mp answered
  have run := (Run.new.start begun).step stepped
  have shown : last.finished = some last.maze := if_pos done
  exact ⟨last, last.maze, run, shown, (handed_out_is_finished run).1 _ (.inl shown)⟩

/-- Carving a carvable maze is never stuck, whatever is drawn, remembered or asked of the
    timer: it answers with a carvable maze, which has no empty cell when it is done, or
    stops for want of effort or at a fault of the timer. Every cycle starts with a
    carvable maze, and a fitting plan that leaves a choice of place starts one; so in
    every run a step stops only for want of effort or time, or at a fault of its clock. -/
theorem carving_never_stuck [LawfulRandomSource σ] :
    (∀ (maze : Maze) (source : σ) (progress : Progress) (τ : Type)
        (expired : τ → Except Fault (Bool × τ)) (timer : τ) (effort : Nat), Carvable maze →
      (∀ slice, (carve effort expired maze source progress timer).result = .ok slice →
        (∀ place target, slice.outcome ≠ .stuck place target) ∧ Carvable slice.maze ∧
          (slice.outcome = .done → ∀ place, (slice.maze.get place).empty = false)) ∧
      ∀ fault, (carve effort expired maze source progress timer).result = .error fault →
        fault = .unfinished ∨ ∃ asked, expired asked = .error fault) ∧
    (∀ (generator : Generator σ) (plan : List Placement) (reseed : Option UInt64),
      (∀ started, (generator.start plan reseed).result = .ok started → Carvable started.maze) ∧
      ((∀ placement ∈ plan, placement.Fitting generator.maze.size ∧ placement.Drawable) →
        ∃ started, (generator.start plan reseed).result = .ok started)) ∧
    ∀ (maze : Maze) (source : σ) (budget : Duration) (generator : Generator σ),
      Run (new maze source budget) generator →
        ∀ (κ : Type) [Clock κ] (clock : κ) (effort : Nat) (fault : Fault),
          (generator.step effort clock).result = .error fault →
            fault = .unfinished ∨ fault = .timeOverflow ∨
              ∃ reading : κ, Clock.now reading = .error fault := by
  refine ⟨?_, ?_, ?_⟩
  · intro maze source progress τ expired timer effort carvable
    constructor
    · intro slice carved
      obtain ⟨ends, still⟩ := carve_spec carvable carved
      refine ⟨?_, still, ?_⟩
      · intro place target stuck
        rw [stuck] at ends
        exact ends.elim nofun fun done => nomatch done.1
      · intro done
        rw [done] at ends
        exact (ends.resolve_left nofun).2
    · exact fun fault => carve_fault carvable
  · intro generator plan reseed
    constructor
    · intro started answered
      exact (carvable_of_start answered).1
    · intro fitting
      apply start_ok
      · exact fun placement member => (fitting placement member).1
      · exact fun placement member => (fitting placement member).2
  · intro maze source budget generator run κ _ clock effort fault failed
    exact ((run.sound (sound_new maze source budget)).step_halts failed).fault_cases

/-- One call carves a fresh maze of four cells out. -/
theorem carving_never_stuck_fresh :
    ∃ slice, (carve 1000 (fun timer => .ok (false, timer)) (Maze.fresh { width := 2, height := 2 })
      (KeyStream.ofSeed 0) .initial ()).result = .ok slice ∧ Carvable slice.maze ∧
        ∀ place, (slice.maze.get place).empty = false := by
  obtain ⟨slice, carved, done⟩ := exists_carve_done_fresh
  have spec := (carving_never_stuck.1 _ _ _ _ _ _ _ (carvable_fresh _)).1 slice carved
  exact ⟨slice, carved, spec.2.1, spec.2.2 done⟩

/-- The result of a cycle is settled by the size of the board, the plan and the source it
    draws from: on any two generators, whatever they hold and however their budgets and
    clocks cut the steps, it ends with the same maze, report and source. -/
theorem cycle_settled_by_start {first second firstStarted secondStarted firstLast secondLast :
      Generator σ} {plan : List Placement} {reseed : Option UInt64}
    (sameSize : first.maze.size = second.maze.size)
    (sameSource : reseed = none → first.source = second.source)
    (firstStart : (first.start plan reseed).result = .ok firstStarted)
    (secondStart : (second.start plan reseed).result = .ok secondStarted)
    (firstSteps : Steps firstStarted firstLast) (secondSteps : Steps secondStarted secondLast)
    (firstDone : firstLast.phase = .done) (secondDone : secondLast.phase = .done) :
    firstLast.maze = secondLast.maze ∧ firstLast.lastRepair = secondLast.lastRepair ∧
      firstLast.source = secondLast.source := by
  have sameSeed : seedSource first.source reseed = seedSource second.source reseed := by
    cases reseed with
    | none => exact sameSource rfl
    | some seed => rfl
  obtain ⟨board, stamped, standing, carving⟩ := station_of_start firstStart
  obtain ⟨otherBoard, otherStamped, otherStanding, otherCarving⟩ := station_of_start secondStart
  rw [sameSize, sameSeed] at stamped
  obtain rfl := Except.ok.inj (stamped.symm.trans otherStamped)
  obtain ⟨there, carved, joined⟩ := firstSteps.carvesOut carving firstDone
  obtain ⟨otherThere, otherCarved, otherJoined⟩ := secondSteps.carvesOut otherCarving secondDone
  rw [standing] at carved
  rw [otherStanding] at otherCarved
  obtain ⟨-, rfl⟩ := carved.agree otherCarved
  have same := Except.ok.inj (joined.symm.trans otherJoined)
  obtain ⟨sameMaze, sameRest⟩ := Prod.mk.inj same
  obtain ⟨sameSource, sameRepair⟩ := Prod.mk.inj sameRest
  exact ⟨sameMaze, sameRepair, sameSource⟩

/-- A generator that has never been started. -/
def neverStarted : Generator KeyStream :=
  new (Maze.fresh { width := 2, height := 2 }) (KeyStream.ofSeed 1) (.ofMillis 5)

/-- A generator whose cycle was paused, with a wall out, another source and no budget. -/
def pausedMidway : Generator KeyStream where
  maze := (Maze.fresh { width := 2, height := 2 }).setWall ⟨0, 0⟩ .right false
  source := KeyStream.ofSeed 9
  progress := ⟨⟨1, 1⟩, some ⟨0, 1⟩, true, .ofMillis 7⟩
  phase := .carving
  budget := .zero
  lastRepair := ⟨3, 2⟩

/-- On the one a cycle takes one step, on the other two. -/
theorem cycle_settled_by_start_sliced :
    ∃ firstStarted secondStarted firstLast secondLast : Generator KeyStream,
      (neverStarted.start [] (some 3)).result = .ok firstStarted ∧
      (pausedMidway.start [] (some 3)).result = .ok secondStarted ∧
      Steps firstStarted firstLast ∧ Steps secondStarted secondLast ∧
      firstLast.maze = secondLast.maze ∧ firstLast.lastRepair = secondLast.lastRepair ∧
      firstLast.source = secondLast.source := by
  have firstSeen : (neverStarted.start [] (some 3) >>= fun started =>
      started.step 1000 (⟨.zero, .zero⟩ : ManualClock)).result.toOption.map
        (fun last => last.1.phase) = some .done := by
    decide +kernel
  have secondSeen : (pausedMidway.start [] (some 3) >>= fun started =>
      started.step 1000 (⟨.zero, .ofMillis 1⟩ : ManualClock) >>= fun paused =>
        paused.1.step 1000 paused.2).result.toOption.map
        (fun last => last.1.phase) = some .done := by
    decide +kernel
  obtain ⟨⟨firstLast, _⟩, firstAnswered, firstDone⟩ := Logged.exists_of_seen firstSeen
  obtain ⟨firstStarted, firstBegun, firstStepped⟩ := Logged.result_bind_eq_ok.mp firstAnswered
  obtain ⟨⟨secondLast, _⟩, secondAnswered, secondDone⟩ := Logged.exists_of_seen secondSeen
  obtain ⟨secondStarted, secondBegun, secondRest⟩ := Logged.result_bind_eq_ok.mp secondAnswered
  obtain ⟨⟨paused, _⟩, secondPaused, secondStepped⟩ := Logged.result_bind_eq_ok.mp secondRest
  have firstSteps : Steps firstStarted firstLast := .step firstStepped .refl
  have secondSteps : Steps secondStarted secondLast := .step secondPaused (.step secondStepped .refl)
  have sameSize : neverStarted.maze.size = pausedMidway.maze.size := rfl
  have reseeded : some (3 : UInt64) = none → neverStarted.source = pausedMidway.source := nofun
  exact ⟨firstStarted, secondStarted, firstLast, secondLast, firstBegun, secondBegun, firstSteps,
    secondSteps, cycle_settled_by_start sameSize reseeded firstBegun secondBegun firstSteps secondSteps
      firstDone secondDone⟩

end Generator

end MazeDial

import MazeDial.Proofs.Histories
import MazeDial.Proofs.Reports
import MazeDial.Proofs.Scripts
import MazeDial.Proofs.Strokes

/-!
# The upkeep of a dial

What a dial owes to the one who looks at it. Each cycle begun is finished by its own
maze, in the order begun, and none is discarded; each request is served by a cycle
begun after it, and none is begun without a reason; and a dial that rests shows what it
should. All of it is read off the account of a run. That account counts the cycles that
refreshes have started: what they report of starts says the same.

A refresh never refuses: every scene has a plan that fits the board, and the board is
sound at every moment. So it stops only for want of effort or time, or at a fault of
its clock.
-/

namespace MazeDial

variable {σ κ : Type} [RandomSource σ]

namespace Generator

variable [LawfulRandomSource σ] {generator next : Generator σ}

/-- Work on a cycle keeps the size of the board and what holds between two calls. -/
theorem Advances.sound_size {maze : Option Maze} (advances : generator.Advances maze next)
    (sound : generator.Sound) : next.Sound ∧ next.maze.size = generator.maze.size := by
  cases advances with
  | on steps =>
    obtain ⟨kept, grown⟩ := steps.grown sound
    exact ⟨kept, grown.size_eq⟩
  | @out last steps done =>
    obtain ⟨kept, grown⟩ := steps.grown sound
    have collected := kept.collect
    rw [collect, if_pos done] at collected
    exact ⟨collected, grown.size_eq⟩

end Generator

namespace Dial

/-- What holds of a dial between two calls: its generator is sound, on the board of a dial. -/
structure Kept (dial : Dial κ σ) : Prop where
  sound : dial.generator.Sound
  size_eq : dial.generator.maze.size = .dial

omit [RandomSource σ] in
theorem kept_new {clock : κ} {settings : Settings} {source : σ} {dial : Dial κ σ}
    (made : new clock settings source = .ok dial) : dial.Kept := by
  obtain ⟨budget, rfl⟩ := new_eq made
  exact ⟨Generator.sound_new .., rfl⟩

variable [LawfulRandomSource σ] [Clock κ] {dial next : Dial κ σ}

/-- A refresh keeps it. -/
theorem Kept.refreshes {maze : Option Maze} (kept : dial.Kept)
    (refreshes : dial.Refreshes maze next) : next.Kept := by
  cases refreshes with
  | work _ advances =>
    obtain ⟨sound, size⟩ := advances.sound_size kept.sound
    exact ⟨sound, size.trans kept.size_eq⟩
  | rest => exact ⟨kept.sound, kept.size_eq⟩
  | start _ _ begins advances =>
    obtain ⟨plan, -, answered⟩ := begins
    obtain ⟨sound, size⟩ := advances.sound_size (Generator.sound_of_start answered)
    exact ⟨sound, size.trans ((Generator.size_of_start answered).trans kept.size_eq)⟩

/-- Every call keeps it. -/
theorem Kept.answers {call : Call} (kept : dial.Kept) (answers : dial.Answers call next) :
    next.Kept := by
  cases answers with
  | refresh answered => exact kept.refreshes (refreshes_of_refresh kept.sound.settled answered)
  | touch answered =>
    obtain ⟨generator, -, -⟩ := (touches_of_touch answered).leaves
    exact ⟨generator ▸ kept.sound, generator ▸ kept.size_eq⟩
  | button =>
    obtain ⟨generator, -, -⟩ := dial.button_leaves
    exact ⟨generator ▸ kept.sound, generator ▸ kept.size_eq⟩

/-- It holds at every moment of every run. -/
theorem Run.kept {clock : κ} {settings : Settings} {source : σ} {first : Dial κ σ}
    {history : List (Deed κ σ)} (run : Run first history dial)
    (made : Dial.new clock settings source = .ok first) : dial.Kept := by
  induction run with
  | new => exact kept_new made
  | call _ answers inductionHypothesis => exact inductionHypothesis.answers answers
  | wait _ _ inductionHypothesis => exact ⟨inductionHypothesis.sound, inductionHypothesis.size_eq⟩

omit [Clock κ] in
/-- A cycle can be begun for every scene, minute and cause. -/
theorem Kept.exists_begin (kept : dial.Kept) (minute : Nat) (cause : Cause) :
    ∃ next, (dial.begin minute cause).result = .ok next := by
  obtain ⟨plan, planned, fits⟩ := dial.scene.plan_fitting dial.settings.clockType minute
  have fitting : ∀ placement ∈ plan, placement.Fitting dial.generator.maze.size :=
    fun placement member => kept.size_eq ▸ (fits placement member).1
  obtain ⟨started, answered⟩ := Generator.start_ok fitting
    (fun placement member => (fits placement member).2) (cause.seed minute)
  refine ⟨{ dial with generator := started, requested := false }, ?_⟩
  simp only [begin, Logged.result_bind_eq_ok, Logged.result_lift]
  exact ⟨plan, planned, (), rfl, started, answered, rfl⟩

omit [LawfulRandomSource σ] in
/-- The generator that a refresh steps, and the clock it is stepped with: that of the cycle
    under way; or that of a cycle begun, when one is due at the minute read. -/
inductive Works (dial : Dial κ σ) : Generator σ → κ → Prop
  | underWay (generating : dial.isGenerating = true) : Works dial dial.generator dial.clock
  | begun {now : Duration} {clock : κ} {cause : Cause} {started : Generator σ}
      (idle : dial.isGenerating = false) (reading : Clock.now dial.clock = .ok (now, clock))
      (due : dial.due (localMinute now dial.settings.utcOffset) = some cause)
      (begins : (dial.cycle (localMinute now dial.settings.utcOffset) cause).Begins started) :
      Works dial started clock

omit [LawfulRandomSource σ] in
/-- Why a refresh may stop without an answer: the reading of the minute fails, or the step
    stops. -/
inductive Halts (dial : Dial κ σ) (effort : Nat) (fault : Fault) : Prop
  | unread (idle : dial.isGenerating = false) (failed : Clock.now dial.clock = .error fault)
  | step {worked : Generator σ} {clock : κ} (works : dial.Works worked clock)
      (halts : worked.Halts effort clock fault)

omit [LawfulRandomSource σ] in
/-- Its fault is then want of effort, a sum of durations, or a fault of some clock. -/
theorem Halts.fault_cases {effort : Nat} {fault : Fault} (halts : dial.Halts effort fault) :
    fault = .unfinished ∨ fault = .timeOverflow ∨
      ∃ reading : κ, Clock.now reading = .error fault := by
  cases halts with
  | unread _ failed => exact .inr (.inr ⟨_, failed⟩)
  | step _ halts => exact halts.fault_cases

omit [LawfulRandomSource σ] in
/-- Work on a cycle stops as its step does. -/
theorem step_of_work {effort : Nat} {fault : Fault}
    (failed : (dial.work effort).result = .error fault) :
    (dial.generator.step effort dial.clock).result = .error fault := by
  simp only [work, Logged.result_bind_eq_error] at failed
  rcases failed with stopped | ⟨_, -, impossible⟩
  · exact stopped
  · cases impossible

omit [LawfulRandomSource σ] in
/-- A refresh works with a sound generator. -/
theorem Kept.sound_of_works {worked : Generator σ} {clock : κ} (kept : dial.Kept)
    (works : dial.Works worked clock) : worked.Sound := by
  cases works with
  | underWay => exact kept.sound
  | begun _ _ _ begins =>
    obtain ⟨plan, -, answered⟩ := begins
    exact Generator.sound_of_start answered

/-- A refresh stops for no other reason: a cycle that is due can be begun. -/
theorem Kept.refresh_halts {effort : Nat} {fault : Fault} (kept : dial.Kept)
    (failed : (dial.refresh effort).result = .error fault) : dial.Halts effort fault := by
  have steps {worked : Generator σ} {clock : κ} (works : dial.Works worked clock)
      (stopped : (worked.step effort clock).result = .error fault) : dial.Halts effort fault :=
    .step works ((kept.sound_of_works works).step_halts stopped)
  unfold refresh at failed
  split at failed
  · next generating => exact steps (.underWay generating) (step_of_work failed)
  · next generating =>
    have idle : dial.isGenerating = false := Bool.eq_false_iff.mpr generating
    simp only [Logged.result_bind_eq_error, Logged.result_lift] at failed
    rcases failed with unread | ⟨⟨now, clock⟩, reading, failed⟩
    · exact .unread idle unread
    · simp only at failed
      cases due : dial.due (localMinute now dial.settings.utcOffset) with
      | none =>
        rw [due] at failed
        cases failed
      | some cause =>
        rw [due] at failed
        simp only [Logged.result_bind_eq_error] at failed
        have looked : Kept { dial with
            clock := clock, lastMinute := some (localMinute now dial.settings.utcOffset) } :=
          ⟨kept.sound, kept.size_eq⟩
        rcases failed with unbegun | ⟨begun, beginning, failed⟩
        · obtain ⟨next, answered⟩ :=
            looked.exists_begin (localMinute now dial.settings.utcOffset) cause
          cases unbegun.symm.trans answered
        · obtain ⟨started, begins, rfl⟩ := begin_result beginning
          exact steps (.begun idle reading due begins) (step_of_work failed)

end Dial

/-- What is counted as begun by a call is what the call has started. -/
structure Deed.Told [Clock κ] (deed : Deed κ σ) : Prop where
  answers : deed.before.Answers deed.call deed.after
  /-- The cycle counted is the one that was due at the minute read, if a minute was read. -/
  cycle_eq : deed.cycle =
    deed.look.bind fun minute => (deed.before.due minute).map (deed.before.cycle minute)
  /-- A refresh reports the start of that cycle, and no other start. -/
  announced : ∀ effort maze, deed.call = .refresh maze →
    (deed.before.refresh effort).result = .ok (maze, deed.after) →
      Dial.Announces deed.cycle (deed.before.refresh effort).starts
  /-- The other calls leave the generator alone. -/
  left : (∀ maze, deed.call ≠ .refresh maze) → deed.after.generator = deed.before.generator

namespace History

variable [Clock κ] {history newer between older earlier : List (Deed κ σ)} {dial next : Dial κ σ}
  {deed request : Deed κ σ}

/-- The cycles begun are those finished and, while the dial generates, the one under way. -/
theorem Account.exists_underWay (account : Account history dial) :
    ∃ underWay : List (Cycle σ), cycles history = underWay ++ (finished history).map Prod.fst ∧
      (∀ cycle ∈ underWay, cycle.Reaches dial.generator) ∧
        underWay.length = if dial.isGenerating then 1 else 0 := by
  cases generating : dial.isGenerating with
  | false =>
    have idle := account.isGenerating_eq_false_iff.mp generating
    exact ⟨[], account.ledger.idle idle, fun _ member => absurd member List.not_mem_nil, rfl⟩
  | true =>
    have carving := account.isGenerating_iff.mp generating
    obtain ⟨cycle, last, reaches⟩ := account.ledger.underWay carving
    refine ⟨[cycle], last, ?_, rfl⟩
    intro other member
    rw [List.mem_singleton.mp member]
    exact reaches

/-- A cycle that was finished was begun. -/
theorem Account.mem_cycles {cycle : Cycle σ} {maze : Maze} (account : Account history dial)
    (done : (cycle, maze) ∈ finished history) : cycle ∈ cycles history := by
  obtain ⟨underWay, begun, -, -⟩ := account.exists_underWay
  rw [begun]
  exact List.mem_append_right _ (List.mem_map_of_mem done)

/-- As many cycles were begun as mazes handed out, and one more while the dial generates. -/
theorem Account.length_cycles (account : Account history dial) :
    (cycles history).length = (mazes history).length + if dial.isGenerating then 1 else 0 := by
  obtain ⟨underWay, begun, -, count⟩ := account.exists_underWay
  rw [begun, List.length_append, count, account.ledger.mazes_eq, List.length_map, List.length_map,
    Nat.add_comm]

omit [RandomSource σ] in
/-- A cycle begun stays begun. -/
theorem cycles_cons_ne_nil (begun : cycles history ≠ []) : cycles (deed :: history) ≠ [] := by
  cases here : deed.cycle with
  | none => rwa [cycles_of_none here]
  | some cycle =>
    rw [cycles_of_some here]
    exact List.cons_ne_nil _ _

/-- A refresh that finds no cycle under way begins one, if a request was accepted before
    and none begun since. -/
theorem served_of_refresh {maze : Option Maze}
    (account : Account (between ++ request :: older) dial) (accepted : request.isRequest = true)
    (refreshes : dial.Refreshes maze next) (idle : dial.isGenerating = false) :
    cycles (⟨dial, .refresh maze, next⟩ :: between) ≠ [] := by
  by_cases unserved : cycles between = []
  · have waiting : dial.requested = true := by
      rw [account.requested]
      exact pending_iff.mpr ⟨between, request, older, rfl, accepted, unserved⟩
    have begun := Deed.cycle_of_refreshes refreshes
    cases refreshes with
    | work underWay => cases idle.symm.trans underWay
    | rest _ undue => cases waiting.symm.trans (Dial.due_eq_none undue).1
    | start read due =>
      rw [read, Option.bind_some, due, Option.map_some] at begun
      rw [cycles_of_some begun]
      exact List.cons_ne_nil _ _
  · exact cycles_cons_ne_nil unserved

/-- Every call of a run is told of truly. -/
theorem told_of_run {clock : κ} {settings : Settings} {source : σ} {first : Dial κ σ}
    (made : Dial.new clock settings source = .ok first) (run : Dial.Run first history dial) :
    ∀ deed ∈ history, deed.Told := by
  rintro ⟨before, call, after⟩ member
  obtain ⟨newer, earlier, rfl⟩ := List.append_of_mem member
  obtain ⟨ledTo, answers⟩ : Dial.Run first earlier before ∧ before.Answers call after := run.answers
  cases answers with
  | refresh answered =>
    have cycle_eq := Deed.cycle_of_refreshes ((account_of_run made ledTo).refreshes answered)
    refine ⟨.refresh answered, cycle_eq, ?_, fun other => absurd rfl (other _)⟩
    rintro effort maze ⟨⟩ answered
    rw [cycle_eq]
    exact Dial.refresh_announces answered
  | touch answered =>
    obtain ⟨left, -, -⟩ := (Dial.touches_of_touch answered).leaves
    exact ⟨.touch answered, Deed.cycle_of_look_eq_none rfl, nofun, fun _ => left⟩
  | button =>
    obtain ⟨left, -, -⟩ := before.button_leaves
    exact ⟨.button, Deed.cycle_of_look_eq_none rfl, nofun, fun _ => left⟩

/-- Each cycle of a run was begun by a call that read a minute for which one was due. -/
theorem exists_due {clock : κ} {settings : Settings} {source : σ} {first : Dial κ σ}
    {cycle : Cycle σ} (made : Dial.new clock settings source = .ok first)
    (run : Dial.Run first (newer ++ deed :: earlier) dial) (begun : deed.cycle = some cycle) :
    ∃ minute cause, deed.look = some minute ∧ deed.before.due minute = some cause ∧
      deed.before.cycle minute cause = cycle := by
  have told := told_of_run made run deed (List.mem_append_right _ List.mem_cons_self)
  rw [told.cycle_eq] at begun
  obtain ⟨minute, read, begun⟩ := Option.bind_eq_some_iff.mp begun
  obtain ⟨cause, due, same⟩ := Option.map_eq_some_iff.mp begun
  exact ⟨minute, cause, read, due, same⟩

omit [RandomSource σ] in
/-- A cycle that was begun is listed where its call stands. -/
theorem exists_deed {cycle : Cycle σ} (listed : cycle ∈ cycles history) :
    ∃ newer deed earlier, history = newer ++ deed :: earlier ∧ deed.cycle = some cycle := by
  obtain ⟨deed, member, begun⟩ := List.mem_filterMap.mp listed
  obtain ⟨newer, earlier, split⟩ := List.append_of_mem member
  exact ⟨newer, deed, earlier, split, begun⟩

/-- Each cycle of a run counts hours as the settings say. -/
theorem clockType_of_run {clock : κ} {settings : Settings} {source : σ} {first : Dial κ σ}
    {cycle : Cycle σ} (made : Dial.new clock settings source = .ok first)
    (run : Dial.Run first history dial) (listed : cycle ∈ cycles history) :
    cycle.clockType = settings.clockType := by
  obtain ⟨newer, deed, earlier, rfl, begun⟩ := exists_deed listed
  obtain ⟨minute, cause, -, -, rfl⟩ := exists_due made run begun
  exact congrArg Settings.clockType (settings_of_run made run.answers.1)

/-- A cycle is due only for a request accepted since the last one, or on the time at
    another minute than that of the last look. -/
theorem reason_of_due {minute : Nat} {cause : Cause} (account : Account earlier dial)
    (due : dial.due minute = some cause) :
    (∃ between request older, earlier = between ++ request :: older ∧ request.isRequest = true ∧
        cycles between = []) ∨
      dial.scene = .watchFace ∧ (looks earlier).head? ≠ some minute := by
  obtain ⟨reason, turned⟩ := Dial.due_eq_some due
  by_cases requested : dial.requested = true
  · exact .inl (pending_iff.mp (account.requested ▸ requested))
  · rw [if_neg requested] at reason
    exact .inr (account.lastMinute ▸ turned reason)

/-- In every run of a new dial, the cycles counted as begun are those that its refreshes have
    started, as `Generator.start` has reported them, and none was thrown away for another. Each
    cycle begun is finished by its own maze, in the order begun, but for the one under way. A
    request is followed by a cycle begun after it, at the latest by the first refresh that finds
    none under way; such a refresh stops without an answer only for want of effort or time, or at
    a fault of its clock. And no cycle is begun but for a request accepted since the last one, or
    for the time when the minute is another than that of the last look. -/
theorem no_cycle_or_request_lost [LawfulRandomSource σ] {clock : κ} {settings : Settings}
    {source : σ} {first : Dial κ σ} (made : Dial.new clock settings source = .ok first)
    (run : Dial.Run first history dial) :
    (∀ deed ∈ history, deed.Told) ∧
    (∃ underWay : List (Cycle σ), cycles history = underWay ++ (finished history).map Prod.fst ∧
      (∀ cycle ∈ underWay, cycle.Reaches dial.generator) ∧
        underWay.length = if dial.isGenerating then 1 else 0) ∧
    mazes history = (finished history).map Prod.snd ∧
    (∀ done ∈ finished history, done.1.Yields done.2) ∧
    ((cycles history).length = (mazes history).length + if dial.isGenerating then 1 else 0) ∧
    (∀ newer deed between request older maze,
      history = newer ++ deed :: (between ++ request :: older) → request.isRequest = true →
      deed.call = .refresh maze → deed.before.isGenerating = false →
        cycles (deed :: between) ≠ []) ∧
    (∀ newer deed earlier cycle, history = newer ++ deed :: earlier → deed.cycle = some cycle →
      (∃ between request older, earlier = between ++ request :: older ∧
          request.isRequest = true ∧ cycles between = []) ∨
        cycle.scene = .watchFace ∧ (looks earlier).head? ≠ some cycle.minute) ∧
    ∀ effort fault, (dial.refresh effort).result = .error fault →
      fault = .unfinished ∨ fault = .timeOverflow ∨
        ∃ reading : κ, Clock.now reading = .error fault := by
  have account : Account history dial := account_of_run made run
  refine ⟨told_of_run made run, account.exists_underWay, account.ledger.mazes_eq,
    account.ledger.yields, account.length_cycles, ?_, ?_, fun effort fault failed =>
      ((run.kept made).refresh_halts failed).fault_cases⟩
  · rintro newer ⟨before, call, after⟩ between request older maze rfl accepted rfl idle
    obtain ⟨ledTo, answers⟩ := run.answers
    have accountBefore := account_of_run made ledTo
    cases answers with
    | refresh answered =>
      exact served_of_refresh accountBefore accepted (accountBefore.refreshes answered) idle
  · rintro newer deed earlier cycle rfl begun
    obtain ⟨minute, cause, -, due, rfl⟩ := exists_due made run begun
    exact reason_of_due (account_of_run made run.answers.1) due

/-- A long tap on a new dial is served by the first refresh, which draws from a script
    that shows the time in one slice. It reports one start, of the time and not for the minute. -/
theorem no_cycle_or_request_lost_tapped :
    ∃ script, ∃ first dial : Dial ManualClock (Script script), ∃ served request placements,
      Dial.new ⟨.zero, .zero⟩ {} ⟨script⟩ = .ok first ∧
      Dial.Run first [served, request] dial ∧ request.isRequest = true ∧
      (served.before.refresh 577).starts =
        [.sceneStarted .watchFace false, .cycleStarted placements false] ∧
      cycles [served] ≠ [] ∧ dial.isGenerating = false ∧
      (cycles [served, request]).length = (mazes [served, request]).length + 0 := by
  obtain ⟨script, shows⟩ := Dial.exists_script_refresh .h24 0
  obtain ⟨budget, deadline, made, late⟩ := Dial.exists_still .zero {} (⟨script⟩ : Script script)
    15000000 (by decide +kernel) (by decide)
  let first := Dial.still .zero {} (⟨script⟩ : Script script) budget
  let tapped : Dial ManualClock (Script script) :=
    { first with requested := true, lastLongTap := some .zero }
  have tapping : (first.touch .longTap).result = .ok (true, tapped) := rfl
  have still : Clock.now tapped.clock = .ok (.zero, tapped.clock) := ManualClock.now_still _
  obtain ⟨maze, generator, refreshed, idle⟩ := shows script ManualClock tapped 577 .request .zero
    deadline rfl rfl rfl rfl still rfl rfl rfl late (by decide)
  have run := (Dial.Run.new.call (.touch tapping)).call (.refresh refreshed)
  obtain ⟨told, -, -, -, count, serves, -⟩ := no_cycle_or_request_lost made run
  have served := told _ List.mem_cons_self
  have announced := served.announced 577 maze rfl refreshed
  have read : tapped.look = some 0 := Dial.look_eq_some rfl still rfl
  rw [served.cycle_eq, Deed.look_refresh, read] at announced
  obtain ⟨plan, -, starts⟩ := Dial.Announces.notes_eq announced
  have resting : generator.phase.isGenerating = false := by rw [idle]; rfl
  refine ⟨script, first, _, _, _, plan.length, made, run, rfl, starts, ?_, resting, ?_⟩
  · exact serves [] _ [] _ [] _ rfl rfl rfl rfl
  · exact count.trans (by rw [Dial.isGenerating, resting]; rfl)

/-- Whenever a refresh of a dial in any run answers no maze and leaves no cycle under way,
    a cycle has been finished, and the last one finished, whose maze was handed out last,
    was begun for the scene that is shown; if that is the time, it was begun for the very
    minute that the refresh has read. -/
theorem idle_dial_up_to_date {clock : κ} {settings : Settings} {source : σ} {first : Dial κ σ}
    {effort : Nat} (made : Dial.new clock settings source = .ok first)
    (run : Dial.Run first history dial)
    (answered : (dial.refresh effort).result = .ok (none, next))
    (idle : next.isGenerating = false) :
    ∃ cycle maze, (finished history).head? = some (cycle, maze) ∧
      (mazes history).head? = some maze ∧ cycle.Yields maze ∧
      cycle.clockType = dial.settings.clockType ∧ cycle.scene = next.scene ∧
      (next.scene = .watchFace → dial.look = some cycle.minute) := by
  have account : Account history dial := account_of_run made run
  have visible {started generator : Generator σ} (advances : started.Advances none generator)
      (resting : generator.phase.isGenerating = false) : False := by
    have working := advances.visible
    rw [resting] at working
    cases working
  cases account.refreshes answered with
  | work _ advances => exact (visible advances idle).elim
  | start _ _ _ advances => exact (visible advances idle).elim
  | @rest minute _ read undue =>
    obtain ⟨unrequested, unchanged⟩ := Dial.due_eq_none undue
    have begun := account.ledger.idle (account.isGenerating_eq_false_iff.mp idle)
    have scene := account.scene unrequested
    have lastMinute := account.minute unrequested
    cases done : finished history with
    | nil =>
      -- Nothing was ever begun: the dial shows the time, whose minute was never read.
      rw [begun, done] at scene lastMinute
      cases (unchanged scene).symm.trans (lastMinute scene)
    | cons latest rest =>
      obtain ⟨cycle, maze⟩ := latest
      rw [begun, done] at scene lastMinute
      have member : (cycle, maze) ∈ finished history := done ▸ List.mem_cons_self
      have clockType := clockType_of_run made run (account.mem_cycles member)
      rw [← settings_of_run made run] at clockType
      refine ⟨cycle, maze, rfl, ?_, account.ledger.yields _ member, clockType, scene.symm, ?_⟩
      · rw [account.ledger.mazes_eq, done]
        rfl
      · intro onTime
        rw [read, ← unchanged onTime, lastMinute onTime]
        rfl

/-- The first refresh of a new dial shows the time, if it is drawn from some script; the
    minute had never been read. The second one at the same time rests. -/
theorem exists_shown (clockType : ClockType) (minute : Nat) :
    ∃ script, ∀ (time : Duration) (settings : Settings) (source : Script script) (nanos : Nat),
      settings.clockType = clockType → localMinute time settings.utcOffset = minute →
      settings.budget.toOption.map Duration.nanos = some nanos →
      time.nanos + nanos < UInt64.size * 1000000000 →
        ∃ (first dial next : Dial ManualClock (Script script)) (shown : Deed _ _)
          (cycle : Cycle (Script script)) (maze : Maze),
          Dial.new ⟨time, .zero⟩ settings source = .ok first ∧ Dial.Run first [shown] dial ∧
          finished [shown] = [(cycle, maze)] ∧ cycle.cause = .rollover ∧ cycle.minute = minute ∧
          (dial.refresh 0).result = .ok (none, next) ∧ next.isGenerating = false ∧
          next.scene = .watchFace := by
  obtain ⟨script, shows⟩ := Dial.exists_script_refresh clockType minute
  refine ⟨script, ?_⟩
  intro time settings source nanos sameType read seen short
  obtain ⟨budget, deadline, made, late⟩ := Dial.exists_still time settings source nanos seen short
  let first := Dial.still time settings source budget
  have still : Clock.now first.clock = .ok (time, first.clock) := ManualClock.now_still time
  obtain ⟨maze, generator, answered, idle⟩ := shows script ManualClock first 577 .rollover time
    deadline rfl rfl sameType rfl still read rfl rfl late (by decide)
  let dial := { first with generator := generator, lastMinute := some minute }
  have looked : first.look = some minute := Dial.look_eq_some rfl still read
  have run : Dial.Run first [⟨first, .refresh (some maze), dial⟩] dial :=
    Dial.Run.new.call (.refresh answered)
  have resting : dial.isGenerating = false := by
    rw [Dial.isGenerating, idle]
    rfl
  have undue : dial.due (localMinute time dial.settings.utcOffset) = none := by
    rw [show localMinute time dial.settings.utcOffset = minute from read]
    simp [Dial.due, dial, first, Dial.still]
  exact ⟨first, dial, _, _, _, maze, made, run, finished_of_look looked rfl, rfl, rfl,
    Dial.refresh_of_undue resting still undue, resting, rfl⟩

/-- So the last cycle finished is that of the time, for the minute that was read. -/
theorem idle_dial_up_to_date_resting :
    ∃ script, ∃ first dial next : Dial ManualClock (Script script), ∃ shown cycle maze,
      Dial.new ⟨.zero, .zero⟩ {} ⟨script⟩ = .ok first ∧ Dial.Run first [shown] dial ∧
      (dial.refresh 0).result = .ok (none, next) ∧ next.isGenerating = false ∧
      (finished [shown]).head? = some (cycle, maze) ∧ cycle.Yields maze ∧
      cycle.scene = next.scene ∧ dial.look = some cycle.minute := by
  obtain ⟨script, shows⟩ := exists_shown .h24 0
  obtain ⟨first, dial, next, shown, -, -, made, run, -, -, -, answered, idle, onTime⟩ :=
    shows .zero {} ⟨script⟩ 15000000 rfl rfl (by decide +kernel) (by decide)
  obtain ⟨cycle, maze, last, -, yields, -, scene, minute⟩ :=
    idle_dial_up_to_date made run answered idle
  exact ⟨script, first, dial, next, shown, cycle, maze, made, run, answered, idle, last, yields,
    scene, minute onTime⟩

end History

end MazeDial

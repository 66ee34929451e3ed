import MazeDial.Proofs.DialCalls

/-!
# Histories of a dial

A history lists the calls that a dial has answered, the latest first, each with the
dial before and after it. From it can be read which cycles were begun, which mazes
were handed out, which local minutes were read and whether a request waits to be
served; a dial remembers none of this but two fields. The account of a run says that
these two fields tell the truth about the history, and that every cycle begun is
either under way or has been finished by the maze it was begun for.

It follows that no cycle is discarded and no request lost, and that a dial which
finds nothing to do shows what it should.
-/

namespace MazeDial

/-- A call of a dial, with its answer. -/
inductive Call where
  | refresh (maze : Option Maze)
  | touch (event : Touch) (used : Bool)
  | button (used : Bool)

/-- A call that was answered, with the dial before and after it. -/
structure Deed (κ σ : Type) where
  before : Dial κ σ
  call : Call
  after : Dial κ σ

variable {κ σ : Type}

namespace Deed

/-- The maze that a call handed out. -/
def handedOut (deed : Deed κ σ) : Option Maze :=
  match deed.call with
  | .refresh maze => maze
  | .touch _ _ => none
  | .button _ => none

/-- Whether a call was a request for a new maze that was accepted: a long tap or the
    button, if it was used, or a swipe that switched the scene. -/
def isRequest (deed : Deed κ σ) : Bool :=
  match deed.call with
  | .touch .longTap used => used
  | .touch (.swipe _) used => used && decide (deed.after.scene ≠ deed.before.scene)
  | .touch .tap _ => false
  | .button used => used
  | .refresh _ => false

variable [Clock κ]

/-- The local minute that a call read: that of a refresh which found no cycle under way. -/
def look (deed : Deed κ σ) : Option Nat :=
  match deed.call with
  | .refresh _ => deed.before.look
  | .touch _ _ => none
  | .button _ => none

@[simp] theorem look_refresh (before after : Dial κ σ) (maze : Option Maze) :
    (⟨before, .refresh maze, after⟩ : Deed κ σ).look = before.look := rfl

/-- The cycle that is counted as begun by a call: by a refresh that found none under way and
    has left one under way or handed out a maze. That the refresh has started this cycle, and
    that no start goes uncounted, is shown of runs from what refreshes report. -/
def cycle (deed : Deed κ σ) : Option (Cycle σ) :=
  if deed.after.isGenerating || deed.handedOut.isSome then
    deed.look.map fun minute =>
      deed.before.cycle minute (if deed.before.requested then .request else .rollover)
  else none

/-- Without a look at the time no cycle is begun. -/
theorem cycle_of_look_eq_none {deed : Deed κ σ} (blind : deed.look = none) : deed.cycle = none := by
  unfold cycle
  split
  · rw [blind, Option.map_none]
  · rfl

/-- A call that read a minute and handed out a maze has begun a cycle. -/
theorem cycle_of_handedOut {deed : Deed κ σ} {minute : Nat} {maze : Maze}
    (read : deed.look = some minute) (handed : deed.handedOut = some maze) :
    deed.cycle = some
      (deed.before.cycle minute (if deed.before.requested then .request else .rollover)) := by
  rw [cycle, handed, Option.isSome_some, Bool.or_true, if_pos rfl, read, Option.map_some]

/-- A refresh has begun a cycle exactly if it read a minute for which one was due. -/
theorem cycle_of_refreshes [RandomSource σ] {dial next : Dial κ σ} {maze : Option Maze}
    (refreshes : dial.Refreshes maze next) :
    (⟨dial, .refresh maze, next⟩ : Deed κ σ).cycle =
      dial.look.bind fun minute => (dial.due minute).map (dial.cycle minute) := by
  cases refreshes with
  | work underWay =>
    have blind : dial.look = none := by rw [Dial.look, if_pos underWay]
    rw [blind, Option.bind_none]
    exact cycle_of_look_eq_none blind
  | rest read undue =>
    have resting : dial.isGenerating = false := Dial.idle_of_look read
    rw [read, Option.bind_some, undue, Option.map_none]
    exact if_neg (by simpa [handedOut, Dial.isGenerating] using resting)
  | start read due _ advances =>
    obtain ⟨rfl, -⟩ := Dial.due_eq_some due
    rw [read, Option.bind_some, due, Option.map_some]
    refine (if_pos advances.visible).trans ?_
    rw [look_refresh, read, Option.map_some]

end Deed

namespace History

variable [Clock κ]

/-- The cycles begun, the latest first. -/
def cycles (history : List (Deed κ σ)) : List (Cycle σ) :=
  history.filterMap Deed.cycle

omit [Clock κ] in
/-- The mazes handed out, the latest first. -/
def mazes (history : List (Deed κ σ)) : List Maze :=
  history.filterMap Deed.handedOut

/-- The local minutes read, the latest first. -/
def looks (history : List (Deed κ σ)) : List Nat :=
  history.filterMap Deed.look

/-- The cycles finished, each with its maze, the latest first. A maze that is handed out
    finishes the cycle begun last. -/
def finished : List (Deed κ σ) → List (Cycle σ × Maze)
  | [] => []
  | deed :: earlier =>
    match deed.handedOut, (cycles (deed :: earlier)).head? with
    | some maze, some cycle => (cycle, maze) :: finished earlier
    | _, _ => finished earlier

/-- Whether a request was accepted since a cycle was last begun. -/
def pending : List (Deed κ σ) → Bool
  | [] => false
  | deed :: earlier => deed.isRequest || (deed.cycle.isNone && pending earlier)

variable {deed : Deed κ σ} {earlier : List (Deed κ σ)}

theorem cycles_of_none (unbegun : deed.cycle = none) : cycles (deed :: earlier) = cycles earlier :=
  List.filterMap_cons_none unbegun

theorem cycles_of_some {cycle : Cycle σ} (begun : deed.cycle = some cycle) :
    cycles (deed :: earlier) = cycle :: cycles earlier :=
  List.filterMap_cons_some begun

theorem finished_of_none (nothing : deed.handedOut = none) :
    finished (deed :: earlier) = finished earlier := by
  rw [finished, nothing]

theorem finished_of_some {maze : Maze} {cycle : Cycle σ} (handed : deed.handedOut = some maze)
    (last : (cycles (deed :: earlier)).head? = some cycle) :
    finished (deed :: earlier) = (cycle, maze) :: finished earlier := by
  rw [finished, handed, last]

/-- A call that read a minute and handed out a maze has finished the cycle it began. -/
theorem finished_of_look {minute : Nat} {maze : Maze} (read : deed.look = some minute)
    (handed : deed.handedOut = some maze) :
    finished (deed :: earlier) =
      (deed.before.cycle minute (if deed.before.requested then .request else .rollover), maze) ::
        finished earlier := by
  apply finished_of_some handed
  rw [cycles_of_some (Deed.cycle_of_handedOut read handed), List.head?_cons]

/-- A request is pending exactly if one was accepted and no cycle begun after it. -/
theorem pending_iff {history : List (Deed κ σ)} :
    pending history = true ↔ ∃ newer request older, history = newer ++ request :: older ∧
      request.isRequest = true ∧ cycles newer = [] := by
  induction history with
  | nil => simp [pending]
  | cons deed earlier inductionHypothesis =>
    rw [pending, Bool.or_eq_true, Bool.and_eq_true, inductionHypothesis]
    constructor
    · rintro (here | ⟨none, newer, request, older, rfl, accepted, unserved⟩)
      · exact ⟨[], deed, earlier, rfl, here, rfl⟩
      · refine ⟨deed :: newer, request, older, rfl, accepted, ?_⟩
        rw [cycles_of_none (Option.isNone_iff_eq_none.mp none), unserved]
    · rintro ⟨newer, request, older, same, accepted, unserved⟩
      cases newer with
      | nil =>
        obtain ⟨rfl, rfl⟩ := List.cons.inj same
        exact .inl accepted
      | cons first newer =>
        obtain ⟨rfl, rfl⟩ := List.cons.inj same
        cases begun : deed.cycle with
        | none =>
          rw [cycles_of_none begun] at unserved
          exact .inr ⟨rfl, newer, request, older, rfl, accepted, unserved⟩
        | some cycle =>
          rw [cycles_of_some begun] at unserved
          cases unserved

end History

namespace Dial

variable [RandomSource σ] [Clock κ]

/-- What a dial answers to a call. -/
inductive Answers (dial : Dial κ σ) : Call → Dial κ σ → Prop
  | refresh {effort : Nat} {maze : Option Maze} {next : Dial κ σ}
      (answered : (dial.refresh effort).result = .ok (maze, next)) :
      Answers dial (.refresh maze) next
  | touch {event : Touch} {used : Bool} {next : Dial κ σ}
      (answered : (dial.touch event).result = .ok (used, next)) :
      Answers dial (.touch event used) next
  | button : Answers dial (.button dial.button.1) dial.button.2

/-- The dials that calls lead to from a first one, in any number and order, with the
    history of these calls. Between calls the clock may go to any time, also back. -/
inductive Run (first : Dial κ σ) : List (Deed κ σ) → Dial κ σ → Prop
  | new : Run first [] first
  | call {history : List (Deed κ σ)} {dial next : Dial κ σ} {call : Call}
      (before : Run first history dial) (answers : dial.Answers call next) :
      Run first (⟨dial, call, next⟩ :: history) next
  | wait {history : List (Deed κ σ)} {dial : Dial κ σ} (before : Run first history dial)
      (clock : κ) : Run first history { dial with clock := clock }

/-- Each call of a history was answered by the dial that the calls before it led to. -/
theorem Run.answers {first dial : Dial κ σ} {newer earlier : List (Deed κ σ)} {deed : Deed κ σ}
    (run : Run first (newer ++ deed :: earlier) dial) :
    Run first earlier deed.before ∧ deed.before.Answers deed.call deed.after := by
  -- The induction is on the run; a wait adds nothing to the history.
  generalize split : newer ++ deed :: earlier = history at run
  induction run generalizing newer with
  | new => exact absurd split (by simp)
  | call before answers inductionHypothesis =>
    cases newer with
    | nil =>
      obtain ⟨rfl, rfl⟩ := List.cons.inj split
      exact ⟨before, answers⟩
    | cons latest newer => exact inductionHypothesis (List.cons.inj split).2
  | wait _ _ inductionHypothesis => exact inductionHypothesis split

end Dial

namespace History

variable [RandomSource σ] [Clock κ]

/-- What has become of the cycles of a history: each has been finished by its own maze,
    except the one that the generator is carving, if it is. -/
structure Ledger (history : List (Deed κ σ)) (generator : Generator σ) : Prop where
  /-- Between calls no maze waits to be repaired or to be handed out. -/
  phase : generator.phase = .idle ∨ generator.phase = .carving
  mazes_eq : mazes history = (finished history).map Prod.snd
  yields : ∀ done ∈ finished history, done.1.Yields done.2
  idle : generator.phase = .idle → cycles history = (finished history).map Prod.fst
  underWay : generator.phase = .carving → ∃ cycle,
    cycles history = cycle :: (finished history).map Prod.fst ∧ cycle.Reaches generator

namespace Ledger

variable {history : List (Deed κ σ)} {generator : Generator σ} {deed : Deed κ σ}

/-- A call that begins no cycle and hands out no maze adds nothing. -/
theorem skip (ledger : Ledger history generator) (unbegun : deed.cycle = none)
    (nothing : deed.handedOut = none) : Ledger (deed :: history) generator := by
  have sameCycles : cycles (deed :: history) = cycles history := cycles_of_none unbegun
  have sameMazes : mazes (deed :: history) = mazes history := List.filterMap_cons_none nothing
  have sameFinished : finished (deed :: history) = finished history := finished_of_none nothing
  constructor
  case phase => exact ledger.phase
  case mazes_eq => rw [sameMazes, sameFinished, ledger.mazes_eq]
  case yields => rw [sameFinished]; exact ledger.yields
  case idle => rw [sameCycles, sameFinished]; exact ledger.idle
  case underWay => rw [sameCycles, sameFinished]; exact ledger.underWay

/-- A call that works on the cycle begun last leaves it under way, or finishes it and
    hands out its maze. -/
theorem advance {cycle : Cycle σ} {started : Generator σ} (ledger : Ledger history generator)
    (current : cycles (deed :: history) = cycle :: (finished history).map Prod.fst)
    (reaches : cycle.Reaches started)
    (advances : started.Advances deed.handedOut deed.after.generator) :
    Ledger (deed :: history) deed.after.generator := by
  generalize handed : deed.handedOut = maze at advances
  generalize deed.after.generator = next at advances ⊢
  cases advances with
  | on steps still =>
    have sameMazes : mazes (deed :: history) = mazes history := List.filterMap_cons_none handed
    have sameFinished : finished (deed :: history) = finished history := finished_of_none handed
    constructor
    case phase => exact .inr still
    case mazes_eq => rw [sameMazes, sameFinished, ledger.mazes_eq]
    case yields => rw [sameFinished]; exact ledger.yields
    case idle =>
      intro idle
      cases still.symm.trans idle
    case underWay =>
      intro _
      rw [sameFinished]
      exact ⟨cycle, current, reaches.steps steps⟩
  | @out last steps done =>
    have moreMazes : mazes (deed :: history) = last.maze :: mazes history :=
      List.filterMap_cons_some handed
    have moreFinished : finished (deed :: history) = (cycle, last.maze) :: finished history :=
      finished_of_some handed (by rw [current, List.head?_cons])
    constructor
    case phase => exact .inl rfl
    case mazes_eq => rw [moreMazes, moreFinished, ledger.mazes_eq, List.map_cons]
    case yields =>
      rw [moreFinished]
      intro done' member
      rcases List.mem_cons.mp member with rfl | before
      · exact ⟨last, reaches.steps steps, done, rfl⟩
      · exact ledger.yields done' before
    case idle => rw [current, moreFinished, List.map_cons]; exact fun _ => rfl
    case underWay =>
      intro carving
      cases carving

end Ledger

/-- What the fields of a dial say about its history. -/
structure Account (history : List (Deed κ σ)) (dial : Dial κ σ) : Prop where
  ledger : Ledger history dial.generator
  requested : dial.requested = pending history
  lastMinute : dial.lastMinute = (looks history).head?
  /-- With nothing asked for since, the last cycle is that of the scene shown. -/
  scene : dial.requested = false →
    dial.scene = ((cycles history).head?.map Cycle.scene).getD .watchFace
  /-- If this is the time, it is that of the minute read last. -/
  minute : dial.requested = false → dial.scene = .watchFace →
    dial.lastMinute = (cycles history).head?.map Cycle.minute

namespace Account

variable {history : List (Deed κ σ)} {dial : Dial κ σ}

theorem isGenerating_iff (account : Account history dial) :
    dial.isGenerating = true ↔ dial.generator.phase = .carving := by
  rw [Dial.isGenerating]
  rcases account.ledger.phase with idle | carving
  · rw [idle]
    decide
  · rw [carving]
    decide

theorem isGenerating_eq_false_iff (account : Account history dial) :
    dial.isGenerating = false ↔ dial.generator.phase = .idle := by
  rw [Dial.isGenerating]
  rcases account.ledger.phase with idle | carving
  · rw [idle]
    decide
  · rw [carving]
    decide

theorem new {clock : κ} {settings : Settings} {source : σ} {dial : Dial κ σ}
    (made : Dial.new clock settings source = .ok dial) : Account [] dial := by
  obtain ⟨budget, rfl⟩ := Dial.new_eq made
  constructor
  case ledger =>
    constructor
    case phase => exact .inl rfl
    case mazes_eq => rfl
    case yields => exact fun _ member => absurd member List.not_mem_nil
    case idle => exact fun _ => rfl
    case underWay =>
      intro carving
      cases carving
  case requested => rfl
  case lastMinute => rfl
  case scene => exact fun _ => rfl
  case minute => exact fun _ _ => rfl

/-- The clock is no part of the account. -/
theorem wait (account : Account history dial) (clock : κ) :
    Account history { dial with clock := clock } :=
  ⟨account.ledger, account.requested, account.lastMinute, account.scene, account.minute⟩

/-- A call that neither looks at the time nor works on a cycle is accounted for if it
    was a request that is remembered, or leaves the scene as it is. -/
theorem bystander (deed : Deed κ σ) (account : Account history deed.before)
    (blind : deed.look = none) (nothing : deed.handedOut = none)
    (leaves : deed.after.generator = deed.before.generator ∧
      deed.after.lastMinute = deed.before.lastMinute ∧ deed.after.settings = deed.before.settings)
    (asked : deed.isRequest = true ∧ deed.after.requested = true ∨
      deed.isRequest = false ∧ deed.after.requested = deed.before.requested ∧
        deed.after.scene = deed.before.scene) :
    Account (deed :: history) deed.after := by
  obtain ⟨generator, lastMinute, -⟩ := leaves
  have unbegun : deed.cycle = none := Deed.cycle_of_look_eq_none blind
  have same : cycles (deed :: history) = cycles history := cycles_of_none unbegun
  have sameLooks : looks (deed :: history) = looks history := List.filterMap_cons_none blind
  have unasked (unrequested : deed.after.requested = false) :
      deed.before.requested = false ∧ deed.after.scene = deed.before.scene := by
    rcases asked with ⟨-, requested⟩ | ⟨-, requested, scene⟩
    · cases unrequested.symm.trans requested
    · exact ⟨requested ▸ unrequested, scene⟩
  constructor
  case ledger => rw [generator]; exact account.ledger.skip unbegun nothing
  case requested =>
    rcases asked with ⟨accepted, requested⟩ | ⟨refused, requested, -⟩
    · rw [requested, pending, accepted, Bool.true_or]
    · rw [requested, pending, refused, unbegun, account.requested, Option.isNone_none,
        Bool.true_and, Bool.false_or]
  case lastMinute => rw [lastMinute, sameLooks, account.lastMinute]
  case scene =>
    intro unrequested
    obtain ⟨before, scene⟩ := unasked unrequested
    rw [scene, same, account.scene before]
  case minute =>
    intro unrequested onTime
    obtain ⟨before, scene⟩ := unasked unrequested
    rw [lastMinute, same, account.minute before (scene ▸ onTime)]

/-- A touch is accounted for. -/
theorem touch {event : Touch} {used : Bool} {next : Dial κ σ} (account : Account history dial)
    (touches : dial.Touches event used next) :
    Account (⟨dial, .touch event used, next⟩ :: history) next := by
  apply account.bystander ⟨dial, .touch event used, next⟩ rfl rfl touches.leaves
  cases touches with
  | ignored => cases event <;> exact .inr ⟨rfl, rfl, rfl⟩
  | unused _ _ notLong =>
    cases event with
    | longTap => exact absurd rfl notLong
    | tap => exact .inr ⟨rfl, rfl, rfl⟩
    | swipe => exact .inr ⟨rfl, rfl, rfl⟩
  | asked => exact .inl ⟨rfl, rfl⟩
  | doubled => exact .inl ⟨rfl, rfl⟩
  | returned => exact .inl ⟨rfl, rfl⟩
  | remembered => exact .inr ⟨by simp [Deed.isRequest], rfl, rfl⟩
  | unlocked _ _ _ opened =>
    have other := (Option.filter_eq_some_iff.mp opened).2
    exact .inl ⟨by simpa [Deed.isRequest] using other, rfl⟩

/-- The button is accounted for. -/
theorem button (account : Account history dial) :
    Account (⟨dial, .button dial.button.1, dial.button.2⟩ :: history) dial.button.2 := by
  apply account.bystander ⟨dial, .button dial.button.1, dial.button.2⟩ rfl rfl dial.button_leaves
  rcases dial.button_result with ⟨-, pressed⟩ | ⟨-, pressed⟩
  · rw [pressed]
    exact .inl ⟨rfl, rfl⟩
  · rw [pressed]
    exact .inr ⟨rfl, rfl, rfl⟩

/-- No maze waits to be repaired when a refresh begins. -/
theorem refreshes {effort : Nat} {maze : Option Maze} {next : Dial κ σ}
    (account : Account history dial) (answered : (dial.refresh effort).result = .ok (maze, next)) :
    dial.Refreshes maze next := by
  apply Dial.refreshes_of_refresh _ answered
  rcases account.ledger.phase with idle | carving
  · simp [idle]
  · simp [carving]

/-- Work on a cycle is accounted for. -/
theorem work {maze : Option Maze} {generator : Generator σ} {clock : κ} {deed : Deed κ σ}
    (account : Account history dial) (underWay : dial.isGenerating = true)
    (advances : dial.generator.Advances maze generator)
    (same : deed = ⟨dial, .refresh maze, { dial with generator := generator, clock := clock }⟩) :
    Account (deed :: history) deed.after := by
  obtain ⟨cycle, last, reaches⟩ := account.ledger.underWay (account.isGenerating_iff.mp underWay)
  have blind : deed.look = none := by
    subst same
    exact if_pos underWay
  have unbegun : deed.cycle = none := Deed.cycle_of_look_eq_none blind
  have sameCycles : cycles (deed :: history) = cycles history := cycles_of_none unbegun
  have sameLooks : looks (deed :: history) = looks history := List.filterMap_cons_none blind
  have unasked : deed.isRequest = false := by rw [same]; rfl
  -- Only now the deed is taken apart, so that the lists above keep their shape.
  subst same
  constructor
  case ledger => exact account.ledger.advance (sameCycles.trans last) reaches advances
  case requested => rw [pending, unbegun, unasked]; exact account.requested
  case lastMinute => rw [sameLooks]; exact account.lastMinute
  case scene => rw [sameCycles]; exact account.scene
  case minute => rw [sameCycles]; exact account.minute

/-- A refresh that finds nothing due is accounted for. -/
theorem rest {minute : Nat} {clock : κ} {deed : Deed κ σ} (account : Account history dial)
    (read : dial.look = some minute) (undue : dial.due minute = none) (unbegun : deed.cycle = none)
    (same : deed = ⟨dial, .refresh none, { dial with clock := clock, lastMinute := some minute }⟩) :
    Account (deed :: history) deed.after := by
  obtain ⟨unrequested, unchanged⟩ := Dial.due_eq_none undue
  have sameCycles : cycles (deed :: history) = cycles history := cycles_of_none unbegun
  have looked : looks (deed :: history) = minute :: looks history :=
    List.filterMap_cons_some (by rw [same]; exact read)
  have unasked : deed.isRequest = false := by rw [same]; rfl
  subst same
  constructor
  case ledger => exact account.ledger.skip unbegun rfl
  case requested => rw [pending, unbegun, unasked]; exact account.requested
  case lastMinute => rw [looked, List.head?_cons]
  case scene => rw [sameCycles]; exact account.scene
  case minute =>
    intro _ onTime
    rw [sameCycles, ← account.minute unrequested onTime, unchanged onTime]

/-- A refresh that begins a cycle is accounted for. -/
theorem start {minute : Nat} {cause : Cause} {started generator : Generator σ}
    {maze : Option Maze} {clock : κ} {deed : Deed κ σ} (account : Account history dial)
    (read : dial.look = some minute) (begins : (dial.cycle minute cause).Begins started)
    (advances : started.Advances maze generator)
    (begun : deed.cycle = some (dial.cycle minute cause))
    (same : deed = ⟨dial, .refresh maze, { dial with
      generator := generator, clock := clock, lastMinute := some minute, requested := false }⟩) :
    Account (deed :: history) deed.after := by
  have idle := account.isGenerating_eq_false_iff.mp (Dial.idle_of_look read)
  have more : cycles (deed :: history) = dial.cycle minute cause :: cycles history :=
    cycles_of_some begun
  have looked : looks (deed :: history) = minute :: looks history :=
    List.filterMap_cons_some (by rw [same]; exact read)
  have unasked : deed.isRequest = false := by rw [same]; rfl
  subst same
  constructor
  case ledger =>
    have current := more
    rw [account.ledger.idle idle] at current
    exact account.ledger.advance current begins.reaches advances
  case requested => rw [pending, begun, unasked]; rfl
  case lastMinute => rw [looked, List.head?_cons]
  case scene => rw [more]; exact fun _ => rfl
  case minute => rw [more]; exact fun _ _ => rfl

/-- A refresh is accounted for. -/
theorem refresh {maze : Option Maze} {next : Dial κ σ} (account : Account history dial)
    (refreshes : dial.Refreshes maze next) :
    Account (⟨dial, .refresh maze, next⟩ :: history) next := by
  have begun := Deed.cycle_of_refreshes refreshes
  cases refreshes with
  | work underWay advances => exact account.work underWay advances rfl
  | rest read undue =>
    rw [read, Option.bind_some, undue, Option.map_none] at begun
    exact account.rest read undue begun rfl
  | start read due begins advances =>
    rw [read, Option.bind_some, due, Option.map_some] at begun
    exact account.start read begins advances begun rfl

end Account

/-- Every run of a new dial is accounted for. -/
theorem account_of_run {clock : κ} {settings : Settings} {source : σ} {first dial : Dial κ σ}
    {history : List (Deed κ σ)} (made : Dial.new clock settings source = .ok first)
    (run : Dial.Run first history dial) : Account history dial := by
  induction run with
  | new => exact .new made
  | @call history dial next call _ answers inductionHypothesis =>
    cases answers with
    | refresh answered =>
      exact inductionHypothesis.refresh (inductionHypothesis.refreshes answered)
    | touch answered => exact inductionHypothesis.touch (Dial.touches_of_touch answered)
    | button => exact inductionHypothesis.button
  | wait _ clock inductionHypothesis => exact inductionHypothesis.wait clock

/-- No call of a run changes the settings. -/
theorem settings_of_run {clock : κ} {settings : Settings} {source : σ} {first dial : Dial κ σ}
    {history : List (Deed κ σ)} (made : Dial.new clock settings source = .ok first)
    (run : Dial.Run first history dial) : dial.settings = settings := by
  induction run with
  | new =>
    obtain ⟨budget, rfl⟩ := Dial.new_eq made
    rfl
  | call before answers inductionHypothesis =>
    cases answers with
    | refresh answered =>
      have refreshes := (account_of_run made before).refreshes answered
      exact refreshes.settings_eq.trans inductionHypothesis
    | touch answered =>
      obtain ⟨-, -, same⟩ := (Dial.touches_of_touch answered).leaves
      exact same.trans inductionHypothesis
    | button =>
      obtain ⟨-, -, same⟩ := Dial.button_leaves _
      exact same.trans inductionHypothesis
  | wait _ _ inductionHypothesis => exact inductionHypothesis

end History

end MazeDial

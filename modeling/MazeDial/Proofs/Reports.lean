import MazeDial.Proofs.DialCalls

/-!
# What is reported

A note of one topic comes from one part of the library only: carving reports its paths, the
repair its walls, and a dial the gestures that it uses. Starts of cycles are reported by
`Generator.start`, a start which throws a cycle away included, and before that by `Dial.begin`;
by nothing else. So the notes of a refresh tell whether these have run, for which scene and for
what cause, whatever the refresh has answered and has left behind.

Whether a refresh begins a cycle is settled by its dial and the minute it reads. The notes
agree: they tell of the start of that cycle, and of no other start.
-/

namespace MazeDial

/-- What a note is about. -/
inductive Note.Topic where
  | start
  | carving
  | repair
  | gesture
  deriving DecidableEq

/-- The topic of each note. -/
def Note.topic : Note → Topic
  | .discarding .. | .sceneStarted .. | .cycleStarted .. => .start
  | .rooted .. | .joined .. | .carvedOut .. | .paused .. | .cannotRetreat .. | .cycleFailed .. =>
    .carving
  | .opened .. | .cycleFinished .. => .repair
  | .codeEntered .. | .pulse .. => .gesture

namespace Logged

variable {α β : Type}

/-- All notes of a computation are of one topic. -/
structure KeepsTo (topic : Note.Topic) (computation : Logged α) : Prop where
  topic_eq : ∀ entry ∈ computation.notes, entry.topic = topic

/-- The starts that a computation reports. -/
def starts (computation : Logged α) : List Note :=
  computation.notes.filter fun entry => decide (entry.topic = .start)

variable {topic : Note.Topic} {first : Logged α} {next : α → Logged β}

/-- What reports nothing keeps to any topic. -/
theorem keepsTo_of_notes_eq_nil {computation : Logged α} (silent : computation.notes = []) :
    computation.KeepsTo topic where
  topic_eq entry member := by
    rw [silent] at member
    exact absurd member List.not_mem_nil

theorem keepsTo_note {entry : Note} (about : entry.topic = topic) : (note entry).KeepsTo topic where
  topic_eq other member := by rwa [List.mem_singleton.mp member]

/-- A sequence keeps to a topic if both parts do. -/
theorem KeepsTo.bind (before : first.KeepsTo topic) (after : ∀ value, (next value).KeepsTo topic) :
    (first >>= next).KeepsTo topic where
  topic_eq entry member := by
    rw [notes_bind, List.mem_append] at member
    rcases member with early | late
    · exact before.topic_eq entry early
    · cases answer : first.result with
      | error fault =>
        rw [answer] at late
        exact absurd late List.not_mem_nil
      | ok value =>
        rw [answer] at late
        exact (after value).topic_eq entry late

/-- A computation with another topic reports no start. -/
theorem KeepsTo.starts_eq_nil {computation : Logged α} (keeps : computation.KeepsTo topic)
    (other : topic ≠ .start) : computation.starts = [] := by
  apply List.filter_eq_nil_iff.mpr
  intro entry member
  rw [decide_eq_true_eq, keeps.topic_eq entry member]
  exact other

/-- A sequence of computations that report no start reports none. -/
theorem starts_bind_eq_nil (before : first.starts = []) (after : ∀ value, (next value).starts = []) :
    (first >>= next).starts = [] := by
  rw [starts] at before ⊢
  rw [notes_bind, List.filter_append, before]
  cases first.result with
  | error fault => rfl
  | ok value => exact after value

/-- A sequence reports the starts of its first part, then those of its second. -/
theorem starts_bind {value : α} (answered : first.result = .ok value) :
    (first >>= next).starts = first.starts ++ (next value).starts := by
  rw [starts, notes_bind_of_ok answered, List.filter_append]
  rfl

end Logged

open Logged (keepsTo_of_notes_eq_nil keepsTo_note)

section Carving

variable {σ τ : Type} [RandomSource σ]

theorem plantRoot_keepsTo (maze : Maze) (source : σ) :
    (plantRoot maze source).KeepsTo .carving := by
  unfold plantRoot
  split
  · refine .bind (keepsTo_of_notes_eq_nil rfl) ?_
    rintro ⟨found, drawn⟩
    cases found with
    | none => exact keepsTo_of_notes_eq_nil rfl
    | some root => exact .bind (keepsTo_note rfl) fun _ => keepsTo_of_notes_eq_nil rfl
  · exact keepsTo_of_notes_eq_nil rfl

/-- Each path is reported, and how they end. -/
theorem carvePaths_keepsTo (strides : Nat) (expired : τ → Except Fault (Bool × τ))
    (limit paths : Nat) (maze : Maze) (source : σ) (progress : Progress) (timer : τ) :
    (carvePaths strides expired limit paths maze source progress timer).KeepsTo .carving := by
  induction limit generalizing paths maze source progress timer with
  | zero => exact keepsTo_of_notes_eq_nil rfl
  | succ limit inductionHypothesis =>
    rw [carvePaths]
    refine .bind (keepsTo_of_notes_eq_nil rfl) ?_
    rintro ⟨start, drawn⟩
    cases start with
    | none => exact .bind (keepsTo_note rfl) fun _ => keepsTo_of_notes_eq_nil rfl
    | some start =>
      refine .bind (keepsTo_of_notes_eq_nil rfl) ?_
      rintro ⟨carved, left, previous, cursor, ending⟩
      cases ending with
      | stuck place => exact .bind (keepsTo_note rfl) fun _ => keepsTo_of_notes_eq_nil rfl
      | joined =>
        refine .bind (keepsTo_note rfl) fun _ => .bind (keepsTo_of_notes_eq_nil rfl) ?_
        rintro ⟨stop, asked⟩
        cases stop with
        | true => exact .bind (keepsTo_note rfl) fun _ => keepsTo_of_notes_eq_nil rfl
        | false => exact inductionHypothesis ..

theorem carve_keepsTo (effort : Nat) (expired : τ → Except Fault (Bool × τ)) (maze : Maze)
    (source : σ) (progress : Progress) (timer : τ) :
    (carve effort expired maze source progress timer).KeepsTo .carving :=
  .bind (plantRoot_keepsTo ..) fun _ => carvePaths_keepsTo ..

end Carving

section Repair

variable {σ : Type} [RandomSource σ]

/-- The wall taken out is reported. -/
theorem Flood.breach_keepsTo (flood : Flood σ) (walls : List (Coord × Side)) :
    (flood.breach walls).KeepsTo .repair := by
  refine .bind (keepsTo_of_notes_eq_nil rfl) ?_
  rintro ⟨choice, drawn⟩
  dsimp only
  cases walls[choice]? with
  | none => exact keepsTo_of_notes_eq_nil rfl
  | some wall => exact .bind (keepsTo_note rfl) fun _ => keepsTo_of_notes_eq_nil rfl

theorem Flood.spread_keepsTo (passes : Nat) (flood : Flood σ) :
    (flood.spread passes).KeepsTo .repair := by
  induction passes generalizing flood with
  | zero => exact keepsTo_of_notes_eq_nil rfl
  | succ passes inductionHypothesis =>
    rw [spread]
    split
    · exact inductionHypothesis _
    · exact .bind (breach_keepsTo ..) inductionHypothesis
    · exact keepsTo_of_notes_eq_nil rfl

theorem joinRegions_keepsTo (maze : Maze) (source : σ) :
    (joinRegions maze source).KeepsTo .repair := by
  unfold joinRegions
  split
  · exact keepsTo_of_notes_eq_nil rfl
  · exact .bind (Flood.spread_keepsTo ..) fun _ => keepsTo_of_notes_eq_nil rfl

end Repair

namespace Generator

variable {σ κ : Type} [RandomSource σ] [Clock κ]

theorem carveSlice_keepsTo (effort : Nat) (generator : Generator σ) (clock : κ) :
    (generator.carveSlice effort clock).KeepsTo .carving := by
  refine .bind (keepsTo_of_notes_eq_nil rfl) fun _ => .bind (keepsTo_of_notes_eq_nil rfl) ?_
  refine fun _ => .bind (carve_keepsTo ..) ?_
  rintro ⟨outcome, maze, source, progress, timer⟩
  cases outcome with
  | paused => exact keepsTo_of_notes_eq_nil rfl
  | done => exact keepsTo_of_notes_eq_nil rfl
  | stuck => exact .bind (keepsTo_note rfl) fun _ => keepsTo_of_notes_eq_nil rfl

omit [Clock κ] in
/-- So does the second half of a step, be there a repair or not. -/
theorem conclude_keepsTo (generator : Generator σ) (clock : κ) :
    (generator.conclude clock).KeepsTo .repair := by
  unfold conclude
  split
  · refine .bind ?_ fun _ => keepsTo_of_notes_eq_nil rfl
    refine .bind (joinRegions_keepsTo ..) fun _ => ?_
    exact .bind (keepsTo_note rfl) fun _ => keepsTo_of_notes_eq_nil rfl
  · exact keepsTo_of_notes_eq_nil rfl

/-- A step starts no cycle. -/
theorem step_starts (effort : Nat) (generator : Generator σ) (clock : κ) :
    (generator.step effort clock).starts = [] := by
  rw [step_eq]
  apply Logged.starts_bind_eq_nil
  · split
    · exact (carveSlice_keepsTo ..).starts_eq_nil nofun
    · rfl
  · exact fun sliced => (conclude_keepsTo ..).starts_eq_nil nofun

omit [Clock κ] in
/-- With no cycle under way a start throws none away. -/
theorem start_starts {generator started : Generator σ} {plan : List Placement}
    {reseed : Option UInt64} (idle : generator.phase.isGenerating = false)
    (answered : (generator.start plan reseed).result = .ok started) :
    (generator.start plan reseed).starts = [.cycleStarted plan.length reseed.isSome] := by
  simp only [start, idle, Bool.false_eq_true, if_false] at answered ⊢
  obtain ⟨stamped, stamps, -⟩ := Logged.result_bind_eq_ok.mp answered
  rw [Logged.starts_bind stamps]
  rfl

end Generator

namespace Dial

variable {κ σ : Type}

/-- What is noted of starts: nothing if no cycle is begun; and if one is, its scene and whether
    a new minute was the cause, then the length of its plan and whether the source starts anew.
    No cycle is thrown away for it. -/
inductive Announces : Option (Cycle σ) → List Note → Prop
  | none : Announces none []
  | start {cycle : Cycle σ} {plan : List Placement}
      (planned : cycle.scene.plan cycle.clockType cycle.minute = .ok plan) :
      Announces (some cycle) [.sceneStarted cycle.scene (decide (cycle.cause = .rollover)),
        .cycleStarted plan.length (cycle.cause.seed cycle.minute).isSome]

/-- A cycle is announced by two notes. -/
theorem Announces.notes_eq {cycle : Cycle σ} {notes : List Note}
    (announces : Announces (some cycle) notes) :
    ∃ plan, cycle.scene.plan cycle.clockType cycle.minute = .ok plan ∧
      notes = [.sceneStarted cycle.scene (decide (cycle.cause = .rollover)),
        .cycleStarted plan.length (cycle.cause.seed cycle.minute).isSome] := by
  cases announces with
  | start planned => exact ⟨_, planned, rfl⟩

variable [RandomSource σ]

/-- Beginning a cycle announces it. -/
theorem begin_announces {dial next : Dial κ σ} {minute : Nat} {cause : Cause}
    (begun : (dial.begin minute cause).result = .ok next) (idle : dial.isGenerating = false) :
    Announces (some (dial.cycle minute cause)) (dial.begin minute cause).starts := by
  rw [begin] at begun ⊢
  obtain ⟨plan, planned, begun⟩ := Logged.result_bind_eq_ok.mp begun
  obtain ⟨_, noted, begun⟩ := Logged.result_bind_eq_ok.mp begun
  obtain ⟨started, answered, begun⟩ := Logged.result_bind_eq_ok.mp begun
  rw [Logged.starts_bind planned, Logged.starts_bind noted, Logged.starts_bind answered,
    Generator.start_starts idle answered]
  exact .start planned

variable [Clock κ]

/-- Work announces nothing. -/
theorem work_starts (effort : Nat) (dial : Dial κ σ) : (dial.work effort).starts = [] :=
  Logged.starts_bind_eq_nil (Generator.step_starts ..) fun _ => rfl

/-- A refresh that answers announces the cycle that is due at the minute it reads, if one is. -/
theorem refresh_announces {effort : Nat} {dial next : Dial κ σ} {maze : Option Maze}
    (answered : (dial.refresh effort).result = .ok (maze, next)) :
    Announces (dial.look.bind fun minute => (dial.due minute).map (dial.cycle minute))
      (dial.refresh effort).starts := by
  rw [refresh] at answered ⊢
  split at answered
  · next underWay =>
    rw [if_pos underWay, work_starts, look, if_pos underWay]
    exact .none
  · next generating =>
    have idle : dial.isGenerating = false := Bool.eq_false_iff.mpr generating
    rw [if_neg generating]
    obtain ⟨⟨now, clock⟩, reading, answered⟩ := Logged.result_bind_eq_ok.mp answered
    rw [Logged.starts_bind reading, look_eq_some idle reading rfl, Option.bind_some]
    dsimp only at answered ⊢
    cases due : dial.due (localMinute now dial.settings.utcOffset) with
    | none => exact .none
    | some cause =>
      rw [due] at answered
      obtain ⟨begun, beginning, answered⟩ := Logged.result_bind_eq_ok.mp answered
      rw [Logged.starts_bind beginning, work_starts, List.append_nil]
      exact begin_announces beginning idle

end Dial

end MazeDial

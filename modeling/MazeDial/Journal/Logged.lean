import MazeDial.Journal.Note

/-!
# Logged computations

A computation that reports notes and either answers or stops at a fault. What it
reported before a fault is kept. Notes never influence an answer: the answer of
a sequence depends on the answers of its parts alone, which `result_bind` says.
-/

namespace MazeDial

/-- The notes of a computation, in order, and how it ended. -/
structure Logged (α : Type) where
  notes : List Note
  result : Except Fault α

namespace Logged

variable {α β : Type}

/-- A computation that only answers. -/
@[inline] protected def pure (value : α) : Logged α :=
  ⟨[], .ok value⟩

/-- One computation after another; a fault of the first leaves the second out. -/
@[inline] protected def bind (first : Logged α) (next : α → Logged β) : Logged β :=
  match first with
  | ⟨notes, .error fault⟩ => ⟨notes, .error fault⟩
  | ⟨notes, .ok value⟩ =>
    let second := next value
    ⟨notes ++ second.notes, second.result⟩

instance : Monad Logged where
  pure := Logged.pure
  bind := Logged.bind

/-- A computation that reports one note. -/
@[inline] def note (entry : Note) : Logged Unit :=
  ⟨[entry], .ok ()⟩

/-- A computation that stops at once. -/
@[inline] def fail (fault : Fault) : Logged α :=
  ⟨[], .error fault⟩

/-- A computation that reports nothing. -/
@[inline] def ofExcept (result : Except Fault α) : Logged α :=
  ⟨[], result⟩

instance : MonadLift (Except Fault) Logged where
  monadLift := ofExcept

@[simp] theorem result_pure (value : α) : (pure value : Logged α).result = .ok value := rfl

@[simp] theorem result_note (entry : Note) : (note entry).result = .ok () := rfl

@[simp] theorem result_fail (fault : Fault) : (fail fault : Logged α).result = .error fault := rfl

@[simp] theorem result_ofExcept (result : Except Fault α) : (ofExcept result).result = result :=
  rfl

@[simp] theorem result_lift (answer : Except Fault α) : (liftM answer : Logged α).result = answer :=
  rfl

/-- The answer of a sequence is the sequence of the answers. -/
@[simp] theorem result_bind (first : Logged α) (next : α → Logged β) :
    (first >>= next).result = first.result >>= fun value => (next value).result := by
  obtain ⟨notes, result⟩ := first
  cases result <;> rfl

/-- The notes of a sequence are those of its first part, followed by those of the
    second if the first has an answer. -/
theorem notes_bind (first : Logged α) (next : α → Logged β) :
    (first >>= next).notes =
      first.notes ++ match first.result with
        | .ok value => (next value).notes
        | .error _ => [] := by
  obtain ⟨notes, result⟩ := first
  cases result with
  | error fault => exact (List.append_nil notes).symm
  | ok value => rfl

/-- If the first part answers, the notes of both are reported. -/
theorem notes_bind_of_ok {first : Logged α} {next : α → Logged β} {value : α}
    (answered : first.result = .ok value) :
    (first >>= next).notes = first.notes ++ (next value).notes := by
  rw [notes_bind, answered]

/-- A sequence answers exactly when both parts do. -/
theorem result_bind_eq_ok {first : Logged α} {next : α → Logged β} {answer : β} :
    (first >>= next).result = .ok answer ↔
      ∃ value, first.result = .ok value ∧ (next value).result = .ok answer := by
  obtain ⟨notes, result⟩ := first
  cases result with
  | error fault => simp [bind, Logged.bind]
  | ok value => simp [bind, Logged.bind]

/-- A sequence stops at the fault of its first part, or at that of its second. -/
theorem result_bind_eq_error {first : Logged α} {next : α → Logged β} {fault : Fault} :
    (first >>= next).result = .error fault ↔
      first.result = .error fault ∨
        ∃ value, first.result = .ok value ∧ (next value).result = .error fault := by
  obtain ⟨notes, result⟩ := first
  cases result with
  | error other => simp [bind, Logged.bind]
  | ok value => simp [bind, Logged.bind]

/-- A computation that answers is its notes and its answer. -/
theorem exists_notes {computation : Logged α} {answer : α}
    (answered : computation.result = .ok answer) : ∃ notes, computation = ⟨notes, .ok answer⟩ := by
  obtain ⟨notes, result⟩ := computation
  exact ⟨notes, congrArg (Logged.mk notes) answered⟩

/-- A sequence that answers divides its notes between its two parts. -/
theorem bind_eq_ok {first : Logged α} {next : α → Logged β} {notes : List Note} {answer : β} :
    first >>= next = ⟨notes, .ok answer⟩ ↔
      ∃ before value after, first = ⟨before, .ok value⟩ ∧ next value = ⟨after, .ok answer⟩ ∧
        notes = before ++ after := by
  obtain ⟨reported, result⟩ := first
  cases result with
  | error fault => simp [bind, Logged.bind]
  | ok value =>
    constructor
    · intro sequence
      obtain ⟨split, answered⟩ := Logged.mk.inj sequence
      exact ⟨reported, value, (next value).notes, rfl, congrArg (Logged.mk _) answered, split.symm⟩
    · rintro ⟨before, other, after, answered, followed, rfl⟩
      obtain ⟨rfl, same⟩ := Logged.mk.inj answered
      obtain rfl := Except.ok.inj same
      simp [bind, Logged.bind, followed]

@[simp] theorem pure_eq_ok {value answer : α} {notes : List Note} :
    (pure value : Logged α) = ⟨notes, .ok answer⟩ ↔ notes = [] ∧ value = answer := by
  simp [pure, Logged.pure, eq_comm]

@[simp] theorem note_eq_ok {entry : Note} {notes : List Note} {answer : Unit} :
    note entry = ⟨notes, .ok answer⟩ ↔ notes = [entry] := by
  simp [note, eq_comm]

@[simp] theorem lift_eq_ok {result : Except Fault α} {answer : α} {notes : List Note} :
    (liftM result : Logged α) = ⟨notes, .ok answer⟩ ↔ notes = [] ∧ result = .ok answer := by
  simp [liftM, monadLift, MonadLift.monadLift, ofExcept, eq_comm]

/-- The same computation, of whose answer only a part is kept. -/
def map (view : α → β) (computation : Logged α) : Logged β :=
  ⟨computation.notes, computation.result.map view⟩

theorem map_bind {γ : Type} (view : β → γ) (first : Logged α) (next : α → Logged β) :
    (first >>= next).map view = first >>= fun value => (next value).map view := by
  obtain ⟨notes, result⟩ := first
  cases result <;> rfl

/-- A computation whose answer is seen has an answer. -/
theorem exists_of_seen {computation : Logged α} {view : α → β} {seen : β}
    (viewed : computation.result.toOption.map view = some seen) :
    ∃ answer, computation.result = .ok answer ∧ view answer = seen := by
  cases ended : computation.result with
  | error fault =>
    rw [ended] at viewed
    exact nomatch viewed
  | ok answer =>
    rw [ended] at viewed
    exact ⟨answer, rfl, Option.some.inj viewed⟩

end Logged

end MazeDial

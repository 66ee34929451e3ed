import MazeDial.Dial.Plan
import MazeDial.Proofs.Stamping

/-!
# The plans of a dial

Every scene has a plan at every local minute, and every plan fits the board of the
dial: digits below ten are looked up, they and the signs have data enough, and the
one stroke that is placed at random fits wherever it is drawn. The time is shown by
fixed placements only, so that its stamped board is the same for every source.
-/

namespace MazeDial

/-- Fixed placements that fit are stamped without a draw: the board is the same for
    every source. -/
theorem stampAll_fixed {plan : List Placement} (maze : Maze)
    (fixed : ∀ placement ∈ plan, ∃ origin pattern, placement = .fixed origin pattern)
    (fitting : ∀ placement ∈ plan, placement.Fitting maze.size) :
    ∃ board, ∀ (σ : Type) [RandomSource σ] (source : σ),
      stampAll plan maze source = .ok (board, source) := by
  induction plan generalizing maze with
  | nil => exact ⟨maze, fun _ _ _ => rfl⟩
  | cons placement rest inductionHypothesis =>
    obtain ⟨origin, pattern, rfl⟩ := fixed placement List.mem_cons_self
    obtain ⟨fits, enough⟩ := fitting _ List.mem_cons_self
    have kept (other : Maze) (place : Coord) (side : Side) (same : other.size = maze.size) :
        (other.knockDown place side).size = maze.size :=
      (Maze.size_knockDown ..).trans same
    obtain ⟨middle, stamped, same⟩ := Maze.stamp_stable kept rfl fits enough
    obtain ⟨board, further⟩ := inductionHypothesis middle
      (fun other member => fixed other (List.mem_cons_of_mem _ member))
      (fun other member => same.symm ▸ fitting other (List.mem_cons_of_mem _ member))
    refine ⟨board, fun σ _ source => ?_⟩
    simp only [stampAll, Placement.settle, bind, Except.bind, stamped]
    exact further σ source

/-- The patterns of the digits are six by ten cells with data enough. -/
theorem Pattern.digits_fit : ∀ pattern ∈ digits, pattern.width = 6 ∧ pattern.height = 10 ∧
    pattern.area ≤ pattern.covered := by
  decide

/-- The hour of a local minute as a clock shows it. -/
def shownHour (clockType : ClockType) (minute : Nat) : Nat :=
  match clockType with
  | .h24 => hourOf minute
  | .h12 => twelveHour (hourOf minute)

/-- The digits of a local minute with their corners: two of the hour shown and two of the
    minute. -/
def digitPlaces (clockType : ClockType) (minute : Nat) : List (Coord × Nat) :=
  [(⟨3, 1⟩, shownHour clockType minute / 10), (⟨10, 1⟩, shownHour clockType minute % 10),
    (⟨3, 13⟩, minute % 60 / 10), (⟨10, 13⟩, minute % 60 % 10)]

/-- These are the digits that are looked up to show the time. -/
theorem timePlan_eq (clockType : ClockType) (minute : Nat) :
    timePlan clockType minute =
      ((digitPlaces clockType minute).mapM fun (origin, value) => digitAt origin value).map
        (halfDaySign clockType (hourOf minute) ++ ·) := by
  cases clockType <;> rfl

theorem shownHour_lt (clockType : ClockType) (minute : Nat) : shownHour clockType minute < 24 := by
  cases clockType with
  | h24 => exact Nat.mod_lt _ (by decide)
  | h12 =>
    simp only [shownHour, twelveHour]
    split <;> omega

/-- Each of them is below ten. -/
theorem digitPlaces_lt {clockType : ClockType} {minute : Nat} {digit : Coord × Nat}
    (member : digit ∈ digitPlaces clockType minute) : digit.2 < 10 := by
  have shown := shownHour_lt clockType minute
  simp only [digitPlaces, List.mem_cons, List.not_mem_nil, or_false] at member
  rcases member with rfl | rfl | rfl | rfl <;> simp only <;> omega

/-- A digit below ten has a pattern. -/
theorem Pattern.exists_digit (value : Nat) (small : value < 10) :
    ∃ pattern ∈ digits, digit value = .ok pattern := by
  have inside : value < digits.length := small
  refine ⟨digits[value], List.getElem_mem inside, ?_⟩
  rw [digit, List.getElem?_eq_getElem inside]

/-- The time is shown by the sign of the half of the day, if there is one, and four
    digits. -/
theorem exists_timePlan (clockType : ClockType) (minute : Nat) :
    ∃ hourTens ∈ Pattern.digits, ∃ hourUnits ∈ Pattern.digits, ∃ minuteTens ∈ Pattern.digits,
      ∃ minuteUnits ∈ Pattern.digits, timePlan clockType minute =
        .ok (halfDaySign clockType (hourOf minute) ++ [.fixed ⟨3, 1⟩ hourTens,
          .fixed ⟨10, 1⟩ hourUnits, .fixed ⟨3, 13⟩ minuteTens, .fixed ⟨10, 13⟩ minuteUnits]) := by
  have small : ∀ digit ∈ digitPlaces clockType minute, digit.2 < 10 := fun _ => digitPlaces_lt
  simp only [digitPlaces, List.forall_mem_cons] at small
  obtain ⟨hourTens, first, found⟩ := Pattern.exists_digit _ small.1
  obtain ⟨hourUnits, second, foundSecond⟩ := Pattern.exists_digit _ small.2.1
  obtain ⟨minuteTens, third, foundThird⟩ := Pattern.exists_digit _ small.2.2.1
  obtain ⟨minuteUnits, fourth, foundFourth⟩ := Pattern.exists_digit _ small.2.2.2.1
  refine ⟨hourTens, first, hourUnits, second, minuteTens, third, minuteUnits, fourth, ?_⟩
  simp only [timePlan_eq, digitPlaces, List.mapM_cons, List.mapM_nil, digitAt, found, foundSecond,
    foundThird, foundFourth]
  rfl

/-- The time is shown by fixed placements that fit. -/
theorem timePlan_fitting (clockType : ClockType) (minute : Nat) :
    ∃ plan, timePlan clockType minute = .ok plan ∧ ∀ placement ∈ plan,
      (∃ origin pattern, placement = .fixed origin pattern) ∧ placement.Fitting .dial := by
  obtain ⟨hourTens, first, hourUnits, second, minuteTens, third, minuteUnits, fourth, planned⟩ :=
    exists_timePlan clockType minute
  refine ⟨_, planned, ?_⟩
  intro placement member
  rcases List.mem_append.mp member with sign | digit
  · cases clockType with
    | h24 => exact absurd sign List.not_mem_nil
    | h12 =>
      obtain rfl := List.mem_singleton.mp sign
      refine ⟨⟨_, _, rfl⟩, ?_⟩
      split <;> simp only [Placement.Fitting] <;> decide
  · have fit {pattern : Pattern} (listed : pattern ∈ Pattern.digits) {origin : Coord}
        (column : origin.x.toNat ≤ 18) (row : origin.y.toNat ≤ 14) :
        (∃ origin' pattern', Placement.fixed origin pattern = .fixed origin' pattern') ∧
          (Placement.fixed origin pattern).Fitting .dial := by
      obtain ⟨width, height, enough⟩ := Pattern.digits_fit pattern listed
      refine ⟨⟨_, _, rfl⟩, ⟨?_, ?_⟩, enough⟩
      · rw [width]
        show origin.x.toNat + 6 ≤ 24
        omega
      · rw [height]
        show origin.y.toNat + 10 ≤ 24
        omega
    simp only [List.mem_cons, List.not_mem_nil, or_false] at digit
    rcases digit with rfl | rfl | rfl | rfl
    · exact fit first (by decide) (by decide)
    · exact fit second (by decide) (by decide)
    · exact fit third (by decide) (by decide)
    · exact fit fourth (by decide) (by decide)

/-- Every scene has a plan at every minute; it fits the board of the dial and leaves a
    choice of place everywhere. -/
theorem Scene.plan_fitting (scene : Scene) (clockType : ClockType) (minute : Nat) :
    ∃ plan, scene.plan clockType minute = .ok plan ∧
      ∀ placement ∈ plan, placement.Fitting .dial ∧ placement.Drawable := by
  cases scene with
  | watchFace =>
    obtain ⟨plan, planned, fits⟩ := timePlan_fitting clockType minute
    refine ⟨plan, planned, ?_⟩
    intro placement member
    obtain ⟨⟨origin, pattern, rfl⟩, fitting⟩ := fits placement member
    exact ⟨fitting, trivial⟩
  | blank =>
    refine ⟨_, rfl, ?_⟩
    intro placement member
    obtain rfl := List.mem_singleton.mp member
    refine ⟨⟨?_, by decide⟩, by decide, by decide⟩
    intro origin _ right _ bottom
    have right : origin.x.toNat ≤ 20 := right
    have bottom : origin.y.toNat ≤ 20 := bottom
    constructor
    · show origin.x.toNat + 4 ≤ 24
      omega
    · show origin.y.toNat + 1 ≤ 24
      omega
  | heart => exact ⟨_, rfl, by simp [Placement.Fitting, Placement.Drawable]; decide⟩
  | smiley => exact ⟨_, rfl, by simp [Placement.Fitting, Placement.Drawable]; decide⟩
  | rocket => exact ⟨_, rfl, by simp [Placement.Fitting, Placement.Drawable]; decide⟩

end MazeDial

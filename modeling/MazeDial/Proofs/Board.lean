import MazeDial.Maze.Access
import Mathlib.Combinatorics.SimpleGraph.Basic
import Mathlib.Data.List.Nodup

/-!
# Neighbours on a board

A board has at most 254 columns and rows, so a step that wraps around or stops
at 255 leaves it. On the board a step is therefore undone by the step back, and
the four sides of a place lead to four different places. The steps between
places of a board make it a graph, in which a property shared by neighbours is
shared by all places, and each step is a side of a square; no other use is made
of the board's shape. Its places are listed in their order, row by row, and each once.

Nothing here mentions walls: a maze decides which of these steps are passages.
-/

namespace MazeDial

/-- A step onto the board is undone by the step back. -/
theorem step_opposite {size : Size} {place : Coord} {side : Side}
    (across : size.Contains (place.step side)) :
    (place.step side).step side.opposite = place := by
  obtain ⟨x, y⟩ := place
  have narrow : size.width < 255 := size.width_bounds.2
  have low : size.height < 255 := size.height_bounds.2
  cases side <;>
    simp only [Coord.step, Side.opposite, Size.Contains, Coord.mk.injEq, true_and,
      and_true] at across ⊢ <;>
    grind

/-- The four sides of a place of the board lead to four different places. -/
theorem step_injective {size : Size} {place : Coord} {first second : Side}
    (inside : size.Contains place) (same : place.step first = place.step second) :
    first = second := by
  obtain ⟨x, y⟩ := place
  have narrow : size.width < 255 := size.width_bounds.2
  have low : size.height < 255 := size.height_bounds.2
  cases first <;> cases second <;>
    simp only [Coord.step, Size.Contains, Coord.mk.injEq, true_and, and_true] at inside same ⊢ <;>
    grind

/-- No step leads from a place of the board to itself. -/
theorem step_ne {size : Size} {place : Coord} {side : Side} (inside : size.Contains place) :
    place.step side ≠ place := by
  obtain ⟨x, y⟩ := place
  have narrow : size.width < 255 := size.width_bounds.2
  have low : size.height < 255 := size.height_bounds.2
  cases side <;>
    simp only [Coord.step, Size.Contains, Coord.mk.injEq, true_and, and_true,
      ne_eq] at inside ⊢ <;>
    grind

/-- The cell that stores the wall on a side of a place: the place itself for the
    walls above and to the left, the neighbour there for the other two. -/
def Coord.keeper (place : Coord) : Side → Coord
  | .up => place
  | .left => place
  | .down => place.step .down
  | .right => place.step .right

/-- Steps down and to the right never enter the board from outside, so that a
    wall stored on the board belongs to a place of the board. -/
theorem contains_of_keeper {size : Size} {place : Coord} {side : Side}
    (kept : size.Contains (place.keeper side)) : size.Contains place := by
  obtain ⟨x, y⟩ := place
  have narrow : size.width < 255 := size.width_bounds.2
  have low : size.height < 255 := size.height_bounds.2
  cases side <;> simp only [Coord.keeper, Coord.step, Size.Contains] at kept ⊢ <;> grind

/-- Between two places of the board a wall is stored on the board. -/
theorem contains_keeper {size : Size} {place : Coord} {side : Side} (inside : size.Contains place)
    (across : size.Contains (place.step side)) : size.Contains (place.keeper side) := by
  cases side <;> assumption

/-- Two sides at right angles. -/
def Side.Crosses (turn side : Side) : Prop :=
  turn ≠ side ∧ turn ≠ side.opposite

instance (turn side : Side) : Decidable (turn.Crosses side) :=
  inferInstanceAs (Decidable (_ ∧ _))

/-- The board is at least two places wide and high, so that one can turn off any way. -/
theorem exists_crossing {size : Size} {place : Coord} (inside : size.Contains place) (side : Side) :
    ∃ turn : Side, turn.Crosses side ∧ size.Contains (place.step turn) := by
  obtain ⟨x, y⟩ := place
  have wide : 2 ≤ size.width := size.width_bounds.1
  have high : 2 ≤ size.height := size.height_bounds.1
  have narrow : size.width < 255 := size.width_bounds.2
  have low : size.height < 255 := size.height_bounds.2
  have sideways : size.Contains (Coord.step ⟨x, y⟩ .left) ∨
      size.Contains (Coord.step ⟨x, y⟩ .right) := by
    simp only [Coord.step, Size.Contains] at inside ⊢
    grind
  have upright : size.Contains (Coord.step ⟨x, y⟩ .up) ∨
      size.Contains (Coord.step ⟨x, y⟩ .down) := by
    simp only [Coord.step, Size.Contains] at inside ⊢
    grind
  cases side with
  | up | down =>
    rcases sideways with left | right
    · exact ⟨.left, by decide, left⟩
    · exact ⟨.right, by decide, right⟩
  | left | right =>
    rcases upright with up | down
    · exact ⟨.up, by decide, up⟩
    · exact ⟨.down, by decide, down⟩

/-- Two steps at right angles lead to the same place in either order. -/
theorem step_comm {turn side : Side} (crosses : turn.Crosses side) (place : Coord) :
    (place.step side).step turn = (place.step turn).step side := by
  obtain ⟨apart, unopposed⟩ := crosses
  cases side <;> cases turn <;> first | rfl | exact absurd rfl apart | exact absurd rfl unopposed

/-- Where a place has neighbours at right angles, the fourth place of the square is on the
    board too. -/
theorem contains_diagonal {size : Size} {place : Coord} {turn side : Side}
    (crosses : turn.Crosses side) (across : size.Contains (place.step side))
    (beside : size.Contains (place.step turn)) : size.Contains ((place.step side).step turn) := by
  obtain ⟨apart, unopposed⟩ := crosses
  cases side <;> cases turn <;>
    first
    | exact absurd rfl apart
    | exact absurd rfl unopposed
    | exact ⟨across.1, beside.2⟩
    | exact ⟨beside.1, across.2⟩

/-- Each step on the board can be taken the other way around a square, whose four places
    differ. -/
theorem exists_detour {size : Size} {place : Coord} {side : Side} (inside : size.Contains place)
    (across : size.Contains (place.step side)) :
    ∃ turn : Side, size.Contains (place.step turn) ∧ size.Contains ((place.step turn).step side) ∧
      ((place.step turn).step side).step turn.opposite = place.step side ∧
      [place.step side, (place.step turn).step side, place.step turn, place].Nodup := by
  obtain ⟨turn, crosses, beside⟩ := exists_crossing inside side
  have corner := contains_diagonal crosses across beside
  have home := step_opposite corner
  have undone := step_opposite across
  have cornerAcross : (place.step side).step turn ≠ place.step side := step_ne across
  have cornerBeside : (place.step turn).step side ≠ place.step turn := step_ne beside
  rw [step_comm crosses] at corner home cornerAcross
  have acrossBeside : place.step side ≠ place.step turn :=
    fun same => crosses.1 (step_injective inside same).symm
  have cornerPlace : (place.step turn).step side ≠ place := by
    intro same
    rw [← step_comm crosses] at same
    exact crosses.2 (step_injective across (same.trans undone.symm))
  refine ⟨turn, beside, corner, home, ?_⟩
  simp [cornerAcross.symm, acrossBeside, step_ne inside, cornerBeside, cornerPlace]

/-- The places of a board, each joined to its neighbours on the board. -/
def Size.grid (size : Size) : SimpleGraph Coord where
  Adj place other := size.Contains place ∧ size.Contains other ∧ ∃ side, place.step side = other
  symm := ⟨by
    rintro place other ⟨inside, across, side, rfl⟩
    exact ⟨across, inside, side.opposite, step_opposite across⟩⟩
  loopless := ⟨by
    rintro place ⟨inside, -, side, same⟩
    exact step_ne inside same⟩

/-- One less than a positive byte, as a number. -/
theorem toNat_pred {byte : UInt8} (positive : byte ≠ 0) : (byte - 1).toNat + 1 = byte.toNat := by
  have nonzero : byte.toNat ≠ 0 := fun zero => positive (UInt8.toNat_inj.mp zero)
  have bounded : (1 : UInt8) ≤ byte := UInt8.le_iff_toNat_le.mpr (Nat.one_le_iff_ne_zero.mpr nonzero)
  rw [UInt8.toNat_sub_of_le _ _ bounded]
  exact Nat.succ_pred_eq_of_pos (Nat.pos_of_ne_zero nonzero)

section Shared

variable {size : Size} {property : Coord → Prop}

/-- A property that neighbours share holds of a place exactly if it holds of the
    corner. The induction is on the number of steps that lead up and then left. -/
theorem shared_with_corner
    (shared : ∀ place side, size.Contains place → size.Contains (place.step side) →
      (property place ↔ property (place.step side)))
    (distance : Nat) (place : Coord) (inside : size.Contains place)
    (apart : place.x.toNat + place.y.toNat = distance) : property place ↔ property ⟨0, 0⟩ := by
  induction distance generalizing place with
  | zero =>
    obtain ⟨x, y⟩ := place
    have left : x = 0 := UInt8.toNat_inj.mp (Nat.eq_zero_of_add_eq_zero_right apart)
    have top : y = 0 := UInt8.toNat_inj.mp (Nat.eq_zero_of_add_eq_zero_left apart)
    rw [left, top]
  | succ distance inductionHypothesis =>
    by_cases top : place.y = 0
    · have right : place.x ≠ 0 := fun left => by simp [left, top] at apart
      have nearer : (place.x - 1).toNat + 1 = place.x.toNat := toNat_pred right
      have within : size.Contains (place.step .left) := by
        simp only [Coord.step, Size.Contains] at inside ⊢
        grind
      rw [shared place .left inside within]
      exact inductionHypothesis _ within (by simp only [Coord.step]; omega)
    · have nearer : (place.y - 1).toNat + 1 = place.y.toNat := toNat_pred top
      have within : size.Contains (place.step .up) := by
        simp only [Coord.step, Size.Contains] at inside ⊢
        grind
      rw [shared place .up inside within]
      exact inductionHypothesis _ within (by simp only [Coord.step]; omega)

/-- A property that neighbours share holds of all places of the board or of none. -/
theorem shared_of_step
    (shared : ∀ place side, size.Contains place → size.Contains (place.step side) →
      (property place ↔ property (place.step side)))
    {first second : Coord} (firstInside : size.Contains first)
    (secondInside : size.Contains second) : property first ↔ property second :=
  (shared_with_corner shared _ first firstInside rfl).trans
    (shared_with_corner shared _ second secondInside rfl).symm

end Shared

/-- One place comes before another, row by row and in each row from the left. -/
def Coord.Before (place other : Coord) : Prop :=
  place.y < other.y ∨ place.y = other.y ∧ place.x < other.x

/-- No two places come before each other, and none before itself. -/
theorem Coord.Before.asymm {place other : Coord} (first : place.Before other) :
    ¬ other.Before place := by
  simp only [Before] at first ⊢
  grind

/-- Small numbers are in the same order as bytes. -/
theorem toUInt8_lt {first second : Nat} (earlier : first < second) (small : second < UInt8.size) :
    first.toUInt8 < second.toUInt8 := by
  rw [UInt8.lt_iff_toNat_lt, UInt8.toNat_ofNat_of_lt' small,
    UInt8.toNat_ofNat_of_lt' (Nat.lt_trans earlier small)]
  exact earlier

namespace Size

/-- The places of a board are listed in their order. -/
theorem coords_inOrder (size : Size) : size.coords.Pairwise Coord.Before := by
  have narrow : size.width.toNat < UInt8.size := size.width.toNat_lt
  have low : size.height.toNat < UInt8.size := size.height.toNat_lt
  rw [coords, List.pairwise_flatMap]
  constructor
  · intro row _
    rw [List.pairwise_map]
    apply List.Pairwise.imp_of_mem _ List.pairwise_lt_range
    intro first second _ inSecond earlier
    exact .inr ⟨rfl, toUInt8_lt earlier (Nat.lt_trans (List.mem_range.mp inSecond) narrow)⟩
  · apply List.Pairwise.imp_of_mem _ List.pairwise_lt_range
    intro first second _ inSecond earlier place inOne other inOther
    obtain ⟨_, _, rfl⟩ := List.mem_map.mp inOne
    obtain ⟨_, _, rfl⟩ := List.mem_map.mp inOther
    exact .inl (toUInt8_lt earlier (Nat.lt_trans (List.mem_range.mp inSecond) low))

/-- No place is listed twice. -/
theorem coords_nodup (size : Size) : size.coords.Nodup := by
  apply size.coords_inOrder.imp
  rintro place _ before rfl
  exact before.asymm before

/-- As many places are listed as the board has cells. -/
@[simp] theorem length_coords (size : Size) : size.coords.length = size.area := by
  simp [coords, area, List.length_flatMap, Nat.mul_comm]

/-- Places listed without repetition are at most as many as the board has cells. -/
theorem length_le_area {size : Size} {places : List Coord} (distinct : places.Nodup)
    (inside : ∀ place ∈ places, size.Contains place) : places.length ≤ size.area := by
  rw [← size.length_coords]
  exact (distinct.subperm fun place member => mem_coords.mpr (inside place member)).length_le

/-- Every board has a top-left corner. -/
theorem contains_corner (size : Size) : size.Contains ⟨0, 0⟩ := by
  have wide : 2 ≤ size.width := size.width_bounds.1
  have high : 2 ≤ size.height := size.height_bounds.1
  exact ⟨by grind, by grind⟩

/-- A board has more than one cell, and at most 254 times 254. -/
theorem area_bounds (size : Size) : 0 < size.area ∧ size.area < 2 ^ 16 := by
  have wide : 2 ≤ size.width.toNat := size.width_bounds.1
  have high : 2 ≤ size.height.toNat := size.height_bounds.1
  have narrow : size.width.toNat < 256 := size.width.toNat_lt
  have low : size.height.toNat < 256 := size.height.toNat_lt
  constructor
  · exact Nat.mul_pos (by omega) (by omega)
  · calc size.area ≤ 255 * 255 := Nat.mul_le_mul (by omega) (by omega)
      _ < 2 ^ 16 := by decide

end Size

end MazeDial

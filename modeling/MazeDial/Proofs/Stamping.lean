import MazeDial.Generation.Placement
import MazeDial.Proofs.Trail

/-!
# Stamped boards

A cycle starts from the board as it was made: a reset leaves nothing of what the
board held, down to the spare half of its last byte. Stamping knocks walls down
one after another, so what every wall knocked down preserves, a whole plan does.
In particular a stamped board can be carved: a cell at a wall that was knocked
down is not empty any more.

A plan is stamped to its end if its placements fit, have data enough and leave a
choice of place.
-/

namespace MazeDial

/-- All marks of both halves of a byte are replaced. -/
theorem overlayHalves_full (byte : UInt8) (value : Cell) :
    overlayHalves byte value 15 = doubled value.bits := by
  obtain ⟨up, left, empty, visited⟩ := value
  revert byte up left empty visited
  apply Cell.forall_byte
  decide +kernel

/-- A reset board is the board as it was made. -/
theorem Maze.reset_eq_fresh (maze : Maze) : maze.reset = Maze.fresh maze.size := by
  have bytes : maze.cells.bytes.map (fun byte => overlayHalves byte Cell.fresh 15) =
      Vector.replicate _ (doubled Cell.fresh.bits) := by
    ext index inside
    simp [overlayHalves_full]
  rw [reset, fill, fresh, PackedCells.fill, bytes]
  rfl

/-- On a board as it was made all walls stand, -/
theorem Maze.wall_fresh (size : Size) (place : Coord) (side : Side) :
    (fresh size).wall place side = true := by
  rw [wall_eq_wallOf, get_fresh]
  cases side <;> split <;> rfl

/-- and all cells are empty. -/
theorem Maze.empty_fresh {size : Size} {place : Coord} (inside : size.Contains place) :
    ((fresh size).get place).empty = true := by
  rw [get_fresh, if_pos inside]
  rfl

/-- It can be carved. -/
theorem carvable_fresh (size : Size) : Carvable (Maze.fresh size) where
  unvisited place := by
    rw [Maze.get_fresh]
    split <;> rfl
  walled place side _ _ := Maze.wall_fresh size place side

namespace Maze

variable {maze : Maze}

@[simp] theorem size_knockDown (maze : Maze) (place : Coord) (side : Side) :
    (maze.knockDown place side).size = maze.size := by
  simp [knockDown]

/-- Where a wall is knocked down, the cells on both sides are no longer empty. -/
theorem flags_knockDown (place other : Coord) (side : Side) :
    ((maze.knockDown place side).get other).empty =
        ((maze.get other).empty && other != place && other != place.step side) ∧
      ((maze.knockDown place side).get other).visited = (maze.get other).visited := by
  rw [knockDown, (flags_clearEmpty ..).1, (flags_clearEmpty ..).1, (flags_clearEmpty ..).2,
    (flags_clearEmpty ..).2, empty_setWall, visited_setWall]
  exact ⟨rfl, rfl⟩

/-- Knocking down a wall leaves a carvable board carvable. -/
theorem carvable_knockDown (carvable : Carvable maze) (place : Coord) (side : Side) :
    Carvable (maze.knockDown place side) where
  unvisited other := by rw [(flags_knockDown place other side).2, carvable.unvisited]
  walled other otherSide empty across := by
    rw [(flags_knockDown place other side).1, Bool.and_eq_true, Bool.and_eq_true, bne_iff_ne,
      bne_iff_ne] at empty
    obtain ⟨⟨wasEmpty, notHere⟩, notThere⟩ := empty
    rw [size_knockDown] at across
    have stood : maze.wall other otherSide = true := carvable.walled other otherSide wasEmpty across
    rw [knockDown, wall_setEmpty, wall_setEmpty]
    by_cases kept : maze.size.Contains (place.keeper side)
    · have apart : s(other, other.step otherSide) ≠ s(place, place.step side) := by
        intro same
        rcases Sym2.eq_iff.mp same with ⟨here, -⟩ | ⟨there, -⟩
        · exact notHere here
        · exact notThere there
      rw [wall_setWall kept, if_neg apart, stood]
    · rw [setWall_outside kept, stood]

end Maze

/-- The offsets of a pattern are those within its width and height. -/
theorem Pattern.mem_offsets {pattern : Pattern} {offset : Coord} :
    offset ∈ pattern.offsets ↔
      offset.x.toNat < pattern.width.toNat ∧ offset.y.toNat < pattern.height.toNat := by
  simp only [offsets, List.mem_flatMap, List.mem_range, List.mem_map]
  constructor
  · rintro ⟨row, inRow, column, inColumn, rfl⟩
    have narrow : pattern.width.toNat < UInt8.size := pattern.width.toNat_lt
    have low : pattern.height.toNat < UInt8.size := pattern.height.toNat_lt
    exact ⟨by rwa [UInt8.toNat_ofNat_of_lt' (Nat.lt_trans inColumn narrow)],
      by rwa [UInt8.toNat_ofNat_of_lt' (Nat.lt_trans inRow low)]⟩
  · rintro ⟨column, row⟩
    exact ⟨offset.y.toNat, row, offset.x.toNat, column, by simp⟩

/-- The cells of a pattern that fits are places of the board. No sum of a corner and an
    offset is too large for a byte. -/
theorem Pattern.Fits.contains_shift {pattern : Pattern} {origin offset : Coord} {size : Size}
    (fits : pattern.Fits origin size) (member : offset ∈ pattern.offsets) :
    size.Contains (origin.shift offset) ∧
      (origin.shift offset).x.toNat = origin.x.toNat + offset.x.toNat ∧
      (origin.shift offset).y.toNat = origin.y.toNat + offset.y.toNat := by
  obtain ⟨column, row⟩ := mem_offsets.mp member
  obtain ⟨right, bottom⟩ := fits
  have narrow : size.width.toNat < 256 := size.width.toNat_lt
  have low : size.height.toNat < 256 := size.height.toNat_lt
  have x : (origin.x + offset.x).toNat = origin.x.toNat + offset.x.toNat := by
    rw [UInt8.toNat_add, Nat.mod_eq_of_lt (by omega)]
  have y : (origin.y + offset.y).toNat = origin.y.toNat + offset.y.toNat := by
    rw [UInt8.toNat_add, Nat.mod_eq_of_lt (by omega)]
  refine ⟨⟨?_, ?_⟩, x, y⟩
  · rw [UInt8.lt_iff_toNat_lt, Coord.shift, x]
    omega
  · rw [UInt8.lt_iff_toNat_lt, Coord.shift, y]
    omega

/-- With data enough the byte that a cell of a pattern is marked in is stored. -/
theorem Pattern.byte_lt_size {pattern : Pattern} (enough : pattern.area ≤ pattern.covered)
    {offset : Coord} (member : offset ∈ pattern.offsets) :
    (offset.y.toNat * pattern.width.toNat + offset.x.toNat) / 4 < pattern.data.size := by
  obtain ⟨column, row⟩ := mem_offsets.mp member
  have inside : offset.y.toNat * pattern.width.toNat + offset.x.toNat < pattern.area := by
    have rows : (offset.y.toNat + 1) * pattern.width.toNat ≤
        pattern.height.toNat * pattern.width.toNat := Nat.mul_le_mul_right _ row
    rw [area, Nat.mul_comm pattern.width.toNat]
    rw [Nat.add_mul, Nat.one_mul] at rows
    omega
  rw [covered] at enough
  omega

/-- With data enough every cell of a pattern has a mark. -/
theorem Pattern.exists_mark {pattern : Pattern} (enough : pattern.area ≤ pattern.covered)
    {offset : Coord} (member : offset ∈ pattern.offsets) :
    ∃ mark, pattern.mark offset = .ok mark := by
  have stored := pattern.byte_lt_size enough member
  simp [mark, Array.getElem?_eq_getElem stored]

section Stable

variable {property : Maze → Prop}

/-- What every wall knocked down preserves, a mark preserves. -/
theorem Maze.imprint_stable
    (stable : ∀ maze place side, property maze → property (maze.knockDown place side))
    {maze : Maze} (holds : property maze) (place : Coord) (mark : Mark) :
    property (maze.imprint place mark) := by
  obtain ⟨keepLeft, keepUp⟩ := mark
  have left : property (if keepLeft then maze else maze.knockDown place .left) := by
    split
    · exact holds
    · exact stable _ _ _ holds
  rw [imprint]
  split
  · exact left
  · exact stable _ _ _ left

/-- What every wall knocked down preserves, a row of marks preserves. -/
theorem Maze.imprintAll_stable
    (stable : ∀ maze place side, property maze → property (maze.knockDown place side))
    {pattern : Pattern} {origin : Coord} {offsets : List Coord}
    (marked : ∀ offset ∈ offsets, ∃ mark, pattern.mark offset = .ok mark)
    {maze : Maze} (holds : property maze) :
    ∃ after, offsets.foldlM (fun maze offset =>
        (pattern.mark offset).map (maze.imprint (origin.shift offset))) maze = .ok after ∧
      property after := by
  induction offsets generalizing maze with
  | nil => exact ⟨maze, rfl, holds⟩
  | cons offset rest inductionHypothesis =>
    obtain ⟨mark, found⟩ := marked offset List.mem_cons_self
    rw [List.foldlM_cons, found]
    exact inductionHypothesis (fun other member => marked other (List.mem_cons_of_mem _ member))
      (Maze.imprint_stable stable holds _ mark)

/-- A pattern that fits and has data enough is stamped, which preserves what every wall
    knocked down does. -/
theorem Maze.stamp_stable
    (stable : ∀ maze place side, property maze → property (maze.knockDown place side))
    {maze : Maze} (holds : property maze) {origin : Coord} {pattern : Pattern}
    (fits : pattern.Fits origin maze.size) (enough : pattern.area ≤ pattern.covered) :
    ∃ after, maze.stamp origin pattern = .ok after ∧ property after := by
  rw [stamp, if_neg (not_not.mpr fits), if_neg (Nat.not_lt.mpr enough)]
  exact Maze.imprintAll_stable stable (fun _ => pattern.exists_mark enough) holds

/-- Only a pattern that fits and has data enough is stamped. -/
theorem Maze.fits_of_stamp {maze after : Maze} {origin : Coord} {pattern : Pattern}
    (stamped : maze.stamp origin pattern = .ok after) :
    pattern.Fits origin maze.size ∧ pattern.area ≤ pattern.covered := by
  unfold stamp at stamped
  split at stamped
  · cases stamped
  · next fits =>
    split at stamped
    · cases stamped
    · next enough => exact ⟨not_not.mp fits, Nat.not_lt.mp enough⟩

variable {σ : Type} [RandomSource σ]

/-- What every wall knocked down preserves, a plan preserves. -/
theorem stampAll_stable
    (stable : ∀ maze place side, property maze → property (maze.knockDown place side))
    {plan : List Placement} {maze after : Maze} {source drawn : σ} (holds : property maze)
    (stamped : stampAll plan maze source = .ok (after, drawn)) : property after := by
  induction plan generalizing maze source with
  | nil =>
    obtain ⟨rfl, -⟩ := Prod.mk.inj (Except.ok.inj stamped)
    exact holds
  | cons placement rest inductionHypothesis =>
    rw [stampAll] at stamped
    cases settled : placement.settle source with
    | error fault =>
      rw [settled] at stamped
      cases stamped
    | ok corner =>
      obtain ⟨⟨origin, pattern⟩, left⟩ := corner
      simp only [settled, bind, Except.bind] at stamped
      cases stampedOne : maze.stamp origin pattern with
      | error fault =>
        rw [stampedOne] at stamped
        cases stamped
      | ok middle =>
        rw [stampedOne] at stamped
        obtain ⟨fits, enough⟩ := Maze.fits_of_stamp stampedOne
        obtain ⟨same, answered, kept⟩ := Maze.stamp_stable stable holds fits enough
        obtain rfl := Except.ok.inj (stampedOne.symm.trans answered)
        exact inductionHypothesis kept stamped

end Stable

/-- Whether a placement fits a board, wherever it is drawn, and has data enough. -/
def Placement.Fitting (size : Size) : Placement → Prop
  | .fixed origin pattern => pattern.Fits origin size ∧ pattern.area ≤ pattern.covered
  | .scattered pattern left right top bottom =>
    (∀ origin : Coord, left ≤ origin.x → origin.x ≤ right → top ≤ origin.y → origin.y ≤ bottom →
      pattern.Fits origin size) ∧ pattern.area ≤ pattern.covered

/-- Whether a placement leaves a choice of place, or needs none. -/
def Placement.Drawable : Placement → Prop
  | .fixed _ _ => True
  | .scattered _ left right top bottom => left ≤ right ∧ top ≤ bottom

variable {σ : Type} [RandomSource σ] [LawfulRandomSource σ]

/-- The corner of a scattered placement lies between its bounds. -/
theorem Placement.settle_scattered (pattern : Pattern) {left right top bottom : UInt8}
    (columns : left ≤ right) (rows : top ≤ bottom) (source : σ) :
    ∃ x y drawn, (scattered pattern left right top bottom).settle source =
        .ok ((⟨x, y⟩, pattern), drawn) ∧ left ≤ x ∧ x ≤ right ∧ top ≤ y ∧ y ≤ bottom := by
  obtain ⟨x, between, column, leftBound, rightBound⟩ := exists_byte columns source
  obtain ⟨y, drawn, row, topBound, bottomBound⟩ := exists_byte rows between
  refine ⟨x, y, drawn, ?_, leftBound, rightBound, topBound, bottomBound⟩
  simp only [settle, column, row, bind, Except.bind, pure, Except.pure]

/-- A fitting placement that leaves a choice is settled where it fits. -/
theorem Placement.settle_fits {size : Size} {placement : Placement}
    (fitting : placement.Fitting size) (drawable : placement.Drawable) (source : σ) :
    ∃ origin pattern drawn, placement.settle source = .ok ((origin, pattern), drawn) ∧
      pattern.Fits origin size ∧ pattern.area ≤ pattern.covered := by
  cases placement with
  | fixed origin pattern => exact ⟨origin, pattern, source, rfl, fitting⟩
  | scattered pattern left right top bottom =>
    obtain ⟨fits, enough⟩ := fitting
    obtain ⟨columns, rows⟩ := drawable
    obtain ⟨x, y, drawn, settled, leftBound, rightBound, topBound, bottomBound⟩ :=
      settle_scattered pattern columns rows source
    exact ⟨⟨x, y⟩, pattern, drawn, settled,
      fits ⟨x, y⟩ leftBound rightBound topBound bottomBound, enough⟩

/-- A fitting plan that leaves a choice everywhere is stamped to its end. -/
theorem stampAll_ok {plan : List Placement} {maze : Maze}
    (fitting : ∀ placement ∈ plan, placement.Fitting maze.size)
    (drawable : ∀ placement ∈ plan, placement.Drawable) (source : σ) :
    ∃ stamped, stampAll plan maze source = .ok stamped := by
  induction plan generalizing maze source with
  | nil => exact ⟨(maze, source), rfl⟩
  | cons placement rest inductionHypothesis =>
    obtain ⟨origin, pattern, drawn, settled, fits, enough⟩ := Placement.settle_fits
      (fitting placement List.mem_cons_self) (drawable placement List.mem_cons_self) source
    have kept (other : Maze) (place : Coord) (side : Side) (same : other.size = maze.size) :
        (other.knockDown place side).size = maze.size :=
      (Maze.size_knockDown ..).trans same
    obtain ⟨middle, stamped, same⟩ := Maze.stamp_stable kept rfl fits enough
    rw [stampAll, settled]
    simp only [bind, Except.bind, stamped]
    apply inductionHypothesis
    · intro other member
      rw [same]
      exact fitting other (List.mem_cons_of_mem _ member)
    · intro other member
      exact drawable other (List.mem_cons_of_mem _ member)

end MazeDial

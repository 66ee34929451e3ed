import MazeDial.Proofs.Starts

/-!
# Draws from words

Between any two bounds in order, a source of words yields a number, in whatever state it is
and whatever its words are. The number lies within the bounds, it is the least one and a
share without wrapping around, and one word or two are drawn for it. So every use that is
made of such numbers is in range: samples are places of the board, a corner lies where its
placement says, a direction is the number of a side, a rank counts an empty cell, and the
choice among the walls around a flood is the number of one of them.
-/

namespace MazeDial

variable {σ : Type} [RandomSource σ]

/-- Whatever is drawn next from a source is in range where it is used. -/
structure DrawsInRange (source : σ) : Prop where
  /-- Samples are places of the board, however many are drawn. -/
  samples (size : Size) (count : Nat) : ∃ places after, DrawsPlaces size source places after ∧
    places.length = count ∧ ∀ place ∈ places, size.Contains place
  /-- A corner lies between the bounds of its placement. -/
  corner (pattern : Pattern) {left right top bottom : UInt8} (columns : left ≤ right)
    (rows : top ≤ bottom) : ∃ x y after,
      (Placement.scattered pattern left right top bottom).settle source =
        .ok ((⟨x, y⟩, pattern), after) ∧ left ≤ x ∧ x ≤ right ∧ top ≤ y ∧ y ≤ bottom
  /-- A direction is the number of a side, counted from zero. -/
  direction : ∃ direction after, drawByte 0 3 source = .ok (direction, after) ∧
    Side.all[direction.toNat]? = some (Side.ofIndex direction)
  /-- A rank is the number of an empty cell, counted from one. -/
  rank {maze : Maze} (some : maze.emptyCells ≠ []) : ∃ rank after place,
    drawIndex 1 maze.emptyCells.length source = .ok (rank, after) ∧ 1 ≤ rank ∧
      maze.emptyCells[rank - 1]? = .some place
  /-- A choice is the number of a wall around the flood, counted from zero, and that wall is
      taken out. -/
  wall {flood : Flood σ} {walls : List (Coord × Side)} (same : flood.source = source)
    (walled : flood.maze.boundary = .walled walls) : ∃ choice after place side breached,
      drawIndex 0 (walls.length - 1) source = .ok (choice, after) ∧
        walls[choice]? = some (place, side) ∧
        (flood.breach walls).result = .ok breached ∧
        breached.maze = flood.maze.setWall place side false

section Lawful

variable [LawfulRandomSource σ]

/-- Samples are places of the board: a column is less than the width, and a row is less than
    the height. -/
theorem exists_places (size : Size) (count : Nat) (source : σ) :
    ∃ places after, DrawsPlaces size source places after ∧ places.length = count ∧
      ∀ place ∈ places, size.Contains place := by
  have wide : 2 ≤ size.width := size.width_bounds.1
  have high : 2 ≤ size.height := size.height_bounds.1
  induction count generalizing source with
  | zero => exact ⟨[], source, .none, rfl, nofun⟩
  | succ count inductionHypothesis =>
    have below {byte bound : UInt8} (some : 2 ≤ bound) (most : byte ≤ bound - 1) :
        byte < bound := by grind
    obtain ⟨x, between, column, -, xBound⟩ :=
      exists_byte (@UInt8.zero_le (size.width - 1)) source
    obtain ⟨y, after, row, -, yBound⟩ := exists_byte (@UInt8.zero_le (size.height - 1)) between
    obtain ⟨places, last, further, long, inside⟩ := inductionHypothesis after
    exact ⟨⟨x, y⟩ :: places, last, .next column row further, congrArg (· + 1) long,
      List.forall_mem_cons.mpr ⟨⟨below wide xBound, below high yBound⟩, inside⟩⟩

/-- The first four bytes are the numbers of the sides. -/
theorem Side.getElem?_all {index : UInt8} (few : index ≤ 3) :
    all[index.toNat]? = some (ofIndex index) := by
  obtain rfl | rfl | rfl | rfl : index = 0 ∨ index = 1 ∨ index = 2 ∨ index = 3 := by grind
  all_goals rfl

/-- The choice among the walls around a flood is that of one of them, which is taken out. -/
theorem Flood.exists_breach {flood : Flood σ} {walls : List (Coord × Side)}
    (walled : flood.maze.boundary = .walled walls) : ∃ choice after place side breached,
      drawIndex 0 (walls.length - 1) flood.source = .ok (choice, after) ∧
        walls[choice]? = some (place, side) ∧
        (flood.breach walls).result = .ok breached ∧
        breached.maze = flood.maze.setWall place side false := by
  obtain ⟨rfl, some, -⟩ := Maze.walls_of_boundary walled
  obtain ⟨⟨place, side⟩, -, choice, after, drawn, chosen⟩ :=
    exists_of_number some (Nat.le_of_lt flood.maze.length_boundaryPairs_lt) flood.source
  exact ⟨choice, after, place, side, _, drawn, chosen, breach_drawn drawn chosen, rfl⟩

/-- What is drawn from a lawful source is in range. -/
theorem drawsInRange (source : σ) : DrawsInRange source where
  samples size count := exists_places size count source
  corner pattern _ _ _ _ columns rows := Placement.settle_scattered pattern columns rows source
  direction := by
    obtain ⟨direction, after, drawn, -, few⟩ := exists_byte (by decide : (0 : UInt8) ≤ 3) source
    exact ⟨direction, after, drawn, Side.getElem?_all few⟩
  rank {maze} some := by
    obtain ⟨place, -, rank, after, drawn, positive, -, ranked⟩ :=
      exists_of_rank some maze.length_emptyCells_lt source
    exact ⟨rank, after, place, drawn, positive, ranked⟩
  wall same walled := same ▸ Flood.exists_breach walled

end Lawful

/-- In every state of a source of words, between any two bytes in order one is drawn, and so
    is a number between any two numbers in order that fit in 64 bits. It lies within the
    bounds, and one word or two are drawn for it: words of 32 bits for a byte and for a number
    below 2 to the 32, words of 64 bits for the other numbers. It is the sum of the least and
    of the share that two words have of the range; only if every byte may come it is the
    lowest digits of a word. So whatever is drawn is in range where it is used. -/
theorem draws_keep_their_bounds [WordSource σ] (source : σ) :
    (∀ least greatest : UInt8, least ≤ greatest → ∃ byte after,
      drawByte least greatest source = .ok (byte, after) ∧ least ≤ byte ∧ byte ≤ greatest ∧
        DrawsOneOrTwo (shortWord WordSource.next) source after ∧
        (greatest.toNat - least.toNat = 255 →
          byte = (WordSource.next source).1.toUInt8 ∧ after = (WordSource.next source).2) ∧
        (greatest.toNat - least.toNat < 255 →
          MadeFrom (shortWord WordSource.next) 32 least.toNat greatest.toNat source
            byte.toNat after)) ∧
    (∀ least greatest : Nat, least ≤ greatest → greatest < 2 ^ 64 → ∃ number after,
      drawIndex least greatest source = .ok (number, after) ∧
        least ≤ number ∧ number ≤ greatest ∧
        (greatest < 2 ^ 32 → DrawsOneOrTwo (shortWord WordSource.next) source after ∧
          MadeFrom (shortWord WordSource.next) 32 least greatest source number after) ∧
        (2 ^ 32 ≤ greatest → DrawsOneOrTwo (longWord WordSource.next) source after ∧
          MadeFrom (longWord WordSource.next) 64 least greatest source number after)) ∧
    DrawsInRange source := by
  refine ⟨?_, ?_, drawsInRange source⟩
  · intro least greatest ordered
    have drawn := drawByte_ok ordered source
    rw [WordSource.byte_eq] at drawn
    obtain ⟨least_le, le_greatest⟩ := chooseByte_bounds WordSource.next source ordered
    have whole := @chooseByte_whole σ WordSource.next least greatest
    have made := @chooseByte_made σ WordSource.next _ _ ordered
    refine ⟨_, _, drawn, least_le, le_greatest, ?_, ?_, (made · source)⟩
    · rcases Nat.lt_or_ge (greatest.toNat - least.toNat) 255 with part | all
      · exact (made part source).oneOrTwo
      · have most : greatest.toNat < 256 := greatest.toNat_lt
        exact .inl (congrArg Prod.snd (whole (by omega) source))
    · exact fun all => Prod.mk.inj (whole all source)
  · intro least greatest ordered fits
    have drawn := drawIndex_ok ordered source
    rw [WordSource.index_eq] at drawn
    obtain ⟨least_le, le_greatest⟩ := chooseIndex_bounds WordSource.next source ordered fits
    refine ⟨_, _, drawn, least_le, le_greatest, ?_, ?_⟩
    · intro short
      have made := chooseIndex_short WordSource.next ordered short source
      exact ⟨made.oneOrTwo, made⟩
    · intro long
      have made := chooseIndex_long WordSource.next ordered long fits source
      exact ⟨made.oneOrTwo, made⟩

/-- The first word of seed zero does not settle a number from 1 to 2 to the 63 and six, and
    the second one adds to its share. Two words are drawn for that number, and one for a number
    that may be any word, or for any byte. -/
theorem draws_keep_their_bounds_seedZero :
    let source := KeyStream.ofSeed 0
    let first := longWord KeyStream.next source
    let second := longWord KeyStream.next first.2
    let range := 2 ^ 63 + 6
    first.1 * range / 2 ^ 64 = 6743331035646670787 ∧
      drawIndex 1 range source = .ok (1 + 6743331035646670788, second.2) ∧
      1 + 6743331035646670788 ≤ range ∧
      drawIndex 0 (2 ^ 64 - 1) source = .ok first ∧
      drawByte 0 255 source = .ok (127, (KeyStream.next source).2) := by
  intro source first second range
  obtain ⟨bytes, numbers, -⟩ := draws_keep_their_bounds source
  have alone : first.1 * range / 2 ^ 64 = 6743331035646670787 := by decide +kernel
  have together : share 64 range first.1 second.1 = 6743331035646670788 := by decide +kernel
  have unsettled : ¬ Settles 64 range first.1 := by
    rw [settles_iff (by decide) (by decide)]
    decide +kernel
  obtain ⟨number, after, drawn, -, most, -, long⟩ := numbers 1 range (by decide) (by decide)
  obtain ⟨-, offset, rfl, shares⟩ := long (by decide)
  obtain rfl : offset = _ := shares.offset_eq.trans together
  obtain rfl := shares.unsettled unsettled
  refine ⟨alone, drawn, most, ?_, ?_⟩
  · obtain ⟨word, after, drawn, -, -, -, long⟩ := numbers 0 (2 ^ 64 - 1) (by decide) (by decide)
    obtain ⟨-, offset, rfl, shares⟩ := long (by decide)
    have alike := word_shares (longWord_lt KeyStream.next) source
    have same : offset = first.1 := shares.offset_eq.trans alike.offset_eq.symm
    have one : after = first.2 := shares.settled (settles_whole 64 _)
    rw [drawn, Nat.zero_add, same, one]
  · obtain ⟨byte, after, drawn, -, -, -, whole, -⟩ := bytes 0 255 (by decide)
    obtain ⟨rfl, rfl⟩ := whole rfl
    have lowest : (KeyStream.next source).1.toUInt8 = 127 := by decide +kernel
    exact drawn.trans (congrArg (fun byte => Except.ok (byte, _)) lowest)

end MazeDial

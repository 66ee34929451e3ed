import MazeDial.Carving.Start
import MazeDial.Proofs.Board
import MazeDial.Proofs.Words

/-!
# Draws within their bounds

A random source is lawful if its draws respect the bounds they are asked for.
Nothing else is ever assumed of a source, so that whatever is shown for lawful
sources holds for every sequence of draws. A source that makes its numbers from
words is lawful, and a key stream is one.

With a lawful source a start is found exactly if some cell is empty, and it is an
empty cell.
-/

namespace MazeDial

/-- A source whose draws lie within the bounds asked for, as long as there is a
    choice and it fits in 64 bits. -/
class LawfulRandomSource (σ : Type) [RandomSource σ] : Prop where
  byte_bounds (least greatest : UInt8) (source : σ) (choice : least ≤ greatest) :
    least ≤ (RandomSource.byte least greatest source).1 ∧
      (RandomSource.byte least greatest source).1 ≤ greatest
  index_bounds (least greatest : Nat) (source : σ) (choice : least ≤ greatest)
    (fits : greatest < 2 ^ 64) :
    least ≤ (RandomSource.index least greatest source).1 ∧
      (RandomSource.index least greatest source).1 ≤ greatest

/-- A source that makes its numbers from words. -/
class WordSource (σ : Type) [RandomSource σ] where
  /-- The next word. -/
  next : σ → UInt32 × σ
  byte_eq (least greatest : UInt8) (source : σ) :
    RandomSource.byte least greatest source = chooseByte next least greatest source
  index_eq (least greatest : Nat) (source : σ) :
    RandomSource.index least greatest source = chooseIndex next least greatest source

instance : WordSource KeyStream where
  next := KeyStream.next
  byte_eq _ _ _ := rfl
  index_eq _ _ _ := rfl

/-- Whatever the words are, the numbers made from them lie within their bounds. -/
instance {σ : Type} [RandomSource σ] [WordSource σ] : LawfulRandomSource σ where
  byte_bounds least greatest source choice := by
    rw [WordSource.byte_eq]
    exact chooseByte_bounds WordSource.next source choice
  index_bounds least greatest source choice fits := by
    rw [WordSource.index_eq]
    exact chooseIndex_bounds WordSource.next source choice fits

section Drawing

variable {σ : Type} [RandomSource σ]

theorem drawByte_ok {least greatest : UInt8} (choice : least ≤ greatest) (source : σ) :
    drawByte least greatest source = .ok (RandomSource.byte least greatest source) := by
  rw [drawByte, if_neg (UInt8.not_lt.mpr choice)]

theorem drawIndex_ok {least greatest : Nat} (choice : least ≤ greatest) (source : σ) :
    drawIndex least greatest source = .ok (RandomSource.index least greatest source) := by
  rw [drawIndex, if_neg (Nat.not_lt.mpr choice)]

section Lawful

variable [LawfulRandomSource σ]

/-- A lawful source has a byte between any two in order. -/
theorem exists_byte {least greatest : UInt8} (choice : least ≤ greatest) (source : σ) :
    ∃ byte after, drawByte least greatest source = .ok (byte, after) ∧
      least ≤ byte ∧ byte ≤ greatest :=
  ⟨_, _, drawByte_ok choice source, LawfulRandomSource.byte_bounds _ _ source choice⟩

/-- A lawful source has a number between any two in order. -/
theorem exists_index {least greatest : Nat} (choice : least ≤ greatest)
    (fits : greatest < 2 ^ 64) (source : σ) :
    ∃ number after, drawIndex least greatest source = .ok (number, after) ∧
      least ≤ number ∧ number ≤ greatest :=
  ⟨_, _, drawIndex_ok choice source, LawfulRandomSource.index_bounds _ _ source choice fits⟩

variable {α : Type} {items : List α}

/-- A number drawn for a list, counted from zero, is the number of one of its members. -/
theorem exists_of_number (some : items ≠ []) (few : items.length ≤ 2 ^ 64) (source : σ) :
    ∃ item ∈ items, ∃ choice after,
      drawIndex 0 (items.length - 1) source = .ok (choice, after) ∧ items[choice]? = .some item := by
  have positive : 0 < items.length := List.length_pos_iff.mpr some
  obtain ⟨choice, after, drawn, -, greatest⟩ :=
    exists_index (Nat.zero_le (items.length - 1)) (by omega) source
  have inside : choice < items.length := by omega
  exact ⟨_, List.getElem_mem inside, choice, after, drawn, List.getElem?_eq_getElem inside⟩

/-- A rank drawn for a list, counted from one, is the rank of one of its members. -/
theorem exists_of_rank (some : items ≠ []) (few : items.length < 2 ^ 64) (source : σ) :
    ∃ item ∈ items, ∃ rank after, drawIndex 1 items.length source = .ok (rank, after) ∧
      1 ≤ rank ∧ rank ≤ items.length ∧ items[rank - 1]? = .some item := by
  have positive : 1 ≤ items.length := List.length_pos_iff.mpr some
  obtain ⟨rank, after, drawn, least, greatest⟩ := exists_index positive few source
  have inside : rank - 1 < items.length := by omega
  exact ⟨_, List.getElem_mem inside, rank, after, drawn, least, greatest,
    List.getElem?_eq_getElem inside⟩

end Lawful

/-- A source arises from another one by so many draws of numbers. -/
inductive IndexDraws (first : σ) : Nat → σ → Prop
  | none : IndexDraws first 0 first
  | draw {count least greatest choice : Nat} {source after : σ} (before : IndexDraws first count source)
      (drawn : drawIndex least greatest source = .ok (choice, after)) :
      IndexDraws first (count + 1) after

/-- A source from which nothing was drawn is as it was. -/
theorem IndexDraws.eq_of_count_eq_zero {first source : σ} {count : Nat}
    (draws : IndexDraws first count source) (none : count = 0) : source = first := by
  cases draws with
  | none => rfl
  | draw => exact absurd none (Nat.succ_ne_zero _)

namespace Maze

/-- The cells listed as empty are the empty cells; those are on the board. -/
theorem mem_emptyCells {maze : Maze} {place : Coord} :
    place ∈ maze.emptyCells ↔ (maze.get place).empty = true := by
  rw [emptyCells, List.mem_filter, Size.mem_coords]
  constructor
  · exact And.right
  · intro empty
    refine ⟨?_, empty⟩
    by_contra outside
    rw [get_outside outside] at empty
    exact Bool.noConfusion empty

theorem contains_of_empty {maze : Maze} {place : Coord} (empty : (maze.get place).empty = true) :
    maze.size.Contains place :=
  Size.mem_coords.mp (List.mem_filter.mp (mem_emptyCells.mpr empty)).1

theorem emptyCells_nodup (maze : Maze) : maze.emptyCells.Nodup :=
  maze.size.coords_nodup.filter _

/-- No board has more empty cells than cells. -/
theorem length_emptyCells_le (maze : Maze) : maze.emptyCells.length ≤ maze.size.area :=
  Size.length_le_area maze.emptyCells_nodup
    fun _ member => contains_of_empty (mem_emptyCells.mp member)

/-- There are fewer empty cells than numbers to draw. -/
theorem length_emptyCells_lt (maze : Maze) : maze.emptyCells.length < 2 ^ 64 := by
  have most := maze.length_emptyCells_le
  have area : maze.size.area < 2 ^ 16 := maze.size.area_bounds.2
  omega

/-- Sampling never refuses, and what it finds is an empty cell. -/
theorem sampleStart_spec (maze : Maze) (tries : Nat) (source : σ) :
    ∃ found after, maze.sampleStart tries source = .ok (found, after) ∧
      ∀ place, found = some place → (maze.get place).empty = true := by
  induction tries generalizing source with
  | zero => exact ⟨none, source, rfl, nofun⟩
  | succ tries inductionHypothesis =>
    rw [sampleStart, drawByte_ok UInt8.zero_le]
    generalize RandomSource.byte 0 (maze.size.width - 1) source = column
    obtain ⟨x, afterColumn⟩ := column
    simp only [bind, Except.bind, drawByte_ok UInt8.zero_le]
    generalize RandomSource.byte 0 (maze.size.height - 1) afterColumn = row
    obtain ⟨y, afterRow⟩ := row
    by_cases empty : (maze.get ⟨x, y⟩).empty = true
    · refine ⟨some ⟨x, y⟩, afterRow, by simp [empty, pure, Except.pure], ?_⟩
      rintro _ ⟨⟩
      exact empty
    · simpa [empty] using inductionHypothesis afterRow

/-- With a lawful source a start is chosen exactly if some cell is empty, and it is
    an empty cell. No choice is ever refused. -/
theorem chooseStart_spec [LawfulRandomSource σ] (maze : Maze) (source : σ) :
    ∃ found after, maze.chooseStart source = .ok (found, after) ∧
      (found = none ↔ ∀ place, (maze.get place).empty = false) ∧
      ∀ place, found = some place → (maze.get place).empty = true := by
  obtain ⟨sample, sampled, drawn, isEmpty⟩ := maze.sampleStart_spec startSamples source
  rw [chooseStart, drawn]
  cases sample with
  | some place =>
    have notAll : ¬ ∀ other, (maze.get other).empty = false := by
      intro none
      simpa [none] using isEmpty place rfl
    exact ⟨some place, sampled, rfl, ⟨nofun, fun none => absurd none notAll⟩, isEmpty⟩
  | none =>
    have listed : maze.emptyCells = [] ↔ ∀ place, (maze.get place).empty = false := by
      simp only [List.eq_nil_iff_forall_not_mem, mem_emptyCells, Bool.not_eq_true]
    by_cases carved : maze.emptyCells = []
    · exact ⟨none, sampled, by simp [carved, bind, Except.bind, pure, Except.pure],
        ⟨fun _ => listed.mp carved, fun _ => rfl⟩, nofun⟩
    · obtain ⟨place, member, rank, after, ranked, -, -, found⟩ :=
        exists_of_rank carved maze.length_emptyCells_lt sampled
      refine ⟨some place, after, ?_, ⟨nofun, fun none => absurd (listed.mpr none) carved⟩, ?_⟩
      · simp [bind, Except.bind, pure, Except.pure, carved, ranked, found]
      · rintro _ ⟨⟩
        exact mem_emptyCells.mp member

section Chosen

variable [LawfulRandomSource σ] {maze : Maze} {source drawn : σ}

/-- A start that was chosen is an empty cell. -/
theorem empty_of_chooseStart {start : Coord}
    (chosen : maze.chooseStart source = .ok (some start, drawn)) :
    (maze.get start).empty = true := by
  obtain ⟨found, after, answer, -, isEmpty⟩ := maze.chooseStart_spec source
  rw [answer, Except.ok.injEq, Prod.mk.injEq] at chosen
  exact isEmpty start chosen.1

/-- Where no start was found, no cell is empty. -/
theorem carved_of_chooseStart (chosen : maze.chooseStart source = .ok (none, drawn))
    (place : Coord) : (maze.get place).empty = false := by
  obtain ⟨found, after, answer, none_iff, -⟩ := maze.chooseStart_spec source
  rw [answer, Except.ok.injEq, Prod.mk.injEq] at chosen
  exact none_iff.mp chosen.1 place

end Chosen

end Maze

end Drawing

end MazeDial

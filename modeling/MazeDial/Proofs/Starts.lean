import MazeDial.Proofs.Scripts

/-!
# Starts by their rank

A start is looked for in two ways. Up to thirty samples are drawn, and the first that is an
empty cell is taken. Where all of them have missed, one rank is drawn, which counts the
empty cells row by row, from one. Both ways find empty cells only, and the second can find
each of them: the places of a board are listed in their order, so that up to the cell listed
at a number there are as many empty cells as the number says. No rank is drawn where there
is no empty cell, and only there nothing is found.

The maze is looked at and never changed: what a search leaves behind is the place it has
found and the rest of its source. A slice of carving that finds nothing hands on the maze
that it was given.
-/

namespace MazeDial

/-- Of a list in order, the members before a member are those listed before it. -/
theorem mem_take_iff_before {places : List Coord} (inOrder : places.Pairwise Coord.Before)
    {number : Nat} (inside : number < places.length) (other : Coord) :
    other ∈ places.take number ↔ other ∈ places ∧ other.Before places[number] := by
  have parts : places.take number ++ places[number] :: places.drop (number + 1) = places := by
    rw [List.getElem_cons_drop, List.take_append_drop]
  have ordered := parts.symm ▸ inOrder
  obtain ⟨-, laterOrdered, acrossOrdered⟩ := List.pairwise_append.mp ordered
  constructor
  · intro earlier
    exact ⟨List.mem_of_mem_take earlier, acrossOrdered other earlier _ List.mem_cons_self⟩
  · rintro ⟨listed, before⟩
    rw [← parts, List.mem_append, List.mem_cons] at listed
    rcases listed with earlier | rfl | later
    · exact earlier
    · exact absurd before before.asymm
    · exact absurd before ((List.pairwise_cons.mp laterOrdered).1 other later).asymm

namespace Maze

variable {maze : Maze} {place : Coord} {rank : Nat}

/-- The empty cells of a maze. -/
def vacancies (maze : Maze) : Set Coord :=
  {place | (maze.get place).empty = true}

/-- A place is an empty cell, and with it so many empty cells have come in the order of the
    board. -/
def HasRank (maze : Maze) (place : Coord) (rank : Nat) : Prop :=
  place ∈ maze.vacancies ∧ {other ∈ maze.vacancies | other.Before place}.ncard + 1 = rank

theorem vacancies_eq (maze : Maze) : maze.vacancies = {place | place ∈ maze.emptyCells} := by
  ext place
  exact mem_emptyCells.symm

theorem ncard_vacancies (maze : Maze) : maze.vacancies.ncard = maze.emptyCells.length := by
  rw [vacancies_eq, ncard_listed maze.emptyCells_nodup]

theorem vacancies_eq_empty_iff : maze.vacancies = ∅ ↔ maze.emptyCells = [] := by
  rw [vacancies_eq, Set.eq_empty_iff_forall_notMem, List.eq_nil_iff_forall_not_mem]
  rfl

theorem emptyCells_inOrder (maze : Maze) : maze.emptyCells.Pairwise Coord.Before :=
  maze.size.coords_inOrder.filter _

/-- As many empty cells come before one of them as its number says. -/
theorem ncard_before {number : Nat} (inside : number < maze.emptyCells.length) :
    {other ∈ maze.vacancies | other.Before maze.emptyCells[number]}.ncard = number := by
  have same : {other ∈ maze.vacancies | other.Before maze.emptyCells[number]} =
      {other | other ∈ maze.emptyCells.take number} := by
    ext other
    rw [vacancies_eq]
    exact (mem_take_iff_before maze.emptyCells_inOrder inside other).symm
  rw [same, ncard_listed (maze.emptyCells_nodup.sublist (List.take_sublist ..)),
    List.length_take, Nat.min_eq_left (Nat.le_of_lt inside)]

/-- The cell with a rank is the one that is listed there, counting from one. -/
theorem hasRank_iff :
    maze.HasRank place rank ↔ 1 ≤ rank ∧ maze.emptyCells[rank - 1]? = some place := by
  constructor
  · rintro ⟨empty, rfl⟩
    rw [vacancies_eq] at empty
    obtain ⟨number, inside, rfl⟩ := List.mem_iff_getElem.mp empty
    rw [ncard_before inside]
    exact ⟨Nat.le_add_left .., List.getElem?_eq_getElem inside⟩
  · rintro ⟨positive, listed⟩
    obtain ⟨inside, rfl⟩ := List.getElem?_eq_some_iff.mp listed
    refine ⟨mem_emptyCells.mp (List.getElem_mem inside), ?_⟩
    rw [ncard_before inside]
    omega

/-- Each number from one to the number of empty cells is the rank of one. -/
theorem exists_hasRank (positive : 1 ≤ rank) (most : rank ≤ maze.vacancies.ncard) :
    ∃ place, maze.HasRank place rank := by
  rw [ncard_vacancies] at most
  have inside : rank - 1 < maze.emptyCells.length := by omega
  exact ⟨_, hasRank_iff.mpr ⟨positive, List.getElem?_eq_getElem inside⟩⟩

/-- There is no other such number. -/
theorem HasRank.bounds (hasRank : maze.HasRank place rank) :
    1 ≤ rank ∧ rank ≤ maze.vacancies.ncard := by
  obtain ⟨positive, listed⟩ := hasRank_iff.mp hasRank
  obtain ⟨inside, -⟩ := List.getElem?_eq_some_iff.mp listed
  rw [ncard_vacancies]
  omega

end Maze

section Samples

variable {σ : Type} [RandomSource σ]

/-- The places of a board that a source draws one after another, and what is then left of
    it. -/
inductive DrawsPlaces (size : Size) : σ → List Coord → σ → Prop
  | none {source : σ} : DrawsPlaces size source [] source
  | next {source between after last : σ} {x y : UInt8} {others : List Coord}
      (column : drawByte 0 (size.width - 1) source = .ok (x, between))
      (row : drawByte 0 (size.height - 1) between = .ok (y, after))
      (further : DrawsPlaces size after others last) :
      DrawsPlaces size source (⟨x, y⟩ :: others) last

namespace Maze

variable {maze : Maze} {source sampled after : σ} {missed : List Coord}

/-- Samples that miss leave the search as it was, with so many tries less. -/
theorem sampleStart_missed (drawn : DrawsPlaces maze.size source missed sampled)
    (occupied : ∀ place ∈ missed, (maze.get place).empty = false) (tries : Nat) :
    maze.sampleStart (missed.length + tries) source = maze.sampleStart tries sampled := by
  induction drawn with
  | none => rw [List.length_nil, Nat.zero_add]
  | next column row _ inductionHypothesis =>
    obtain ⟨first, others⟩ := List.forall_mem_cons.mp occupied
    rw [List.length_cons, Nat.succ_add, sampleStart, column]
    simp only [bind, Except.bind, row, first, Bool.false_eq_true, if_false]
    exact inductionHypothesis others

/-- A sample that is an empty cell ends the search. -/
theorem sampleStart_hit {place : Coord} (drawn : DrawsPlaces maze.size source [place] after)
    (empty : (maze.get place).empty = true) (tries : Nat) :
    maze.sampleStart (tries + 1) source = .ok (some place, after) := by
  cases drawn with
  | next column row further =>
    cases further
    rw [sampleStart, column]
    simp only [bind, Except.bind, row, empty, if_true]
    rfl

/-- All samples miss, or some of them do and the next one is an empty cell. -/
theorem exists_samples (maze : Maze) (tries : Nat) (source : σ) :
    ∃ missed sampled, DrawsPlaces maze.size source missed sampled ∧
      (∀ place ∈ missed, (maze.get place).empty = false) ∧
      (missed.length = tries ∨ missed.length < tries ∧ ∃ place after,
        DrawsPlaces maze.size sampled [place] after ∧ (maze.get place).empty = true) := by
  induction tries generalizing source with
  | zero => exact ⟨[], source, .none, nofun, .inl rfl⟩
  | succ tries inductionHypothesis =>
    obtain ⟨⟨x, between⟩, column⟩ : ∃ drawn, drawByte 0 (maze.size.width - 1) source = .ok drawn :=
      ⟨_, drawByte_ok UInt8.zero_le source⟩
    obtain ⟨⟨y, after⟩, row⟩ : ∃ drawn, drawByte 0 (maze.size.height - 1) between = .ok drawn :=
      ⟨_, drawByte_ok UInt8.zero_le between⟩
    cases empty : (maze.get ⟨x, y⟩).empty with
    | true =>
      exact ⟨[], source, .none, nofun,
        .inr ⟨Nat.succ_pos _, _, after, .next column row .none, empty⟩⟩
    | false =>
      obtain ⟨missed, sampled, drawn, occupied, ends⟩ := inductionHypothesis after
      refine ⟨⟨x, y⟩ :: missed, sampled, .next column row drawn,
        List.forall_mem_cons.mpr ⟨empty, occupied⟩, ?_⟩
      rcases ends with all | ⟨few, hit⟩
      · exact .inl (congrArg (· + 1) all)
      · exact .inr ⟨Nat.succ_lt_succ few, hit⟩

/-- How the search for a start ends: at the first sample that is an empty cell; after thirty
    that are none, at the empty cell whose rank is drawn; or with nothing, if there is no
    empty cell to draw a rank for. -/
inductive FindsStart (maze : Maze) (source : σ) : Option Coord → σ → Prop
  | sample {missed : List Coord} {sampled after : σ} {place : Coord}
      (drawn : DrawsPlaces maze.size source missed sampled)
      (occupied : ∀ other ∈ missed, (maze.get other).empty = false) (few : missed.length < 30)
      (hit : DrawsPlaces maze.size sampled [place] after)
      (empty : (maze.get place).empty = true) : FindsStart maze source (some place) after
  | rank {missed : List Coord} {sampled after : σ} {place : Coord} {rank : Nat}
      (drawn : DrawsPlaces maze.size source missed sampled)
      (occupied : ∀ other ∈ missed, (maze.get other).empty = false) (all : missed.length = 30)
      (ranked : drawIndex 1 maze.vacancies.ncard sampled = .ok (rank, after))
      (hasRank : maze.HasRank place rank) : FindsStart maze source (some place) after
  | nothing {missed : List Coord} {sampled : σ}
      (drawn : DrawsPlaces maze.size source missed sampled)
      (occupied : ∀ other ∈ missed, (maze.get other).empty = false) (all : missed.length = 30)
      (full : maze.vacancies = ∅) : FindsStart maze source none sampled

/-- A search that goes this way ends this way. -/
theorem FindsStart.chooseStart_eq {found : Option Coord}
    (finds : FindsStart maze source found after) :
    maze.chooseStart source = .ok (found, after) := by
  cases finds with
  | @sample missed _ _ _ drawn occupied few hit empty =>
    obtain ⟨tries, enough⟩ : ∃ tries, startSamples = missed.length + (tries + 1) :=
      ⟨29 - missed.length, by simp only [startSamples]; omega⟩
    rw [chooseStart, enough, sampleStart_missed drawn occupied, sampleStart_hit hit empty]
    rfl
  | @rank missed _ _ _ _ drawn occupied all ranked hasRank =>
    have enough : startSamples = missed.length + 0 := all.symm
    obtain ⟨-, listed⟩ := hasRank_iff.mp hasRank
    have some : maze.emptyCells ≠ [] := by
      intro none
      rw [none] at listed
      cases listed
    rw [ncard_vacancies] at ranked
    rw [chooseStart, enough, sampleStart_missed drawn occupied]
    simp [sampleStart, bind, Except.bind, pure, Except.pure, some, ranked, listed]
  | @nothing missed _ drawn occupied all full =>
    have enough : startSamples = missed.length + 0 := all.symm
    rw [chooseStart, enough, sampleStart_missed drawn occupied]
    simp [sampleStart, bind, Except.bind, pure, Except.pure, vacancies_eq_empty_iff.mp full]

/-- With a lawful source every search ends in one of these ways. -/
theorem exists_findsStart [LawfulRandomSource σ] (maze : Maze) (source : σ) :
    ∃ found after, FindsStart maze source found after := by
  obtain ⟨missed, sampled, drawn, occupied, all | ⟨few, place, after, hit, empty⟩⟩ :=
    maze.exists_samples 30 source
  · by_cases full : maze.vacancies = ∅
    · exact ⟨none, sampled, .nothing drawn occupied all full⟩
    · have positive : 1 ≤ maze.vacancies.ncard := by
        rw [ncard_vacancies]
        exact List.length_pos_iff.mpr (mt vacancies_eq_empty_iff.mpr full)
      have few : maze.vacancies.ncard < 2 ^ 64 := ncard_vacancies maze ▸ maze.length_emptyCells_lt
      obtain ⟨rank, after, ranked, least, greatest⟩ := exists_index positive few sampled
      obtain ⟨place, hasRank⟩ := exists_hasRank least greatest
      exact ⟨some place, after, .rank drawn occupied all ranked hasRank⟩
  · exact ⟨some place, after, .sample drawn occupied few hit empty⟩

/-- A search ends as it does, and in no other way. -/
theorem chooseStart_eq_ok_iff [LawfulRandomSource σ] {found : Option Coord} :
    maze.chooseStart source = .ok (found, after) ↔ FindsStart maze source found after := by
  constructor
  · intro chosen
    obtain ⟨_, _, finds⟩ := maze.exists_findsStart source
    obtain ⟨rfl, rfl⟩ := Prod.mk.inj (Except.ok.inj (chosen.symm.trans finds.chooseStart_eq))
    exact finds
  · exact FindsStart.chooseStart_eq

end Maze

end Samples

namespace Script

variable {numbers : List Nat}

/-- The script of samples and of a rank that is drawn after them. -/
def ofSamples (places : List Coord) (rank : Nat) : Script numbers :=
  ⟨places.flatMap (fun place => [place.x.toNat, place.y.toNat]) ++ [rank]⟩

/-- Places of the board that are written down are drawn. -/
theorem drawsPlaces {size : Size} {places : List Coord}
    (inside : ∀ place ∈ places, size.Contains place) (rank : Nat) :
    DrawsPlaces size (ofSamples places rank : Script numbers) places ⟨[rank]⟩ := by
  have most {byte bound : UInt8} (below : byte < bound) : byte ≤ bound - 1 := by grind
  induction places with
  | nil => exact .none
  | cons place places inductionHypothesis =>
    obtain ⟨⟨column, row⟩, others⟩ := List.forall_mem_cons.mp inside
    exact .next (drawByte_script UInt8.zero_le (most column) _)
      (drawByte_script UInt8.zero_le (most row) _) (inductionHypothesis others)

/-- A rank that is written down is drawn, if it lies within the bounds. -/
theorem drawIndex_rank {rank count : Nat} (positive : 1 ≤ rank) (most : rank ≤ count) :
    drawIndex 1 count (⟨[rank]⟩ : Script numbers) = .ok (rank, ⟨[]⟩) := by
  have within : max 1 (min count rank) = rank := by omega
  rw [drawIndex_ok (Nat.le_trans positive most)]
  simp only [RandomSource.index, next, List.headD_cons, List.tail_cons, within]

end Script

namespace Maze

variable {maze : Maze} {missed : List Coord} {place : Coord} {rank : Nat}

/-- Where thirty samples miss, the rank that is written down after them finds the cell that
    has it. -/
theorem chooseStart_rank (numbers : List Nat) (all : missed.length = 30)
    (inside : ∀ other ∈ missed, maze.size.Contains other)
    (occupied : ∀ other ∈ missed, (maze.get other).empty = false)
    (hasRank : maze.HasRank place rank) :
    maze.chooseStart (Script.ofSamples missed rank : Script numbers) =
      .ok (some place, ⟨[]⟩) := by
  obtain ⟨positive, most⟩ := hasRank.bounds
  apply FindsStart.chooseStart_eq
  exact .rank (Script.drawsPlaces inside rank) occupied all (Script.drawIndex_rank positive most)
    hasRank

/-- Outside the board no cell is empty. -/
theorem occupied_iff : (∀ place, maze.size.Contains place → (maze.get place).empty = false) ↔
    ∀ place, (maze.get place).empty = false := by
  refine ⟨fun full place => ?_, fun full place _ => full place⟩
  by_contra empty
  exact empty (full place (contains_of_empty (Bool.not_eq_false _ ▸ empty)))

/-- A maze without an empty cell is carved out at once, and left as it is. -/
theorem carve_full {σ τ : Type} [RandomSource σ] [LawfulRandomSource σ] {maze : Maze}
    (full : ∀ place, maze.size.Contains place → (maze.get place).empty = false) {effort : Nat}
    (some : 0 < effort) (expired : τ → Except Fault (Bool × τ)) (source : σ)
    (progress : Progress) (timer : τ) :
    ∃ sampled, FindsStart maze source none sampled ∧
      (carve effort expired maze source progress timer).result =
        .ok ⟨.done, maze, sampled, { progress with paused := false }, timer⟩ := by
  obtain ⟨effort, rfl⟩ := Nat.exists_eq_succ_of_ne_zero (Nat.ne_of_gt some)
  have corner := maze.size.contains_corner
  obtain ⟨found, sampled, chosen, none_iff, -⟩ := maze.chooseStart_spec source
  obtain rfl := none_iff.mpr (occupied_iff.mp full)
  refine ⟨sampled, chooseStart_eq_ok_iff.mp chosen, ?_⟩
  rw [carve, plantRoot_of_rooted ⟨_, corner, full _ corner⟩]
  refine Logged.result_bind_eq_ok.mpr ⟨_, rfl, ?_⟩
  change (carvePaths (effort + 1) expired (effort + 1) 0 maze source progress timer).result = _
  rw [carvePaths, chosen]
  rfl

/-- With every lawful source a search for a start has an answer: nothing exactly if no cell
    of the board is empty, and else an empty cell of the board. It goes as `FindsStart` says. After
    any thirty samples of the board that have missed, each rank from one to the number of
    empty cells finds the cell that has it in the order of the board, and each empty cell is
    found by one rank only. In a maze where nothing is found carving is done, and the maze is
    left as it was. -/
theorem starts_are_chosen_by_rank {σ : Type} [RandomSource σ] [LawfulRandomSource σ]
    (maze : Maze) (source : σ) :
    (∃ found after, maze.chooseStart source = .ok (found, after) ∧
      (found = none ↔ ∀ place, maze.size.Contains place → (maze.get place).empty = false) ∧
      ∀ place, found = some place →
        maze.size.Contains place ∧ (maze.get place).empty = true) ∧
    (∀ found after, maze.chooseStart source = .ok (found, after) ↔
      FindsStart maze source found after) ∧
    (∀ (numbers : List Nat) (missed : List Coord), missed.length = 30 →
      (∀ place ∈ missed, maze.size.Contains place ∧ (maze.get place).empty = false) →
      (∀ rank, 1 ≤ rank → rank ≤ maze.vacancies.ncard → ∃ place, maze.HasRank place rank ∧
        maze.chooseStart (Script.ofSamples missed rank : Script numbers) =
          .ok (some place, ⟨[]⟩)) ∧
      ∀ place ∈ maze.vacancies, ∃! rank, 1 ≤ rank ∧ rank ≤ maze.vacancies.ncard ∧
        maze.chooseStart (Script.ofSamples missed rank : Script numbers) =
          .ok (some place, ⟨[]⟩)) ∧
    ∀ {τ : Type} (effort : Nat) (expired : τ → Except Fault (Bool × τ)) (progress : Progress)
      (timer : τ), 0 < effort →
      (∀ place, maze.size.Contains place → (maze.get place).empty = false) →
        ∃ sampled, FindsStart maze source none sampled ∧
          (carve effort expired maze source progress timer).result =
            .ok ⟨.done, maze, sampled, { progress with paused := false }, timer⟩ := by
  refine ⟨?_, fun _ _ => chooseStart_eq_ok_iff, ?_, ?_⟩
  · obtain ⟨found, after, chosen, none_iff, isEmpty⟩ := maze.chooseStart_spec source
    refine ⟨found, after, chosen, none_iff.trans occupied_iff.symm, ?_⟩
    exact fun place same => ⟨contains_of_empty (isEmpty place same), isEmpty place same⟩
  · intro numbers missed all misses
    have inside (place : Coord) (member : place ∈ missed) := (misses place member).1
    have occupied (place : Coord) (member : place ∈ missed) := (misses place member).2
    constructor
    · intro rank positive most
      obtain ⟨place, hasRank⟩ := exists_hasRank positive most
      exact ⟨place, hasRank, chooseStart_rank numbers all inside occupied hasRank⟩
    · intro place vacant
      have hasRank : maze.HasRank place _ := ⟨vacant, rfl⟩
      obtain ⟨positive, most⟩ := hasRank.bounds
      refine ⟨_, ⟨positive, most, chooseStart_rank numbers all inside occupied hasRank⟩, ?_⟩
      rintro other ⟨otherPositive, otherMost, chosen⟩
      obtain ⟨there, otherRank⟩ := exists_hasRank otherPositive otherMost
      have found := chooseStart_rank numbers all inside occupied otherRank
      obtain ⟨same, -⟩ := Prod.mk.inj (Except.ok.inj (found.symm.trans chosen))
      obtain rfl := Option.some.inj same
      exact otherRank.2.symm.trans hasRank.2
  · exact fun effort expired progress timer some full =>
      carve_full full some expired source progress timer

/-- On a board of four cells whose corner is taken, thirty samples of the corner miss, and
    the second rank finds the first cell of the lower row. On a board without empty cells
    carving is done. -/
theorem starts_are_chosen_by_rank_threeEmpty :
    let maze := (fresh { width := 2, height := 2 }).setEmpty ⟨0, 0⟩ false
    let full := (fresh { width := 2, height := 2 }).fill Cell.blank 4
    let missed : List Coord := List.replicate 30 ⟨0, 0⟩
    maze.vacancies.ncard = 3 ∧ maze.HasRank ⟨0, 1⟩ 2 ∧
      maze.chooseStart (Script.ofSamples missed 2 : Script []) = .ok (some ⟨0, 1⟩, ⟨[]⟩) ∧
      ∃ sampled, (carve 1 (fun timer => .ok (false, timer)) full (KeyStream.ofSeed 0)
        .initial ()).result = .ok ⟨.done, full, sampled, .initial, ()⟩ := by
  intro maze full missed
  have three : maze.vacancies.ncard = 3 := by
    rw [ncard_vacancies]
    decide +kernel
  have misses : ∀ place ∈ missed, maze.size.Contains place ∧ (maze.get place).empty = false := by
    decide +kernel
  have taken : ∀ place ∈ full.size.coords, (full.get place).empty = false := by decide +kernel
  have second : maze.emptyCells[1]? = some ⟨0, 1⟩ := by decide +kernel
  obtain ⟨-, -, ranks, -⟩ := starts_are_chosen_by_rank maze (⟨[]⟩ : Script [])
  obtain ⟨place, hasRank, chosen⟩ := (ranks [] missed rfl misses).1 2 (by decide) (by omega)
  obtain rfl := Option.some.inj (second.symm.trans (hasRank_iff.mp hasRank).2)
  obtain ⟨-, -, -, carved⟩ := starts_are_chosen_by_rank full (KeyStream.ofSeed 0)
  obtain ⟨sampled, -, done⟩ := carved 1 (fun timer => .ok (false, timer)) .initial () (by decide)
    fun place inside => taken place (Size.mem_coords.mpr inside)
  exact ⟨three, hasRank, chosen, sampled, done⟩

end Maze

end MazeDial

import MazeDial.Proofs.Pictures
import MazeDial.Screen.Terminal

/-!
# Drawings on a terminal

Whether there is room for a picture is decided by arithmetic on the size of the maze, in
numbers of sixteen bits, before the picture is made. Here that is compared with the picture
itself: each of its lines takes as many columns as the arithmetic says, and it has as many
lines, less the one for the status. No sum or product is too large for its type, so the two
never differ.

What is written to the terminal is told apart into control sequences and text. A drawing is
the lines of the picture, each with its line end, and then the status. Where there is no room
only a message is written, and none of the picture's lines is part of that: each of them
begins with a wall, and the message has no such character.
-/

namespace MazeDial

/-- A control sequence: escape and a bracket, numbers set apart by semicolons, and a letter. -/
def isControl : List Char → Bool
  | '\x1b' :: '[' :: rest =>
    rest.dropLast.all (fun character => character.isDigit || character == ';') &&
      rest.getLast?.any Char.isAlpha
  | _ => false

/-- What is written shows a text: control sequences stand before, in and after it. -/
inductive Shows : List Char → List Char → Prop
  | nil : Shows [] []
  | text {shown written : List Char} (character : Char) (rest : Shows shown written) :
      Shows (character :: shown) (character :: written)
  | control {shown written sequence : List Char} (isControl : isControl sequence = true)
      (rest : Shows shown written) : Shows shown (sequence ++ written)

namespace Shows

variable {shown written more further : List Char}

theorem append (first : Shows shown written) (second : Shows more further) :
    Shows (shown ++ more) (written ++ further) := by
  induction first with
  | nil => exact second
  | text character _ inductionHypothesis => exact .text character inductionHypothesis
  | control isControl _ inductionHypothesis =>
    rw [List.append_assoc]
    exact .control isControl inductionHypothesis

/-- A control sequence after a text shows nothing more. -/
theorem append_control {sequence : List Char} (first : Shows shown written)
    (last : isControl sequence = true) : Shows shown (written ++ sequence) := by
  have both := first.append (.control last .nil)
  rwa [List.append_nil, List.append_nil] at both

/-- Text that is written shows itself. -/
theorem refl (text : List Char) : Shows text text := by
  induction text with
  | nil => exact .nil
  | cons character _ inductionHypothesis => exact .text character inductionHypothesis

/-- Texts written one after another show themselves one after another. -/
theorem flatMap {α : Type} {entries : List α} {shown written : α → List Char}
    (each : ∀ entry ∈ entries, Shows (shown entry) (written entry)) :
    Shows (entries.flatMap shown) (entries.flatMap written) := by
  induction entries with
  | nil => exact .nil
  | cons entry rest inductionHypothesis =>
    rw [List.forall_mem_cons] at each
    exact each.1.append (inductionHypothesis each.2)

end Shows

namespace Terminal

/-- Clearing the screen shows nothing. -/
theorem shows_clearText : Shows [] clearText.toList := by
  have parts : clearText.toList = "\x1b[2J".toList ++ ("\x1b[1;1H".toList ++ []) := by decide
  rw [parts]
  exact .control (by decide) (.control (by decide) .nil)

/-- Text in a colour shows itself. -/
theorem shows_colored (text : String) : Shows text.toList (colored "15" text).toList := by
  have parts : colored "15" text = "\x1b[38;5;15m" ++ text ++ "\x1b[39m" := rfl
  rw [parts, String.toList_append, String.toList_append, List.append_assoc]
  exact .control (by decide) ((Shows.refl _).append_control (by decide))

/-- Bold text in a colour shows itself. -/
theorem shows_bold (text : String) : Shows text.toList (bold "12" text).toList := by
  have parts : bold "12" text = "\x1b[38;5;12m" ++ "\x1b[1m" ++ text ++ "\x1b[0m" := rfl
  rw [parts, String.toList_append, String.toList_append, String.toList_append,
    List.append_assoc, List.append_assoc]
  exact .control (by decide) (.control (by decide) ((Shows.refl _).append_control (by decide)))

/-- What a picture needs in columns, computed in numbers of sixteen bits, is twice the number of
    its units in a row. -/
theorem toNat_neededColumns (maze : Maze) :
    (neededColumns maze).toNat = 2 * maze.pictureWidth := by
  have narrow : maze.size.width.toNat < 256 := maze.size.width.toNat_lt
  simp only [neededColumns, Maze.pictureWidth, UInt16.toNat_mul, UInt16.toNat_add,
    UInt8.toNat_toUInt16, UInt16.reduceToNat]
  omega

theorem toNat_neededRows (maze : Maze) :
    (neededRows maze).toNat = maze.pictureHeight + 1 := by
  have low : maze.size.height.toNat < 256 := maze.size.height.toNat_lt
  simp only [neededRows, Maze.pictureHeight, UInt16.toNat_mul, UInt16.toNat_add,
    UInt8.toNat_toUInt16, UInt16.reduceToNat]
  omega

theorem hasRoomFor_iff (terminal : Terminal) (maze : Maze) :
    terminal.hasRoomFor maze = true ↔
      2 * maze.pictureWidth ≤ terminal.columns.toNat ∧
        maze.pictureHeight + 1 ≤ terminal.rows.toNat := by
  rw [hasRoomFor, Bool.and_eq_true, decide_eq_true_eq, decide_eq_true_eq,
    UInt16.le_iff_toNat_le, UInt16.le_iff_toNat_le, toNat_neededColumns, toNat_neededRows]

end Terminal

/-- The number of columns that a line of text takes, if it is known of each character. -/
def columnsOf (columns : Char → Nat) (line : String) : Nat :=
  (line.toList.map columns).sum

namespace Maze

variable {maze : Maze}

/-- A line of the picture is written with the characters of units. -/
theorem mem_pictureLine {row : Nat} {character : Char}
    (member : character ∈ (maze.pictureLine row).toList) :
    ∃ solid, character = unitCharacter solid := by
  simp only [pictureLine, String.toList_join, List.flatMap_map, toList_unitText,
    List.mem_flatMap] at member
  obtain ⟨column, -, written⟩ := member
  exact ⟨maze.isSolid column row, by simpa using written⟩

/-- Where units are written in one column a character, each line takes two for a unit. -/
theorem columnsOf_pictureLine {columns : Char → Nat}
    (narrow : ∀ solid, columns (unitCharacter solid) = 1) (row : Nat) :
    columnsOf columns (maze.pictureLine row) = 2 * maze.pictureWidth := by
  have single : ∀ count ∈ (maze.pictureLine row).toList.map columns, count = 1 := by
    intro count member
    obtain ⟨character, written, rfl⟩ := List.mem_map.mp member
    obtain ⟨solid, rfl⟩ := mem_pictureLine written
    exact narrow solid
  rw [columnsOf, List.sum_eq_card_nsmul _ 1 single, List.length_map, String.length_toList,
    length_pictureLine, smul_eq_mul, Nat.mul_one]

/-- Every line of the picture begins with a wall at the edge. -/
theorem wall_mem_pictureLine (row : Nat) : '█' ∈ (maze.pictureLine row).toList := by
  have drawn : maze.isSolid 0 row = true := by
    simp [isSolid, drawsCorner, drawsLeft]
  have first := getElem?_pictureLine maze row (Nat.succ_pos _) Nat.two_pos
  rw [drawn] at first
  exact List.mem_of_getElem? first

end Maze

namespace Terminal

/-- A drawing shows the lines of the picture, each with its line end, and then the status. -/
theorem shows_drawingText (maze : Maze) (status : String) :
    Shows ((maze.picture.flatMap fun line => line.toList ++ ['\r', '\n']) ++ status.toList)
      (drawingText maze status).toList := by
  have line (text : String) : Shows (text.toList ++ ['\r', '\n'])
      (colored "15" text ++ "\r\n").toList := by
    rw [String.toList_append]
    exact (shows_colored text).append (.refl _)
  rw [drawingText, String.toList_append, String.toList_append, String.toList_join,
    List.flatMap_map]
  exact (shows_clearText.append (.flatMap fun text _ => line text)).append (shows_bold status)

/-- No wall is written in a numeral. -/
theorem wall_notMem_numeral (number : UInt16) : '█' ∉ (toString number).toList := by
  have digits : (toString number).toList = Nat.toDigits 10 number.toNat := Nat.toList_repr
  rw [digits]
  intro member
  exact absurd (Nat.isDigit_of_mem_toDigits (by decide) (by decide) member) (by decide)

/-- No wall is written in the message that there is no room. -/
theorem wall_notMem_message (terminal : Terminal) (maze : Maze) :
    '█' ∉ (clearText ++ bold "11" (terminal.tooSmallMessage maze)).toList := by
  have parts : clearText ++ bold "11" (terminal.tooSmallMessage maze) =
      clearText ++ ("\x1b[38;5;11m\x1b[1m" ++
        ("Terminal size is too small (" ++ toString terminal.columns ++ "x" ++
          toString terminal.rows ++ ") to draw the maze " ++
          ("(" ++ toString (neededColumns maze) ++ "x" ++ toString (neededRows maze) ++
            "). Please resize the terminal.\r\n")) ++ "\x1b[0m") := rfl
  rw [parts]
  simp only [String.toList_append, List.mem_append, wall_notMem_numeral, or_false]
  decide

/-- Where both characters of a unit take one column, a maze is drawn exactly if each line of its
    picture has room in the terminal's width, and all of them and one line more in its height.
    The room is computed without loss in numbers of sixteen bits. If the maze is not drawn, none
    of the lines is written; if it is, what is written shows the lines in order, each with its
    line end, and then the status. -/
theorem drawn_where_there_is_room (columns : Char → Nat)
    (narrow : ∀ solid, columns (unitCharacter solid) = 1) (terminal : Terminal) (maze : Maze)
    (status : String) :
    ((terminal.draw maze status).1 = true ↔
      (∀ line ∈ maze.picture, columnsOf columns line ≤ terminal.columns.toNat) ∧
        maze.picture.length + 1 ≤ terminal.rows.toNat) ∧
    ((neededColumns maze).toNat = (maze.size.width.toNat * 2 + 1) * 2 ∧
      (maze.size.width.toNat * 2 + 1) * 2 < UInt16.size ∧
      (neededRows maze).toNat = maze.size.height.toNat * 2 + 2 ∧
      maze.size.height.toNat * 2 + 2 < UInt16.size) ∧
    ((terminal.draw maze status).1 = false →
      ∀ line ∈ maze.picture, ¬ line.toList <:+: (terminal.draw maze status).2.toList) ∧
    ((terminal.draw maze status).1 = true →
      Shows ((maze.picture.flatMap fun line => line.toList ++ ['\r', '\n']) ++ status.toList)
        (terminal.draw maze status).2.toList) := by
  have wide : (∀ line ∈ maze.picture, columnsOf columns line ≤ terminal.columns.toNat) ↔
      2 * maze.pictureWidth ≤ terminal.columns.toNat := by
    simp only [Maze.picture, List.forall_mem_map, Maze.columnsOf_pictureLine narrow]
    exact ⟨fun each => each 0 (List.mem_range.mpr (Nat.succ_pos _)), fun all _ _ => all⟩
  refine ⟨?_, ?_, ?_, ?_⟩
  · rw [wide, Maze.length_picture, ← hasRoomFor_iff, draw]
    cases terminal.hasRoomFor maze <;> simp
  · have narrowBoard : maze.size.width.toNat < 256 := maze.size.width.toNat_lt
    have lowBoard : maze.size.height.toNat < 256 := maze.size.height.toNat_lt
    rw [toNat_neededColumns, toNat_neededRows, Maze.pictureWidth, Maze.pictureHeight]
    simp only [UInt16.size]
    omega
  · intro refused line member part
    have full : ¬ terminal.hasRoomFor maze = true := by
      intro room
      rw [draw, if_pos room] at refused
      cases refused
    obtain ⟨row, -, rfl⟩ := List.mem_map.mp member
    rw [draw, if_neg full] at part
    exact wall_notMem_message terminal maze (part.subset (Maze.wall_mem_pictureLine row))
  · intro drawn
    have room : terminal.hasRoomFor maze = true := by
      by_contra full
      rw [draw, if_neg full] at drawn
      cases drawn
    rw [draw, if_pos room]
    exact shows_drawingText maze status

/-- Four cells need ten columns and six rows. With a row less, nothing of them is written. -/
theorem drawn_where_there_is_room_fourCells :
    let maze := Maze.fresh { width := 2, height := 2 }
    let single : Char → Nat := fun _ => 1
    (∀ solid, single (unitCharacter solid) = 1) ∧
      (∀ line ∈ maze.picture, columnsOf single line ≤ 10) ∧
      Shows ((maze.picture.flatMap fun line => line.toList ++ ['\r', '\n']) ++ "12:00".toList)
        ((ofSize 10 6).draw maze "12:00").2.toList ∧
      ∀ line ∈ maze.picture, ¬ line.toList <:+: ((ofSize 10 5).draw maze "12:00").2.toList := by
  intro maze single
  have narrow : ∀ solid, single (unitCharacter solid) = 1 := fun _ => rfl
  have drawn : ((ofSize 10 6).draw maze "12:00").1 = true := by decide
  have refused : ((ofSize 10 5).draw maze "12:00").1 = false := by decide
  obtain ⟨fits, -, -, shows⟩ := drawn_where_there_is_room single narrow (ofSize 10 6) maze "12:00"
  obtain ⟨-, -, leaves, -⟩ := drawn_where_there_is_room single narrow (ofSize 10 5) maze "12:00"
  exact ⟨narrow, (fits.mp drawn).1, shows drawn, leaves refused⟩

end Terminal

end MazeDial

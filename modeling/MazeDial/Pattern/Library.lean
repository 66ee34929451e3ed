import MazeDial.Pattern.Basic

/-!
# The pattern library

The constant patterns of the dial: ten digits, the two signs of a twelve-hour
clock, the short stroke of the blank screen and three pictures. Strokes are one
cell wide: the walls between neighbouring cells of a stroke are taken out and
all others stay.
-/

namespace MazeDial

namespace Pattern

/-- The digit zero. -/
def zero : Pattern := ⟨6, 10, #[
    0xFF, 0xFF, 0x57, 0xEF, 0xBE, 0xFB, 0xEF, 0xBE, 0xFB, 0xEF, 0xBE, 0xFB,
    0xE5, 0x3F, 0xFF]⟩

/-- The digit one. -/
def one : Pattern := ⟨6, 10, #[
    0xFF, 0xFF, 0xDF, 0xFE, 0xFF, 0xEF, 0xFE, 0xFF, 0xEF, 0xFE, 0xFF, 0xEF,
    0xF4, 0x7F, 0xFF]⟩

/-- The digit two. -/
def two : Pattern := ⟨6, 10, #[
    0xFF, 0xFF, 0x57, 0xFF, 0xBF, 0xFB, 0xFF, 0xBF, 0x53, 0xEF, 0xFE, 0xFF,
    0xE5, 0x7F, 0xFF]⟩

/-- The digit three. -/
def three : Pattern := ⟨6, 10, #[
    0xFF, 0xFF, 0x57, 0xFF, 0xBF, 0xFB, 0xFD, 0x3F, 0xFB, 0xFF, 0xBF, 0xFB,
    0xF5, 0x3F, 0xFF]⟩

/-- The digit four. -/
def four : Pattern := ⟨6, 10, #[
    0xFF, 0xFF, 0xFF, 0xEF, 0xBE, 0xFB, 0xE5, 0x3F, 0xFB, 0xFF, 0xBF, 0xFB,
    0xFF, 0xBF, 0xFF]⟩

/-- The digit five. -/
def five : Pattern := ⟨6, 10, #[
    0xFF, 0xFF, 0x57, 0xEF, 0xFE, 0xFF, 0xE5, 0x7F, 0xFB, 0xFF, 0xBF, 0xFB,
    0xF5, 0x3F, 0xFF]⟩

/-- The digit six. -/
def six : Pattern := ⟨6, 10, #[
    0xFF, 0xFF, 0x57, 0xEF, 0xFE, 0xFF, 0xE5, 0x7E, 0xFB, 0xEF, 0xBE, 0xFB,
    0xE5, 0x3F, 0xFF]⟩

/-- The digit seven. -/
def seven : Pattern := ⟨6, 10, #[
    0xFF, 0xFF, 0x57, 0xFF, 0xBF, 0xFB, 0xFF, 0x3F, 0xEF, 0xFE, 0xFF, 0xEF,
    0xFE, 0xFF, 0xFF]⟩

/-- The digit eight. -/
def eight : Pattern := ⟨6, 10, #[
    0xFF, 0xFF, 0x57, 0xEF, 0xBE, 0xFB, 0xE5, 0x3E, 0xFB, 0xEF, 0xBE, 0xFB,
    0xE5, 0x3F, 0xFF]⟩

/-- The digit nine. -/
def nine : Pattern := ⟨6, 10, #[
    0xFF, 0xFF, 0x57, 0xEF, 0xBE, 0xFB, 0xE5, 0x3F, 0xFB, 0xFF, 0xBF, 0xFB,
    0xF5, 0x3F, 0xFF]⟩

/-- The digits in order. -/
def digits : List Pattern :=
  [zero, one, two, three, four, five, six, seven, eight, nine]

/-- The pattern of a decimal digit. -/
def digit (value : Nat) : Except Fault Pattern :=
  match digits[value]? with
  | some pattern => .ok pattern
  | none => .error (.outOfRange digits.length value)

/-- The sign of the hours before noon. -/
def am : Pattern := ⟨6, 8, #[
    0xFF, 0xFF, 0x57, 0xEF, 0xBE, 0x53, 0xEF, 0xBF, 0xFF, 0xF5, 0x7E, 0xE3]⟩

/-- The sign of the hours from noon on. -/
def pm : Pattern := ⟨6, 8, #[
    0xFF, 0xFF, 0x5F, 0xEE, 0xFE, 0x4F, 0xEF, 0xFF, 0xFF, 0xF5, 0x7E, 0xE3]⟩

/-- Four cells in a row, the only strokes of the blank screen. -/
def blank : Pattern := ⟨4, 1, #[
    0xD5]⟩

/-- The outline of a heart. -/
def heart : Pattern := ⟨20, 15, #[
    0xFF, 0xFF, 0xFF, 0xFF, 0xFF, 0xFD, 0x57, 0xFF, 0xD5, 0x7F, 0xF3, 0xF9,
    0xFF, 0x3F, 0x9F, 0xEF, 0xFE, 0x54, 0xFF, 0xEF, 0xEF, 0xFF, 0xFF, 0xFF,
    0xEF, 0xEF, 0xFF, 0xFF, 0xFF, 0xEF, 0xE7, 0xFF, 0xFF, 0xFF, 0xCF, 0xF9,
    0xFF, 0xFF, 0xFF, 0x3F, 0xFE, 0x7F, 0xFF, 0xFC, 0xFF, 0xFF, 0x9F, 0xFF,
    0xF3, 0xFF, 0xFF, 0xE7, 0xFF, 0xCF, 0xFF, 0xFF, 0xF9, 0xFF, 0x3F, 0xFF,
    0xFF, 0xFE, 0x7C, 0xFF, 0xFF, 0xFF, 0xFF, 0x93, 0xFF, 0xFF, 0xFF, 0xFF,
    0xFF, 0xFF, 0xFF]⟩

/-- A smiling face. -/
def smiley : Pattern := ⟨20, 15, #[
    0xFF, 0xFF, 0xFF, 0xFF, 0xFF, 0xFF, 0xF5, 0x55, 0x57, 0xFF, 0xFF, 0xCF,
    0xFF, 0xF9, 0xFF, 0xFF, 0x3F, 0xFF, 0xFE, 0x7F, 0xFC, 0xFF, 0x7F, 0x7F,
    0x9F, 0xFB, 0xFE, 0x3E, 0x3F, 0xEF, 0xFB, 0xFF, 0xFF, 0xFF, 0xEF, 0xFB,
    0xFF, 0xFF, 0xFF, 0xEF, 0xFB, 0xFF, 0xFF, 0xFF, 0xEF, 0xFB, 0xE7, 0xFF,
    0xF3, 0xEF, 0xF9, 0xF9, 0x55, 0x4F, 0xCF, 0xFE, 0x7F, 0xFF, 0xFF, 0x3F,
    0xFF, 0x9F, 0xFF, 0xFC, 0xFF, 0xFF, 0xE5, 0x55, 0x53, 0xFF, 0xFF, 0xFF,
    0xFF, 0xFF, 0xFF]⟩

/-- A rocket with fins. -/
def rocket : Pattern := ⟨12, 14, #[
    0xFF, 0xFF, 0xFF, 0xFF, 0xF7, 0xFF, 0xFF, 0xC1, 0xFF, 0xFF, 0xBE, 0xFF,
    0xFF, 0xBE, 0xFF, 0xFF, 0x94, 0xFF, 0xFF, 0xBE, 0xFF, 0xFF, 0x3E, 0x7F,
    0xFF, 0xBE, 0xFF, 0xFB, 0x94, 0xEF, 0xF9, 0x3E, 0x4F, 0xFF, 0xBE, 0xFF,
    0xFF, 0x94, 0xFF, 0xFF, 0xFF, 0xFF]⟩

end Pattern

end MazeDial

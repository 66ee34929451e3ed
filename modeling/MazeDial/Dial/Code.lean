import MazeDial.Dial.Gesture
import MazeDial.Dial.Scene

/-!
# Swipe codes

Each picture has a code of eight swipes. The last eight swipes are remembered,
the latest first, and compared with the codes after each one.
-/

namespace MazeDial

/-- The number of swipes in a code. -/
def codeLength : Nat := 8

/-- The pictures and their codes, each code in the order of its swipes. -/
def pictureCodes : List (Scene × List Swipe) :=
  [(.heart, [.up, .up, .down, .down, .left, .right, .left, .right]),
    (.smiley, [.left, .left, .right, .right, .up, .down, .up, .down]),
    (.rocket, [.up, .up, .up, .up, .down, .down, .down, .down])]

/-- Remembers one more swipe. -/
def remember (swipe : Swipe) (recent : List Swipe) : List Swipe :=
  (swipe :: recent).take codeLength

/-- The picture whose code the remembered swipes are. -/
def unlocked (recent : List Swipe) : Option Scene :=
  (pictureCodes.find? fun entry => recent.reverse == entry.2).map (·.1)

end MazeDial

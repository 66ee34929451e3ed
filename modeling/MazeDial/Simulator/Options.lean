import MazeDial.Dial.Settings
import MazeDial.Text.Numeral

/-!
# Command-line options

The options of the simulator: `--12h`, and `--offset` followed by a number of
minutes. The word after `--offset` is its value whatever it looks like. What is
not understood is complained about and otherwise ignored.
-/

namespace MazeDial

namespace Settings

/-- The complaint about a value of `--offset`, or about its absence. -/
def offsetComplaint : String := "--offset expects a number of minutes, ignoring it."

/-- Reads options into settings; also answers the complaints, in order. -/
def readOptions (settings : Settings) : List String → Settings × List String
  | [] => (settings, [])
  | "--12h" :: rest => readOptions { settings with clockType := .h12 } rest
  | ["--offset"] => (settings, [offsetComplaint])
  | "--offset" :: value :: rest =>
    match parseInt32 value with
    | some minutes => readOptions { settings with utcOffset := minutes } rest
    | none =>
      let (settings, complaints) := readOptions settings rest
      (settings, offsetComplaint :: complaints)
  | other :: rest =>
    let (settings, complaints) := readOptions settings rest
    (settings, s!"Ignoring unknown argument {other}" :: complaints)

/-- The settings that options ask for, and the complaints about them. -/
def ofOptions (options : List String) : Settings × List String :=
  readOptions {} options

end Settings

end MazeDial

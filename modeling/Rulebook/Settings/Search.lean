import Rulebook.FileSystem
import Rulebook.Settings.Reading

/-!
# Looking for settings

This module provides `Settings.load`, the settings in a file, and `Settings.find`, the settings of the nearest
directory that has any, where a directory's parents are read off its path.
-/

namespace Rulebook

namespace Settings

/-- The settings in a file. -/
def load (fs : FileSystem) (path : Path) : Except Failure Settings :=
  match fs.readText path with
  | .error error => .error (.config ("Failed to read " ++ path.text ++ ": " ++ error.message))
  | .ok text =>
    match parse? text with
    | none => .error .malformed
    | some settings => .ok settings

/-- The paths at which settings are looked for, the nearest first. -/
def candidates (start : Path) : List Path :=
  start.ancestors.flatMap fun directory => fileNames.map directory.join

/-- The first of the paths that leads to a file. -/
def file? (fs : FileSystem) (start : Path) : Option Path :=
  (candidates start).find? fs.isFile

/-- The nearest settings and the path of their file. -/
def find (fs : FileSystem) (start : Path) : Except Failure (Option (Path × Settings)) :=
  match file? fs start with
  | none => .ok none
  | some path => (load fs path).map fun settings => some (path, settings)

end Settings

end Rulebook

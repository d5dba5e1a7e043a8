import Rulebook.CommandLine.Arguments
import Rulebook.Settings.Search

/-!
# The configuration of a command line

This module provides `CommandLine.configure`, the configuration that arguments and settings give: the arguments come
first, then the settings of the project, then the defaults. The settings are those of the file that the arguments name,
or else the nearest ones.
-/

namespace Rulebook

/-- The path of the working directory. -/
def FileSystem.herePath (fs : FileSystem) : Path :=
  ⟨"/" ++ String.intercalate "/" fs.here⟩

namespace CommandLine

namespace Arguments

/-- Where settings are looked for. -/
def start (given : Arguments) (fs : FileSystem) : Path :=
  given.root?.getD fs.herePath

/-- The settings and the path of their file, if there are any. -/
def findSettings (given : Arguments) (fs : FileSystem) : Except Failure (Option (Path × Settings)) :=
  match given.settings? with
  | some path => (Settings.load fs path).map fun settings => some (path, settings)
  | .none => Settings.find fs (given.start fs)

/-- The directory of a settings file. A file that is named without a directory counts as one where the search would
start. -/
def settingsDirectory (given : Arguments) (fs : FileSystem) (path : Path) : Path :=
  match path.parent? with
  | some directory => if directory.isEmpty then given.start fs else directory
  | .none => given.start fs

/-- The configuration without what the arguments say, and whether the settings name the targets. -/
def projectConfig (given : Arguments) (fs : FileSystem) : Option (Path × Settings) → Config × Bool
  | .none => (.ofRoot (given.start fs), false)
  | some (path, settings) =>
    let directory := given.settingsDirectory fs path
    let config := (settings.resolveIn directory).override (.ofRoot (given.root?.getD directory))
    (config, !settings.targets.isEmpty)

/-- The targets: those that the arguments name; else, where they name a source and the settings no targets, all other
languages; else those of the project. -/
def targetsOver (given : Arguments) (config : Config) (named : Bool) : List Language :=
  Settings.nonemptyOr given.targets
    (match given.source? with
    | some source => if named then config.targets else source.others
    | .none => config.targets)

/-- A configuration with what the arguments say. -/
def override (given : Arguments) (config : Config) (named : Bool) : Config :=
  { config with
    source := given.source?.getD config.source
    targets := given.targetsOver config named
    fragmentPatterns := match given.fragments? with
      | some pattern => [pattern]
      | .none => config.fragmentPatterns
    outputDir := given.outputDir?.getD config.outputDir
    rootRule? := given.rootRule?.or config.rootRule?
    overlay := ⟨given.force, given.remove⟩ }

end Arguments

/-- The configuration that arguments and settings give. -/
def configure (given : Arguments) (fs : FileSystem) : Except Failure Config := do
  let found ← given.findSettings fs
  let (config, named) := given.projectConfig fs found
  return given.override config named

end CommandLine

end Rulebook

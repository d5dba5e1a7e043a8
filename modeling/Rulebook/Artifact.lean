import Rulebook.Config
import Rulebook.FileSystem

/-!
# Artifacts

Compiled rules are kept as one JSON file for each language. This module provides `Artifact.Directory`, where these
files are; `Artifact.Directory.destination`, the path of one of them; and `Artifact.Directory.write`, which makes it.
Rules without a JSON form leave all files as they are.
-/

namespace Rulebook

namespace Artifact

/-- A directory of artifacts, with the template of their names. -/
structure Directory where
  path : Path
  template : String

namespace Directory

/-- The directory that a configuration names. -/
def ofConfig (config : Config) : Directory where
  path := config.outputPath
  template := config.artifactTemplate

/-- The path of the artifact for a language. -/
def destination (directory : Directory) (language : Language) : Path :=
  directory.path.join (Template.fill directory.template language)

/-- Write a text to the artifact for a language; the directory is made if it is missing. -/
def writeText (directory : Directory) (language : Language) (text : String) (fs : FileSystem) :
    Except Failure Path × FileSystem :=
  let destination := directory.destination language
  match fs.createDirectories directory.path with
  | (fs, .error error) => (.error (.artifact destination error.message), fs)
  | (fs, .ok ()) =>
    match fs.writeText destination text with
    | .error error => (.error (.artifact destination error.message), fs)
    | .ok written => (.ok destination, written)

/-- Write rules to the artifact for a language. -/
def write (directory : Directory) (rules : RuleSet) (language : Language) (fs : FileSystem) :
    Except Failure Path × FileSystem :=
  match rules.json with
  | .error fault => (.error (.artifact (directory.destination language) fault.message), fs)
  | .ok text => directory.writeText language text fs

end Directory

end Artifact

end Rulebook

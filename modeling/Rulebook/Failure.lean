import Rulebook.Json
import Rulebook.Language
import Rulebook.Overlay.Error
import Rulebook.Path

/-!
# Failures

This module provides `Failure`, the reasons for which a step of a compilation fails, and their wording.
-/

namespace Rulebook

/-- Why a step failed. -/
inductive Failure where
  /-- A fragment cannot be read or holds no rule set. -/
  | fragment (source : Path) (message : String)
  /-- The gate found the rules wrong. -/
  | evaluation (diagnostic : String)
  /-- A localization does not fit the rules. -/
  | overlay (language : Language) (error : Overlay.Error)
  /-- A localization cannot be read. -/
  | localization (path : Path) (message : String)
  /-- An artifact cannot be written. -/
  | artifact (destination : Path) (message : String)
  /-- A setting has no meaning. -/
  | config (message : String)
  /-- The operating system refused an operation. -/
  | system (message : String)
  /-- A project file is no YAML, or not of the form of the settings. -/
  | malformed
  /-- A rule set has no JSON form. -/
  | json (fault : Json.Fault)
  /-- Patterns are too much together. -/
  | glob (message : String)
  /-- A directory cannot be searched; the system may not tell which. -/
  | traversal (path? : Option Path) (message : String)

/-- What stands where the reason for refusing a YAML text would be told. -/
def malformedText : String :=
  "<yaml error>"

/-- The failure in words. -/
def Failure.message : Failure → String
  | .fragment source message => "Failed to read rules from " ++ source.text ++ ": " ++ message
  | .evaluation diagnostic => "Rule evaluation failed:\n" ++ diagnostic
  | .overlay language error => "Invalid translation for '" ++ language.code ++ "': " ++ error.message
  | .localization path message => "Failed to load translations from " ++ path.text ++ ": " ++ message
  | .artifact destination message => "Failed to write rules to " ++ destination.text ++ ": " ++ message
  | .config message => "Configuration error: " ++ message
  | .system message => "IO error: " ++ message
  | .malformed => "YAML parsing error: " ++ malformedText
  | .json fault => "JSON serialization error: " ++ fault.message
  | .glob message => "Glob error: " ++ message
  | .traversal path? message =>
    "Directory traversal error: " ++ match path? with
      | some path => "IO error for operation on " ++ path.text ++ ": " ++ message
      | none => message

end Rulebook

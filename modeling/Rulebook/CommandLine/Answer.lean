import Rulebook.CommandLine.Parser
import Rulebook.Failure
import Rulebook.Report.Render

/-!
# Answers

This module provides `CommandLine.Answer`, what the program answers to a command line: an exit code, a text, and
diagnostics. The program ends well if and only if every task of the compilation succeeded, or if it was only asked for
help or its version.
-/

namespace Rulebook

namespace CommandLine

/-- The answer to a command line. -/
structure Answer where
  exitCode : Nat
  output : String
  diagnostics : String

namespace Answer

/-- The exit code of a command line that is wrong. -/
def usageExit : Nat :=
  2

/-- The name of the program. -/
def programName : String :=
  "compile-rules"

/-- The version in words. -/
def versionText : String :=
  programName ++ " 0.2.0\n"

/-- How to call the program. -/
def usageText : String :=
  "Usage: " ++ programName ++ " [OPTIONS]\n"

/-- A switch in words. -/
def switchText (switch : Switch) : String :=
  let letter := match switch.letter? with
    | some c => "-" ++ c.toString ++ ", "
    | none => "    "
  "  " ++ letter ++ "--" ++ switch.name ++ (if switch.takesValue then " <VALUE>" else "") ++ "\n"

/-- The help text. -/
def helpText : String :=
  "Aggregates the rule set into one JSON file per language\n\n" ++ usageText ++ "\nOptions:\n" ++
    String.join (Switch.all.map switchText)

/-- The answer to a command line that is not carried out. -/
def ofUsage : Usage → Answer
  | .help => ⟨0, helpText, ""⟩
  | .version => ⟨0, versionText, ""⟩
  | .invalidValue => ⟨usageExit, "", "error: invalid value\n\n" ++ usageText⟩
  | .unknownArgument => ⟨usageExit, "", "error: unexpected argument\n\n" ++ usageText⟩
  | .conflict => ⟨usageExit, "", "error: arguments cannot be used together\n\n" ++ usageText⟩
  | .tooManyValues => ⟨usageExit, "", "error: unexpected value\n\n" ++ usageText⟩

/-- The answer when there is no configuration. -/
def ofFailure (failure : Failure) : Answer :=
  ⟨1, "", "Error: " ++ failure.message ++ "\n"⟩

/-- The text with each of its lines moved to the right. -/
def indented (text : String) : String :=
  "    " ++ String.intercalate "\n    " (text.splitOn "\n")

/-- The answer when the configuration is of no use. -/
def ofInvalidConfig (failure : Failure) : Answer :=
  ⟨1, "", "Error: Invalid compiler configuration\n\nCaused by:\n" ++ indented failure.message ++ "\n"⟩

/-- The answer when there is a report. -/
def ofReport (format : Report.Format) (report : Report) : Answer :=
  ⟨if report.allSucceeded then 0 else 1, report.render format, ""⟩

end Answer

end CommandLine

end Rulebook

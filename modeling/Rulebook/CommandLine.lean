import Rulebook.CommandLine.Answer
import Rulebook.CommandLine.Configure
import Rulebook.Compilation
import Rulebook.Shell.Program

/-!
# The command line

This module provides `CommandLine.execute`: what the program answers to a command line, and the files after it.

A command that checks the rules is run by any host; where none is given, it is that of `Rulebook.Shell.Program`.
-/

namespace Rulebook

namespace CommandLine

variable [Program.Host]

/-- The answer to arguments, and the files after it. -/
def carryOut (given : Arguments) (fs : FileSystem) : Answer × FileSystem :=
  match configure given fs with
  | .error failure => (.ofFailure failure, fs)
  | .ok config =>
    match Compilation.ofConfig config with
    | .error failure => (.ofInvalidConfig failure, fs)
    | .ok compilation =>
      let (report, fs) := compilation.run fs
      (.ofReport given.format report, fs)

/-- The answer to a command line, and the files after it. -/
def execute (words : List String) (fs : FileSystem) : Answer × FileSystem :=
  match parse words with
  | .error usage => (.ofUsage usage, fs)
  | .ok given => carryOut given fs

end CommandLine

end Rulebook

import Rulebook.Shell.Builtin.Condition
import Rulebook.Shell.Builtin.Directory
import Rulebook.Shell.Builtin.Lookup
import Rulebook.Shell.Builtin.Process
import Rulebook.Shell.Builtin.Reading
import Rulebook.Shell.Builtin.Writing

/-!
# Builtins

This module provides `Shell.builtin?`, the builtin of a name. Those that run commands themselves are not among them:
they belong to `Rulebook.Shell.Run`.
-/

namespace Rulebook

namespace Shell

namespace Builtin

/-- End with a status, whatever the arguments are. -/
def ending (status : Nat) : Builtin := fun _ s =>
  .next (s.ended status)

/-- Tell that there are no jobs. -/
def refuseJob : Builtin := fun _ s =>
  .fail "No current job" s

/-- Write the time that was taken, which is none. -/
def times : Builtin := fun _ s =>
  let line := "0m0.000000s 0m0.000000s\n"
  .next (s.printText (line ++ line))

/-- Write a limit; there is none. -/
def ulimit : Builtin := fun _ s =>
  .next (s.printText "unlimited\n")

end Builtin

/-- The builtin of a name. -/
def builtin? (name : String) : Option Builtin :=
  match name with
  | ":" => some (Builtin.ending 0)
  | "true" => some (Builtin.ending 0)
  | "false" => some (Builtin.ending 1)
  | "echo" => some Builtin.echo
  | "printf" => some Builtin.printf
  | "test" => some Builtin.test
  | "[" => some Builtin.bracket
  | "export" => some Builtin.exportNames
  | "readonly" => some Builtin.fixNames
  | "unset" => some Builtin.forgetNames
  | "local" => some Builtin.localNames
  | "set" => some Builtin.set
  | "shift" => some Builtin.shift
  | "read" => some Builtin.read
  | "getopts" => some Builtin.getopts
  | "cd" => some Builtin.cd
  | "chdir" => some Builtin.cd
  | "pwd" => some Builtin.pwd
  | "umask" => some Builtin.umask
  | "kill" => some Builtin.kill
  | "trap" => some Builtin.trap
  | "wait" => some Builtin.wait
  | "exit" => some Builtin.exit
  | "return" => some Builtin.leaveFunction
  | "break" => some (Builtin.leaveLoops false)
  | "continue" => some (Builtin.leaveLoops true)
  | "type" => some Builtin.type
  | "hash" => some Builtin.hash
  | "jobs" => some (Builtin.ending 0)
  | "bg" => some Builtin.refuseJob
  | "fg" => some Builtin.refuseJob
  | "alias" => some Builtin.setAliases
  | "unalias" => some Builtin.dropAliases
  | "times" => some Builtin.times
  | "ulimit" => some Builtin.ulimit
  | _ => none

end Shell

end Rulebook

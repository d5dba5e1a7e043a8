import Rulebook.Shell.Builtin.Condition
import Rulebook.Shell.Builtin.Writing
import Rulebook.Shell.Utility.Frame

/-!
# Programs that tell

This module provides `Utility.echo` and `Utility.printf`, which write their arguments, `Utility.test` and
`Utility.bracket`, which end well if a condition holds, `Utility.printenv`, which writes variables, and `Utility.yes`,
which writes a line over and over.
-/

namespace Rulebook

namespace Shell

namespace Utility

/-- Is the argument one of the options of `echo`? -/
def isEchoOption (argument : String) : Bool :=
  match argument.toList with
  | '-' :: c :: letters => (c :: letters).all "neE".toList.contains
  | _ => false

/-- Write the arguments with blanks between them, with their escapes resolved where that is asked for. -/
def echo : Utility := fun name arguments s =>
  let letters := (arguments.takeWhile isEchoOption).flatMap String.toList
  let rest := arguments.dropWhile isEchoOption
  let resolves := (letters.filter fun c => c == 'e' || c == 'E').getLast? == some 'e'
  let (text, stopped) :=
    if resolves then Builtin.echoText rest else ((String.intercalate " " rest).toList, false)
  writeText name (if stopped || letters.contains 'n' then text else text ++ ['\n']) (s.ended 0)

/-- Run what the shell has under a name as a program of its own: its messages start with the name of the program. -/
def ofBuiltin (builtin : Builtin) : Utility := fun name arguments s =>
  let step := builtin arguments { s with name := name, line := 1, speaker? := none }
  step.state

/-- Write arguments as a format says. -/
def printf : Utility := fun name arguments s =>
  if arguments.isEmpty then misuse name "missing operand" s
  else ofBuiltin Builtin.printf name arguments s

/-- End well if a condition holds. -/
def test : Utility :=
  ofBuiltin Builtin.test

/-- End well if the condition between brackets holds. -/
def bracket : Utility :=
  ofBuiltin Builtin.bracket

/-- Write the values of exported variables; end well if all of them are there. -/
def printenv : Utility := fun name arguments s =>
  let exported := s.exported.reverse
  let valueOf? (entry : String × Binding) : Option String := entry.2.value?
  if arguments.isEmpty then
    let lines := exported.map fun entry => entry.1.toList ++ '=' :: ((valueOf? entry).getD "").toList
    writeText name (joinLines lines) (s.ended 0)
  else
    let found := arguments.map fun argument => (exported.lookup argument).bind Binding.value?
    let status := if found.all Option.isSome then 0 else 1
    writeText name (joinLines (found.filterMap fun value? => value?.map String.toList)) (s.ended status)

/-- How many bytes are written of what has no end. -/
def greatestOutput : Nat :=
  twoTo 18

/-- Write a line over and over; it ends when enough has been written. -/
def yes : Utility := fun name arguments s =>
  let line := (if arguments.isEmpty then "y" else String.intercalate " " arguments).toList ++ ['\n']
  writeText name (List.replicate (greatestOutput / line.length) line).flatten (s.ended 0)

end Utility

end Shell

end Rulebook

import Rulebook.FileSystem
import Rulebook.Signal

/-!
# Programs

A program is run with arguments and an input, and ends. What comes of that is up to the program and to the system that
runs it, so it is left open here. This module provides:

* `Program.Run` — what can be told of a program that was started;
* `Program.Host` — a system that runs programs; and
* `Program.Host.Lawful` — what holds on every system: the input of a program is a pipe, which hands on what was written
  into it, in order and without loss.
-/

namespace Rulebook

namespace Program

/-- How a program ended. -/
inductive Ending where
  | exited (status : Nat)
  | killed (signal : Nat)
deriving DecidableEq

/-- Did it end well? -/
def Ending.isSuccess (ending : Ending) : Bool :=
  ending == .exited 0

/-- The ending in words. -/
def Ending.message : Ending → String
  | .exited status => "exit status: " ++ toString status
  | .killed signal =>
    match Signal.name? signal with
    | some name => "signal: " ++ toString signal ++ " (SIG" ++ name ++ ")"
    | none => "signal: " ++ toString signal

/-- How a program ended, and what it had written by then. -/
structure Result where
  ending : Ending
  output : ByteArray
  diagnostics : ByteArray

/-- Why a pipe takes no more bytes. -/
inductive PipeError where
  /-- Nobody is left to read them. -/
  | broken
  | other (message : String)

/-- What became of the task that feeds a program. -/
inductive Feeding where
  /-- The input was written, or not all of it, and then closed. -/
  | ended (written closed : Except PipeError Unit)
  /-- The task was cut short. -/
  | aborted (message : String)

/-- What can be told of a program that was started. -/
structure Run where
  /-- The files after it. -/
  files : FileSystem
  /-- The bytes that it read of its input. -/
  received : ByteArray
  /-- Did it read up to the end of its input? -/
  sawEnd : Bool
  feeding : Feeding
  /-- How it ended, or why this could not be learnt. -/
  result : Except String Result

/-- A system that runs programs. -/
class Host where
  /-- Run a program with arguments and an input, from some files on. A program may fail to start. -/
  run (files : FileSystem) (program : String) (arguments : List String) (input : ByteArray) : Except String Run

/-- What holds on every system. -/
structure Host.Lawful [Host] : Prop where
  /-- A program reads its input from the beginning on. -/
  received_begins {files : FileSystem} {program : String} {arguments : List String} {input : ByteArray} {run : Run} :
    Host.run files program arguments input = .ok run → ∃ unread, run.received ++ unread = input
  /-- A program that came to the end of its input has read all that was written into it. -/
  received_all {files : FileSystem} {program : String} {arguments : List String} {input : ByteArray} {run : Run}
    {closed : Except PipeError Unit} : Host.run files program arguments input = .ok run → run.sawEnd = true →
      run.feeding = .ended (.ok ()) closed → run.received = input
  /-- The pipe of a program that reads up to the end does not break. -/
  not_broken {files : FileSystem} {program : String} {arguments : List String} {input : ByteArray} {run : Run}
    {closed : Except PipeError Unit} : Host.run files program arguments input = .ok run → run.sawEnd = true →
      run.feeding ≠ .ended (.error .broken) closed

end Program

end Rulebook

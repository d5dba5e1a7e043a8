/-!
# Signals

This module provides the names of the signals, and what is said of a process that one of them has ended.
-/

namespace Rulebook

namespace Signal

/-- The names of the signals, from the first on. -/
def names : List String :=
  ["HUP", "INT", "QUIT", "ILL", "TRAP", "ABRT", "BUS", "FPE", "KILL", "USR1", "SEGV", "USR2", "PIPE", "ALRM", "TERM",
    "STKFLT", "CHLD", "CONT", "STOP", "TSTP", "TTIN", "TTOU", "URG", "XCPU", "XFSZ", "VTALRM", "PROF", "WINCH", "IO",
    "PWR", "SYS"]

/-- How many signals there are, those without a name and the end of the shell among them. -/
def count : Nat :=
  65

/-- The name of a signal; zero is the end of the shell. -/
def name? (signal : Nat) : Option String :=
  match signal with
  | 0 => some "EXIT"
  | n + 1 => names[n]?

/-- The name of a signal in scripts, where the sixteenth has none. -/
def scriptName? (signal : Nat) : Option String :=
  if signal = 16 then none else name? signal

/-- The signal that a script names, without regard to case. -/
def ofName? (text : String) : Option Nat :=
  let wanted := text.toList.map Char.toUpper
  (List.range count).find? fun signal => (scriptName? signal).any fun name => name.toList == wanted

/-- The signal that is numbered. -/
def ofNumber? (text : String) : Option Nat :=
  if !text.isEmpty && text.toList.all Char.isDigit then
    let n := text.toList.foldl (fun n d => 10 * n + (d.toNat - '0'.toNat)) 0
    if n < count then some n else none
  else none

/-- The signal that a text names or numbers. -/
def ofText? (text : String) : Option Nat :=
  match ofNumber? text with
  | some signal => some signal
  | none => ofName? text

/-- Does the signal leave a process as it is, unless something else is asked for? -/
def isHarmless (signal : Nat) : Bool :=
  [0, 17, 18, 23, 28].contains signal

/-- What is said of a process that a signal has ended. -/
def ending (signal : Nat) : String :=
  match signal with
  | 1 => "Hangup"
  | 2 => ""
  | 3 => "Quit"
  | 4 => "Illegal instruction"
  | 5 => "Trace/breakpoint trap"
  | 6 => "Aborted"
  | 7 => "Bus error"
  | 8 => "Floating point exception"
  | 9 => "Killed"
  | 10 => "User defined signal 1"
  | 11 => "Segmentation fault"
  | 12 => "User defined signal 2"
  | 13 => ""
  | 14 => "Alarm clock"
  | 15 => "Terminated"
  | 16 => "Stack fault"
  | 24 => "CPU time limit exceeded"
  | 25 => "File size limit exceeded"
  | 26 => "Virtual timer expired"
  | 27 => "Profiling timer expired"
  | 29 => "I/O possible"
  | 30 => "Power failure"
  | 31 => "Bad system call"
  | _ => "Unknown signal " ++ toString signal

end Signal

end Rulebook

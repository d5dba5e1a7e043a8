import Rulebook.Shell.Step

/-!
# Builtins for processes

This module provides `Builtin.kill` and `Builtin.trap` for signals, `Builtin.wait` for commands that run on their own,
and `Builtin.exit`, `Builtin.leaveFunction` and `Builtin.leaveLoops`, which leave what runs.
-/

namespace Rulebook

namespace Shell

namespace Builtin

/-! ## Signals -/

/-- The names of all signals, with a number for each one without a name. -/
def shownSignal (signal : Nat) : String :=
  match Signal.scriptName? signal with
  | some name => name
  | none =>
    if signal = 34 then "RTMIN"
    else if signal = 64 then "RTMAX"
    else if 34 < signal ∧ signal < 50 then "RTMIN+" ++ toString (signal - 34)
    else if 50 ≤ signal ∧ signal < 64 then "RTMAX-" ++ toString (64 - signal)
    else toString signal

/-- What is told of the ways to call `kill`. -/
def killUsage : String :=
  "Usage: kill [-s sigspec | -signum | -sigspec] [pid | job]... or\nkill -l [exitstatus]"

/-- Write the names of all signals, or of one. -/
def listSignals (operands : List String) (s : State) : Step :=
  match operands with
  | [] =>
    let names := (List.range (Signal.count - 1)).map fun i => shownSignal (i + 1) ++ "\n"
    .next (s.printText ("0\n" ++ String.join names))
  | text :: _ =>
    withNumber text s fun n s =>
      let signal := if 128 < n then n - 128 else n
      if 0 < signal ∧ signal < Signal.count then .next (s.printText (shownSignal signal ++ "\n"))
      else .fail ("invalid signal number or exit status: " ++ text) s

/-- Send a signal to a process, if it is there. The first process of all is not ours, and takes no harm. -/
def send (signal process : Nat) (s : State) : Option State :=
  if s.jobs.any fun job => job.process == process then
    some { s with
      jobs := s.jobs.map fun job =>
        if job.process = process ∧ !Signal.isHarmless signal then
          { job with status := 128 + signal, signal? := some signal }
        else job }
  else if process = 1 then some s
  else if s.process ≤ process ∧ process ≤ s.processes ∨ some (toString process) = s.value? "PPID" then
    some { s with signals := s.signals ++ [(process, signal)] }
  else none

/-- Send a signal to processes; the command ends badly if one is not there. -/
def sendAll (signal : Nat) : List String → State → Step
  | [], s => .next s
  | text :: rest, s =>
    let digits := if text.startsWith "-" then String.ofList (text.toList.drop 1) else text
    withNumber digits s fun process s =>
      match if text.startsWith "-" then none else send signal process s with
      | some s => sendAll signal rest s
      | none => sendAll signal rest (s.complain "No such process\n" 1)

/-- Send a signal. -/
def kill : Builtin := fun arguments s =>
  match arguments with
  | [] => .fail killUsage s
  | first :: rest =>
    let named? := match first.toList with
      | '-' :: name => (Signal.ofText? (String.ofList name)).filter fun signal => signal ≠ 0 ∨ first = "-0"
      | _ => none
    match named? with
    | some signal => if rest.isEmpty then .fail killUsage s else sendAll signal rest (s.ended 0)
    | none =>
      if !first.startsWith "-" then sendAll 15 arguments (s.ended 0)
      else
        withOptions "ls:" arguments s fun options operands s =>
          let asked := (options.filter fun option => option.1 == 's').map fun option =>
            (option.2, (Signal.ofText? option.2).filter fun signal => signal ≠ 0 ∨ option.2.toList.all Char.isDigit)
          match asked.find? fun entry => entry.2.isNone with
          | some (text, _) => .fail ("invalid signal number or name: " ++ text) s
          | none =>
            let signal? := (asked.getLast?.bind Prod.snd)
            if options.any fun option => option.1 == 'l' then
              if signal?.isSome then .fail killUsage s else listSignals operands s
            else if operands.isEmpty then .fail killUsage s
            else sendAll (signal?.getD 15) operands (s.ended 0)

/-- Set what is done on signals, or write it. -/
def trap : Builtin := fun arguments s =>
  withOptions "" arguments s fun _ operands s =>
    let set (action? : Option String) (signal : Nat) (s : State) : State :=
      let others := s.traps.filter fun entry => entry.1 != signal
      { s with
        traps := match action? with
          | some action => others ++ [(signal, action)]
          | none => others }
    let rec setAll (action? : Option String) : List String → State → State
      | [], s => s.ended 0
      | text :: rest, s =>
        match Signal.ofText? text with
        | some signal => setAll action? rest (set action? signal s)
        | none => (s.warn ("trap: " ++ text ++ ": bad trap\n")).ended 1
    match operands with
    | [] =>
      let set := s.traps.mergeSort fun a b => decide (a.1 ≤ b.1)
      .next (s.printText (String.join (set.map fun entry =>
        "trap -- " ++ inQuotes entry.2 ++ " " ++ shownSignal entry.1 ++ "\n")))
    | action :: rest =>
      if rest.isEmpty ∨ (Signal.ofNumber? action).isSome then .next (setAll none operands s)
      else .next (setAll (if action = "-" then none else some action) rest s)

/-! ## Commands that run on their own -/

/-- Wait for commands; the status is that of the last of them. -/
def wait : Builtin := fun arguments s =>
  let rec waitAll : List String → State → Step
    | [], s => .next s
    | text :: rest, s =>
      if text.startsWith "%" then .fail ("No such job: " ++ text) s
      else
        withNumber text s fun process s =>
          match s.jobs.find? fun job => job.process == process with
          | none => waitAll rest (s.ended 127)
          | some job =>
            let s := match job.signal? with
              | some signal => if (Signal.ending signal).isEmpty then s else s.warn (Signal.ending signal ++ "\n")
              | none => s
            let jobs := s.jobs.map fun other =>
              if other.process = process then { other with signal? := none } else other
            waitAll rest ({ s with jobs := jobs }.ended job.status)
  withOptions "" arguments s fun _ operands s => waitAll operands (s.ended 0)

/-! ## Leaving -/

/-- End the shell, with the status of the last command or another one. -/
def exit : Builtin := fun arguments s =>
  match arguments with
  | [] => ⟨s.ended (s.trappedStatus?.getD s.status), .exit⟩
  | text :: _ => withNumber text s fun status s => ⟨s.ended status, .exit⟩

/-- End the function that runs, or the script that was read in. -/
def leaveFunction : Builtin := fun arguments s =>
  match arguments with
  | [] => ⟨s, .leaveFunction⟩
  | text :: _ => withNumber text s fun status s => ⟨s.ended status, .leaveFunction⟩

/-- End loops, or their rounds. -/
def leaveLoops (again : Bool) : Builtin := fun arguments s =>
  let text := arguments.headD "1"
  withNumber text s fun n s =>
    if n = 0 then .fail ("Illegal number: " ++ text) s
    else if s.loops = 0 then .next (s.ended 0)
    else ⟨s.ended 0, .leaveLoops (min n s.loops) again⟩

end Builtin

end Shell

end Rulebook

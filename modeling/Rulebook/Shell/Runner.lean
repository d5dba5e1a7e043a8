import Rulebook.Shell.Call

/-!
# Running a script line by line

Running a command and expanding a word need each other. This module breaks the circle: a `Shell.Runner` is any way to
run commands, and what can be said without knowing it better is said here:

* `Runner.runText` — the step that the text of a script is;
* `Runner.settle` — what is done on signals; and
* `Runner.finish` — what is done at the end of a shell.

A command that is *tested* — a condition, say — may fail without ending a script that is to end on failures. Behind a
*last* command of a copy of the shell nothing comes, so a program that it names takes the place of the copy.
-/

namespace Rulebook

namespace Shell

/-- How a command is run. -/
structure Mode where
  tested : Bool
  last : Bool

namespace Mode

/-- Nothing is known of what comes after. -/
def plain : Mode :=
  ⟨false, false⟩

/-- How a condition is run. -/
def condition : Mode :=
  ⟨true, false⟩

/-- How a command is run of which only the output is wanted. -/
def alone : Mode :=
  ⟨false, true⟩

/-- The same mode for a command that others follow. -/
def inner (mode : Mode) : Mode :=
  { mode with last := false }

/-- The mode of a copy of the shell. -/
def copy (mode : Mode) : Mode :=
  { mode with last := true }

end Mode

/-- A way to run commands, and how often something may be repeated or nested. -/
structure Runner where
  run : Mode → Command → State → Step
  bound : Nat

/-! ## Signals -/

/-- Does the shell end? -/
def Flow.isEnd : Flow → Bool
  | .exit => true
  | .fault => true
  | .killed _ => true
  | _ => false

/-- Is something to be done on a signal? -/
def State.hasTraps (s : State) : Bool :=
  s.traps.any fun entry => !entry.2.isEmpty

/-- Does a signal end the shell? Number nine does in any case, and nineteen only stops it for a while. -/
def State.isDeadly (s : State) (signal : Nat) : Bool :=
  !Signal.isHarmless signal && signal != 19 && (signal == 9 || (s.traps.lookup signal).isNone)

/-- The signal that ends the shell, of those that were sent to it. -/
def State.deadlySignal? (s : State) : Option Nat :=
  (s.signals.find? fun entry => entry.1 == s.process && s.isDeadly entry.2).map Prod.snd

/-- What is to be done on the signals that were sent to the shell, in order, and the state without them. -/
def State.takeSignals (s : State) : List String × State :=
  let (own, others) := s.signals.partition fun entry => entry.1 == s.process
  let sent := (List.range Signal.count).filter fun signal => own.any fun entry => entry.2 == signal
  (sent.filterMap fun signal => s.traps.lookup signal, { s with signals := others })

namespace Runner

/-! ## Scripts -/

/-- Run a script line by line. The status is that of the last command, or the given one if there is none. `fuel` bounds
the number of lines. -/
def runLines (runner : Runner) (mode : Mode) : (fuel : Nat) → (status : Nat) → Source → State → Step
  | 0, _, _, s => .stopped s
  | fuel + 1, status, source, s =>
    match readLine? { source with documents := s.documents, aliases := s.aliases } with
    | .error fault => .fail fault.message { s with line := fault.line }
    | .ok none => .next (s.ended status)
    | .ok (some (command, rest)) =>
      let step := runner.run mode.inner command { s with documents := rest.documents, reached := rest.line }
      let status := match command with
        | .nothing => status
        | _ => step.state.status
      match step.flow with
      | .next => runLines runner mode fuel status rest step.state
      | _ => step

/-- Run the text of a script. -/
def runText (runner : Runner) (mode : Mode) (text : String) (s : State) : Step :=
  let step := runner.runLines mode (text.length + 2) 0 (.ofText text s.documents s.aliases) s
  { step with state := { step.state with reached := s.reached } }

/-! ## Signals and the end -/

/-- Do what signals ask for, one after the other; the status is as before. -/
def runActions (runner : Runner) (status : Nat) : List String → State → Step
  | [], s => .next s
  | action :: rest, s =>
    let step := runner.runText .plain action { s with trappedStatus? := some (s.trappedStatus?.getD status) }
    let after := { step.state with trappedStatus? := s.trappedStatus? }
    match step.flow with
    | .next => runActions runner status rest (after.ended status)
    | flow => ⟨after, flow⟩

/-- Do what is to be done on signals. A copy of a shell leaves them to the shell itself. -/
def settle (runner : Runner) (s : State) : Step :=
  if s.signals.isEmpty || s.isCopy then .next s
  else
    match s.deadlySignal? with
    | some signal => ⟨s, .killed signal⟩
    | none =>
      let (actions, s) := s.takeSignals
      runner.runActions s.status actions s

/-- A step after which signals are looked at, and which ends a script that is to end on failures. -/
def checked (runner : Runner) (mode : Mode) (step : Step) : Step :=
  if step.flow.isEnd then step
  else
    let status := step.state.status
    let settled := match step.flow with
      | .next => runner.settle step.state
      | _ => step
    if settled.flow.isEnd then settled
    else if status ≠ 0 && !mode.tested && settled.state.hasOption 'e' then ⟨settled.state.ended status, .exit⟩
    else settled

/-- The end of a shell: what is to be done on it is done, whatever the step was. -/
def finish (runner : Runner) (step : Step) : Step :=
  match step.flow, step.state.traps.lookup 0 with
  | .killed _, _ => step
  | _, none => ⟨step.state, .exit⟩
  | _, some action =>
    let s := step.state
    let others := s.traps.filter fun entry => entry.1 != 0
    let last := runner.runText .plain action { s with traps := others, trappedStatus? := some s.status, loops := 0 }
    match last.flow with
    | .killed _ => last
    | .exit => last
    | .fault => ⟨last.state, .exit⟩
    | _ => ⟨last.state.ended s.status, .exit⟩

/-- Run a command in a copy of the shell, to its end. -/
def runCopy (runner : Runner) (mode : Mode) (command : Command) (s : State) : Step :=
  runner.finish (runner.run mode.copy command s.copied)

end Runner

end Shell

end Rulebook

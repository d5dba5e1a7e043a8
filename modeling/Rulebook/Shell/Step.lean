import Rulebook.Signal
import Rulebook.Shell.Stream

/-!
# Steps

This module provides `Shell.Step`, what a command makes of the state of a shell, with `Shell.Flow`, how the script goes
on after it; and `Shell.Builtin`, a command that the shell itself carries out.
-/

namespace Rulebook

namespace Shell

/-- How a script goes on after a command. -/
inductive Flow where
  | next
  /-- End so many of the loops around the command; with `again`, the last of them goes on with its next round. -/
  | leaveLoops (count : Nat) (again : Bool)
  /-- End the function, or the script that was read in. -/
  | leaveFunction
  /-- End the shell. -/
  | exit
  /-- End the shell, unless the command is one that may fail. -/
  | fault
  /-- A signal has ended the shell. -/
  | killed (signal : Nat)
deriving DecidableEq

/-- The state after a command, and how the script goes on. -/
structure Step where
  state : State
  flow : Flow

/-- What a command that the shell itself carries out does with its arguments. -/
abbrev Builtin := List String → State → Step

namespace Step

/-- Go on with the state. -/
def next (s : State) : Step :=
  ⟨s, .next⟩

/-- Tell of a fault that a script does not survive. -/
def fail (message : String) (s : State) : Step :=
  ⟨s.complain message 2, .fault⟩

/-- Do more after a step, if the script goes on. -/
def andThen (step : Step) (more : State → Step) : Step :=
  match step.flow with
  | .next => more step.state
  | _ => step

/-- A signal that cannot be caught stops the process. -/
def stopped (s : State) : Step :=
  ⟨s, .killed 9⟩

end Step

/-! ## Options -/

/-- The options before the operands: letters, each with the text that it takes; a letter that a colon follows in
`allowed` takes one. In words what is wrong. `fuel` bounds the number of arguments. -/
def readOptions (allowed : String) : (fuel : Nat) → List String → Except String (List (Char × String) × List String)
  | 0, arguments => .ok ([], arguments)
  | _, [] => .ok ([], [])
  | fuel + 1, argument :: rest =>
    match argument.toList with
    | ['-', '-'] => .ok ([], rest)
    | '-' :: c :: more => letters fuel rest (c :: more)
    | _ => .ok ([], argument :: rest)
where
  takesText (c : Char) : Bool :=
    (allowed.toList.dropWhile (· ≠ c)).drop 1 |>.head? |> (· == some ':')
  letters (fuel : Nat) (rest : List String) : List Char → Except String (List (Char × String) × List String)
    | [] => readOptions allowed fuel rest
    | c :: more =>
      if c = ':' ∨ !allowed.toList.contains c then .error ("Illegal option -" ++ c.toString)
      else if takesText c then
        match more, rest with
        | [], [] => .error ("No arg for -" ++ c.toString ++ " option")
        | [], text :: rest => (readOptions allowed fuel rest).map fun (options, rest) => ((c, text) :: options, rest)
        | text, rest =>
          (readOptions allowed fuel rest).map fun (options, rest) => ((c, String.ofList text) :: options, rest)
      else (letters fuel rest more).map fun (options, rest) => ((c, "") :: options, rest)

/-- Carry out a builtin with options. -/
def withOptions (allowed : String) (arguments : List String) (s : State)
    (run : List (Char × String) → List String → State → Step) : Step :=
  match readOptions allowed (arguments.length + 1) arguments with
  | .error message => .fail message s
  | .ok (options, rest) => run options rest s

/-- The number that a text of digits is. -/
def number? (text : String) : Option Nat :=
  if !text.isEmpty && text.toList.all Char.isDigit then some (State.number text.toList) else none

/-- Carry out a builtin with a number. -/
def withNumber (text : String) (s : State) (run : Nat → State → Step) : Step :=
  match number? text with
  | some n => run n s
  | none => .fail ("Illegal number: " ++ text) s

/-- A text in quotes, in which every character stands for itself: single quotes, and double ones around the single
quotes in it. -/
def inQuotes (text : String) : String :=
  let runs := text.toList.splitBy fun a b => (a == '\'') == (b == '\'')
  let shown := runs.map fun run =>
    if run.head? == some '\'' then "\"" ++ String.ofList run ++ "\"" else "'" ++ String.ofList run ++ "'"
  (if text.isEmpty || text.toList.head? == some '\'' then "''" else "") ++ String.join shown

end Shell

end Rulebook

import Rulebook.Config
import Rulebook.Consistency
import Rulebook.Program
import Rulebook.Text.Blank
import Rulebook.Text.Utf8

/-!
# The gate

Nothing is compiled before the merged rules have passed the gate: checks of their structure, or a command that gets
them as JSON and ends well. What runs the command is a parameter. This module provides:

* `Gate` and `Gate.ofConfig` — the two kinds, and the one that a configuration asks for;
* `Gate.fed` — what is made of the feeding of a command, which need not read its input;
* `Gate.diagnostic` — what is told of a command that ended badly; and
* `Gate.check` — the verdict. A command may leave files behind.
-/

namespace Rulebook

/-- What decides whether rules are good. -/
inductive Gate where
  /-- Nothing is wrong with the structure of the rules, and the root rule is defined. -/
  | structural (root? : Option String)
  /-- A program ends well when it is given the rules. -/
  | command (program : String) (arguments : List String)
deriving DecidableEq

namespace Gate

/-- The gate that runs a command line. -/
def ofCommandLine : List String → Except Failure Gate
  | [] => .error (.config "Evaluator command is empty")
  | program :: arguments => .ok (.command program arguments)

/-- The gate of a configuration. -/
def ofConfig (config : Config) : Except Failure Gate :=
  match config.evaluator? with
  | none => .ok (.structural config.rootRule?)
  | some line => ofCommandLine line

/-- The verdict on the structure: one line for each fault. -/
def structuralVerdict (root? : Option String) (rules : RuleSet) : Except Failure Unit :=
  match Consistency.problems root? rules with
  | [] => .ok ()
  | problems => .error (.evaluation (String.intercalate "\n" (problems.map Consistency.Problem.message)))

/-- What a program told of its failure: its diagnostics, or else its output, without blanks at the end. -/
def told (result : Program.Result) : String :=
  let diagnostics := Text.ofBytes result.diagnostics
  Text.trimEnd (if Text.isBlank diagnostics then Text.ofBytes result.output else diagnostics)

/-- What is told of a program that ended badly. -/
def diagnostic (program : String) (result : Program.Result) : String :=
  "'" ++ program ++ "' exited with " ++ result.ending.message ++ "\n" ++ told result

/-- The verdict of a program that has been fed. -/
def endVerdict (program : String) (result : Program.Result) : Except Failure Unit :=
  if result.ending.isSuccess then .ok () else .error (.evaluation (diagnostic program result))

/-- Was there anything wrong with the feeding of a program? A program may end without reading its input; its ending
decides then. -/
def fed : Program.Feeding → Except Failure Unit
  | .aborted message => .error (.evaluation ("evaluator input task failed: " ++ message))
  | .ended written closed =>
    -- What could not be written is not closed either.
    match written.bind fun _ => closed with
    | .error (.other message) => .error (.system message)
    | .error .broken => .ok ()
    | .ok () => .ok ()

/-- The verdict on a program that was started. -/
def runVerdict (program : String) (run : Program.Run) : Except Failure Unit := do
  let result ← run.result.mapError Failure.system
  fed run.feeding
  endVerdict program result

section

variable [Program.Host]

/-- Run a program on the JSON text of the rules. -/
def runCommand (program : String) (arguments : List String) (rules : RuleSet) (fs : FileSystem) :
    Except Failure Unit × FileSystem :=
  match rules.json with
  | .error fault => (.error (.json fault), fs)
  | .ok payload =>
    match Program.Host.run fs program arguments payload.toUTF8 with
    | .error message => (.error (.evaluation ("could not start '" ++ program ++ "': " ++ message)), fs)
    | .ok run => (runVerdict program run, run.files)

/-- The verdict on rules, and the files after it. -/
def check (gate : Gate) (rules : RuleSet) (fs : FileSystem) : Except Failure Unit × FileSystem :=
  match gate with
  | .structural root? => (structuralVerdict root? rules, fs)
  | .command program arguments => runCommand program arguments rules fs

end

end Gate

end Rulebook

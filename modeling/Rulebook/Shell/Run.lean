import Rulebook.Shell.Expansion
import Rulebook.Shell.Utility

/-!
# Running commands

This module provides `Shell.run`, the step that a command is for a shell, and `Shell.runProgram`, the same for a program
that is started by its name. A script may run for ever; the number of nested steps and that of the rounds of a loop are
bounded, and a script that reaches the bound is stopped.
-/

namespace Rulebook

namespace Shell

/-- What a loop does after a part of it. -/
inductive Round where
  | again
  | over
  | out (flow : Flow)

/-- What a loop does after a part of it that ended in some way. -/
def Flow.round : Flow → Round
  | .next => .again
  | .leaveLoops n again => if 1 < n then .out (.leaveLoops (n - 1) again) else if again then .again else .over
  | flow => .out flow

namespace Step

/-- The step of a function for what has called it. -/
def afterFunction (s : State) (step : Step) : Step :=
  let state := s.leave step.state
  match step.flow with
  | .leaveFunction => .next state
  | flow => ⟨state, flow⟩

/-- The step with the streams as they were. -/
def withStreams (s : State) (step : Step) : Step :=
  ⟨{ step.state with streams := s.streams }, step.flow⟩

/-- The step of a loop, in which one loop more is counted. -/
def aroundLoop (s : State) (loop : State → Step) : Step :=
  let step := loop { s with loops := s.loops + 1 }
  ⟨{ step.state with loops := s.loops }, step.flow⟩

end Step

namespace Runner

/-! ## Redirections -/

/-- The words of redirections expanded; that of a here-document waits. -/
def expandTargets (runner : Runner) : List Redirection → State → List Redirected × Step
  | [], s => ([], .next s)
  | .mk descriptor access word :: rest, s =>
    let (text, step) := runner.expandText (Word.withHome s word) s
    match step.flow with
    | .next =>
      match access, duplicated? text with
      | .duplicate, none =>
        ([], .fail "Syntax error: Bad fd number" { step.state with line := step.state.reached })
      | _, _ =>
        let (targets, step) := expandTargets runner rest step.state
        (⟨descriptor, access, text⟩ :: targets, step)
    | _ => ([], step)

/-- Carry out redirections; false if one could not be, which has been told. -/
def redirectAll (runner : Runner) : List Redirected → State → Bool × Step
  | [], s => (true, .next s)
  | redirected :: rest, s =>
    let (text, step) := match redirected.access with
      | .document number => runner.expandText (s.documents.getD number []) s
      | _ => (redirected.text, .next s)
    match step.flow with
    | .next =>
      match redirect { redirected with text := text } step.state with
      | .ok s => redirectAll runner rest s
      | .error message => (false, .fail message step.state)
    | .fault => (false, step)
    | _ => (true, step)

/-- Run something with redirections, after which the streams are as before. `failed` is run if one of them cannot be
carried out. -/
def redirected (runner : Runner) (redirections : List Redirection) (s : State) (failed run : State → Step) : Step :=
  let (targets, step) := runner.expandTargets redirections s
  step.andThen fun s =>
    let (isDone, step) := runner.redirectAll targets s
    if isDone then (step.andThen run).withStreams s else failed { step.state with streams := s.streams }

/-! ## Programs and scripts -/

/-- The script in a file, and the state after it has been read; there is none in a directory. -/
def readScript (path : String) (s : State) : Except SystemError (String × State) :=
  match s.openInput path with
  | .error error => .error error
  | .ok (opened, stream?) =>
    match (opened.connect 10 stream?).readAll? 10 with
    | some (bytes, after) => .ok (Text.octets bytes, { after with streams := s.streams })
    | none => .ok ("", s)

/-- Run a shell on its arguments. -/
def runShell (runner : Runner) (name : String) (arguments : List String) (s : State) : Step :=
  let refuse (message : String) : Step := .fail message s
  let fromInput (s : State) : Step :=
    match s.readAll? 0 with
    | some (bytes, s) => runner.runText .plain (Text.octets bytes) s
    | none => .next s
  match Builtin.settings true [] arguments with
  | .error message => refuse message
  | .ok reading =>
    let s := { s.printText reading.shown with options := reading.options }
    match reading.takesCommand, reading.rest with
    | true, [] => refuse "-c requires an argument"
    | true, script :: rest =>
      let s := { s with name := rest.headD name, arguments := rest.drop 1 }
      (runner.runText .plain script s).andThen fun s => if s.hasOption 's' then fromInput s else .next s
    | false, [] => fromInput { s with options := Builtin.withOption 's' true s.options }
    | false, path :: rest =>
      if s.hasOption 's' then fromInput { s with arguments := reading.rest }
      else
        match readScript path s with
        | .ok (script, s) => runner.runText .plain script { s with name := path, arguments := rest }
        | .error error => refuse ("cannot open " ++ path ++ ": " ++ State.reason "No such file" error)

/-- Run a program under a name, to its end. With `takesPlace`, it takes the place of the shell. -/
def runProgram (runner : Runner) (takesPlace : Bool) (program name : String) (arguments : List String) (s : State) :
    Step :=
  if program = "sh" ∨ program = "dash" then runner.finish (runner.runShell name arguments (s.spawn name takesPlace))
  else
    match utility? program with
    | some utility => ⟨utility name arguments s, .exit⟩
    | none => ⟨s.ended 0, .exit⟩

/-- Run a file in the shell itself. -/
def runFile (runner : Runner) (path : String) (s : State) : Step :=
  let place? := if path.toList.contains '/' then some path
    else (searchPaths s.directories path).find? fun place => s.files.isFile (State.path place)
  match place? with
  | none => .fail (path ++ ": not found") s
  | some place =>
    match readScript place s with
    | .error error => .fail ("cannot open " ++ place ++ ": " ++ State.reason "No such file" error) s
    | .ok (script, s) =>
      let step := runner.runText .plain script { s with speaker? := some place }
      match step.flow with
      | .leaveFunction => .next step.state
      | _ => step

/-! ## Calls -/

/-- Run a program in the place of the shell. -/
def runExec (runner : Runner) (arguments : List String) (s : State) : Step :=
  match arguments with
  | [] => .next (s.ended 0)
  | name :: rest =>
    match search s.files s.directories name with
    | .error fault => ⟨s.complain (name ++ ": " ++ fault.reason) fault.status, .exit⟩
    | .ok (_, program) =>
      let step := runner.runProgram true program name rest { s with speaker? := none }
      ⟨{ s.after step.state with traps := [] }, step.flow⟩

/-- Tell what a name stands for. -/
def runCommand (arguments : List String) (s : State) : Step :=
  withOptions "pvV" arguments s fun options operands s =>
    let has (letter : Char) : Bool := options.any fun option => option.1 == letter
    match operands with
    | [] => .next (s.ended 0)
    | operand :: _ =>
      .next (Builtin.describe (if has 'p' then standardDirectories else s.directories) (has 'V') operand s)

/-- Run a builtin. -/
def runBuiltin (runner : Runner) (mode : Mode) (name : String) (arguments : List String) (s : State) : Step :=
  match name with
  | "eval" => runner.runText mode.inner (String.intercalate " " arguments) s
  | "." =>
    match arguments with
    | [] => .next (s.ended 0)
    | path :: _ => runner.runFile path s
  | "exec" => runner.runExec arguments s
  | "command" => runCommand arguments s
  | _ =>
    match builtin? name with
    | some builtin => builtin arguments s
    | none => .next (s.complain (name ++ ": not found") 127)

/-- Run what a call asks for. -/
def runCall (runner : Runner) (mode : Mode) (call : Call) (s : State) : Step :=
  match call.fields with
  | [] => .next (s.ended s.outputStatus)
  | name :: arguments =>
    match call.meaning with
    | .function body =>
      if s.depth < State.greatestDepth then (runner.run mode.inner body (s.enter arguments)).afterFunction s
      else .fail ("Maximum function recursion depth (" ++ toString State.greatestDepth ++ ") reached") s
    | .program _ program =>
      let found := s.withFound name
      let replaces := mode.last && !s.hasTraps
      let step := runner.runProgram replaces program name arguments found
      match replaces, step.flow with
      | true, .killed signal => ⟨found.after step.state, .killed signal⟩
      | _, _ => .next (found.waited step)
    | .nothing fault =>
      .next (s.complain (name ++ ": " ++ fault.reason) (if name.toList.contains '/' then fault.status else 127))
    | _ =>
      let step := runner.runBuiltin mode name arguments { s with speaker? := some name }
      let state := { step.state with speaker? := s.speaker? }
      match step.flow with
      | .fault => if call.isSpecial then ⟨state, .fault⟩ else .next state
      | flow => ⟨state, flow⟩

/-! ## Simple commands -/

/-- Set variables, and the values that they got. -/
def assignAll (runner : Runner) (temporary : Bool) : List (String × Word) → State → List (String × String) × Step
  | [], s => ([], .next s)
  | (name, word) :: rest, s =>
    let (value, step) := runner.expandText (word.withHomes s true) s
    let set := step.andThen fun s => Step.setting name value (if temporary then s.remember name else s)
    match set.flow with
    | .next =>
      let exported (s : State) : State :=
        s.bind name ((s.binding? name).map fun binding => { binding with isExported := true })
      let (values, step) := assignAll runner temporary rest (if temporary then exported set.state else set.state)
      ((name, value) :: values, step)
    | _ => ([], set)

/-- What is traced of a command. -/
def traceLine (s : State) (assignments : List (String × String)) (fields : List String) : String :=
  let shown := (assignments.map fun entry => entry.1 ++ "=" ++ entry.2) ++ fields
  (s.value? "PS4").getD "" ++ String.intercalate " " shown ++ "\n"

/-- Write a text on the stream for diagnostics of another state. -/
def warnBefore (before : State) (text : String) (s : State) : State :=
  let written := { s with streams := before.streams }.warn text
  { written with streams := s.streams }

/-- Run a simple command. -/
def runSimple (runner : Runner) (mode : Mode) (assignments : List (String × Word)) (words : List Word)
    (redirections : List Redirection) (s : State) : Step :=
  let (fields, step) := runner.expandFields [] words s
  step.andThen fun s =>
    let call := callOf s fields
    let closed (s : State) : State := if call.isTemporary then s.closeScope else s
    let (targets, step) := runner.expandTargets redirections (if call.isTemporary then s.openScope else s)
    step.andThen fun s =>
      let (isDone, step) := runner.redirectAll targets s
      if !isDone then
        let state := { step.state with streams := s.streams }
        if call.isSpecial then ⟨state, .fault⟩ else .next (closed state)
      else
        let step := step.andThen fun opened =>
          let (values, step) := runner.assignAll call.isTemporary assignments opened
          step.andThen fun assigned =>
            let traced := if assigned.hasOption 'x' then warnBefore s (traceLine assigned values fields) assigned
              else assigned
            runner.runCall mode call traced
        let step := if call.isExec && !step.flow.isEnd then step else step.withStreams s
        if step.flow.isEnd then step else ⟨closed step.state, step.flow⟩

/-! ## Compound commands -/

/-- Run the body as long as the condition ends well, or badly. The status is that of the body. `fuel` bounds the number
of rounds. -/
def runLoop (runner : Runner) (mode : Mode) (whileFails : Bool) (condition body : Command) :
    (fuel : Nat) → (status : Nat) → State → Step
  | 0, _, s => .stopped s
  | fuel + 1, status, s =>
    let tested := runner.run .condition condition s
    match tested.flow.round with
    | .out flow => if flow.isEnd || flow == .leaveFunction then tested else ⟨tested.state.ended status, flow⟩
    | .over => .next (tested.state.ended status)
    | .again =>
      if tested.flow ≠ .next then runLoop runner mode whileFails condition body fuel status tested.state
      else if (tested.state.status = 0) = (whileFails = true) then .next (tested.state.ended status)
      else
        let step := runner.run mode body tested.state
        match step.flow.round with
        | .out flow => ⟨step.state, flow⟩
        | .over => .next step.state
        | .again => runLoop runner mode whileFails condition body fuel step.state.status step.state

/-- Run the body with each of the values of a variable. -/
def runEach (runner : Runner) (mode : Mode) (name : String) (body : Command) : List String → State → Step
  | [], s => .next s
  | value :: rest, s =>
    (Step.setting name value s).andThen fun s =>
      let step := runner.run mode body s
      match step.flow.round with
      | .out flow => ⟨step.state, flow⟩
      | .over => .next step.state
      | .again => runEach runner mode name body rest step.state

/-- Does the text match one of the patterns? -/
def matchAny (runner : Runner) (text : String) : List Word → State → Bool × Step
  | [], s => (false, .next s)
  | pattern :: rest, s =>
    let (glyphs, step) := runner.expand false (pattern.withHome s) s
    match step.flow with
    | .next =>
      if (Pattern.ofChars (Glyph.marked glyphs)).accepts text.toList then (true, step)
      else matchAny runner text rest step.state
    | _ => (false, step)

/-- Run the command of the first case that a text matches. -/
def runCases (runner : Runner) (mode : Mode) (text : String) : List (List Word × Command) → State → Step
  | [], s => .next (s.ended 0)
  | (patterns, body) :: rest, s =>
    let (matched, step) := runner.matchAny text patterns s
    step.andThen fun s =>
      if !matched then runCases runner mode text rest s
      else
        match body with
        | .nothing => .next (s.ended 0)
        | _ => runner.run mode body s

/-- Run commands each of which reads what the one before it writes, each on a copy of the state. What is told of those
that a signal ended comes at the end. -/
def runStages (runner : Runner) (mode : Mode) (signals : List Nat) : List Command → State → Step
  | [], s => .next s
  | [command], s =>
    let step := runner.runCopy mode command s
    let after := signals.foldl State.tellEnding (s.after step.state)
    .next (after.waited ⟨after.ended step.state.status, step.flow⟩)
  | command :: rest, s =>
    let (writing, number) := s.addSink
    let step := runner.runCopy mode command (writing.connect 1 (some (.sink number)))
    let (reading, source) := (s.after step.state).addSource (step.state.collected number)
    let signals := match step.flow with
      | .killed signal => signals ++ [signal]
      | _ => signals
    (runStages runner mode signals rest ((reading.ended s.status).connect 0 (some source))).withStreams s

/-- Run a command that is not waited for. It reads nothing. -/
def runBackground (runner : Runner) (command : Command) (s : State) : Step :=
  let process := s.processes + 1
  let step := runner.runCopy .plain command ({ s with processes := process }.connect 0 (some .null))
  let job : Job := match step.flow with
    | .killed signal => ⟨process, 128 + signal, some signal⟩
    | _ => ⟨process, step.state.status % 256, none⟩
  .next ({ s.after step.state with jobs := job :: s.jobs }.ended 0)

/-- Run a command in a shell of its own. -/
def runSubshell (runner : Runner) (mode : Mode) (body : Command) (redirections : List Redirection) (s : State) : Step :=
  let (targets, step) := runner.expandTargets redirections s
  step.andThen fun s =>
    let inside (s : State) : Step :=
      let (isDone, step) := runner.redirectAll targets s
      if isDone then step.andThen fun s => runner.run mode.copy body s else step
    if mode.last && !s.hasTraps then inside s
    else runner.checked mode (.next (s.waited (runner.finish (inside s.copied))))

/-- Turn the end of a command around: bad for well, and well for bad. -/
def negate (step : Step) : Step :=
  step.andThen fun s => .next (s.ended (if s.status = 0 then 1 else 0))

/-- Run a command, the commands in it by the runner. -/
def runWith (runner : Runner) (mode : Mode) (command : Command) (s : State) : Step :=
  let settled (step : Step) : Step := step.andThen runner.settle
  match command with
  | .nothing => runner.settle s
  | .simple line assignments words redirections =>
    runner.checked mode
      (runner.runSimple mode assignments words redirections { s with line := line, outputStatus := 0 })
  | .pipeline commands => runner.checked mode (runner.runStages mode [] commands s)
  | .negated inner => settled (negate (runner.run .condition inner s))
  | .both first second =>
    (runner.run .condition first s).andThen fun s => if s.status = 0 then runner.run mode second s else .next s
  | .either first second =>
    (runner.run .condition first s).andThen fun s => if s.status = 0 then .next s else runner.run mode second s
  | .sequence first second => (runner.run mode.inner first s).andThen fun s => runner.run mode second s
  | .background line inner => settled (runner.runBackground inner { s with line := line })
  | .loop whileFails condition body =>
    settled (Step.aroundLoop s (runner.runLoop mode.inner whileFails condition body runner.bound 0))
  | .each line name words body =>
    let (texts, step) := runner.expandAll words { s with line := line }
    settled (step.andThen fun s =>
      if texts.isEmpty then .next (s.ended 0)
      else Step.aroundLoop s (runner.runEach mode.inner name body texts))
  | .branch condition yes no =>
    (runner.run .condition condition s).andThen fun s =>
      match s.status, no with
      | 0, _ => runner.run mode yes s
      | _, .nothing => .next (s.ended 0)
      | _, no => runner.run mode no s
  | .choose line word cases =>
    let (text, step) := runner.expandText (Word.withHome s word) { s with line := line }
    settled (step.andThen fun s => runner.runCases mode text cases s)
  | .subshell line body redirections => runner.runSubshell mode body redirections { s with line := line }
  | .redirected line inner redirections =>
    settled (runner.redirected redirections { s with line := line }
      (fun s => runner.checked mode (.next s)) (fun s => runner.run mode.inner inner s))
  | .definition name _ body =>
    let others := s.functions.filter fun entry => entry.1 != name
    .next ({ s with functions := (name, body) :: others }.ended 0)

end Runner

/-- Run a command. `fuel` bounds how deep steps are nested. -/
def run : (fuel : Nat) → Mode → Command → State → Step
  | 0, _, _, s => .stopped s
  | fuel + 1, mode, command, s =>
    if s.hasOption 'n' then .next s else Runner.runWith ⟨run fuel, fuel⟩ mode command s

/-- How deep the steps of a script may be nested, and how often a loop may go round. -/
def greatestBound : Nat :=
  1000000

/-- Run a program under a name, to its end. -/
def runProgram (program name : String) (arguments : List String) (s : State) : Step :=
  Runner.runProgram ⟨run greatestBound, greatestBound⟩ true program name arguments s

end Shell

end Rulebook

import Rulebook.Shell.Builtin
import Rulebook.Shell.Parser

/-!
# Calls

When the words of a simple command have become fields, these tell what is called. This module provides:

* `Shell.Call` — what the fields of a command ask for, and `Shell.callOf`, which reads it off the fields;
* `Shell.Redirected` — a redirection with its word expanded, and `Shell.redirect`, which carries it out; and
* `Shell.State.spawn` and `Shell.State.copied` — the states in which a new shell and a copy of one start.
-/

namespace Rulebook

namespace Shell

/-! ## Calls -/

/-- What the fields of a command ask for. -/
structure Call where
  meaning : Meaning
  fields : List String
  /-- Does a fault in it end the script? -/
  isSpecial : Bool
  /-- Do the assignments before it last only as long as it runs? -/
  isTemporary : Bool

/-- The fields after `command` with its options, and whether programs are to be looked for in the standard directories;
nothing if it is to tell what a name stands for. -/
def afterCommand (standard : Bool) : List String → Option (List String × Bool)
  | [] => none
  | field :: rest =>
    match field.toList with
    | ['-', '-'] => if rest.isEmpty then none else some (rest, standard)
    | '-' :: c :: letters => if (c :: letters).all (· == 'p') then afterCommand true rest else none
    | _ => some (field :: rest, standard)

/-- What fields ask for. With `isPlain`, functions are passed over. `fuel` bounds the number of fields. -/
def callFrom (s : State) (directories : String) (isPlain : Bool) : (fuel : Nat) → List String → Call
  | 0, fields => ⟨.builtin, fields, false, true⟩
  | _, [] => ⟨.builtin, [], false, false⟩
  | fuel + 1, name :: rest =>
    match meaning s directories (!isPlain) name with
    | .special => ⟨.special, name :: rest, !isPlain, isPlain⟩
    | .builtin =>
      match if name = "command" then afterCommand false rest else none with
      | some (rest, standard) => callFrom s (if standard then standardDirectories else directories) true fuel rest
      | none => ⟨.builtin, name :: rest, false, true⟩
    | other => ⟨other, name :: rest, false, true⟩

/-- What fields ask for. -/
def callOf (s : State) (fields : List String) : Call :=
  callFrom s s.directories false (fields.length + 1) fields

/-- Are the further words of a command with these fields read as assignments where they look like them? -/
def takesAssignments (s : State) (fields : List String) : Bool :=
  match callOf s fields with
  | ⟨.special, name :: _, _, _⟩ => ["export", "local", "readonly"].contains name
  | ⟨.builtin, name :: _, _, _⟩ => name == "alias"
  | _ => false

/-- Does a call take the place of the shell? -/
def Call.isExec (call : Call) : Bool :=
  match call.meaning, call.fields with
  | .special, "exec" :: _ => true
  | _, _ => false

/-! ## Redirections -/

/-- A redirection with its word expanded. -/
structure Redirected where
  descriptor : Nat
  access : Access
  text : String

/-- The descriptor that the word of a redirection names, or none if the word closes one. -/
def duplicated? (text : String) : Option (Option Nat) :=
  match text.toList with
  | ['-'] => some none
  | [c] => if c.isDigit then some (some (c.toNat - '0'.toNat)) else none
  | _ => none

/-- Let a descriptor stand for what its redirection names; in words why not. -/
def redirect (redirected : Redirected) (s : State) : Except String State :=
  let text := redirected.text
  let opened (verb missing : String) (result : Except SystemError (State × Option Stream)) : Except String State :=
    match result with
    | .ok (s, stream?) => .ok (s.connect redirected.descriptor stream?)
    | .error error => .error ("cannot " ++ verb ++ " " ++ text ++ ": " ++ State.reason missing error)
  let create (keep canRead appends : Bool) : Except String State :=
    opened "create" "Directory nonexistent" (s.openOutput text keep canRead appends)
  match redirected.access with
  | .read => opened "open" "No such file" (s.openInput text)
  | .write =>
    if s.hasOption 'C' && s.files.isFile (State.path text) && (s.device? text).isNone then
      .error ("cannot create " ++ text ++ ": File exists")
    else create false false false
  | .overwrite => create false false false
  | .append => create true false true
  | .readWrite => create true true false
  | .document _ =>
    let (s, stream) := s.addSource (Text.octetBytes text)
    .ok (s.connect redirected.descriptor (some stream))
  | .duplicate =>
    match duplicated? text with
    | none => .ok s
    | some none => .ok (s.connect redirected.descriptor none)
    | some (some number) =>
      match s.stream? number with
      | some stream => .ok (s.connect redirected.descriptor (some stream))
      | none => .error (toString number ++ ": Bad file descriptor")

/-! ## New processes -/

/-- The state in which a copy of a shell starts. Only signals that are ignored stay so. -/
def State.copied (s : State) : State :=
  { s with
    isCopy := true
    reached := if s.hasOption 's' then s.reached else 1
    traps := s.traps.filter fun entry => entry.2.isEmpty
    jobs := [] }

/-- The variables with which a shell starts that gets others from outside. -/
def startBindings (given : List (String × Binding)) (directory : String) (parent : Nat) : List (String × Binding) :=
  let own : List (String × Binding) :=
    [("IFS", ⟨some " \t\n", false, false⟩), ("OPTIND", ⟨some "1", false, false⟩), ("PS1", ⟨some "# ", false, false⟩),
     ("PS2", ⟨some "> ", false, false⟩), ("PS4", ⟨some "+ ", false, false⟩),
     ("PPID", ⟨some (toString parent), false, false⟩)]
  let isReplaced (name : String) : Bool := ["IFS", "OPTIND", "PPID", "PWD"].contains name
  let others := given.filter fun entry => !isReplaced entry.1
  let isGiven (name : String) : Bool := others.any fun entry => entry.1 == name
  ("PWD", ⟨some directory, true, false⟩) :: (own.filter fun entry => !isGiven entry.1) ++ others

/-- The state in which a new shell starts. With `takesPlace`, it is the same process as the old one. -/
def State.spawn (s : State) (name : String) (takesPlace : Bool) : State :=
  let isSame := takesPlace && !s.isCopy
  let process := if isSame then s.process else s.processes + 1
  { s with
    name := name
    arguments := []
    bindings := startBindings s.exported s.directory s.process
    functions := []
    aliases := []
    found := []
    scopes := []
    options := []
    traps := s.traps.filter fun entry => entry.2.isEmpty
    status := 0
    trappedStatus? := none
    outputStatus := 0
    line := 0
    reached := 1
    speaker? := none
    loops := 0
    depth := 0
    documents := #[]
    jobs := []
    process := process
    processes := max process s.processes
    isCopy := false
    optionIndex := 1
    optionOffset? := none }

/-- Tell how a signal has ended a process. -/
def State.tellEnding (s : State) (signal : Nat) : State :=
  let text := Signal.ending signal
  if text.isEmpty then s else s.warn (text ++ "\n")

/-- The state of a shell that has waited for another process. -/
def State.waited (s : State) (step : Step) : State :=
  match step.flow with
  | .killed signal => ((s.after step.state).tellEnding signal).ended (128 + signal)
  | _ => (s.after step.state).ended (step.state.status % 256)

end Shell

end Rulebook

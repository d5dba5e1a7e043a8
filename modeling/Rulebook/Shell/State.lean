import Rulebook.FileSystem
import Rulebook.Shell.Command
import Rulebook.Text.Octets

/-!
# The state of a shell

This module provides `Shell.State`: the files and the streams that descriptors stand for, the variables, the functions
and the options; and what is said of a fault. Reading and writing are in `Rulebook.Shell.Stream`.

A shell is copied for a subshell. What the copy does to files and streams is seen outside of it, and nothing else is:
`State.after` puts the two together again.
-/

namespace Rulebook

namespace Shell

/-- What a descriptor stands for. -/
inductive Stream where
  /-- Nothing to read, and what is written is lost. -/
  | null
  /-- Nothing can be written. -/
  | full
  /-- Bytes to read, by number. -/
  | source (number : Nat)
  /-- Collected bytes, by number. -/
  | sink (number : Nat)
  /-- An open file, by number. -/
  | handle (number : Nat)

/-- An open file: where it is, how far it has been read or written, and what may be done with it. -/
structure Handle where
  location : Location
  position : Nat
  canRead : Bool
  canWrite : Bool
  /-- Does what is written go to the end of the file, wherever that is? -/
  appends : Bool
deriving Inhabited

/-- A variable. It has a value or has only been spoken of. -/
structure Binding where
  value? : Option String
  isExported : Bool
  isFixed : Bool
deriving Inhabited

/-- What a function changes for as long as it runs: the variables as they were before, and the options. -/
structure Scope where
  remembered : List (String × Option Binding)
  options? : Option (List Char)

/-- A command that was not waited for: its process, how it ended, and whether a signal ended it. -/
structure Job where
  process : Nat
  status : Nat
  signal? : Option Nat

/-- The state of a shell. -/
structure State where
  files : FileSystem
  sources : Array ByteArray
  sinks : Array ByteArray
  handles : Array Handle
  streams : List (Nat × Stream)
  /-- The name that messages start with. -/
  name : String
  arguments : List String
  bindings : List (String × Binding)
  functions : List (String × Command)
  /-- The names that stand for other texts where a command can start. -/
  aliases : List (String × String)
  /-- The programs that have been looked for and found. -/
  found : List String
  /-- What is to be put back when the functions that run end, the innermost first. -/
  scopes : List Scope
  /-- The letters of the options that are on. -/
  options : List Char
  /-- What is done on a signal, or on signal zero, the end of the shell; nothing is done on an ignored one. -/
  traps : List (Nat × String)
  /-- How the last command ended; zero is well. -/
  status : Nat
  /-- How it ended before the trap that runs, if one runs. -/
  trappedStatus? : Option Nat
  /-- How the last command ended whose output was taken into a word. -/
  outputStatus : Nat
  /-- The line of the command that runs. -/
  line : Nat
  /-- The line up to which the script has been read. -/
  reached : Nat
  /-- The builtin that runs. -/
  speaker? : Option String
  /-- How many loops the command is in. -/
  loops : Nat
  /-- How many functions the command is in. -/
  depth : Nat
  documents : Array Word
  /-- The commands that were not waited for, the last one first. -/
  jobs : List Job
  /-- The process of the script. -/
  process : Nat
  /-- How many processes there have been. -/
  processes : Nat
  /-- Is the state that of a copy, which is a process of its own? -/
  isCopy : Bool
  /-- The signals that were sent to processes and have not been seen there yet. -/
  signals : List (Nat × Nat)
  /-- The argument from which on options have not been taken yet. -/
  optionIndex : Nat
  /-- How far the options in the argument before that have been taken, if it holds more. -/
  optionOffset? : Option Nat
  /-- The working directory by the path that led there. -/
  directory : String
  /-- The bits that new files do not get. -/
  mask : Nat

namespace State

/-- The state with another status. -/
def ended (s : State) (status : Nat) : State :=
  { s with status := status }

/-- What is left of a state when a command has run on a copy of another one. -/
def after (s inner : State) : State :=
  { s with
    files := { inner.files with here := s.files.here }
    sources := inner.sources
    sinks := inner.sinks
    handles := inner.handles
    status := inner.status
    processes := inner.processes
    signals := inner.signals }

/-! ## Variables -/

/-- The variable of a name. -/
def binding? (s : State) (name : String) : Option Binding :=
  s.bindings.lookup name

/-- The state in which a name stands for a variable, or for none. -/
def bind (s : State) (name : String) (binding? : Option Binding) : State :=
  let others := s.bindings.filter fun entry => entry.1 != name
  { s with
    bindings := match binding? with
      | some binding => (name, binding) :: others
      | none => others }

/-- The value of a variable. -/
def value? (s : State) (name : String) : Option String :=
  (s.binding? name).bind Binding.value?

/-- Is the option on? -/
def hasOption (s : State) (letter : Char) : Bool :=
  s.options.contains letter

/-- The number that digits are. -/
def number (digits : List Char) : Nat :=
  digits.foldl (fun n d => 10 * n + (d.toNat - '0'.toNat)) 0

/-- The state with a variable set, whether that is allowed or not. -/
def set (s : State) (name value : String) : State :=
  let old := (s.binding? name).getD ⟨none, false, false⟩
  let binding := { old with value? := some value, isExported := old.isExported || s.hasOption 'a' }
  let s := s.bind name (some binding)
  if name = "OPTIND" then
    { s with optionIndex := max 1 (number (value.toList.filter Char.isDigit)), optionOffset? := none }
  else s

/-- May the variable not be changed? -/
def isFixed (s : State) (name : String) : Bool :=
  (s.binding? name).any Binding.isFixed

/-- The characters at which words are split. -/
def separators (s : State) : List Char :=
  match s.value? "IFS" with
  | some text => text.toList
  | none => [' ', '\t', '\n']

/-- The variables that a program is started with. -/
def exported (s : State) : List (String × Binding) :=
  s.bindings.filter fun entry => entry.2.isExported && entry.2.value?.isSome

/-- The state in which the changes to some variables do not last. -/
def openScope (s : State) : State :=
  { s with scopes := ⟨[], none⟩ :: s.scopes }

/-- Remember a variable as it is, for when the scope is closed. -/
def remember (s : State) (name : String) : State :=
  match s.scopes with
  | [] => s
  | scope :: outer =>
    { s with scopes := { scope with remembered := (name, s.binding? name) :: scope.remembered } :: outer }

/-- Remember the options as they are, for when the scope is closed. -/
def rememberOptions (s : State) : State :=
  match s.scopes with
  | [] => s
  | scope :: outer =>
    { s with scopes := { scope with options? := some (scope.options?.getD s.options) } :: outer }

/-- The state with what the innermost scope remembers. -/
def closeScope (s : State) : State :=
  match s.scopes with
  | [] => s
  | scope :: outer =>
    let s := scope.remembered.foldl (fun s entry => s.bind entry.1 entry.2) s
    { s with scopes := outer, options := scope.options?.getD s.options }

/-- The state with what all scopes but the outermost so many remember. `fuel` bounds the number of scopes. -/
def closeScopes (count : Nat) : (fuel : Nat) → State → State
  | 0, s => s
  | fuel + 1, s => if count < s.scopes.length then closeScopes count fuel s.closeScope else s

/-- How many functions a command may be in. -/
def greatestDepth : Nat :=
  1000

/-- The state in which a function starts. -/
def enter (s : State) (arguments : List String) : State :=
  { s with arguments := arguments, loops := 0, depth := s.depth + 1, optionIndex := 1, optionOffset? := none }

/-- The state after a function that was called in another one. -/
def leave (s inner : State) : State :=
  { inner with
    arguments := s.arguments
    loops := s.loops
    depth := s.depth
    optionIndex := s.optionIndex
    optionOffset? := s.optionOffset? }

/-! ## Parameters -/

/-- The letters of the options, in the order in which `$-` shows them. -/
def optionOrder : List Char :=
  "pubaCEVvxsnmiIfe".toList

/-- What stands between the arguments where they are one text. -/
def joint (s : State) : String :=
  match s.value? "IFS" with
  | some text => String.ofList (text.toList.take 1)
  | none => " "

/-- The value of a parameter, if it is set. -/
def parameter? (s : State) (name : String) : Option String :=
  match name with
  | "?" => some (toString s.status)
  | "$" => some (toString s.process)
  | "#" => some (toString s.arguments.length)
  | "-" => some (String.ofList (optionOrder.filter s.hasOption))
  | "!" => s.jobs.head?.map fun job => toString job.process
  | "@" => some (String.intercalate s.joint s.arguments)
  | "*" => some (String.intercalate s.joint s.arguments)
  | _ =>
    if name.toList.all Char.isDigit then
      match number name.toList with
      | 0 => some s.name
      | n + 1 => s.arguments[n]?
    else s.value? name

/-- The value of a parameter; one that is not set is empty. -/
def parameter (s : State) (name : String) : String :=
  (s.parameter? name).getD ""

/-! ## Files -/

/-- A path that characters for bytes spell. -/
def path (text : String) : Path :=
  ⟨Text.ofOctets text⟩

/-- What is said of a file that cannot be opened; a missing one is named by `missing`. -/
def reason (missing : String) (error : SystemError) : String :=
  match error with
  | .notFound => missing
  | .notDirectory => missing
  | error => error.reason

end State

end Shell

end Rulebook

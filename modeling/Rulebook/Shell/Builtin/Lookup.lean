import Rulebook.Shell.Search
import Rulebook.Shell.Source
import Rulebook.Shell.Step

/-!
# Builtins for names of commands

This module provides `Builtin.type` and `Builtin.describe`, which tell what names stand for, `Builtin.setAliases` and
`Builtin.dropAliases` for names that stand for other texts, and `Builtin.hash` for the programs that have been found.
-/

namespace Rulebook

namespace Shell

/-- The names of the builtins that are not special. -/
def ordinaryNames : List String :=
  ["[", "alias", "bg", "cd", "chdir", "command", "echo", "false", "fg", "getopts", "hash", "jobs", "kill", "printf",
    "pwd", "read", "test", "true", "type", "ulimit", "umask", "unalias", "wait"]

/-- What the name of a command stands for. -/
inductive Meaning where
  | special
  | builtin
  | function (body : Command)
  /-- A program at a path. -/
  | program (path name : String)
  | nothing (fault : SearchFault)

/-- What a name stands for, with programs looked for in directories. -/
def meaning (s : State) (directories : String) (useFunctions : Bool) (name : String) : Meaning :=
  if specialNames.contains name then .special
  else
    match if useFunctions then s.functions.lookup name else none with
    | some body => .function body
    | none =>
      if ordinaryNames.contains name then .builtin
      else
        match search s.files directories name with
        | .ok (path, program) => .program path program
        | .error fault => .nothing fault

/-- The state in which a program has been found. -/
def State.withFound (s : State) (name : String) : State :=
  if name.toList.contains '/' ∨ s.found.contains name then s else { s with found := name :: s.found }

namespace Builtin

/-! ## Names for texts -/

/-- The name and the text that it stands for, as they could be written in a script. -/
def shownAlias (name text : String) : String :=
  name ++ "=" ++ inQuotes text

/-- The place of a name when all of them are told. -/
def aliasPlace (name : String) : Nat :=
  let code (c : Char) : Nat := c.toNat
  let start := (name.toList.head?.map code).getD 0
  (name.toList.foldl (fun sum c => sum + code c) (16 * start)) % 39

/-- Let names stand for texts, or tell what they stand for. -/
def setAliases : Builtin := fun arguments s =>
  if arguments.isEmpty then
    let ordered := s.aliases.mergeSort fun a b => aliasPlace a.1 ≤ aliasPlace b.1
    .next (s.printText (String.join (ordered.map fun (name, text) => shownAlias name text ++ "\n")))
  else
    .next (arguments.foldl (fun s argument =>
      let name := argument.toList.take 1 ++ (argument.toList.drop 1).takeWhile (· ≠ '=')
      match argument.toList.drop name.length with
      | _ :: text => { s with aliases := Entries.put (· == ·) (String.ofList name) (String.ofList text) s.aliases }
      | [] =>
        match s.aliases.lookup argument with
        | some text => (s.printText (shownAlias argument text ++ "\n")).ended s.status
        | none => (s.warn ("alias: " ++ argument ++ " not found\n")).ended 1) (s.ended 0))

/-- Let names stand for themselves again. -/
def dropAliases : Builtin := fun arguments s =>
  withOptions "a" arguments s fun options operands s =>
    if !options.isEmpty then .next { s.ended 0 with aliases := [] }
    else
      .next (operands.foldl (fun s name =>
        if (s.aliases.lookup name).isSome then
          { s with aliases := s.aliases.filter fun entry => entry.1 != name }
        else (s.warn ("unalias: " ++ name ++ " not found\n")).ended 1) (s.ended 0))

/-! ## What names stand for -/

/-- What is told of a name, in short or in words; nothing in short of one that stands for nothing. -/
def description (s : State) (directories : String) (inWords : Bool) (name : String) : Option String :=
  let said (short words : String) : Option String := some (if inWords then name ++ words else short)
  if keywords.contains name then said name " is a shell keyword"
  else if let some text := s.aliases.lookup name then
    said ("alias " ++ shownAlias name text) (" is an alias for " ++ text)
  else
    match meaning s directories true name with
    | .special => said name " is a special shell builtin"
    | .builtin => said name " is a shell builtin"
    | .function _ => said name " is a shell function"
    | .program path _ => said path ((if s.found.contains name then " is a tracked alias for " else " is ") ++ path)
    | .nothing .refused =>
      if name.toList.contains '/' ∧ (s.files.get (State.path name)).isOk then said name (" is " ++ name) else none
    | .nothing _ => none

/-- Tell what a name stands for. -/
def describe (directories : String) (inWords : Bool) (name : String) (s : State) : State :=
  match description s directories inWords name with
  | some text =>
    let written := s.printText (text ++ "\n")
    match meaning s directories true name with
    | .program _ _ => written.withFound name
    | _ => written
  | none => (if inWords then s.printText (name ++ ": not found\n") else s).ended 127

/-- Tell what names stand for. -/
def type : Builtin := fun arguments s =>
  let (s, status) := arguments.foldl (fun (s, status) name =>
    let s := describe s.directories true name s
    (s, max status s.status)) (s, 0)
  .next (s.ended status)

/-- Look for programs, forget those that have been found, or write where they are. -/
def hash : Builtin := fun arguments s =>
  withOptions "rv" arguments s fun options operands s =>
    if options.any fun option => option.1 == 'r' then .next { s.ended 0 with found := [] }
    else if operands.isEmpty then
      let lines := s.found.reverse.filterMap fun name =>
        (search s.files s.directories name).toOption.map fun (path, _) => path ++ "\n"
      .next (s.printText (String.join lines))
    else
      .next (operands.foldl (fun s name =>
        match meaning s s.directories true name with
        | .nothing fault => s.complain (name ++ ": " ++ fault.reason) 1
        | .program _ _ => s.withFound name
        | _ => s) (s.ended 0))

end Builtin

end Shell

end Rulebook

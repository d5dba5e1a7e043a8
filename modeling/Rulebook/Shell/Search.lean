import Rulebook.Shell.State

/-!
# Looking for programs

The programs are files in one directory, and no other file can be run. This module provides:

* `Shell.programDirectory` — that directory;
* `Shell.programAt` — the name of the program that a path leads to; and
* `Shell.search` — the program that a name stands for, looked for in the directories of a list.
-/

namespace Rulebook

namespace Shell

/-- The directory of the programs. -/
def programDirectory : Location :=
  ["usr", "bin"]

/-- Why a program cannot be run. -/
inductive SearchFault where
  | system (error : SystemError)
  /-- What is there is no program. -/
  | refused
deriving DecidableEq

/-- The name of the program at a location. -/
def programOf (files : FileSystem) (location : Location) : Except SearchFault String :=
  match files.root.at? location, location.getLast? with
  | some (.file _), some name => if location.dropLast = programDirectory then .ok name else .error .refused
  | _, _ => .error .refused

/-- The name of the program that a path leads to. -/
def programAt (files : FileSystem) (path : String) : Except SearchFault String :=
  match files.locate (State.path path) false with
  | .ok location => programOf files location
  | .error error => .error (.system error)

/-- What is said of a program that cannot be run. -/
def SearchFault.reason : SearchFault → String
  | .system .notFound => "not found"
  | .system .notDirectory => "not found"
  | .system error => error.reason
  | .refused => "Permission denied"

/-- The status of a command that cannot be run. -/
def SearchFault.status : SearchFault → Nat
  | .system .isDirectory => 126
  | .system _ => 127
  | .refused => 126

/-- The paths that a name may have in the directories of a list with colons. -/
def searchPaths (directories name : String) : List String :=
  (directories.splitOn ":").map fun directory =>
    if directory.isEmpty then name
    else if directory.endsWith "/" then directory ++ name
    else directory ++ "/" ++ name

/-- The first of the paths that leads to a program, with the name of the program. -/
def searchFrom (files : FileSystem) (fault : SearchFault) : List String → Except SearchFault (String × String)
  | [] => .error fault
  | path :: rest =>
    match programAt files path with
    | .ok name => .ok (path, name)
    | .error .refused => searchFrom files .refused rest
    | .error (.system .notFound) => searchFrom files fault rest
    | .error (.system .notDirectory) => searchFrom files fault rest
    | .error fault => searchFrom files fault rest

/-- The path of the program that a name or a path stands for, and its name. -/
def search (files : FileSystem) (directories name : String) : Except SearchFault (String × String) :=
  if name.toList.contains '/' then (programAt files name).map fun program => (name, program)
  else searchFrom files (.system .notFound) (searchPaths directories name)

/-- The directories in which programs are looked for. -/
def State.directories (s : State) : String :=
  (s.value? "PATH").getD ""

/-- The directories in which programs are looked for if nothing else is said. -/
def standardDirectories : String :=
  "/usr/local/sbin:/usr/local/bin:/usr/sbin:/usr/bin:/sbin:/bin"

end Shell

end Rulebook

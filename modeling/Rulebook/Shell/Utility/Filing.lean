import Rulebook.Shell.Utility.Frame

/-!
# Programs that keep files

This module provides `Utility.mkdir`, `Utility.rmdir`, `Utility.touch`, `Utility.rm`, `Utility.cp`, `Utility.mv` and
`Utility.ln`, which make, remove, copy, move and link files; `Utility.ls` and `Utility.readlink`, which tell of them;
and `Utility.basename` and `Utility.dirname`, which take paths apart.
-/

namespace Rulebook

namespace Shell

namespace Utility

/-! ## Places -/

/-- Where a path leads, the last link not being followed, and what is there. -/
def place (s : State) (path : String) : Except SystemError (Location × Tree) :=
  let path := State.path path
  if FileSystem.endsWithSlash path.text then do
    let location ← s.files.locate path false
    node s location
  else do
    let outer ← s.files.outerLocation path
    match (FileSystem.parts path.text).getLast? with
    | none => node s outer
    | some name =>
      if name = "." ∨ name = ".." then
        let location ← s.files.locate path false
        node s location
      else node s (outer ++ [name])
where
  node (s : State) (location : Location) : Except SystemError (Location × Tree) :=
    match s.files.root.at? location with
    | some tree => .ok (location, tree)
    | none => .error .notFound

/-- The state with another tree of files. -/
def changed (s : State) (change : Tree → Tree) : State :=
  { s with files := { s.files with root := change s.files.root } }

/-- The last part of a path. -/
def lastPart (path : String) : String :=
  match (FileSystem.parts path).getLast? with
  | some name => name
  | none => if path.isEmpty then "" else "/"

/-- The path of an entry of a directory. -/
def within (directory name : String) : String :=
  if FileSystem.endsWithSlash directory then directory ++ name else directory ++ "/" ++ name

/-- The path at which a file that goes to a target ends up: in it, if it is a directory. -/
def targetPath (s : State) (source target : String) : String :=
  if s.files.isDirectory (State.path target) then within target (lastPart source) else target

/-- Do something with each operand; there has to be one. -/
def forOperands (forms : List OptionForm) (complaint : String) (act : String → Given → State → String → State) :
    Utility :=
  withOptions forms fun name given s =>
    if given.operands.isEmpty then misuse name complaint s
    else given.operands.foldl (act name given) s

/-! ## Making and removing -/

/-- Make directories. -/
def mkdir : Utility :=
  forOperands [flag 'p' "parents", setting 'm' "mode", flag 'v' "verbose"] "missing operand" fun name given s path =>
    let refused (error : SystemError) (s : State) : State :=
      refuse name ("cannot create directory " ++ Quoting.always path ++ ": " ++ error.reason) 1 s
    if given.has 'p' then
      match s.files.createDirectories (State.path path) with
      | (files, .ok ()) => { s with files := files }
      | (files, .error error) => refused error { s with files := files }
    else
      match s.files.createDirectory (State.path path) with
      | .ok files => { s with files := files }
      | .error error => refused error s

/-- Remove empty directories. -/
def rmdir : Utility :=
  forOperands [flag 'p' "parents", flag 'v' "verbose"] "missing operand" fun name _ s path =>
    let refused (error : SystemError) : State :=
      refuse name ("failed to remove " ++ Quoting.always path ++ ": " ++ error.reason) 1 s
    match place s path with
    | .ok (location, .directory []) => changed s (Tree.erase location)
    | .ok (_, .directory _) => refused .notEmpty
    | .ok _ => refused .notDirectory
    | .error error => refused error

/-- Make files that are missing. -/
def touch : Utility :=
  let forms :=
    [flag 'c' "no-create", flag 'a' "", flag 'm' "", setting 'd' "date", setting 't' "", setting 'r' "reference"]
  forOperands forms "missing file operand" fun name given s path =>
      if (s.files.get (State.path path)).isOk || given.has 'c' || (s.device? path).isSome then s
      else
        match s.files.write (State.path path) .empty with
        | .ok files => { s with files := files }
        | .error error =>
          let verb := if error = .isDirectory then "setting times of " else "cannot touch "
          let error := if error = .isDirectory then SystemError.notFound else error
          refuse name (verb ++ Quoting.always path ++ ": " ++ error.reason) 1 s

/-- Remove files, and directories where that is asked for. -/
def rm : Utility :=
  withOptions [flag 'f' "force", flag 'r' "recursive", flag 'R' "", flag 'd' "dir", flag 'v' "verbose", flag 'i' ""]
    fun name given s =>
      if given.operands.isEmpty && !given.has 'f' then misuse name "missing operand" s
      else given.operands.foldl (fun s path =>
        let refused (error : SystemError) : State :=
          refuse name ("cannot remove " ++ Quoting.always path ++ ": " ++ error.reason) 1 s
        let removesAll := given.has 'r' || given.has 'R'
        match place s path with
        | .ok (location, .directory entries) =>
          if !removesAll then
            if given.has 'd' then
              if entries.isEmpty then changed s (Tree.erase location) else refused .notEmpty
            else refused .isDirectory
          else if [".", ".."].contains (lastPart path) then
            refuse name ("refusing to remove '.' or '..' directory: skipping " ++ Quoting.always path) 1 s
          else changed s (Tree.erase location)
        | .ok (location, _) => changed s (Tree.erase location)
        | .error error =>
          if given.has 'f' && (error = .notFound ∨ error = .notDirectory) then s else refused error) s

/-! ## Copying, moving, linking -/

/-- The operands of a program that brings files to a target: the files, and the target; or in words what is missing. -/
def toTarget (given : Given) : Except String (List String × String) :=
  match given.operands, given.operands.getLast? with
  | [], _ => .error "missing file operand"
  | [only], _ => .error ("missing destination file operand after " ++ Quoting.always only)
  | operands, some target => .ok (operands.dropLast, target)
  | _, none => .error "missing file operand"

/-- Bring files to a target; several only to a directory. -/
def bring (forms : List OptionForm) (act : String → Given → State → String → String → State) : Utility :=
  withOptions forms fun name given s =>
    match toTarget given with
    | .error complaint => misuse name complaint s
    | .ok (sources, target) =>
      if 1 < sources.length && !s.files.isDirectory (State.path target) then
        let reason := if (s.files.get (State.path target)).isOk then "Not a directory" else "No such file or directory"
        refuse name ("target " ++ Quoting.always target ++ ": " ++ reason) 1 s
      else sources.foldl (fun s source => act name given s source (targetPath s source target)) s

/-- Copy files. -/
def cp : Utility :=
  bring [flag 'r' "recursive", flag 'R' "", flag 'a' "archive", flag 'f' "force", flag 'p' "", flag 'v' "verbose",
      flag 'n' "no-clobber"] fun name given s source target =>
    let copiesAll := given.has 'r' || given.has 'R' || given.has 'a'
    let found := if copiesAll then (place s source).map Prod.snd else s.files.get (State.path source)
    match found with
    | .error error => refuse name ("cannot stat " ++ Quoting.always source ++ ": " ++ error.reason) 1 s
    | .ok (.directory entries) =>
      if !copiesAll then refuse name ("-r not specified; omitting directory " ++ Quoting.always source) 1 s
      else
        match s.files.locate (State.path target) true with
        | .ok location => changed s (Tree.put (.directory entries) location)
        | .error error =>
          refuse name ("cannot create directory " ++ Quoting.always target ++ ": " ++ error.reason) 1 s
    | .ok node =>
      let isSame := match s.files.locate (State.path source) false, s.files.locate (State.path target) false with
        | .ok first, .ok second => first == second
        | _, _ => false
      if isSame then
        refuse name (Quoting.always source ++ " and " ++ Quoting.always target ++ " are the same file") 1 s
      else
        match s.files.locate (State.path target) true with
        | .ok location =>
          if given.has 'n' && (s.files.root.at? location).isSome then s else changed s (Tree.put node location)
        | .error error =>
          refuse name ("cannot create regular file " ++ Quoting.always target ++ ": " ++ error.reason) 1 s

/-- Move files. -/
def mv : Utility :=
  bring [flag 'f' "force", flag 'n' "no-clobber", flag 'v' "verbose"] fun name given s source target =>
    match place s source with
    | .error error => refuse name ("cannot stat " ++ Quoting.always source ++ ": " ++ error.reason) 1 s
    | .ok (location, node) =>
      let refused (error : SystemError) : State :=
        let named := Quoting.always source ++ " to " ++ Quoting.always target
        refuse name ("cannot move " ++ named ++ ": " ++ error.reason) 1 s
      match s.files.outerLocation (State.path target) with
      | .error error => refused error
      | .ok outer =>
        let goal := outer ++ [lastPart (State.path target).text]
        if goal = location then
          refuse name (Quoting.always source ++ " and " ++ Quoting.always target ++ " are the same file") 1 s
        else if location.isPrefixOf goal then
          refuse name ("cannot move " ++ Quoting.always source ++ " to a subdirectory of itself, " ++
            Quoting.always target) 1 s
        else if given.has 'n' && (s.files.root.at? goal).isSome then s
        else changed s fun root => Tree.put node goal (root.erase location)

/-- Link files; a link that is no symbolic one starts as a copy. -/
def ln : Utility :=
  bring [flag 's' "symbolic", flag 'f' "force", flag 'n' "no-dereference", flag 'v' "verbose"]
    fun name given s source target =>
      let isSymbolic := given.has 's'
      match if isSymbolic then .ok (.link (State.path source).text) else (place s source).map Prod.snd with
      | .error error => refuse name ("failed to access " ++ Quoting.always source ++ ": " ++ error.reason) 1 s
      | .ok node =>
        let kind := if isSymbolic then "symbolic link " else "hard link "
        let refused (error : SystemError) : State :=
          let goal := if isSymbolic || error = .alreadyExists then "" else " => " ++ Quoting.always source
          refuse name ("failed to create " ++ kind ++ Quoting.always target ++ goal ++ ": " ++ error.reason) 1 s
        match s.files.outerLocation (State.path target) with
        | .error error => refused error
        | .ok outer =>
          let goal := outer ++ [lastPart (State.path target).text]
          if (s.files.root.at? goal).isSome && !given.has 'f' then refused .alreadyExists
          else changed s (Tree.put node goal)

/-! ## Telling of files -/

/-- The names in a directory, in order; the hidden ones where that is asked for. -/
def namesShown (given : Given) (entries : List (String × Tree)) : List (List Char) :=
  let names := entries.map fun entry => (Text.octets entry.1.toUTF8).toList
  let names := if given.has 'a' || given.has 'A' then names else names.filter fun name => name.head? ≠ some '.'
  let ordered := names.mergeSort fun a b => (compareChars a b).isLE
  let ordered := if given.has 'r' then ordered.reverse else ordered
  if given.has 'a' then ['.'] :: ['.', '.'] :: ordered else ordered

/-- Write the names of files and of what is in directories, one in a line. -/
def ls : Utility :=
  withOptions [flag '1' "", flag 'a' "all", flag 'A' "almost-all", flag 'd' "directory", flag 'r' "reverse"]
    fun name given s =>
      let paths := if given.operands.isEmpty then ["."] else given.operands
      let (files, directories, s) := paths.foldl (fun (files, directories, s) path =>
        match s.files.get (State.path path) with
        | .ok (.directory entries) =>
          if given.has 'd' then (files ++ [path.toList], directories, s)
          else (files, directories ++ [(path, namesShown given entries)], s)
        | .ok _ => (files ++ [path.toList], directories, s)
        | .error error =>
          match place s path with
          | .ok _ => (files ++ [path.toList], directories, s)
          | .error _ =>
            (files, directories, refuse name ("cannot access " ++ Quoting.always path ++ ": " ++ error.reason) 2 s))
        ([], [], s)
      let titled (entry : String × List (List Char)) : List Char :=
        (if 1 < paths.length then entry.1.toList ++ [':', '\n'] else []) ++ joinLines entry.2
      let parts := (if files.isEmpty then [] else [joinLines files]) ++ directories.map titled
      writeText name (List.intercalate ['\n'] parts) s

/-- Write where symbolic links lead. -/
def readlink : Utility :=
  forOperands [flag 'n' "no-newline", flag 'v' "verbose"] "missing operand" fun name given s path =>
    match place s path with
    | .ok (_, .link target) =>
      writeText name ((Text.octets target.toUTF8).toList ++ if given.has 'n' then [] else ['\n']) s
    | _ => s.ended 1

/-! ## Taking paths apart -/

/-- Write the last parts of paths. -/
def basename : Utility :=
  withOptions [flag 'a' "multiple", setting 's' "suffix"] fun name given s =>
    let shorn (ending text : String) : String :=
      if text = ending || !text.endsWith ending then text
      else String.ofList (text.toList.take (text.length - ending.length))
    let shown (ending path : String) : List Char := (shorn ending (lastPart path)).toList ++ ['\n']
    let ending := (given.text? 's').getD ""
    match given.operands with
    | [] => misuse name "missing operand" s
    | path :: rest =>
      if given.has 'a' || given.has 's' then writeText name ((path :: rest).flatMap (shown ending)) s
      else
        match rest with
        | [] => writeText name (shown "" path) s
        | [ending] => writeText name (shown ending path) s
        | _ :: extra :: _ => misuse name ("extra operand " ++ Quoting.always extra) s

/-- A path without its last part. -/
def outerPath (path : String) : String :=
  let isSlash (c : Char) : Bool := c == '/'
  let inner := (path.toList.reverse.dropWhile isSlash).dropWhile fun c => !isSlash c
  let outer := (inner.dropWhile isSlash).reverse
  if outer.isEmpty then if path.toList.head? = some '/' then "/" else "." else String.ofList outer

/-- Write paths without their last parts. -/
def dirname : Utility :=
  forOperands [flag 'z' "zero"] "missing operand" fun name _ s path =>
    writeText name ((outerPath path).toList ++ ['\n']) s

end Utility

end Shell

end Rulebook

import Rulebook.FileSystem.Tree
import Rulebook.Path

/-!
# File systems

A file system is a tree and a working directory in it. Some of its directories may not be listed. This module provides:

* `SystemError` — why an operation is refused, and its wording;
* `FileSystem.locate` — where a path leads, links followed;
* `FileSystem.read` and `FileSystem.readText` — the bytes and the text of a file; and
* `FileSystem.createDirectories` and `FileSystem.write` — the file system with directories or a file made.
-/

namespace Rulebook

/-- Why an operation on files is refused. -/
inductive SystemError where
  | notFound
  | notDirectory
  | isDirectory
  | alreadyExists
  | notEmpty
  | tooManyLinks
  | nameTooLong
  | zeroByte
  | notText
  | permissionDenied
deriving DecidableEq

/-- The number that the system has for the error, if it comes from there. -/
def SystemError.number? : SystemError → Option Nat
  | .notFound => some 2
  | .notDirectory => some 20
  | .isDirectory => some 21
  | .alreadyExists => some 17
  | .notEmpty => some 39
  | .tooManyLinks => some 40
  | .nameTooLong => some 36
  | .zeroByte => none
  | .notText => none
  | .permissionDenied => some 13

/-- The reason in words. -/
def SystemError.reason : SystemError → String
  | .notFound => "No such file or directory"
  | .notDirectory => "Not a directory"
  | .isDirectory => "Is a directory"
  | .alreadyExists => "File exists"
  | .notEmpty => "Directory not empty"
  | .tooManyLinks => "Too many levels of symbolic links"
  | .nameTooLong => "File name too long"
  | .zeroByte => "file name contained an unexpected NUL byte"
  | .notText => "stream did not contain valid UTF-8"
  | .permissionDenied => "Permission denied"

/-- The error in words. -/
def SystemError.message (error : SystemError) : String :=
  match error.number? with
  | some number => error.reason ++ " (os error " ++ toString number ++ ")"
  | none => error.reason

/-- A tree and the working directory in it. -/
structure FileSystem where
  root : Tree
  here : Location
  /-- The directories that may not be listed. Names can be looked up in them all the same. -/
  isSealed : Location → Bool := fun _ => false

namespace FileSystem

/-! ## Where paths lead -/

/-- The parts of a path between slashes that are not empty. -/
def partsFrom (reversed : List Char) : List Char → List String
  | [] => if reversed.isEmpty then [] else [String.ofList reversed.reverse]
  | c :: rest =>
    if c = '/' then
      if reversed.isEmpty then partsFrom [] rest
      else String.ofList reversed.reverse :: partsFrom [] rest
    else partsFrom (c :: reversed) rest

/-- The parts of a path. -/
def parts (path : String) : List String :=
  partsFrom [] path.toList

/-- Does the path end with a slash, so that it can only name a directory? -/
def endsWithSlash (path : String) : Bool :=
  path.toList.getLast? == some '/'

/-- The parts of a path, with one more that only a directory has if the path ends with a slash. -/
def steps (path : String) : List String :=
  if endsWithSlash path then parts path ++ ["."] else parts path

/-- Where the search for a path starts. -/
def start (here : Location) (path : String) : Location :=
  if path.toList.head? == some '/' then [] else here

/-- How many bytes a name may have. -/
def longestName : Nat :=
  255

/-- How many bytes a path may have. -/
def longestPath : Nat :=
  4095

/-- Why a path can lead nowhere, if that can be told from the path alone. -/
def pathFault? (path : Path) : Option SystemError :=
  if path.text.toList.contains '\x00' then some .zeroByte
  else if path.isEmpty then some .notFound
  else if longestPath < path.text.utf8ByteSize then some .nameTooLong
  else none

/-- Where the steps lead from a location. At most `links` links are followed. With `mayMiss`, the last step may
lead to a name that a directory does not have yet. -/
def follow (root : Tree) (mayMiss : Bool) (links : Nat) (location : Location) :
    List String → Except SystemError Location
  | [] => .ok location
  | step :: rest =>
    match (root.at? location).bind Tree.entries? with
    | none => .error .notDirectory
    | some entries =>
      if step = "." then follow root mayMiss links location rest
      else if step = ".." then follow root mayMiss links location.dropLast rest
      else if longestName < step.utf8ByteSize then .error .nameTooLong
      else
        match entries.lookup step with
        | none => if mayMiss && rest.isEmpty then .ok (location ++ [step]) else .error .notFound
        | some (.link target) =>
          match links with
          | 0 => .error .tooManyLinks
          | links + 1 => follow root mayMiss links (start location target) (steps target ++ rest)
        | some _ => follow root mayMiss links (location ++ [step]) rest
termination_by names => (links, names.length)

/-- How many links a path may lead through. -/
def greatestLinks : Nat :=
  40

/-- Where a path leads. -/
def locate (fs : FileSystem) (path : Path) (mayMiss : Bool) : Except SystemError Location :=
  match pathFault? path with
  | some error => .error error
  | none => follow fs.root mayMiss greatestLinks (start fs.here path.text) (steps path.text)

/-- What a path leads to. -/
def get (fs : FileSystem) (path : Path) : Except SystemError Tree := do
  let location ← fs.locate path false
  match fs.root.at? location with
  | some tree => .ok tree
  | none => .error .notFound

/-- Does the path lead to a file? -/
def isFile (fs : FileSystem) (path : Path) : Bool :=
  match fs.get path with
  | .ok (.file _) => true
  | _ => false

/-- Does the path lead to a directory? -/
def isDirectory (fs : FileSystem) (path : Path) : Bool :=
  match fs.get path with
  | .ok (.directory _) => true
  | _ => false

/-- The directory in which the last part of a path is looked up. -/
def outerLocation (fs : FileSystem) (path : Path) : Except SystemError Location := do
  if let some error := pathFault? path then .error error
  let location ← follow fs.root false greatestLinks (start fs.here path.text) (parts path.text).dropLast
  match (fs.root.at? location).bind Tree.entries? with
  | some _ => .ok location
  | none => .error .notDirectory

/-- Is the last name of the path itself that of a link? -/
def isLink (fs : FileSystem) (path : Path) : Bool :=
  match fs.outerLocation path, (parts path.text).getLast? with
  | .ok outer, some name =>
    match fs.root.at? (outer ++ [name]) with
    | some (.link _) => !endsWithSlash path.text
    | _ => false
  | _, _ => false

/-! ## Reading -/

/-- The content of a file. -/
def read (fs : FileSystem) (path : Path) : Except SystemError ByteArray := do
  match ← fs.get path with
  | .file content => .ok content
  | .directory _ => .error .isDirectory
  | .link _ => .error .tooManyLinks

/-- The content of a file as text. -/
def readText (fs : FileSystem) (path : Path) : Except SystemError String := do
  let content ← fs.read path
  match String.fromUTF8? content with
  | some text => .ok text
  | none => .error .notText

/-! ## Writing -/

/-- The file system with a new directory; what is there already, be it a link, is in the way. -/
def createDirectory (fs : FileSystem) (path : Path) : Except SystemError FileSystem := do
  let location ← fs.outerLocation path
  match (parts path.text).getLast? with
  | none => .error .alreadyExists
  | some name =>
    if name = "." ∨ name = ".." then .error .alreadyExists
    else if longestName < name.utf8ByteSize then .error .nameTooLong
    else if (fs.root.at? (location ++ [name])).isSome then .error .alreadyExists
    else .ok { fs with root := (Tree.directory []).put (location ++ [name]) fs.root }

/-- Make the directory that the first path names, and those around it that are missing; the other paths are its
parent, the parent of that, and so on. What was made before an error stays. -/
def createAll (fs : FileSystem) : List Path → FileSystem × Except SystemError Unit
  | [] => (fs, .error .notFound)
  | path :: outer =>
    if path.isEmpty then (fs, .ok ())
    else
      match fs.createDirectory path with
      | .ok made => (made, .ok ())
      | .error .notFound =>
        match fs.createAll outer with
        | (around, .error error) => (around, .error error)
        | (around, .ok ()) =>
          match around.createDirectory path with
          | .ok made => (made, .ok ())
          | .error error => (around, if around.isDirectory path then .ok () else .error error)
      | .error error => (fs, if fs.isDirectory path then .ok () else .error error)

/-- Make a directory and the missing ones around it. -/
def createDirectories (fs : FileSystem) (path : Path) : FileSystem × Except SystemError Unit :=
  fs.createAll path.ancestors

/-- The file system with the content of a file; the file is made if it is missing, also where a link leads. -/
def write (fs : FileSystem) (path : Path) (content : ByteArray) : Except SystemError FileSystem := do
  if endsWithSlash path.text then
    let _ ← fs.outerLocation path
    .error .isDirectory
  else
    let location ← fs.locate path true
    match fs.root.at? location with
    | some (.directory _) => .error .isDirectory
    | _ => .ok { fs with root := (Tree.file content).put location fs.root }

/-- The file system with a text file. -/
def writeText (fs : FileSystem) (path : Path) (text : String) : Except SystemError FileSystem :=
  fs.write path text.toUTF8

/-! ## Comparing -/

/-- Does the tree hold a file with that content at the location? -/
def hasFile (tree : Tree) (file : Location × ByteArray) : Bool :=
  match tree.at? file.1 with
  | some (.file content) => content.data == file.2.data
  | _ => false

/-- The files below the working directory that are new or have another content than before, ordered by path. -/
def changes (before after : FileSystem) : List (String × ByteArray) :=
  match before.root.at? before.here, after.root.at? after.here with
  | some old, some new =>
    let changed := new.files.filter fun file => !hasFile old file
    let named := changed.map fun file => (String.intercalate "/" file.1, file.2)
    named.mergeSort fun a b => decide (a.1 ≤ b.1)
  | _, _ => []

end FileSystem

end Rulebook

import Rulebook.Failure
import Rulebook.FileSystem
import Rulebook.Glob.Expression
import Rulebook.Glob.Parser
import Rulebook.Scope

/-!
# Searching for fragments

This module provides:

* `Fragment.Search.walk` — the files below a directory, links followed, that a predicate on locations admits; what is
  not admitted is not entered; and
* `Fragment.Search.find` — the paths of the files that match one of some patterns and none of others, in the order of
  their locations.

A link back to a directory that the search is in is passed over. A link that leads nowhere ends the search, and so does
a directory that may not be listed, unless its location is not admitted. A directory that a link leads to is opened to
see whether the link leads back. If that is refused, the system does not tell where it was, so the search ends even
where the link is not admitted.
-/

namespace Rulebook

namespace Fragment.Search

/-- What cannot be searched, by its location below the root if that is known, and why. -/
abbrev Fault := Option Location × SystemError

/-- Where the search is: what is admitted, the directories it is in, its place in the tree, and the same place
as a location below the root of the search. -/
structure Place where
  admits : Location → Bool
  inside : List Location
  location : Location
  relative : Location

namespace Place

/-- The place of an entry that is a directory itself. -/
def enter (place : Place) (name : String) : Place :=
  let location := place.location ++ [name]
  { place with inside := location :: place.inside, location := location, relative := place.relative ++ [name] }

/-- The place of an entry that leads to a directory somewhere else. -/
def jump (place : Place) (name : String) (location : Location) : Place :=
  { place with inside := location :: place.inside, location := location, relative := place.relative ++ [name] }

end Place

/-- Where a link leads. -/
def linkTarget (root : Tree) (place : Place) (target : String) : Except SystemError Location :=
  FileSystem.follow root false FileSystem.greatestLinks (FileSystem.start place.location target)
    (FileSystem.steps target)

mutual

/-- The files that an entry is or leads to. At most `links` links to directories are followed; no more are met,
since each leads to a directory that the search is not in. -/
def walkEntry (fs : FileSystem) (links : Nat) (place : Place) (name : String) (tree : Tree) :
    Except Fault (List Location) :=
  let relative := place.relative ++ [name]
  match tree with
  | .file _ => .ok (if place.admits relative then [relative] else [])
  | .directory entries =>
    if !place.admits relative then .ok []
    else if fs.isSealed (place.location ++ [name]) then .error (some relative, .permissionDenied)
    else walkEntries fs links (place.enter name) entries
  | .link target =>
    match linkTarget fs.root place target with
    | .error error => if place.admits relative then .error (some relative, error) else .ok []
    | .ok location =>
      match fs.root.at? location with
      | some (.directory entries) =>
        if fs.isSealed location then .error (none, .permissionDenied)
        else
          match links with
          | 0 => .ok []
          | links + 1 =>
            if location ∈ place.inside || !place.admits relative then .ok []
            else walkEntries fs links (place.jump name location) entries
      | some (.file _) => .ok (if place.admits relative then [relative] else [])
      | _ => .ok []
termination_by (links, sizeOf tree)

/-- The files that entries are or lead to, or the first fault. -/
def walkEntries (fs : FileSystem) (links : Nat) (place : Place) (entries : List (String × Tree)) :
    Except Fault (List Location) :=
  match entries with
  | [] => .ok []
  | (name, tree) :: rest =>
    match walkEntry fs links place name tree with
    | .error fault => .error fault
    | .ok files => (walkEntries fs links place rest).map (files ++ ·)
termination_by (links, sizeOf entries)

end

/-- What comes of a root that may not be listed. If its path is that of a link, the system does not tell where it
was. -/
def sealedRoot (fs : FileSystem) (admits : Location → Bool) (path : Path) : Except Fault (List Location) :=
  if fs.isLink path then .error (none, .permissionDenied)
  else if admits [] then .error (some [], .permissionDenied)
  else .ok []

/-- The locations of the files at and below a path. The path itself is always searched. -/
def walk (fs : FileSystem) (admits : Location → Bool) (path : Path) : Except Fault (List Location) :=
  match fs.locate path false with
  | .error error => if admits [] then .error (some [], error) else .ok []
  | .ok location =>
    match fs.root.at? location with
    | some (.directory entries) =>
      if fs.isSealed location then sealedRoot fs admits path
      else walkEntries fs fs.root.directoryCount ⟨admits, [location], location, []⟩ entries
    | some (.file _) => .ok [[]]
    | _ => .ok []

/-! ## Patterns -/

/-- The globs of patterns, or what is wrong with the first that is none. -/
def readGlobs : List String → Except Failure (List Glob)
  | [] => .ok []
  | pattern :: rest =>
    match Glob.parse pattern with
    | .error fault => .error (.config (Glob.faultMessage pattern fault))
    | .ok glob => (readGlobs rest).map (glob :: ·)

/-- The globs of patterns, or why there are none. -/
def globs (patterns : List String) : Except Failure (List Glob) :=
  match readGlobs patterns with
  | .error failure => .error failure
  | .ok globs =>
    match Glob.setFault? globs with
    | some fault => .error (.glob fault)
    | none => .ok globs

/-- A location as text; a backslash in a name counts as a slash. -/
def locationText (location : Location) : String :=
  String.ofList ((String.intercalate "/" location).toList.map fun c => if c = '\\' then '/' else c)

/-- Does the location match one of the globs? -/
def anyAccepts (globs : List Glob) (location : Location) : Bool :=
  globs.any (·.accepts (locationText location))

/-- A location as a path. -/
def pathOf (root : Path) (location : Location) : Path :=
  location.foldl Path.join root

/-- The paths of the files below the root that match a wanted pattern and no unwanted one. -/
def find (fs : FileSystem) (root : Path) (wanted unwanted : List String) : Except Failure (List Path) := do
  let included ← globs wanted
  let excluded ← globs unwanted
  match walk fs (Scope.ofPatterns wanted).admits root with
  | .error (location?, error) => .error (.traversal (location?.map (pathOf root)) error.message)
  | .ok files =>
    let chosen := files.filter fun location => anyAccepts included location && !anyAccepts excluded location
    return (chosen.mergeSort Location.precedes).map (pathOf root)

end Fragment.Search

end Rulebook

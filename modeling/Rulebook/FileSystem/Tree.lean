import Rulebook.Entries

/-!
# Trees of files

This module provides `Tree`, a file, a symbolic link or a directory of such, and `Tree.at?`, `Tree.put`, `Tree.erase`
and `Tree.files`, which work on locations: the names that lead from the top to a node, links not being followed.
-/

namespace Rulebook

/-- A file, a symbolic link or a directory. -/
inductive Tree where
  | file (content : ByteArray)
  | link (target : String)
  | directory (entries : List (String × Tree))
deriving Inhabited

/-- The names that lead to a node. -/
abbrev Location := List String

/-- Does a location come no later than another one? Names are compared one after the other. -/
def Location.precedes : Location → Location → Bool
  | [], _ => true
  | _ :: _, [] => false
  | name :: more, other :: others => if name = other then precedes more others else decide (name < other)

namespace Tree

/-- The entries of a directory. -/
def entries? : Tree → Option (List (String × Tree))
  | .directory entries => some entries
  | _ => none

/-- The node at a location. -/
def at? (tree : Tree) : Location → Option Tree
  | [] => some tree
  | name :: rest =>
    match tree.entries?.bind (List.lookup name) with
    | none => none
    | some inner => inner.at? rest

/-- The tree with another node at a location; the directories on the way have to be there. -/
def put (node : Tree) : Location → Tree → Tree
  | [], _ => node
  | [name], .directory entries => .directory (Entries.put (· == ·) name node entries)
  | name :: rest, .directory entries =>
    match entries.lookup name with
    | none => .directory entries
    | some inner => .directory (Entries.put (· == ·) name (put node rest inner) entries)
  | _, tree => tree

/-- The tree without the node at a location; the top stays. -/
def erase : Location → Tree → Tree
  | [name], .directory entries => .directory (entries.filter fun entry => entry.1 != name)
  | name :: rest, .directory entries =>
    match entries.lookup name with
    | none => .directory entries
    | some inner => .directory (Entries.put (· == ·) name (erase rest inner) entries)
  | _, tree => tree

mutual

/-- The files of the tree, each with its location below `outer`. -/
def filesBelow (outer : Location) : Tree → List (Location × ByteArray)
  | .file content => [(outer, content)]
  | .link _ => []
  | .directory entries => filesAmong outer entries

/-- The files among the entries of a directory. -/
def filesAmong (outer : Location) : List (String × Tree) → List (Location × ByteArray)
  | [] => []
  | (name, tree) :: rest => filesBelow (outer ++ [name]) tree ++ filesAmong outer rest

end

/-- The files of the tree with their locations. -/
def files (tree : Tree) : List (Location × ByteArray) :=
  tree.filesBelow []

mutual

/-- How many directories the tree has, itself included. -/
def directoryCount : Tree → Nat
  | .directory entries => directoryCountAmong entries + 1
  | _ => 0

/-- How many directories there are among entries and below. -/
def directoryCountAmong : List (String × Tree) → Nat
  | [] => 0
  | (_, tree) :: rest => directoryCount tree + directoryCountAmong rest

end

end Tree

end Rulebook

import Rulebook.FileSystem.Tree

/-!
# Scopes

Searching a project for files that match patterns need not look into directories that no pattern leads to. This
module provides `Scope`, the literal starts of patterns, and `Scope.admits`: is a location on the way to, or
below, one of them?
-/

namespace Rulebook

/-- The literal starts of patterns, as locations below the project's root. -/
structure Scope where
  starts : List Location

namespace Scope

/-- The parts of a pattern between slashes. -/
def parts (pattern : String) : List (List Char) :=
  pattern.toList.foldr (fun c parts =>
    match c, parts with
    | '/', _ => [] :: parts
    | _, part :: more => (c :: part) :: more
    | _, [] => [[c]]) [[]]

/-- Does the part hold a character with a meaning in patterns? -/
def isPattern (part : List Char) : Bool :=
  part.any fun c => c == '*' || c == '?' || c == '[' || c == '\x7b'

/-- The parts before the first one that is a pattern, without empty ones and single dots. -/
def literalStart (pattern : String) : Location :=
  (((parts pattern).takeWhile (!isPattern ·)).filter fun part => !(part.isEmpty || part == ['.'])).map
    String.ofList

/-- The scope of patterns. -/
def ofPatterns (patterns : List String) : Scope :=
  ⟨patterns.map literalStart⟩

/-- Is the location on the way to one of the starts, or below it? -/
def admits (scope : Scope) (location : Location) : Bool :=
  scope.starts.any fun start => location.isPrefixOf start || start.isPrefixOf location

example : literalStart "./data//a/*.yaml" = ["data", "a"] := by decide +kernel

end Scope

end Rulebook

/-!
# Paths

A path is kept as it was written; nothing in it is resolved or simplified. This module provides:

* `Path.join` — a path inside another one, or itself if it is absolute;
* `Path.parent?` — the path without its last name; and
* `Path.ancestors` — a path, its parent, the parent of that, and so on.
-/

namespace Rulebook

/-- A path as text. -/
structure Path where
  text : String
deriving DecidableEq, Inhabited

namespace Path

/-- The path that is the file system's root or starts from it. -/
def isAbsolute (p : Path) : Bool :=
  p.text.toList.head? == some '/'

/-- Is it the path without any name? -/
def isEmpty (p : Path) : Bool :=
  p.text.isEmpty

/-- The characters of `inner` below `outer`; a slash stands between them unless `outer` is empty or ends with
one. -/
def joinChars (outer inner : List Char) : List Char :=
  if inner.head? = some '/' then inner
  else if outer.isEmpty || outer.getLast? == some '/' then outer ++ inner
  else outer ++ '/' :: inner

/-- A path taken from the place of another one; an absolute path is the same from everywhere. -/
def join (outer : Path) (inner : String) : Path :=
  ⟨String.ofList (joinChars outer.text.toList inner.toList)⟩

/-! ## Parents -/

/-- Reversed characters without slashes, and names that are a single dot, at the end of the path. A slash that
is the whole path stays. -/
def trimReversed : List Char → List Char
  | '/' :: c :: rest => trimReversed (c :: rest)
  | '.' :: '/' :: rest => trimReversed ('/' :: rest)
  | reversed => reversed

/-- Reversed characters without the last name. -/
def parentReversed? (reversed : List Char) : Option (List Char) :=
  match trimReversed reversed with
  | [] => none
  | ['/'] => none
  | trimmed => some (trimReversed (trimmed.dropWhile (· ≠ '/')))

/-- The path without its last name; the root and the empty path have none. -/
def parent? (p : Path) : Option Path :=
  (parentReversed? p.text.toList.reverse).map fun reversed => ⟨String.ofList reversed.reverse⟩

/-- The path and all paths that taking the parent leads to, given a bound on their number. -/
def ancestorsWithin : (bound : Nat) → Path → List Path
  | 0, p => [p]
  | bound + 1, p =>
    match p.parent? with
    | none => [p]
    | some outer => p :: ancestorsWithin bound outer

/-- The path, its parent, and so on up to the root or the empty path. Each parent is shorter. -/
def ancestors (p : Path) : List Path :=
  ancestorsWithin p.text.length p

example : (ancestors ⟨"./a//b/."⟩).map Path.text = ["./a//b/.", "./a", ".", ""] := by decide +kernel
example : (ancestors ⟨"/a/../b"⟩).map Path.text = ["/a/../b", "/a/..", "/a", "/"] := by decide +kernel

end Path

end Rulebook

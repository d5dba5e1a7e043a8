import Rulebook.Shell.LinePattern
import Rulebook.Shell.Utility.Frame

/-!
# Programs that search lines

This module provides `Utility.grep`, which writes the lines in which a pattern occurs.
-/

namespace Rulebook

namespace Shell

namespace Utility

/-- How lines are searched. -/
structure Search where
  patterns : List LinePattern
  ignoresCase : Bool
  wholeLines : Bool
  wholeWords : Bool
  inverted : Bool

namespace Search

/-- A line as it is compared. -/
def folded (search : Search) (line : List Char) : List Char :=
  if search.ignoresCase then line.map Char.toLower else line

/-- Do the characters before and after a match leave it a word of its own? -/
def isWord (text : List Char) (first last : Nat) : Bool :=
  let isWordAt (place : Nat) : Bool := text[place]?.any LinePattern.isWordChar
  !(0 < first && isWordAt (first - 1)) && !isWordAt last

/-- The ends of matches from a place that count, the last one first. -/
def endsFrom (search : Search) (line : List Char) (place : Nat) (pattern : LinePattern) : List Nat :=
  let places := (pattern.ends line (LinePattern.onlyPlace line place)).zipIdx.filter Prod.fst
  let ends := (places.map Prod.snd).reverse
  if search.wholeLines then if place = 0 then ends.filter (· == line.length) else []
  else if search.wholeWords then ends.filter (isWord line place)
  else ends

/-- The end of the longest match from a place. -/
def longestFrom? (search : Search) (line : List Char) (place : Nat) : Option Nat :=
  let ends := search.patterns.filterMap fun pattern => (search.endsFrom line place pattern).head?
  if ends.isEmpty then none else some (ends.foldl max 0)

/-- Is the line one of those that are looked for? -/
def isWanted (search : Search) (line : List Char) : Bool :=
  let line := search.folded line
  let isFound :=
    if search.wholeLines || search.wholeWords then
      (List.range (line.length + 1)).any fun place => (search.longestFrom? line place).isSome
    else search.patterns.any fun pattern => pattern.accepts line
  isFound != search.inverted

/-- The parts of a line that match, from a place on; empty ones are left out. `fuel` bounds the number of places. -/
def matchesFrom (search : Search) (line shown : List Char) : (fuel : Nat) → (place : Nat) → List (List Char)
  | 0, _ => []
  | fuel + 1, place =>
    match search.longestFrom? line place with
    | some last =>
      if place < last then (shown.drop place).take (last - place) :: matchesFrom search line shown fuel last
      else matchesFrom search line shown fuel (place + 1)
    | none => if place < line.length then matchesFrom search line shown fuel (place + 1) else []

/-- The parts of a line that match. -/
def parts (search : Search) (line : List Char) : List (List Char) :=
  search.matchesFrom (search.folded line) line (line.length + 1) 0

end Search

/-- The options of `grep`. -/
def grepForms : List OptionForm :=
  [flag 'E' "extended-regexp", flag 'F' "fixed-strings", flag 'G' "basic-regexp", flag 'P' "perl-regexp",
   setting 'e' "regexp", setting 'f' "file", flag 'i' "ignore-case", flag 'y' "", flag 'v' "invert-match",
   flag 'w' "word-regexp", flag 'x' "line-regexp", flag 'c' "count", flag 'l' "files-with-matches",
   flag 'L' "files-without-match", setting 'm' "max-count", flag 'o' "only-matching", flag 'q' "quiet",
   flag 'q' "silent", flag 's' "no-messages", flag 'n' "line-number", flag 'H' "with-filename", flag 'h' "no-filename",
   flag 'a' "text", flag 'z' "null-data", flag 'b' "byte-offset", flag 'U' "binary", ⟨'C', "color", .optional⟩]

/-- What is told of a call without a pattern. -/
def grepUsage (name : String) (s : State) : State :=
  (s.warn ("Usage: " ++ name ++ " [OPTION]... PATTERNS [FILE]...\nTry '" ++ name ++
    " --help' for more information.\n")).ended 2

/-- The search that options and texts of patterns ask for. -/
def Search.of (given : Given) (texts : List String) : Except LinePattern.Fault Search := do
  let ignoresCase := given.has 'i' || given.has 'y'
  let lines := texts.flatMap fun text => (text.splitOn "\n").map fun line =>
    if ignoresCase then line.toList.map Char.toLower else line.toList
  let patterns ← lines.mapM fun line =>
    if given.has 'F' then .ok (LinePattern.literal line)
    else LinePattern.parse (given.has 'E' || given.has 'P') line
  return ⟨patterns, ignoresCase, given.has 'x', given.has 'w', given.has 'v'⟩

/-- What is written of an input, and whether a line of it was found. -/
def Search.report (search : Search) (given : Given) (title : String) (showsTitle : Bool) (bytes : ByteArray) :
    List Char × Bool :=
  let start (number : Nat) : List Char :=
    (if showsTitle then title.toList ++ [':'] else []) ++
      (if given.has 'n' then (toString number).toList ++ [':'] else [])
  let all := ((bareLines bytes).zipIdx 1).filter fun line => search.isWanted line.1
  let found := match (given.text? 'm').bind number? with
    | some most => all.take most
    | none => all
  let isFound := !found.isEmpty
  let text :=
    if given.has 'q' then []
    else if given.has 'l' then if isFound then title.toList ++ ['\n'] else []
    else if given.has 'L' then if isFound then [] else title.toList ++ ['\n']
    else if given.has 'c' then
      (if showsTitle then title.toList ++ [':'] else []) ++ (toString found.length).toList ++ ['\n']
    else if given.has 'o' then
      if search.inverted then []
      else found.flatMap fun (line, n) => (search.parts line).flatMap fun part => start n ++ part ++ ['\n']
    else found.flatMap fun (line, n) => start n ++ line ++ ['\n']
  (text, isFound)
where
  number? (text : String) : Option Nat :=
    if !text.isEmpty && text.toList.all Char.isDigit then some (State.number text.toList) else none

/-- Write the lines in which a pattern occurs; end well if there are some. -/
def grep : Utility := fun name arguments s =>
  match readOptions grepForms true (arguments.length + 1) arguments with
  | .error message => grepUsage name (s.warn (name ++ ": " ++ message ++ "\n"))
  | .ok given =>
    let named := (given.options.filter fun option => option.1 == 'e').map Prod.snd
    let (texts, paths) := if named.isEmpty then (given.operands.take 1, given.operands.drop 1)
      else (named, given.operands)
    if texts.isEmpty then grepUsage name s
    else
      match Search.of given texts with
      | .error fault => refuse name fault.message 2 s
      | .ok search =>
        let paths := if paths.isEmpty then ["-"] else paths
        let showsTitle := given.has 'H' || (1 < paths.length && !given.has 'h')
        let (text, isFound, s) := paths.foldl (fun (text, isFound, s) path =>
          match Utility.read path s with
          | .error fault =>
            let shown := if path = "-" then "(standard input)" else path
            let told := if given.has 's' then s else s.warn (name ++ ": " ++ shown ++ ": " ++ fault.reason ++ "\n")
            (text, isFound, told.ended 2)
          | .ok (bytes, s) =>
            let title := if path = "-" then "(standard input)" else path
            let (more, hasFound) := search.report given title showsTitle bytes
            (text ++ more, isFound || hasFound, s)) ([], false, s.ended 0)
        let failed := s.status ≠ 0 && !(given.has 'q' && isFound)
        let status := if failed then 2 else if isFound then 0 else 1
        let written := writeText name text (s.ended 0)
        if written.status ≠ 0 then written.ended 2 else written.ended status

end Utility

end Shell

end Rulebook

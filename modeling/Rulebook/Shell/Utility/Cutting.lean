import Rulebook.Shell.Utility.Frame

/-!
# Programs that write a part of their inputs

This module provides `Utility.head` and `Utility.tail`, which write the start and the end of their inputs, and
`Utility.cut`, which writes a part of each line.
-/

namespace Rulebook

namespace Shell

namespace Utility

/-! ## Counts -/

/-- The factors that letters after a number stand for. -/
def factors : List (String × Nat) :=
  [("", 1), ("b", 512), ("kB", 1000), ("k", 1024), ("K", 1024), ("KiB", 1024), ("MB", 1000000), ("m", 1048576),
   ("M", 1048576), ("MiB", 1048576), ("GB", 1000000000), ("G", 1073741824), ("GiB", 1073741824)]

/-- The count that a text of digits and maybe a factor is. -/
def count? (text : List Char) : Option Nat :=
  let digits := text.takeWhile Char.isDigit
  if digits.isEmpty then none
  else (factors.lookup (String.ofList (text.drop digits.length))).map (State.number digits * ·)

/-- What is counted when a part of an input is asked for. -/
inductive Measure where
  | lines
  | bytes

/-- The input in pieces of a measure. -/
def Measure.pieces (bytes : ByteArray) : Measure → List (List Char)
  | .lines => Utility.lines bytes
  | .bytes => (Text.octets bytes).toList.map ([·])

/-- The measure in words. -/
def Measure.text : Measure → String
  | .lines => "lines"
  | .bytes => "bytes"

/-- Which part of an input is asked for. -/
structure Portion where
  measure : Measure
  /-- A sign before the count. -/
  sign? : Option Char
  count : Nat

/-- The portion that a measure and a text ask for; in words what is wrong. -/
def Portion.read (measure : Measure) (text : String) : Except String Portion :=
  let (sign?, digits) := match text.toList with
    | '-' :: rest => (some '-', rest)
    | '+' :: rest => (some '+', rest)
    | digits => (none, digits)
  match count? digits with
  | some count => .ok ⟨measure, sign?, count⟩
  | none =>
    let told := if sign? = some '-' then String.ofList digits else text
    .error ("invalid number of " ++ measure.text ++ ": " ++ Quoting.plain told)

/-- The portion that options ask for, ten lines if none does. -/
def Portion.ofGiven (given : Given) : Except String Portion :=
  match given.last? ['n', 'c'] with
  | some ('c', text) => Portion.read .bytes text
  | some (_, text) => Portion.read .lines text
  | none => .ok ⟨.lines, none, 10⟩

/-! ## Starts and ends -/

/-- The options of `head` and `tail`. -/
def partForms : List OptionForm :=
  [setting 'c' "bytes", setting 'n' "lines", flag 'q' "quiet", flag 'q' "silent", flag 'v' "verbose",
   flag 'z' "zero-terminated"]

/-- The arguments with a count that is an option of its own in the form of other options. -/
def withPlainCount (signs : List Char) (arguments : List String) : List String :=
  match arguments with
  | [] => []
  | first :: rest =>
    match first.toList with
    | sign :: d :: more =>
      let digits := (d :: more).takeWhile Char.isDigit
      let after := (d :: more).drop digits.length
      let text := if sign = '+' then '+' :: digits else digits
      if !signs.contains sign || digits.isEmpty then arguments
      else
        match after with
        | [] => "-n" :: String.ofList text :: rest
        | ['c'] => "-c" :: String.ofList text :: rest
        | ['l'] => "-n" :: String.ofList text :: rest
        | _ => arguments
    | _ => arguments

/-- The state after a part of the standard input has been taken from it. What follows the part stays to be read, if it
can be told beforehand how long the part is, or if the input is a file. -/
def afterPart (portion : Portion) (taken : Nat) (before after : State) : State :=
  match portion.sign?, portion.measure, before.stream? 0 with
  | none, .bytes, _ => before.consume 0 taken
  | none, .lines, some (.handle _) => before.consume 0 taken
  | _, _, _ => after

/-- Write a part of each of the inputs, under headings if there is more than one. With `leavesRest`, what follows the
part in the standard input stays to be read. -/
def writeParts (part : Portion → List (List Char) → List (List Char)) (leavesRest : Bool) (name : String)
    (given : Given) (portion : Portion) (s : State) : State :=
  let paths := if given.operands.isEmpty then ["-"] else given.operands
  let showsHeading := given.has 'v' || (1 < paths.length && !given.has 'q')
  let heading (isFirst : Bool) (path : String) : List Char :=
    let title := if path = "-" then "standard input" else path
    if showsHeading then ((if isFirst then "" else "\n") ++ "==> " ++ title ++ " <==\n").toList else []
  let (text, _, s) := paths.foldl (fun (text, isFirst, s) path =>
    let title := Quoting.always (if path = "-" then "standard input" else path)
    match Utility.read path s with
    | .error (.cannotOpen reason) =>
      (text, isFirst, refuse name ("cannot open " ++ title ++ " for reading: " ++ reason) 1 s)
    | .error (.cannotRead reason) =>
      (text ++ heading isFirst path, false, refuse name ("error reading " ++ title ++ ": " ++ reason) 1 s)
    | .ok (bytes, after) =>
      let taken := (part portion (portion.measure.pieces bytes)).flatten
      let after := if leavesRest && path == "-" then afterPart portion taken.length s after else after
      (text ++ heading isFirst path ++ taken, false, after)) ([], true, s)
  writeText name text s

/-- Run a program that writes a part of its inputs. -/
def partProgram (signs : List Char) (leavesRest : Bool) (part : Portion → List (List Char) → List (List Char)) :
    Utility :=
  fun name arguments s =>
    let run : String → Given → State → State := fun name given s =>
      match Portion.ofGiven given with
      | .error message => refuse name message 1 s
      | .ok portion => writeParts part leavesRest name given portion s
    withOptions partForms run name (withPlainCount signs arguments) s

/-- Write the first lines or bytes, or all but the last ones. -/
def head : Utility :=
  partProgram ['-'] true fun portion pieces =>
    if portion.sign? = some '-' then pieces.take (pieces.length - portion.count) else pieces.take portion.count

/-- Write the last lines or bytes, or all from one on. -/
def tail : Utility :=
  partProgram ['-', '+'] false fun portion pieces =>
    if portion.sign? = some '+' then pieces.drop (portion.count - 1) else pieces.drop (pieces.length - portion.count)

/-! ## Parts of lines -/

/-- A range of positions; without an end it goes on for ever. -/
structure PositionRange where
  first : Nat
  last? : Option Nat

/-- Is a position in one of the ranges? -/
def isInRanges (ranges : List PositionRange) (position : Nat) : Bool :=
  ranges.any fun range => range.first ≤ position && (range.last?.all (position ≤ ·))

/-- The range that a text is; in words what is wrong. -/
def readRange (isField : Bool) (text : String) : Except String PositionRange :=
  let what := if isField then "fields are" else "byte/character positions are"
  let number (digits : List Char) : Except String Nat :=
    if !digits.all Char.isDigit then
      .error ("invalid " ++ (if isField then "field value " else "byte or character position ") ++
        Quoting.plain (String.ofList digits))
    else if State.number digits = 0 then .error (what ++ " numbered from 1")
    else .ok (State.number digits)
  let first := text.toList.takeWhile (· ≠ '-')
  match first, text.toList.drop first.length with
  | [], ['-'] => .error "invalid range with no endpoint: -"
  | [], [] => .error (what ++ " numbered from 1")
  | first, [] => (number first).map fun n => ⟨n, some n⟩
  | [], _ :: last => (number last).map fun n => ⟨1, some n⟩
  | first, [_] => (number first).map fun n => ⟨n, none⟩
  | first, _ :: last => do
    let a ← number first
    let b ← number last
    if b < a then .error "invalid decreasing range" else return ⟨a, some b⟩

/-- The elements at positions in ranges. -/
def pickRanges {α : Type} (ranges : List PositionRange) (elements : List α) : List α :=
  ((elements.zipIdx 1).filter fun entry => isInRanges ranges entry.2).map Prod.fst

/-- Characters between delimiters. -/
def fieldsOf (delimiter : Char) (line : List Char) : List (List Char) :=
  line.splitOnP (· == delimiter)

/-- Write positions or fields of each line. -/
def cut : Utility :=
  let forms := [setting 'b' "bytes", setting 'c' "characters", setting 'f' "fields", setting 'd' "delimiter",
    flag 's' "only-delimited", flag 'n' "", flag 'z' "zero-terminated"]
  withOptions forms fun name given s =>
    match given.last? ['b', 'c', 'f'] with
    | none => misuse name "you must specify a list of bytes, characters, or fields" s
    | some (letter, list) =>
      let isField := letter == 'f'
      let delimiter := (given.text? 'd').getD "\t"
      match (list.splitOn ",").mapM (readRange isField) with
      | .error message => misuse name message s
      | .ok ranges =>
        if 1 < delimiter.length then misuse name "the delimiter must be a single character" s
        else
          let delimiter := delimiter.toList.headD '\x00'
          let picked (line : List Char) : Option (List Char) :=
            if !isField then some (pickRanges ranges line)
            else if !line.contains delimiter then if given.has 's' then none else some line
            else some (List.intercalate [delimiter] (pickRanges ranges (fieldsOf delimiter line)))
          let (inputs, s) := readInputs name given.operands s
          writeText name (joinLines ((inputs.flatMap fun input => bareLines input.2).filterMap picked)) s

end Utility

end Shell

end Rulebook

import Rulebook.Power
import Rulebook.Shell.Utility.Copying

/-!
# Programs that count

This module provides `Utility.wc`, which counts what is in its inputs; `Utility.seq`, which counts from one number to
another; and `Utility.sleep`, which waits for no time at all.
-/

namespace Rulebook

namespace Shell

namespace Utility

/-! ## Counting in inputs -/

/-- How many runs of characters there are that are no blanks. -/
def countWords (inWord : Bool) : List Char → Nat
  | [] => 0
  | c :: rest =>
    if c = ' ' ∨ (9 ≤ c.toNat ∧ c.toNat ≤ 13) then countWords false rest
    else if inWord then countWords true rest
    else countWords true rest + 1

/-- The width of the widest line, after so many columns of one. -/
def widestLine (columns widest : Nat) : List Char → Nat
  | [] => max columns widest
  | c :: rest =>
    if c = '\n' ∨ c = '\r' ∨ c = '\x0c' then widestLine 0 (max columns widest) rest
    else if c = '\t' then widestLine (columns / 8 * 8 + 8) widest rest
    else widestLine (if Quoting.isPrinted c then columns + 1 else columns) widest rest

/-- What is counted in one input. -/
structure Counts where
  lines : Nat
  words : Nat
  bytes : Nat
  widest : Nat

/-- The counts of an input. -/
def Counts.of (bytes : ByteArray) : Counts :=
  let chars := (Text.octets bytes).toList
  ⟨(chars.filter (· == '\n')).length, countWords false chars, chars.length, widestLine 0 0 chars⟩

/-- The counts of two inputs together. -/
def Counts.add (a b : Counts) : Counts :=
  ⟨a.lines + b.lines, a.words + b.words, a.bytes + b.bytes, max a.widest b.widest⟩

/-- The counts that options ask for, in order. -/
def Counts.wanted (given : Given) (counts : Counts) : List Nat :=
  let asked (letter : Char) (n : Nat) : List Nat := if given.has letter then [n] else []
  if given.options.isEmpty then [counts.lines, counts.words, counts.bytes]
  else asked 'l' counts.lines ++ asked 'w' counts.words ++ asked 'm' counts.bytes ++ asked 'c' counts.bytes ++
    asked 'L' counts.widest

/-- How many columns the counts of files take: as many as the sum of their sizes, and seven if there is an input that is
no file. -/
def countWidth (s : State) (paths : List String) : Nat :=
  let size? (path : String) : Option (Option Nat) :=
    if path = "-" then
      match s.stream? 0 with
      | some (.handle number) => some (some (s.contentAt (s.handles.getD number default).location).size)
      | _ => some none
    else
      match s.files.read (State.path path) with
      | .ok bytes => some (if path.startsWith "/dev/" then none else some bytes.size)
      | .error .isDirectory => some none
      | .error _ => none
  let sizes := paths.map size?
  if (sizes.head?.bind id).isNone then 1
  else
    let total := sizes.foldl (fun sum size => sum + ((size.bind id).getD 0)) 0
    max (toString total).length (if sizes.contains (some none) then 7 else 1)

/-- Count lines, words and bytes. -/
def wc : Utility :=
  let forms := [flag 'c' "bytes", flag 'm' "chars", flag 'l' "lines", flag 'w' "words", flag 'L' "max-line-length"]
  withOptions forms fun name given s =>
    let paths := if given.operands.isEmpty then ["-"] else given.operands
    let kinds := (Counts.wanted given ⟨0, 0, 0, 0⟩).length
    let width := if paths.length = 1 ∧ kinds = 1 then 1 else countWidth s paths
    let row (counts : Counts) (title : String) : List Char :=
      List.intercalate [' '] ((counts.wanted given).map (column width)) ++
        (if title.isEmpty then [] else ' ' :: title.toList) ++ ['\n']
    let (text, total, s) := paths.foldl (fun (text, total, s) path =>
      let title := if path = "-" ∧ given.operands.isEmpty then "" else path
      match Utility.read path s with
      | .ok (bytes, s) =>
        let counts := Counts.of bytes
        (text ++ row counts title, total.add counts, s)
      | .error (.cannotRead reason) =>
        let shown := if path = "-" ∧ given.operands.isEmpty then "'standard input'" else Quoting.shown path
        (text ++ row ⟨0, 0, 0, 0⟩ title, total, refuse name (shown ++ ": " ++ reason) 1 s)
      | .error (.cannotOpen reason) => (text, total, refuse name (Quoting.shown path ++ ": " ++ reason) 1 s))
      ([], (⟨0, 0, 0, 0⟩ : Counts), s)
    writeText name (if 1 < paths.length then text ++ row total "total" else text) s

/-! ## Counting up and down -/

/-- A decimal: a number of units, and how many digits of it come after the point. -/
structure Decimal where
  units : Int
  places : Nat

/-- The decimal that a text is. -/
def Decimal.ofText? (text : String) : Option Decimal :=
  let (negative, body) := match text.toList with
    | '-' :: rest => (true, rest)
    | '+' :: rest => (false, rest)
    | rest => (false, rest)
  let whole := body.takeWhile Char.isDigit
  let (part, rest) := match body.drop whole.length with
    | '.' :: rest => (rest.takeWhile Char.isDigit, rest.dropWhile Char.isDigit)
    | rest => ([], rest)
  let make (zeros : Nat) : Decimal :=
    let units := Int.ofNat (State.number (whole ++ part) * tenTo (zeros - part.length))
    ⟨if negative then -units else units, part.length - zeros⟩
  if whole.isEmpty && part.isEmpty then none
  else
    match rest with
    | [] => some (make 0)
    | e :: exponent =>
      if (e = 'e' ∨ e = 'E') ∧ !exponent.isEmpty ∧ exponent.all Char.isDigit then some (make (State.number exponent))
      else none

/-- The units of a decimal with so many places. -/
def Decimal.unitsAt (x : Decimal) (places : Nat) : Int :=
  x.units * Int.ofNat (tenTo (places - x.places))

/-- A number of units with so many places, at least as wide as asked, with zeros in front. -/
def decimalText (places width : Nat) (units : Int) : List Char :=
  let digits := (toString units.natAbs).toList
  let digits := List.replicate (places + 1 - digits.length) '0' ++ digits
  let whole := digits.take (digits.length - places)
  let part := if places = 0 then [] else '.' :: digits.drop (digits.length - places)
  let start := if units < 0 then ['-'] else []
  start ++ List.replicate (width - start.length - whole.length - part.length) '0' ++ whole ++ part

/-- The numbers from a first one to a last one in steps. -/
def row (first step last : Int) : List Int :=
  let count := if 0 < step then (last - first).fdiv step + 1 else (first - last).fdiv (-step) + 1
  (List.range count.toNat).map fun (i : Nat) => first + step * (i : Int)

/-- The options of `seq`. -/
def seqForms : List OptionForm :=
  [setting 'f' "format", setting 's' "separator", flag 'w' "equal-width"]

/-- Write the numbers of a row. -/
def writeRow (name : String) (given : Given) (first step last : Decimal) (s : State) : State :=
  let places := max first.places step.places
  let scale := max places last.places
  let units := row (first.unitsAt scale) (step.unitsAt scale) (last.unitsAt scale)
  let shown (width : Nat) (n : Int) : List Char :=
    decimalText places width (n.tdiv (Int.ofNat (tenTo (scale - places))))
  let width := if given.has 'w' then (units.map fun n => (shown 0 n).length).foldl max 0 else 0
  let separator := ((given.text? 's').getD "\n").toList
  let text := List.intercalate separator (units.map (shown width))
  writeText name (if units.isEmpty then [] else text ++ ['\n']) s

/-- Write numbers, one on a line. -/
def seq : Utility := fun name arguments s =>
  let isNumber (text : String) : Bool := (Decimal.ofText? text).isSome
  let optionCount := (arguments.takeWhile fun argument => !(argument.startsWith "-" && isNumber argument)).length
  match readOptions seqForms false (arguments.length + 1) (arguments.take optionCount) with
  | .error message => misuse name message s
  | .ok given =>
    let operands := given.operands ++ arguments.drop optionCount
    let s := s.ended 0
    if operands.isEmpty then misuse name "missing operand" s
    else if 3 < operands.length then misuse name ("extra operand " ++ Quoting.plain (operands.getD 3 "")) s
    else
      match operands.find? fun operand => !isNumber operand with
      | some operand => misuse name ("invalid floating point argument: " ++ Quoting.plain operand) s
      | none =>
        match operands.filterMap Decimal.ofText? with
        | [last] => writeRow name given ⟨1, 0⟩ ⟨1, 0⟩ last s
        | [first, last] => writeRow name given first ⟨1, 0⟩ last s
        | [first, step, last] =>
          if step.units = 0 then misuse name ("invalid Zero increment value: " ++ Quoting.plain (operands.getD 1 "")) s
          else writeRow name given first step last s
        | _ => s

/-! ## Waiting -/

/-- Is the text a time to wait? -/
def isTime (text : String) : Bool :=
  let chars := text.toList
  let body := match chars.getLast? with
    | some c => if "smhd".toList.contains c then chars.dropLast else chars
    | none => chars
  match Decimal.ofText? (String.ofList body) with
  | some time => 0 ≤ time.units
  | none => false

/-- Wait. No time passes. -/
def sleep : Utility :=
  withOptions [] fun name given s =>
    if given.operands.isEmpty then misuse name "missing operand" s
    else
      match given.operands.filter fun operand => !isTime operand with
      | [] => s
      | wrong =>
        let lines := wrong.map fun operand => "invalid time interval " ++ Quoting.plain operand
        misuse name (String.intercalate ("\n" ++ name ++ ": ") lines) s

end Utility

end Shell

end Rulebook

import Rulebook.Power
import Rulebook.Shell.Utility.Counting

/-!
# Programs that rearrange lines

This module provides `Utility.sort` and `Utility.uniq` for lines in order, `Utility.tac` and `Utility.rev`, which turn
the order of lines and of their characters around, and `Utility.nl` and `Utility.paste`, which number and join lines.
-/

namespace Rulebook

namespace Shell

namespace Utility

/-! ## Order -/

/-- A part of a line by which lines are ordered: from a field and a character in it to others. -/
structure SortKey where
  first : Nat
  firstChar : Nat
  last? : Option (Nat × Nat)
  options : List Char

/-- A position of a key: a field, a character, and letters. -/
def readPosition (chars : List Char) : Nat × Nat × List Char :=
  let field := chars.takeWhile Char.isDigit
  match chars.drop field.length with
  | '.' :: rest =>
    let char := rest.takeWhile Char.isDigit
    (State.number field, State.number char, rest.drop char.length)
  | rest => (State.number field, 0, rest)

/-- The key that a text is. -/
def SortKey.ofText (text : String) : SortKey :=
  let first := text.toList.takeWhile (· ≠ ',')
  let (field, char, letters) := readPosition first
  match text.toList.drop first.length with
  | _ :: rest =>
    let (lastField, lastChar, more) := readPosition rest
    ⟨field, max 1 char, some (lastField, lastChar), letters ++ more⟩
  | [] => ⟨field, max 1 char, none, letters⟩

/-- The fields of a line: between separators, or each one with the blanks before it. -/
def sortFields (separator? : Option Char) (line : List Char) : List (List Char) :=
  match separator? with
  | some separator => (line.splitOnP (· == separator)).map fun field => field ++ [separator]
  | none => line.splitBy fun a b => !(!isBlank a && isBlank b)
where
  isBlank (c : Char) : Bool := c == ' ' || c == '\t'

/-- The part of a line that a key stands for. -/
def SortKey.part (key : SortKey) (separator? : Option Char) (line : List Char) : List Char :=
  let fields := sortFields separator? line
  let before := (fields.take (key.first - 1)).flatten.length + (key.firstChar - 1)
  let after := match key.last? with
    | none => line.length
    | some (last, 0) =>
      let whole := (fields.take last).flatten.length
      if separator?.isSome then whole - 1 else whole
    | some (last, char) => (fields.take (last - 1)).flatten.length + char
  (line.take after).drop before

/-- The number that a text starts with: its sign, its digits before the point and those after it. -/
def leadingNumber (text : List Char) : Int × List Char :=
  let body := text.dropWhile fun c => c == ' ' || c == '\t'
  let (negative, body) := match body with
    | '-' :: rest => (true, rest)
    | rest => (false, rest)
  let whole := body.takeWhile Char.isDigit
  let part := match body.drop whole.length with
    | '.' :: rest => rest.takeWhile Char.isDigit
    | _ => []
  let n := Int.ofNat (State.number whole)
  (if negative then -n else n, part)

/-- How two texts compare as numbers. -/
def compareNumbers (a b : List Char) : Ordering :=
  let (a, partOfA) := leadingNumber a
  let (b, partOfB) := leadingNumber b
  let places := max partOfA.length partOfB.length
  let scaled (n : Int) (part : List Char) : Int :=
    n * Int.ofNat (tenTo places) + Int.ofNat (State.number part * tenTo (places - part.length))
  compare (scaled a partOfA) (scaled b partOfB)

/-- How two texts compare as options say. -/
def compareWith (options : List Char) (a b : List Char) : Ordering :=
  let trimmed (text : List Char) : List Char :=
    if options.contains 'b' then text.dropWhile fun c => c == ' ' || c == '\t' else text
  let folded (text : List Char) : List Char := if options.contains 'f' then text.map Char.toUpper else text
  let result :=
    if options.contains 'n' || options.contains 'g' then compareNumbers a b
    else compareChars (folded (trimmed a)) (folded (trimmed b))
  if options.contains 'r' then result.swap else result

/-- How two lines compare by keys; by themselves as a whole if no key tells them apart. -/
def compareLines (options : List Char) (separator? : Option Char) (keys : List SortKey) (isStable : Bool)
    (a b : List Char) : Ordering :=
  let byKeys := if keys.isEmpty then compareWith options a b
    else
      keys.foldl (fun result key =>
        let own := if key.options.isEmpty then options else key.options
        result.then (compareWith own (key.part separator? a) (key.part separator? b))) .eq
  let whole := if options.contains 'r' then compareChars b a else compareChars a b
  if isStable then byKeys else byKeys.then whole

/-- One of each run of lines that are the same. -/
def firstOfRuns {α : Type} (same : α → α → Bool) (items : List α) : List α :=
  (items.splitBy same).filterMap List.head?

/-- Write the lines of the inputs in order. -/
def sort : Utility :=
  let forms := [flag 'b' "ignore-leading-blanks", flag 'f' "ignore-case", flag 'n' "numeric-sort",
    flag 'g' "general-numeric-sort", flag 'r' "reverse", flag 'u' "unique", flag 's' "stable", setting 'k' "key",
    setting 't' "field-separator", setting 'o' "output", flag 'z' "zero-terminated", flag 'c' "check"]
  fun name arguments s =>
    match readOptions forms true (arguments.length + 1) arguments with
    | .error message => (misuse name message s).ended 2
    | .ok given =>
      let keys := (given.options.filter fun option => option.1 == 'k').map fun option => SortKey.ofText option.2
      let options := ['b', 'f', 'n', 'g', 'r'].filter given.has
      let separator? := (given.text? 't').bind fun text => text.toList.head?
      let order := compareLines options separator? keys (given.has 's' || given.has 'u')
      let paths := if given.operands.isEmpty then ["-"] else given.operands
      let (inputs, s) := paths.foldl (fun (inputs, s) path =>
        match Utility.read path s with
        | .ok (bytes, s) => (inputs ++ [bytes], s)
        | .error (.cannotOpen reason) =>
          (inputs, refuse name ("cannot read: " ++ Quoting.shown path ++ ": " ++ reason) 2 s)
        | .error (.cannotRead reason) =>
          (inputs, refuse name ("read failed: " ++ Quoting.shown path ++ ": " ++ reason) 2 s)) ([], s.ended 0)
      if s.status ≠ 0 then s
      else
        let sorted := (inputs.flatMap bareLines).mergeSort fun a b => (order a b).isLE
        let shown := if given.has 'u' then firstOfRuns (fun a b => order a b == .eq) sorted else sorted
        match given.text? 'o' with
        | none => writeText name (joinLines shown) s
        | some path =>
          match s.files.write (State.path path) (Text.octetBytes (String.ofList (joinLines shown))) with
          | .ok files => { s with files := files }
          | .error error => refuse name ("open failed: " ++ Quoting.shown path ++ ": " ++ error.reason) 2 s

/-- Write one of each run of lines that are the same. -/
def uniq : Utility :=
  let forms := [flag 'c' "count", flag 'd' "repeated", flag 'u' "unique", flag 'i' "ignore-case",
    flag 'D' "all-repeated", flag 'z' "zero-terminated"]
  withOptions forms fun name given s =>
    let path := given.operands.headD "-"
    match Utility.read path s with
    | .error fault => refuse name (Quoting.shown path ++ ": " ++ fault.reason) 1 s
    | .ok (bytes, s) =>
      let folded (line : List Char) : List Char := if given.has 'i' then line.map Char.toLower else line
      let runs := (bareLines bytes).splitBy fun a b => folded a == folded b
      let wanted := runs.filter fun run =>
        (!given.has 'd' || 1 < run.length) && (!given.has 'u' || run.length == 1)
      let shown (run : List (List Char)) : List Char :=
        (if given.has 'c' then column 7 run.length ++ [' '] else []) ++ run.headD []
      writeText name (joinLines (wanted.map shown)) s

/-! ## Turning around, numbering, joining -/

/-- Write what a function makes of the lines of the inputs. -/
def mapInputs (forms : List OptionForm) (f : Given → List (List (List Char)) → List Char) : Utility :=
  withOptions forms fun name given s =>
    let (inputs, s) := readInputs name given.operands s
    writeText name (f given (inputs.map fun input => lines input.2)) s

/-- Write the lines in the opposite order. -/
def tac : Utility :=
  mapInputs [] fun _ inputs => inputs.flatMap fun lines => lines.reverse.flatten

/-- Write the lines with their characters in the opposite order. -/
def rev : Utility :=
  mapInputs [] fun _ inputs => inputs.flatten.flatMap fun line =>
    (line.filter (· ≠ '\n')).reverse ++ line.filter (· == '\n')

/-- Write the lines with numbers, empty ones without. -/
def nl : Utility :=
  mapInputs [setting 'b' "body-numbering"] fun given inputs =>
    let all := given.text? 'b' == some "a"
    (inputs.flatten.foldl (fun (text, number) line =>
      let line := line.filter (· ≠ '\n')
      if line.isEmpty && !all then (text ++ "       \n".toList, number)
      else (text ++ column 6 (number + 1) ++ '\t' :: line ++ ['\n'], number + 1)) ([], 0)).1

/-- Write lines that stand at the same place of the inputs side by side, or those of one input. -/
def paste : Utility :=
  mapInputs [setting 'd' "delimiters", flag 's' "serial"] fun given inputs =>
    let delimiter := ((given.text? 'd').bind fun text => text.toList.head?).getD '\t'
    let bare := inputs.map fun lines => lines.map fun line => line.filter (· ≠ '\n')
    if given.has 's' then joinLines (bare.map (List.intercalate [delimiter]))
    else
      let height := (bare.map List.length).foldl max 0
      joinLines ((List.range height).map fun i =>
        List.intercalate [delimiter] (bare.map fun lines => lines.getD i []))

end Utility

end Shell

end Rulebook

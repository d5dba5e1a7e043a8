import Rulebook.Shell.Utility.Frame

/-!
# Programs that copy

This module provides `Utility.cat`, which writes its inputs, as they are or made visible, and `Utility.tee`, which
writes its input to several places.
-/

namespace Rulebook

namespace Shell

namespace Utility

/-! ## Bytes made visible -/

/-- How a copy shows what it copies. -/
structure Showing where
  numbers : Bool
  numbersFilled : Bool
  squeezes : Bool
  ends : Bool
  tabs : Bool
  controls : Bool

/-- Where a copy is. -/
structure CopyPlace where
  /-- The number of the last line. -/
  number : Nat
  /-- Does a line start here? -/
  isStart : Bool
  /-- Was the last line empty? -/
  afterEmpty : Bool

/-- A byte without its highest bit, made visible. -/
def visibleLow (c : Char) : List Char :=
  if c.toNat < 32 then ['^', Char.ofNat (c.toNat + 64)]
  else if c.toNat = 127 then ['^', '?']
  else [c]

/-- A byte made visible, as far as that is asked for. -/
def Showing.visible (showing : Showing) (c : Char) : List Char :=
  if c = '\t' then if showing.tabs then ['^', 'I'] else [c]
  else if !showing.controls then [c]
  else if 128 ≤ c.toNat then 'M' :: '-' :: visibleLow (Char.ofNat (c.toNat - 128))
  else visibleLow c

/-- The text of a line made visible; a carriage return before a marked end is. -/
def Showing.visibleText (showing : Showing) (isWhole : Bool) (text : List Char) : List Char :=
  if showing.ends && isWhole && !showing.controls && text.getLast? = some '\r' then
    text.dropLast.flatMap showing.visible ++ ['^', 'M']
  else text.flatMap showing.visible

/-- A number in a column of a width. -/
def column (width n : Nat) : List Char :=
  let digits := (toString n).toList
  List.replicate (width - digits.length) ' ' ++ digits

/-- The copy of lines, and where the copy is then. -/
def Showing.copy (showing : Showing) (place : CopyPlace) : List (List Char) → List Char × CopyPlace
  | [] => ([], place)
  | line :: rest =>
    let isWhole := line.getLast? = some '\n'
    let text := if isWhole then line.dropLast else line
    let isEmpty := place.isStart && isWhole && text.isEmpty
    if isEmpty && place.afterEmpty && showing.squeezes then copy showing place rest
    else
      let isWanted := if showing.numbersFilled then !isEmpty else showing.numbers
      let isNumbered := place.isStart && isWanted
      let number := if isNumbered then place.number + 1 else place.number
      let shown := (if isNumbered then column 6 number ++ ['\t'] else []) ++ showing.visibleText isWhole text ++
        (if isWhole then if showing.ends then ['$', '\n'] else ['\n'] else [])
      let (more, last) := copy showing ⟨number, isWhole, isEmpty⟩ rest
      (shown ++ more, last)

/-! ## Programs -/

/-- The options of `cat`. -/
def catForms : List OptionForm :=
  [flag 'b' "number-nonblank", flag 'n' "number", flag 's' "squeeze-blank", flag 'v' "show-nonprinting",
   flag 'E' "show-ends", flag 'T' "show-tabs", flag 'A' "show-all", flag 'e' "", flag 't' "", flag 'u' ""]

/-- Write the inputs one after the other. -/
def cat : Utility :=
  withOptions catForms fun name given s =>
    let has (letters : String) : Bool := letters.toList.any given.has
    let showing : Showing := ⟨has "n", has "b", has "s", has "AEe", has "ATt", has "Aetv"⟩
    let isPlain := !(has "nbsAEeTtv")
    let rec copyAll (place : CopyPlace) : List String → State → State
      | [], s => s
      | path :: rest, s =>
        match Utility.read path s with
        | .error fault =>
          let told := refuse name (Quoting.shown path ++ ": " ++ fault.reason) 1 s
          let told := match path, s.stream? 0 with
            | "-", none => refuse name "closing standard input: Bad file descriptor" 1 told
            | _, _ => told
          copyAll place rest told
        | .ok (bytes, s) =>
          if isPlain then copyAll place rest (write name bytes s)
          else
            let (text, place) := showing.copy place (lines bytes)
            copyAll place rest (writeText name text s)
    if (s.stream? 1).isNone then refuse name "standard output: Bad file descriptor" 1 s
    else copyAll ⟨0, true, false⟩ (if given.operands.isEmpty then ["-"] else given.operands) s

/-- Write the input to the output and to files. -/
def tee : Utility :=
  withOptions [flag 'a' "append", flag 'i' "ignore-interrupts"] fun name given s =>
    match readDescriptor 0 s with
    | .error fault => refuse name ("read error: " ++ fault.reason) 1 s
    | .ok (bytes, s) =>
      let s := given.operands.foldl (fun s path =>
        match s.device? path with
        | some stream? => { (write name bytes (s.connect 1 stream?)) with streams := s.streams }
        | none =>
          let old := if given.has 'a' then (s.files.read (State.path path)).toOption.getD .empty else .empty
          match s.files.write (State.path path) (old ++ bytes) with
          | .ok files => { s with files := files }
          | .error error => refuse name (Quoting.shown path ++ ": " ++ error.reason) 1 s) s
      write name bytes s

end Utility

end Shell

end Rulebook

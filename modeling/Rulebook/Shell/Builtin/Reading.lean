import Rulebook.Shell.Builtin.Variables
import Rulebook.Shell.Field

/-!
# Builtins that read

This module provides `Builtin.read`, which takes a line apart into variables, and `Builtin.getopts`, which takes options
off arguments one by one.
-/

namespace Rulebook

namespace Shell

namespace Builtin

/-! ## Lines -/

/-- Where a line of bytes ends, with its line end, from a place on. Behind a backslash that escapes a line end it goes
on. `fuel` bounds the number of bytes. -/
def lineLength (raw : Bool) (bytes : ByteArray) (escaped : Bool) : (fuel : Nat) → (place : Nat) → Nat
  | 0, place => place
  | fuel + 1, place =>
    match bytes[place]? with
    | none => place
    | some byte =>
      if byte = 10 ∧ !escaped then place + 1
      else lineLength raw bytes (byte = 92 && !raw && !escaped) fuel (place + 1)

/-- The characters of a line, with those that a backslash protects marked; whether the line has an end; and how many
characters were read. A backslash before the end of a line joins the next line to it. -/
def lineChars (raw : Bool) (reversed : List MarkedChar) (count : Nat) : List Char → List MarkedChar × Bool × Nat
  | [] => (reversed.reverse, false, count)
  | '\n' :: _ => (reversed.reverse, true, count + 1)
  | '\\' :: rest =>
    if raw then lineChars raw (('\\', false) :: reversed) (count + 1) rest
    else
      match rest with
      | [] => (reversed.reverse, false, count + 1)
      | '\n' :: rest => lineChars raw reversed (count + 2) rest
      | c :: rest => lineChars raw ((c, true) :: reversed) (count + 2) rest
  | '\x00' :: rest => lineChars raw reversed (count + 1) rest
  | c :: rest => lineChars raw ((c, false) :: reversed) (count + 1) rest

/-- The last field of a line: all that is left but for blanks at its end, and for one separator if nothing else follows
it. `pending` are the characters that are left out if the line ends here, protected ones behind blanks among them; with
`afterBlank`, only blanks have come before the separator that the field ended with. -/
def lastField (separators : List Char) (kept pending : List Char) (afterBlank : Bool) : List MarkedChar → String
  | [] => String.ofList kept.reverse
  | (c, protect) :: rest =>
    if protect then
      if pending.isEmpty then lastField separators (c :: kept) [] false rest
      else lastField separators kept (c :: pending) false rest
    else
      let separates := separators.contains c
      if separates && (Glyph.isBlank c || afterBlank) then
        lastField separators kept (c :: pending) (afterBlank && Glyph.isBlank c) rest
      else lastField separators (c :: pending ++ kept) [] false rest

/-- Where the splitting of a line is. -/
inductive LinePlace where
  /-- In a field, or before one, after nothing or after a separator that is no blank. -/
  | inside
  /-- After blanks that ended a field. -/
  | blanks

/-- A line split into at most so many fields. -/
def splitLine (separators : List Char) (place : LinePlace) (count : Nat) (reversed : List Char) :
    List MarkedChar → List String
  | [] => if reversed.isEmpty then [] else [String.ofList reversed.reverse]
  | (c, protect) :: rest =>
    let separates := !protect && separators.contains c
    let blank := separates && Glyph.isBlank c
    match place with
    | .blanks =>
      if blank then splitLine separators .blanks count [] rest
      else splitLine separators .inside count (if separates then [] else [c]) rest
    | .inside =>
      if !separates then splitLine separators .inside count (c :: reversed) rest
      else if blank && reversed.isEmpty then splitLine separators .inside count [] rest
      else if count ≤ 1 then [lastField separators reversed [c] blank rest]
      else
        String.ofList reversed.reverse ::
          splitLine separators (if blank then .blanks else .inside) (count - 1) [] rest

/-- Set variables to texts; those that are left get nothing. -/
def setAll : List String → List String → State → Step
  | [], _, s => .next s
  | name :: names, texts, s => (Step.setting name (texts.headD "") s).andThen (setAll names (texts.drop 1))

/-- Read a line into variables. Without a whole line the command ends badly. -/
def read : Builtin := fun arguments s =>
  withOptions "p:r" arguments s fun options names s =>
    if names.isEmpty then .fail "arg count" s
    else
      let raw := options.any fun option => option.1 == 'r'
      let bytes := (s.rest? 0).getD .empty
      let text := (Text.octets (bytes.extract 0 (lineLength raw bytes false bytes.size 0))).toList
      let (chars, isWhole, count) := lineChars raw [] 0 text
      let s := (s.consume 0 count).ended (if isWhole then 0 else 1)
      setAll names (splitLine s.separators .inside names.length [] chars) s

/-! ## Options of a script -/

/-- What an option is in a list of letters. -/
inductive OptionKind where
  | unknown
  | plain
  /-- A text goes with it. -/
  | withText

/-- What an option is in a list of letters, in which a colon follows a letter that takes a text. -/
def optionKind (c : Char) : List Char → OptionKind
  | [] => .unknown
  | letter :: ':' :: rest => if letter = c then .withText else optionKind c rest
  | letter :: rest => if letter = c then .plain else optionKind c rest

/-- What taking one option gives: its letter and its text, what is told, and where the next one stands. -/
structure OptionFound where
  letter : Char
  text? : Option String
  message? : Option String
  index : Nat
  offset? : Option Nat
  isEnd : Bool

/-- The options after a number of arguments, the first of which may have been taken in part. -/
def nextOption (letters : String) (arguments : List String) (index : Nat) (offset? : Option Nat) : OptionFound :=
  let pending := match offset? with
    | some offset => if 1 < index then ((arguments.getD (index - 2) "").toList.drop offset) else []
    | none => []
  let ended (index : Nat) : OptionFound := ⟨'?', none, none, index, none, true⟩
  let take (chars : List Char) (index : Nat) : OptionFound :=
    match chars with
    | [] => ended index
    | c :: rest =>
      let argument := arguments.getD (index - 2) ""
      let offset? := some (argument.length - rest.length)
      let quiet := letters.toList.head? == some ':'
      match optionKind c letters.toList with
      | .unknown =>
        if quiet then ⟨'?', some c.toString, none, index, offset?, false⟩
        else ⟨'?', none, some ("Illegal option -" ++ c.toString), index, offset?, false⟩
      | .plain => ⟨c, some "", none, index, offset?, false⟩
      | .withText =>
        if !rest.isEmpty then ⟨c, some (String.ofList rest), none, index, none, false⟩
        else
          match arguments[index - 1]? with
          | some text => ⟨c, some text, none, index + 1, none, false⟩
          | none =>
            if quiet then ⟨':', some c.toString, none, index, none, false⟩
            else ⟨'?', none, some ("No arg for -" ++ c.toString ++ " option"), index, none, false⟩
  if pending.isEmpty then
    match (arguments.getD (index - 1) "").toList with
    | ['-', '-'] => ended (index + 1)
    | '-' :: c :: rest => take (c :: rest) (index + 1)
    | _ => ended index
  else take pending index

/-- Take the next option off the arguments into a variable; without one the command ends badly. -/
def getopts : Builtin := fun arguments s =>
  match arguments with
  | letters :: name :: given =>
    let own := if given.isEmpty then s.arguments else given
    let (index, offset?) := if own.length + 1 < s.optionIndex then (1, none) else (s.optionIndex, s.optionOffset?)
    let found := nextOption letters own index offset?
    let s := match found.message? with
      | some message => s.warn (message ++ "\n")
      | none => s
    let s := if found.isEnd then s
      else match found.text? with
        | some text => s.set "OPTARG" text
        | none => s.bind "OPTARG" none
    let s := s.set "OPTIND" (toString found.index)
    (Step.setting name found.letter.toString (s.ended (if found.isEnd then 1 else 0))).andThen fun s =>
      .next { s with optionIndex := found.index, optionOffset? := found.offset? }
  | _ => .fail "Usage: getopts optstring var [arg...]" s

end Builtin

end Shell

end Rulebook

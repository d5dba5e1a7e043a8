import Rulebook.Shell.Format
import Rulebook.Shell.Step

/-!
# Builtins that write

This module provides `Builtin.echo` and `Builtin.printf`.
-/

namespace Rulebook

namespace Shell

namespace Builtin

/-- The arguments with their escapes resolved and blanks between them, and whether `\c` ends the text. -/
def echoText : List String → List Char × Bool
  | [] => ([], false)
  | argument :: rest =>
    let (text, stopped) := Format.unescape argument
    if stopped then (text, true)
    else if rest.isEmpty then (text, false)
    else
      let (more, stopped) := echoText rest
      (text ++ ' ' :: more, stopped)

/-- Write the arguments, with blanks between them. -/
def echo : Builtin := fun arguments s =>
  let (lineEnd, arguments) := match arguments with
    | "-n" :: rest => (false, rest)
    | _ => (true, arguments)
  let (text, stopped) := echoText arguments
  .next (s.printText (String.ofList (if lineEnd && !stopped then text ++ ['\n'] else text)))

/-! ## Formats -/

/-- What has been written of a format. -/
structure Draft where
  state : State
  reversed : List Char
  arguments : List String
  /-- Was an argument taken that is not of the kind asked for? -/
  isBad : Bool

/-- How a format goes on. -/
inductive Draft.Flow where
  | next
  /-- A text asked to stop there. -/
  | stopped
  | fault (message : String)

namespace Draft

/-- The draft with a text more. -/
def write (draft : Draft) (text : List Char) : Draft :=
  { draft with reversed := text.reverse ++ draft.reversed }

/-- The next argument, if there is one, and the draft without it. -/
def take (draft : Draft) : Option String × Draft :=
  (draft.arguments.head?, { draft with arguments := draft.arguments.drop 1 })

/-- Tell of a number that a text is not, or not as a whole. -/
def check {α : Type} (draft : Draft) (text : String) (reading : Format.Reading α) : Draft :=
  let fault? :=
    if text.isEmpty then none
    else if !reading.rest.isEmpty then
      some (if reading.rest.length = text.length then "expected numeric value" else "not completely converted")
    else if reading.isCut then some "Numerical result out of range"
    else none
  match fault? with
  | none => draft
  | some fault => { draft with state := draft.state.complain (text ++ ": " ++ fault) 1, isBad := true }

/-- A number from the next argument: what `read` makes of it, or the code of the character after a quote. -/
def takeNumber {α : Type} (draft : Draft) (zero : α) (ofCode : Nat → α) (read : List Char → Format.Reading α) :
    α × Draft :=
  match draft.take with
  | (none, draft) => (zero, draft)
  | (some text, draft) =>
    match text.toList with
    | '\'' :: rest => (ofCode ((rest.head?.map Char.toNat).getD 0), draft)
    | '"' :: rest => (ofCode ((rest.head?.map Char.toNat).getD 0), draft)
    | chars =>
      let reading := read chars
      (reading.value, draft.check text reading)

/-- A signed number from the next argument. -/
def takeSigned (draft : Draft) : Int × Draft :=
  draft.takeNumber 0 Int.ofNat Format.readSigned

/-- A width or a precision: digits, or an argument that a star asks for; the draft and the characters after it. -/
def takeMeasure (draft : Draft) (chars : List Char) : Option Int × Draft × List Char :=
  match chars with
  | '*' :: rest =>
    let (n, draft) := draft.takeSigned
    (some n, draft, rest)
  | _ =>
    let digits := chars.takeWhile Char.isDigit
    (if digits.isEmpty then none else some (Int.ofNat (State.number digits)), draft, chars.drop digits.length)

/-- The directive after a percent sign, and the characters from its letter on. -/
def takeDirective (draft : Draft) (chars : List Char) : Format.Directive × Draft × List Char :=
  let flags := chars.takeWhile fun c => "#-+ 0".toList.contains c
  let (width, draft, rest) := draft.takeMeasure (chars.drop flags.length)
  let width := width.getD 0
  let flags := if width < 0 then '-' :: flags else flags
  match rest with
  | '.' :: rest =>
    let (precision, draft, rest) := draft.takeMeasure rest
    let precision := precision.getD 0
    (⟨flags, width.natAbs, if precision < 0 then none else some precision.toNat⟩, draft, rest)
  | _ => (⟨flags, width.natAbs, none⟩, draft, rest)

/-- Fill a directive with the next argument. -/
def fill (draft : Draft) (directive : Format.Directive) (letter : Char) (spelled : List Char) : Draft × Draft.Flow :=
  if letter = 'd' ∨ letter = 'i' then
    let (n, draft) := draft.takeSigned
    (draft.write (directive.integer n), .next)
  else if "uoxX".toList.contains letter then
    let (n, draft) := draft.takeNumber 0 id Format.readUnsigned
    (draft.write (directive.unsigned letter n), .next)
  else if "aAeEfFgG".toList.contains letter then
    let (x, draft) := draft.takeNumber (.zero false) (fun n => .ofRatio false n 1) Format.readReal
    (draft.write (directive.real letter x), .next)
  else
    match letter, draft.take with
    | 's', (text, draft) => (draft.write (directive.text (text.getD "").toList), .next)
    | 'c', (text, draft) => (draft.write (directive.padded (((text.getD "").toList ++ ['\x00']).take 1)), .next)
    | 'b', (text, draft) =>
      let (text, stopped) := Format.unescape (text.getD "")
      (draft.write (directive.text text), if stopped then .stopped else .next)
    | _, _ => (draft, .fault ("%" ++ String.ofList (spelled ++ [letter]) ++ ": invalid directive"))

/-- Fill a format once. `fuel` bounds the number of characters. -/
def fillAll (draft : Draft) : (fuel : Nat) → List Char → Draft × Draft.Flow
  | 0, _ => (draft, .next)
  | _, [] => (draft, .next)
  | fuel + 1, '\\' :: rest =>
    let (c, after) := Format.escape rest
    fillAll (draft.write [c]) fuel after
  | fuel + 1, '%' :: '%' :: rest => fillAll (draft.write ['%']) fuel rest
  | fuel + 1, '%' :: rest =>
    let (directive, draft, after) := draft.takeDirective rest
    match after with
    | [] => (draft, .fault "missing format character")
    | letter :: after =>
      match draft.fill directive letter (rest.take (rest.length - after.length - 1)) with
      | (draft, .next) => fillAll draft fuel after
      | other => other
  | fuel + 1, c :: rest => fillAll (draft.write [c]) fuel rest

/-- Fill a format until no argument is left; one that takes none is filled once. -/
def fillRepeatedly (format : List Char) (draft : Draft) : (fuel : Nat) → Draft × Draft.Flow
  | 0 => (draft, .next)
  | fuel + 1 =>
    match draft.fillAll (format.length + 1) format with
    | (after, .next) =>
      if after.arguments.isEmpty || after.arguments.length == draft.arguments.length then (after, .next)
      else fillRepeatedly format after fuel
    | other => other

end Draft

/-- Write arguments as a format says. -/
def printf : Builtin := fun arguments s =>
  withOptions "" arguments s fun _ operands s =>
    match operands with
    | [] => .fail "usage: printf format [arg ...]" s
    | format :: rest =>
      let (draft, flow) := Draft.fillRepeatedly format.toList ⟨s, [], rest, false⟩ (rest.length + 1)
      let text := String.ofList draft.reversed.reverse
      match flow with
      | .fault message => ⟨((draft.state.complain message 2).printText text).ended 2, .fault⟩
      | _ =>
        let written := draft.state.printText text
        .next (if draft.isBad then written.ended 1 else written)

end Builtin

end Shell

end Rulebook

import Rulebook.Power
import Rulebook.Shell.Search
import Rulebook.Shell.Step

/-!
# Conditions

This module provides `Builtin.test`, which ends well if a condition holds, and `Builtin.bracket`, the same between
brackets.

A condition is read from the left: operators with two operands bind closest, then `!`, `-a` and `-o`. With three or four
arguments the first look goes to the operator in the middle, or to an exclamation mark or parentheses around the rest.
-/

namespace Rulebook

namespace Shell

namespace Builtin

/-- What an argument is in a condition. -/
inductive Operator where
  | unary
  | binary
  | not
  | and
  | or
  | opening
  | closing
deriving DecidableEq

/-- What an argument can be in a condition, besides an operand. -/
def operator? (text : String) : Option Operator :=
  if ["-r", "-w", "-x", "-e", "-f", "-d", "-c", "-b", "-p", "-u", "-g", "-k", "-s", "-t", "-z", "-n", "-h", "-O", "-G",
      "-L", "-S"].contains text then some .unary
  else if ["=", "!=", "<", ">", "-eq", "-ne", "-ge", "-gt", "-le", "-lt", "-nt", "-ot", "-ef"].contains text then
    some .binary
  else
    match text with
    | "!" => some .not
    | "-a" => some .and
    | "-o" => some .or
    | "(" => some .opening
    | ")" => some .closing
    | _ => none

/-- Why a condition has no truth value. -/
abbrev Verdict (α : Type) := Except String α

/-- A number in a condition; blanks may stand around it. -/
def integer (text : String) : Verdict Int :=
  let isBlank (c : Char) : Bool := c == ' ' || (9 ≤ c.toNat && c.toNat ≤ 13)
  let body := text.toList.dropWhile isBlank
  let (negative, digits) := match body with
    | '-' :: rest => (true, rest)
    | '+' :: rest => (false, rest)
    | rest => (false, rest)
  let number := digits.takeWhile Char.isDigit
  let rest := digits.drop number.length
  let n := State.number number
  if number.isEmpty || !rest.all isBlank || twoTo 63 ≤ n then .error ("Illegal number: " ++ text)
  else .ok (if negative then -Int.ofNat n else Int.ofNat n)

/-- What can be at a path. -/
inductive Kind where
  | device
  | pipe
  | directory
  | file (size : Nat)

/-- The kind of a node. -/
def Kind.ofTree : Tree → Kind
  | .directory _ => .directory
  | .file content => .file content.size
  | .link _ => .file 0

/-- What is at the path, links followed. -/
def kind? (s : State) (path : String) : Option Kind :=
  match s.device? path with
  | none => (s.files.get (State.path path)).toOption.map Kind.ofTree
  | some none => none
  | some (some (.handle number)) => (s.files.root.at? (s.handles.getD number default).location).map Kind.ofTree
  | some (some (.source _)) => some .pipe
  | some (some (.sink _)) => some .pipe
  | some (some .null) => some .device
  | some (some .full) => some .device

/-- Is what is at the path of a kind? -/
def isKind (s : State) (path : String) (test : Kind → Bool) : Verdict Bool :=
  .ok ((kind? s path).any test)

/-- Are there bytes in it? -/
def Kind.isFilled : Kind → Bool
  | .directory => true
  | .file size => size != 0
  | _ => false

/-- Is there a link at the path? -/
def isLink (s : State) (path : String) : Bool :=
  let path := State.path path
  match s.files.outerLocation path, (FileSystem.parts path.text).getLast? with
  | .ok location, some name =>
    match s.files.root.at? (location ++ [name]) with
    | some (.link _) => !FileSystem.endsWithSlash path.text
    | _ => false
  | _, _ => false

/-- Can the path be carried out? Directories can be entered, and the programs can be run. -/
def isExecutable (s : State) (path : String) : Bool :=
  s.files.isDirectory (State.path path) || (programAt s.files path).isOk

/-- Does an operator with one operand hold? -/
def holdsOne (s : State) (operator operand : String) : Verdict Bool :=
  match operator with
  | "-z" => .ok operand.isEmpty
  | "-n" => .ok !operand.isEmpty
  | "-t" => (integer operand).map fun _ => false
  | "-f" => isKind s operand (· matches .file _)
  | "-d" => isKind s operand (· matches .directory)
  | "-c" => isKind s operand (· matches .device)
  | "-p" => isKind s operand (· matches .pipe)
  | "-h" => .ok (isLink s operand)
  | "-L" => .ok (isLink s operand)
  | "-s" => isKind s operand Kind.isFilled
  | "-x" => .ok (isExecutable s operand)
  | operator => isKind s operand fun _ => ["-e", "-r", "-w", "-O", "-G"].contains operator

/-- Does an operator with two operands hold? -/
def holdsTwo (s : State) (a operator b : String) : Verdict Bool := do
  match operator with
  | "=" => return a == b
  | "!=" => return a != b
  | "<" => return decide (a < b)
  | ">" => return decide (b < a)
  | "-eq" => return (← integer a) == (← integer b)
  | "-ne" => return (← integer a) != (← integer b)
  | "-ge" => return decide ((← integer b) ≤ (← integer a))
  | "-gt" => return decide ((← integer b) < (← integer a))
  | "-le" => return decide ((← integer a) ≤ (← integer b))
  | "-lt" => return decide ((← integer a) < (← integer b))
  | "-ef" =>
    match s.files.locate (State.path a) false, s.files.locate (State.path b) false with
    | .ok a, .ok b => return a == b
    | _, _ => return false
  | _ => return false

/-- What the first of the arguments is, in the light of those after it; without one it is an operand. -/
def lex (arguments : List String) : Option Operator :=
  match arguments with
  | [] => none
  | text :: rest =>
    match operator? text, rest with
    | some .unary, [] => none
    | some .unary, second :: _ :: _ => if operator? second = some .binary then none else some .unary
    | some .opening, [] => none
    | found, _ => found

/-- A truth value, and the arguments from the last one on that it was read from. -/
abbrev Result := Verdict (Bool × List String)

mutual

/-- Conditions of which one has to hold. -/
def anyOf (s : State) : (fuel : Nat) → Option Operator → List String → Result
  | 0, _, arguments => .ok (false, arguments)
  | fuel + 1, first, arguments => do
    let (a, rest) ← allOf s fuel first arguments
    if lex (rest.drop 1) = some .or then
      let next := rest.drop 2
      let (b, rest) ← anyOf s fuel (lex next) next
      return (a || b, rest)
    else return (a, rest)

/-- Conditions that all have to hold. -/
def allOf (s : State) : (fuel : Nat) → Option Operator → List String → Result
  | 0, _, arguments => .ok (false, arguments)
  | fuel + 1, first, arguments => do
    let (a, rest) ← negation s fuel first arguments
    if lex (rest.drop 1) = some .and then
      let next := rest.drop 2
      let (b, rest) ← allOf s fuel (lex next) next
      return (a && b, rest)
    else return (a, rest)

/-- A condition, after exclamation marks or not. -/
def negation (s : State) : (fuel : Nat) → Option Operator → List String → Result
  | 0, _, arguments => .ok (false, arguments)
  | fuel + 1, first, arguments => do
    if first = some .not then
      let next := arguments.drop 1
      if next.isEmpty then return (true, arguments)
      else
        let (a, rest) ← negation s fuel (lex next) next
        return (!a, rest)
    else primary s fuel first arguments

/-- A condition in parentheses, one with an operator, or an operand that must not be empty. -/
def primary (s : State) : (fuel : Nat) → Option Operator → List String → Result
  | 0, _, arguments => .ok (false, arguments)
  | fuel + 1, first, arguments =>
    match first, arguments with
    | _, [] => .ok (false, [])
    | some .opening, _ :: inner =>
      if lex inner = some .closing then .ok (false, inner)
      else do
        let (a, rest) ← anyOf s fuel (lex inner) inner
        if lex (rest.drop 1) = some .closing then return (a, rest.drop 1) else .error "closing paren expected"
    | some .unary, operator :: rest =>
      match rest with
      | [] => .error (operator ++ ": argument expected")
      | operand :: _ => (holdsOne s operator operand).map (·, rest)
    | _, a :: rest =>
      match lex rest, rest with
      | some .binary, operator :: rest =>
        match rest with
        | [] => .error (operator ++ ": argument expected")
        | b :: _ => (holdsTwo s a operator b).map (·, rest)
      | _, _ => .ok (!a.isEmpty, arguments)

end

/-- Does the condition hold that arguments spell? -/
def condition (s : State) (arguments : List String) : Verdict Bool := do
  let (a, rest) ← anyOf s (4 * arguments.length + 8) (lex arguments) arguments
  match rest with
  | text :: _ :: _ => .error (if text.isEmpty then "unexpected operator" else text ++ ": unexpected operator")
  | _ => return a

/-- The condition of three arguments, and whether it is to be turned around. -/
def conditionOfThree (s : State) (a operator b : String) : Verdict Bool × Bool :=
  if operator? operator = some .binary then (holdsTwo s a operator b, false)
  else if a = "(" ∧ b = ")" then (condition s [operator], false)
  else if a = "!" then (condition s [operator, b], true)
  else (condition s [a, operator, b], false)

/-- Does the condition hold that arguments spell? Three and four of them are looked at in another way first. -/
def conditionOf (s : State) (arguments : List String) : Verdict Bool :=
  match arguments with
  | [] => .ok false
  | [a, operator, b] =>
    let (holds, turned) := conditionOfThree s a operator b
    holds.map (· != turned)
  | [first, a, operator, b] =>
    if first = "(" ∧ b = ")" then condition s [a, operator]
    else if first = "!" then (conditionOfThree s a operator b).1.map not
    else condition s arguments
  | _ => condition s arguments

/-- End well if the condition holds. -/
def test : Builtin := fun arguments s =>
  match conditionOf s arguments with
  | .ok true => .next (s.ended 0)
  | .ok false => .next (s.ended 1)
  | .error message => .fail message s

/-- The condition between brackets. -/
def bracket : Builtin := fun arguments s =>
  match arguments.getLast? with
  | some last => if last.startsWith "]" then test arguments.dropLast s else .fail "missing ]" s
  | none => .fail "missing ]" s

end Builtin

end Shell

end Rulebook

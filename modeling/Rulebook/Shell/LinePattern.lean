import Rulebook.Shell.Pattern
import Rulebook.Shell.State

/-!
# Patterns for lines

A pattern says what has to occur in a line. There are two ways to write them, which differ in what a backslash does to
the characters for groups, choices and repetitions. This module provides:

* `Shell.LinePattern` — a pattern, and `LinePattern.literal`, the one that asks for a text itself;
* `LinePattern.ends` and `LinePattern.accepts` — where a match can end, and does the pattern occur in a line? and
* `LinePattern.parse` — the pattern that a text is, or what is wrong with it.
-/

namespace Rulebook

namespace Shell

/-- The characters that an item of a pattern stands for. -/
inductive LinePattern.Characters where
  | any
  | one (c : Char)
  | among (negated : Bool) (elements : List Pattern.Element)

/-- What has to be true of a place between two characters. -/
inductive LinePattern.Edge where
  | start
  | finish
  | wordStart
  | wordEnd
  | word
  | noWord
deriving DecidableEq

/-- A pattern. -/
inductive LinePattern where
  | nothing
  | one (characters : LinePattern.Characters)
  | between (edge : LinePattern.Edge)
  | both (first second : LinePattern)
  | either (first second : LinePattern)
  /-- So many times at least, and at most if there is a bound. -/
  | repeated (least : Nat) (most? : Option Nat) (inner : LinePattern)

namespace LinePattern

/-- Is the character one of these? -/
def Characters.contain (c : Char) : Characters → Bool
  | .any => true
  | .one d => c == d
  | .among negated elements => elements.any (·.contain c) != negated

/-- Is the character part of a word? -/
def isWordChar (c : Char) : Bool :=
  c.isAlphanum || c == '_'

/-- Is it true of a place, after a character and before another one? -/
def Edge.holds (before? after? : Option Char) : Edge → Bool
  | .start => before?.isNone
  | .finish => after?.isNone
  | .wordStart => !before?.any isWordChar && after?.any isWordChar
  | .wordEnd => before?.any isWordChar && !after?.any isWordChar
  | .word => before?.any isWordChar != after?.any isWordChar
  | .noWord => before?.any isWordChar == after?.any isWordChar

/-- The pattern that asks for a text. -/
def literal (text : List Char) : LinePattern :=
  text.foldr (fun c rest => .both (.one (.one c)) rest) .nothing

/-! ## Matching -/

/-- For each place of a line, is something true of it? -/
def edgeMarks (edge : Edge) (before? : Option Char) : List Char → Marks
  | [] => [edge.holds before? none]
  | c :: rest => edge.holds before? (some c) :: edgeMarks edge (some c) rest

/-- The places after a step that is done any number of times, at most so often. -/
def closure (step : Marks → Marks) : (bound : Nat) → Marks → Marks
  | 0, marks => marks
  | bound + 1, marks =>
    let more := Marks.or marks (step marks)
    if more == marks then marks else closure step bound more

/-- The places after a step that is done a number of times. -/
def iterate (step : Marks → Marks) : (count : Nat) → Marks → Marks
  | 0, marks => marks
  | count + 1, marks => iterate step count (step marks)

/-- The places at which a match can end that starts at a marked place. -/
def ends (line : List Char) : LinePattern → Marks → Marks
  | .nothing, marks => marks
  | .one characters, marks => marks.one characters.contain line
  | .between edge, marks => List.zipWith Bool.and marks (edgeMarks edge none line)
  | .both first second, marks => ends line second (ends line first marks)
  | .either first second, marks => Marks.or (ends line first marks) (ends line second marks)
  | .repeated least most? inner, marks =>
    let bound := match most? with
      | some most => most - least
      | none => line.length + 1
    closure (ends line inner) bound (iterate (ends line inner) least marks)

/-- Every place of a line. -/
def allPlaces (line : List Char) : Marks :=
  true :: line.map fun _ => true

/-- Does the pattern occur in the line? -/
def accepts (pattern : LinePattern) (line : List Char) : Bool :=
  (pattern.ends line (allPlaces line)).contains true

/-- The places of a line, with one of them marked. -/
def onlyPlace (line : List Char) (place : Nat) : Marks :=
  (List.range (line.length + 1)).map (· == place)

/-! ## Reading -/

/-- Why a text is no pattern. -/
inductive Fault where
  | expression
  | openSet
  | openGroup
  | closedGroup
  | openBound
  | bound
  | range
  | className
  | trailingBackslash
deriving DecidableEq

/-- The fault in words. -/
def Fault.message : Fault → String
  | .expression => "Invalid regular expression"
  | .openSet => "Unmatched [, [^, [:, [., or [="
  | .openGroup => "Unmatched ( or \\("
  | .closedGroup => "Unmatched ) or \\)"
  | .openBound => "Unmatched \\\x7b"
  | .bound => "Invalid content of \\\x7b\\\x7d"
  | .range => "Invalid range end"
  | .className => "Invalid character class name"
  | .trailingBackslash => "Trailing backslash"

/-- A pattern and what is left. -/
abbrev Parsed := Except Fault (LinePattern × List Char)

/-- The elements of a set up to its closing bracket, and what follows it. `fuel` bounds the number of characters. -/
def readSet (reversed : List Pattern.Element) (isFirst : Bool) : (fuel : Nat) → List Char →
    Except Fault (List Pattern.Element × List Char)
  | 0, _ => .error .openSet
  | _, [] => .error .openSet
  | fuel + 1, c :: rest =>
    if c = ']' ∧ !isFirst then .ok (reversed.reverse, rest)
    else if c = '[' ∧ rest.head? = some ':' then
      let name := (rest.drop 1).takeWhile (· ≠ ':')
      match rest.drop (name.length + 1) with
      | ':' :: ']' :: after =>
        match Pattern.class? (String.ofList name) with
        | some isIn => readSet (.named isIn :: reversed) false fuel after
        | none => .error .className
      | _ => .error .openSet
    else
      match rest with
      | '-' :: last :: after =>
        if last = ']' then readSet (.range c c :: reversed) false fuel rest
        else if last < c then .error .range
        else readSet (.range c last :: reversed) false fuel after
      | _ => readSet (.range c c :: reversed) false fuel rest

/-- The set after its opening bracket, and what follows it. -/
def readCharacters (chars : List Char) : Except Fault (Characters × List Char) :=
  let (negated, body) := match chars with
    | '^' :: rest => (true, rest)
    | _ => (false, chars)
  if chars.isEmpty then .error .expression
  else (readSet [] true (body.length + 1) body).map fun (elements, rest) => (.among negated elements, rest)

/-- What a letter after a backslash stands for. -/
def escaped (c : Char) : LinePattern :=
  let isBlank (c : Char) : Bool := c == ' ' || (9 ≤ c.toNat && c.toNat ≤ 13)
  match c with
  | 'w' => .one (.among false [.named isWordChar])
  | 'W' => .one (.among true [.named isWordChar])
  | 's' => .one (.among false [.named isBlank])
  | 'S' => .one (.among true [.named isBlank])
  | '<' => .between .wordStart
  | '>' => .between .wordEnd
  | 'b' => .between .word
  | 'B' => .between .noWord
  | '\x60' => .between .start
  | '\'' => .between .finish
  | c => .one (.one c)

/-- The bounds of a repetition and what follows their closing brace. -/
def readBounds (extended : Bool) (chars : List Char) : Except Fault ((Nat × Option Nat) × List Char) :=
  let first := chars.takeWhile Char.isDigit
  let close (bounds : Nat × Option Nat) (rest : List Char) : Except Fault ((Nat × Option Nat) × List Char) :=
    match extended, rest with
    | true, '\x7d' :: rest => .ok (bounds, rest)
    | false, '\\' :: '\x7d' :: rest => .ok (bounds, rest)
    | _, _ => .error (if rest.contains '\x7d' then .bound else .openBound)
  let least := State.number first
  match chars.drop first.length with
  | ',' :: rest =>
    let last := rest.takeWhile Char.isDigit
    let most? := if last.isEmpty then none else some (State.number last)
    if most?.any (· < least) then .error .bound else close (least, most?) (rest.drop last.length)
  | rest => if first.isEmpty then close (0, none) rest else close (least, some least) rest

/-- The repetition that stands here, and what follows it. -/
def readRepetition (extended : Bool) (chars : List Char) : Except Fault (Option ((Nat × Option Nat) × List Char)) :=
  match extended, chars with
  | _, '*' :: rest => .ok (some ((0, none), rest))
  | true, '+' :: rest => .ok (some ((1, none), rest))
  | true, '?' :: rest => .ok (some ((0, some 1), rest))
  | false, '\\' :: '+' :: rest => .ok (some ((1, none), rest))
  | false, '\\' :: '?' :: rest => .ok (some ((0, some 1), rest))
  | false, '\\' :: '\x7b' :: rest => (readBounds false rest).map some
  | true, '\x7b' :: rest =>
    if rest.head?.any fun c => c.isDigit || c == ',' then
      match readBounds true rest with
      | .ok result => .ok (some result)
      | .error _ => .ok none
    else .ok none
  | _, _ => .ok none

/-- The repetitions of a pattern that stand here. `fuel` bounds the number of characters. -/
def readRepetitions (extended : Bool) (pattern : LinePattern) : (fuel : Nat) → List Char →
    Except Fault (LinePattern × List Char)
  | 0, chars => .ok (pattern, chars)
  | fuel + 1, chars => do
    match ← readRepetition extended chars with
    | some ((least, most?), rest) => readRepetitions extended (.repeated least most? pattern) fuel rest
    | none => return (pattern, chars)

/-- Do the characters start with a sign for a choice, and what follows it? -/
def choice? (extended : Bool) : List Char → Option (List Char)
  | '|' :: rest => if extended then some rest else none
  | '\\' :: '|' :: rest => if extended then none else some rest
  | _ => none

/-- Do the characters start with the end of a group, and what follows it? -/
def groupEnd? (extended : Bool) : List Char → Option (List Char)
  | ')' :: rest => if extended then some rest else none
  | '\\' :: ')' :: rest => if extended then none else some rest
  | _ => none

/-- Do the characters start with the start of a group, and what follows it? -/
def groupStart? (extended : Bool) : List Char → Option (List Char)
  | '(' :: rest => if extended then some rest else none
  | '\\' :: '(' :: rest => if extended then none else some rest
  | _ => none

mutual

/-- Choices up to the end of a group or of the pattern. -/
def readChoices (extended : Bool) (depth : Nat) : (fuel : Nat) → List Char → Parsed
  | 0, chars => .ok (.nothing, chars)
  | fuel + 1, chars => do
    let (first, rest) ← readItems extended depth fuel true chars
    match choice? extended rest with
    | some rest =>
      let (second, rest) ← readChoices extended depth fuel rest
      return (.either first second, rest)
    | none => return (first, rest)

/-- Items one after the other. -/
def readItems (extended : Bool) (depth : Nat) : (fuel : Nat) → (isStart : Bool) → List Char → Parsed
  | 0, _, chars => .ok (.nothing, chars)
  | fuel + 1, isStart, chars => do
    let isEnd := chars.isEmpty || (choice? extended chars).isSome ||
      ((groupEnd? extended chars).isSome && (0 < depth || !extended))
    if isEnd then return (.nothing, chars)
    else
      let (item, rest) ← readItem extended depth fuel isStart chars
      let isEdge := match item with
        | .between .start => true
        | _ => false
      let (item, rest) ← if isEdge && !extended then pure (item, rest)
        else readRepetitions extended item (rest.length + 1) rest
      let (more, rest) ← readItems extended depth fuel (isEdge && isStart) rest
      return (.both item more, rest)

/-- A single item. -/
def readItem (extended : Bool) (depth : Nat) : (fuel : Nat) → (isStart : Bool) → List Char → Parsed
  | 0, _, chars => .ok (.nothing, chars)
  | fuel + 1, isStart, chars =>
    match groupStart? extended chars with
    | some rest => do
      let (inner, rest) ← readChoices extended (depth + 1) fuel rest
      match groupEnd? extended rest with
      | some rest => return (inner, rest)
      | none => .error .openGroup
    | none =>
      match chars with
      | [] => .ok (.nothing, [])
      | '.' :: rest => .ok (.one .any, rest)
      | '[' :: rest => (readCharacters rest).map fun (characters, rest) => (.one characters, rest)
      | ['\\'] => .error .trailingBackslash
      | '\\' :: c :: rest => .ok (escaped c, rest)
      | '^' :: rest => .ok (if extended || isStart then .between .start else .one (.one '^'), rest)
      | '$' :: rest =>
        let isLast := rest.isEmpty || (choice? extended rest).isSome || (groupEnd? extended rest).isSome
        .ok (if extended || isLast then .between .finish else .one (.one '$'), rest)
      | c :: rest =>
        if extended && isStart && (c == '*' || c == '+' || c == '?') then .ok (.nothing, rest)
        else .ok (.one (.one c), rest)

end

/-- The pattern of a text. -/
def parse (extended : Bool) (text : List Char) : Except Fault LinePattern :=
  match readChoices extended 0 (4 * text.length + 8) text with
  | .error fault => .error fault
  | .ok (pattern, []) => .ok pattern
  | .ok _ => .error .closedGroup

end LinePattern

end Shell

end Rulebook

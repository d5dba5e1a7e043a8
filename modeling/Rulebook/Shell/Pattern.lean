import Rulebook.Shell.Command
import Rulebook.Text.Marks

/-!
# Patterns

A pattern of a script stands for texts: a star for any characters, a question mark for one, and a set in brackets for
one out of some or besides some. Characters that are quoted stand for themselves. This module provides:

* `Shell.Pattern` — a pattern, and `Shell.Pattern.ofChars`, the one that characters spell;
* `Shell.Pattern.accepts` — does a text match the pattern as a whole? and
* `Shell.Pattern.trim` — a text without a part at one of its ends that matches.
-/

namespace Rulebook

namespace Shell

/-- A character, and whether it is quoted. -/
abbrev MarkedChar := Char × Bool

/-- A part of a set. -/
inductive Pattern.Element where
  | range (first last : Char)
  | named (isIn : Char → Bool)

/-- A piece of a pattern. -/
inductive Pattern.Item where
  | one (c : Char)
  | any
  | star
  | among (negated : Bool) (elements : List Pattern.Element)

/-- A pattern. -/
abbrev Pattern := List Pattern.Item

namespace Pattern

/-! ## Sets -/

/-- The characters of a named class. -/
def class? (name : String) : Option (Char → Bool) :=
  match name with
  | "alpha" => some Char.isAlpha
  | "digit" => some Char.isDigit
  | "alnum" => some Char.isAlphanum
  | "upper" => some Char.isUpper
  | "lower" => some Char.isLower
  | "blank" => some fun c => c == ' ' || c == '\t'
  | "space" => some fun c => c == ' ' || (9 ≤ c.toNat && c.toNat ≤ 13)
  | "cntrl" => some fun c => c.toNat < 32 || c.toNat == 127
  | "print" => some fun c => 32 ≤ c.toNat && c.toNat < 127
  | "graph" => some fun c => 32 < c.toNat && c.toNat < 127
  | "punct" => some fun c => 32 < c.toNat && c.toNat < 127 && !c.isAlphanum
  | "xdigit" => some fun c => c.isDigit || ('a' ≤ c && c ≤ 'f') || ('A' ≤ c && c ≤ 'F')
  | _ => none

/-- The named class that stands here after its opening bracket, and what follows it. -/
def readClass? (chars : List MarkedChar) : Option ((Char → Bool) × List MarkedChar) :=
  match chars with
  | (':', false) :: rest =>
    let name := rest.takeWhile fun c => c.1.isLower
    match rest.drop name.length with
    | (':', _) :: (']', _) :: after =>
      (class? (String.ofList (name.map Prod.fst))).map fun isIn => (isIn, after)
    | _ => none
  | _ => none

/-- The elements of a set up to its closing bracket, and what follows it. `fuel` bounds the number of characters. -/
def readSet (first : Bool) (reversed : List Element) : (fuel : Nat) → List MarkedChar →
    Option (List Element × List MarkedChar)
  | 0, _ => none
  | _, [] => none
  | fuel + 1, (c, quoted) :: rest =>
    if c = ']' ∧ !quoted ∧ !first then some (reversed.reverse, rest)
    else
      match if c = '[' ∧ !quoted then readClass? rest else none with
      | some (isIn, after) => readSet false (.named isIn :: reversed) fuel after
      | none =>
        match rest with
        | ('-', false) :: (last, lastQuoted) :: after =>
          if last = ']' ∧ !lastQuoted then readSet false (.range c c :: reversed) fuel rest
          else readSet false (.range c last :: reversed) fuel after
        | _ => readSet false (.range c c :: reversed) fuel rest

/-- The set after its opening bracket, and what follows it. -/
def readAmong? (chars : List MarkedChar) : Option (Item × List MarkedChar) :=
  let (negated, body) := match chars with
    | ('!', false) :: rest => (true, rest)
    | _ => (false, chars)
  (readSet true [] (body.length + 1) body).map fun (elements, rest) => (.among negated elements, rest)

/-! ## Reading -/

/-- The pieces that characters spell. A bracket that is not closed stands for itself. `fuel` bounds the number of
characters. -/
def readItems : (fuel : Nat) → List MarkedChar → Pattern
  | 0, _ => []
  | _, [] => []
  | fuel + 1, (c, quoted) :: rest =>
    if quoted then .one c :: readItems fuel rest
    else if c = '*' then .star :: readItems fuel rest
    else if c = '?' then .any :: readItems fuel rest
    else if c = '\\' then
      match rest with
      | (next, _) :: after => .one next :: readItems fuel after
      | [] => [.one c]
    else if c = '[' then
      match readAmong? rest with
      | some (item, after) => item :: readItems fuel after
      | none => .one c :: readItems fuel rest
    else .one c :: readItems fuel rest

/-- The pattern that characters spell. -/
def ofChars (chars : List MarkedChar) : Pattern :=
  readItems (chars.length + 1) chars

/-- Does a character that is not quoted have a meaning in patterns? -/
def isActive (chars : List MarkedChar) : Bool :=
  chars.any fun c => !c.2 && (c.1 == '*' || c.1 == '?' || c.1 == '[')

/-! ## Matching -/

/-- Is the character in the part of a set? -/
def Element.contain (c : Char) : Element → Bool
  | .range first last => first ≤ c && c ≤ last
  | .named isIn => isIn c

/-- The places after a piece. -/
def matchItem (input : List Char) (marks : Marks) : Item → Marks
  | .one c => marks.one (· == c) input
  | .any => marks.one (fun _ => true) input
  | .star => marks.any input
  | .among negated elements => marks.one (fun c => elements.any (·.contain c) != negated) input

/-- The places at which a match from the start can end. -/
def ends (pattern : Pattern) (input : List Char) : Marks :=
  pattern.foldl (matchItem input) (Marks.start input)

/-- Does the text match as a whole? -/
def accepts (pattern : Pattern) (input : List Char) : Bool :=
  (pattern.ends input).atEnd

/-! ## Trimming -/

/-- The text without its shortest or longest start that matches; all of it if none does. -/
def trimStart (pattern : Pattern) (longest : Bool) (input : List Char) : List Char :=
  let places := (pattern.ends input).zipIdx.filter Prod.fst
  match if longest then places.getLast? else places.head? with
  | some (_, place) => input.drop place
  | none => input

/-- The text without its shortest or longest end that matches; all of it if none does. -/
def trimEnd (pattern : Pattern) (longest : Bool) (input : List Char) : List Char :=
  let places := (List.range (input.length + 1)).filter fun place => pattern.accepts (input.drop place)
  match if longest then places.head? else places.getLast? with
  | some place => input.take place
  | none => input

/-- The text without a part at one of its ends that matches. -/
def trim (pattern : Pattern) (fromEnd longest : Bool) (input : List Char) : List Char :=
  if fromEnd then pattern.trimEnd longest input else pattern.trimStart longest input

end Pattern

end Shell

end Rulebook

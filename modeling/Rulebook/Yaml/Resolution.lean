import Rulebook.Binary64.Reading
import Rulebook.Value
import Rulebook.Yaml.Tag

/-!
# What a plain scalar means

A plain scalar is null, a truth value, a number or, failing all these, a string. This module provides
`Resolution.plain?` and the readings of the single kinds, which tags ask for too.

Integers of up to 64 bits are numbers. Larger ones of up to 128 bits are refused; still larger decimal ones
are read as doubles.
-/

namespace Rulebook

namespace Yaml

namespace Resolution

/-- The spellings of null, besides leaving it out. -/
def isNull (text : List Char) : Bool :=
  ["~", "null", "Null", "NULL"].any (·.toList == text)

/-- The spellings of the truth values. -/
def bool? (text : List Char) : Option Bool :=
  if ["true", "True", "TRUE"].any (·.toList == text) then some true
  else if ["false", "False", "FALSE"].any (·.toList == text) then some false
  else none

/-- The text without one sign before it. -/
def dropSign : List Char → List Char
  | '+' :: rest => rest
  | '-' :: rest => rest
  | text => text

/-- Digits with a zero too many before them: a text such as `017` is no number. -/
def hasLeadingZero (text : List Char) : Bool :=
  match dropSign text with
  | '0' :: rest => !rest.isEmpty && rest.all Char.isDigit
  | _ => false

/-- The value of digits in a base; a nonempty run of them and nothing else. -/
def digits? (base : Nat) (text : List Char) : Option Nat :=
  if text.isEmpty then none
  else text.foldl (fun value? c =>
    match value?, Quoted.hexDigit? c with
    | some value, some digit => if digit < base then some (base * value + digit) else none
    | _, _ => none) (some 0)

/-- A base named before the digits: hexadecimal, octal or binary. -/
def based? : List Char → Option Nat
  | '0' :: 'x' :: rest => digits? 16 rest
  | '0' :: 'o' :: rest => digits? 8 rest
  | '0' :: 'b' :: rest => digits? 2 rest
  | _ => none

/-- The magnitude that the text without a sign spells. -/
def magnitude? (text : List Char) : Option Nat :=
  match based? text with
  | some n => some n
  | none => if hasLeadingZero text then none else digits? 10 text

/-- The integer that the text spells, of whatever size. -/
def integer? : List Char → Option Int
  | '+' :: rest => (magnitude? rest).map Int.ofNat
  | '-' :: rest => (magnitude? rest).map fun n => -Int.ofNat n
  | text => (magnitude? text).map Int.ofNat

/-- What an integer reading gives. -/
inductive IntegerReading where
  /-- A number of 64 bits. -/
  | number (n : Int)
  /-- A number of more than 64 and at most 128 bits, which is refused. -/
  | refused
  /-- No integer, or one of more than 128 bits. -/
  | other

/-- The text read as an integer. -/
def readInteger (text : List Char) : IntegerReading :=
  match integer? text with
  | none => .other
  | some n =>
    if Number.inRange n then .number n
    else if -Int.ofNat (twoTo 127) ≤ n ∧ n < Int.ofNat (twoTo 128) then .refused
    else .other

/-- The double that the text spells: a decimal whose double is finite, an infinity or NaN. -/
def float? (text : List Char) : Option Binary64 :=
  let isName (names : List String) (text : List Char) : Bool := names.any (·.toList == text)
  let unsigned (negative : Bool) (rest : List Char) : Option Binary64 :=
    if isName [".inf", ".Inf", ".INF"] rest then some (.infinity negative)
    else (Binary64.read? negative rest).filter Binary64.isFinite
  if isName [".nan", ".NaN", ".NAN"] text then some .nan
  else
    match text with
    | '+' :: rest => unsigned false rest
    | '-' :: rest => unsigned true rest
    | _ => unsigned false text

/-- The meaning of a plain scalar; some integers are refused. -/
def plain? (text : String) : Option Value :=
  let chars := text.toList
  if chars.isEmpty || isNull chars then some .null
  else
    match bool? chars with
    | some b => some (.bool b)
    | none =>
      match readInteger chars with
      | .number n => some (.number (.integer n))
      | .refused => none
      | .other =>
        match if hasLeadingZero chars then none else float? chars with
        | some x => some (.number (.float x))
        | none => some (.string text)

/-! ## Tags -/

/-- A scalar under a tag that is not local: of the kind that the tag names, if it names one, or a string. -/
def tagged? (tag : Tag) (text : String) : Option Value :=
  let chars := text.toList
  if tag = Tag.core "bool" then (bool? chars).map .bool
  else if tag = Tag.core "int" then
    match readInteger chars with
    | .number n => some (.number (.integer n))
    | _ => none
  else if tag = Tag.core "float" then (float? chars).map fun x => .number (.float x)
  else if tag = Tag.core "null" then if isNull chars then some .null else none
  else some (.string text)

end Resolution

end Yaml

end Rulebook

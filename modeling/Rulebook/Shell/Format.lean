import Rulebook.Binary64.Reading
import Rulebook.Shell.Command

/-!
# Formats

This module provides what `echo` and `printf` make of texts and numbers:

* `Format.unescape` — a text in which backslashes start escapes;
* `Format.Directive` — a place in a format for an argument;
* `Format.Directive.integer`, `Format.Directive.real` and `Format.Directive.padded` — numbers and texts as a directive
  asks for them; and
* `Format.readSigned`, `Format.readUnsigned` and `Format.readReal` — numbers as arguments spell them.
-/

namespace Rulebook

namespace Shell

namespace Format

/-! ## Escapes -/

/-- Is it a digit to base eight? -/
def isOctal (c : Char) : Bool :=
  decide ('0' ≤ c ∧ c ≤ '7')

/-- The character for the byte that octal digits code, as far as a byte goes. -/
def ofOctal (digits : List Char) : Char :=
  Char.ofNat (digits.foldl (fun n d => 8 * n + (d.toNat - '0'.toNat)) 0 % 256)

/-- The characters that letters after a backslash stand for. -/
def letters : List (Char × Char) :=
  [('\\', '\\'), ('a', '\x07'), ('b', '\x08'), ('e', '\x1b'), ('f', '\x0c'), ('n', '\n'), ('r', '\r'),
   ('t', '\t'), ('v', '\x0b')]

/-- What an escape stands for, and what follows it; a backslash that starts none stands for itself. -/
def escape (chars : List Char) : Char × List Char :=
  match chars with
  | [] => ('\\', [])
  | c :: rest =>
    match letters.lookup c with
    | some control => (control, rest)
    | none =>
      let digits := (chars.take 3).takeWhile isOctal
      if digits.isEmpty then ('\\', chars) else (ofOctal digits, chars.drop digits.length)

/-- A text with its escapes resolved, after the characters read so far, and whether it ends at `\c`. A zero may stand
before the digits of an escape. `fuel` bounds the number of characters. -/
def unescapeFrom (reversed : List Char) : (fuel : Nat) → List Char → List Char × Bool
  | 0, _ => (reversed.reverse, false)
  | _, [] => (reversed.reverse, false)
  | fuel + 1, '\\' :: rest =>
    match rest with
    | 'c' :: _ => (reversed.reverse, true)
    | '0' :: d :: _ =>
      let (c, after) := escape (if isOctal d then rest.drop 1 else rest)
      unescapeFrom (c :: reversed) fuel after
    | _ =>
      let (c, after) := escape rest
      unescapeFrom (c :: reversed) fuel after
  | fuel + 1, c :: rest => unescapeFrom (c :: reversed) fuel rest

/-- A text with its escapes resolved, and whether it ends at `\c`. -/
def unescape (text : String) : List Char × Bool :=
  unescapeFrom [] (text.length + 1) text.toList

/-! ## Directives -/

/-- A place in a format: its flags, the least width, and the precision. -/
structure Directive where
  flags : List Char
  width : Nat
  precision? : Option Nat
deriving Inhabited

namespace Directive

/-- Is the flag there? -/
def has (directive : Directive) (flag : Char) : Bool :=
  directive.flags.contains flag

/-- Blanks or zeros before or after a text. -/
def padded (directive : Directive) (text : List Char) : List Char :=
  let missing := List.replicate (directive.width - text.length) ' '
  if directive.has '-' then text ++ missing else missing ++ text

/-- A text, no longer than the precision. -/
def text (directive : Directive) (chars : List Char) : List Char :=
  directive.padded (match directive.precision? with
    | some precision => chars.take precision
    | none => chars)

/-- A number with its sign or base before its digits; zeros fill the width if `fills` says so. -/
def number (directive : Directive) (fills : Bool) (start digits : List Char) : List Char :=
  if directive.has '0' && !directive.has '-' && fills then
    start ++ List.replicate (directive.width - start.length - digits.length) '0' ++ digits
  else directive.padded (start ++ digits)

/-- What stands for the sign of a number. -/
def sign (directive : Directive) (negative : Bool) : List Char :=
  if negative then ['-']
  else if directive.has '+' then ['+']
  else if directive.has ' ' then [' ']
  else []

/-- Digits, at least as many as the precision asks for. -/
def filled (directive : Directive) (digits : List Char) : List Char :=
  match directive.precision? with
  | some precision =>
    let digits := if precision = 0 ∧ digits = ['0'] then [] else digits
    List.replicate (precision - digits.length) '0' ++ digits
  | none => digits

/-- A signed integer. -/
def integer (directive : Directive) (n : Int) : List Char :=
  let digits := directive.filled (Nat.toDigits 10 n.natAbs)
  directive.number directive.precision?.isNone (directive.sign (n < 0)) digits

/-- An integer without a sign, in the base that a letter asks for. -/
def unsigned (directive : Directive) (letter : Char) (n : Nat) : List Char :=
  let digits := match letter with
    | 'o' => Nat.toDigits 8 n
    | 'x' => Nat.toDigits 16 n
    | 'X' => (Nat.toDigits 16 n).map Char.toUpper
    | _ => Nat.toDigits 10 n
  let digits := directive.filled digits
  let alternate := directive.has '#'
  let digits := if alternate && letter == 'o' && digits.head? != some '0' then '0' :: digits else digits
  let start := if alternate && n != 0 && (letter == 'x' || letter == 'X') then ['0', letter] else []
  directive.number directive.precision?.isNone start digits

/-! ## Reals -/

/-- The decimal digits of a quotient with so many digits after the point, rounded. -/
def fixed (alternate : Bool) (precision num den : Nat) : List Char :=
  let digits := Nat.toDigits 10 (Binary64.roundHalfEven (num * tenTo precision) den)
  let digits := List.replicate (precision + 1 - digits.length) '0' ++ digits
  let whole := digits.take (digits.length - precision)
  if precision = 0 ∧ !alternate then whole else whole ++ '.' :: digits.drop (digits.length - precision)

/-- A quotient over a power of ten, rounded. -/
def scaled (num den : Nat) : Int → Nat
  | .ofNat up => Binary64.roundHalfEven num (den * tenTo up)
  | .negSucc down => Binary64.roundHalfEven (num * tenTo (down + 1)) den

/-- The power of ten of the first of `precision + 1` digits of a quotient, and the number that these digits are. -/
def leading (precision num den : Nat) : Int × Nat :=
  if num = 0 then (0, 0)
  else
    let estimate : Int := Int.ofNat (Nat.toDigits 10 num).length - Int.ofNat (Nat.toDigits 10 den).length
    let isWhole (power : Int) : Bool := match power with
      | .ofNat up => den * tenTo up ≤ num
      | .negSucc down => den ≤ num * tenTo (down + 1)
    let power := if isWhole estimate then estimate else estimate - 1
    let digits := scaled num den (power - Int.ofNat precision)
    if digits = tenTo (precision + 1) then (power + 1, digits / 10) else (power, digits)

/-- The digits of a quotient with a power of ten after them. -/
def powered (alternate : Bool) (letter : Char) (precision num den : Nat) : List Char :=
  let (power, digits) := leading precision num den
  let digits := Nat.toDigits 10 digits
  let digits := digits ++ List.replicate (precision + 1 - digits.length) '0'
  let mantissa := if precision = 0 ∧ !alternate then digits else digits.take 1 ++ '.' :: digits.drop 1
  let exponent := Nat.toDigits 10 power.natAbs
  mantissa ++ [letter, if power < 0 then '-' else '+'] ++ List.replicate (2 - exponent.length) '0' ++ exponent

/-- A text of digits without zeros, and then a point, at the end of its fraction. -/
def withoutZeros (chars : List Char) : List Char :=
  let mantissa := chars.takeWhile fun c => c ≠ 'e' ∧ c ≠ 'E'
  if !mantissa.contains '.' then chars
  else
    let kept := (mantissa.reverse.dropWhile (· == '0'))
    (match kept with
      | '.' :: rest => rest.reverse
      | kept => kept.reverse) ++ chars.drop mantissa.length

/-- The shorter of the two notations for a quotient. -/
def general (alternate : Bool) (letter : Char) (precision num den : Nat) : List Char :=
  let precision := max precision 1
  let (power, _) := leading (precision - 1) num den
  let chars :=
    if -4 ≤ power ∧ power < Int.ofNat precision then
      fixed alternate (Int.ofNat precision - 1 - power).toNat num den
    else powered alternate (if letter = 'G' then 'E' else 'e') (precision - 1) num den
  if alternate then chars else withoutZeros chars

/-- The magnitude of a finite double as a quotient. -/
def quotient (significand : Nat) : Int → Nat × Nat
  | .ofNat up => (significand * twoTo up, 1)
  | .negSucc down => (significand, twoTo (down + 1))

/-- The digits to base sixteen of a significand with a power of two after them: one before the point, and behind it as
many as asked for, or as there are. -/
def binary (alternate : Bool) (precision? : Option Nat) (significand : Nat) (exponent : Int) : List Char :=
  let power := max (Int.ofNat significand.log2 + exponent) (-1022)
  let power := if significand = 0 then 0 else power
  let (num, den) := quotient significand (exponent - power + 52)
  let all := num / den
  let places := precision?.getD 13
  let scaled := if places < 13 then Binary64.roundHalfEven all (twoTo (4 * (13 - places)))
    else all * twoTo (4 * (places - 13))
  let behind := Nat.toDigits 16 (scaled % twoTo (4 * places))
  let behind := List.replicate (places - behind.length) '0' ++ behind
  let behind := if precision?.isNone then (behind.reverse.dropWhile (· == '0')).reverse else behind.take places
  Nat.toDigits 16 (scaled / twoTo (4 * places)) ++ (if behind.isEmpty && !alternate then [] else '.' :: behind) ++
    ['p', if power < 0 then '-' else '+'] ++ Nat.toDigits 10 power.natAbs

/-- A double in the notation that a letter asks for. -/
def real (directive : Directive) (letter : Char) (x : Binary64) : List Char :=
  let isUpper := letter.isUpper
  let named (negative : Bool) (name : String) : List Char :=
    directive.padded (directive.sign negative ++ (if isUpper then name.toUpper else name).toList)
  match x with
  | .nan => named false "nan"
  | .infinity negative => named negative "inf"
  | .finite negative significand exponent _ =>
    let (num, den) := quotient significand exponent
    if letter = 'a' ∨ letter = 'A' then
      let digits := binary (directive.has '#') directive.precision? significand exponent
      let cased := if isUpper then digits.map Char.toUpper else digits
      directive.number true (directive.sign negative ++ ['0', if isUpper then 'X' else 'x']) cased
    else
      let precision := directive.precision?.getD 6
      let alternate := directive.has '#'
      let digits := match letter.toLower with
        | 'e' => powered alternate letter precision num den
        | 'g' => general alternate letter precision num den
        | _ => fixed alternate precision num den
      directive.number true (directive.sign negative) digits

end Directive

/-! ## Reading numbers -/

/-- What a text is read as: a value, what is left of the text, and whether the value had to be cut to fit. -/
structure Reading (α : Type) where
  value : α
  rest : List Char
  isCut : Bool

/-- The value of a digit; letters go on after nine. -/
def digit? (base : Nat) (c : Char) : Option Nat :=
  let value? :=
    if c.isDigit then some (c.toNat - '0'.toNat)
    else if 'a' ≤ c ∧ c ≤ 'f' then some (c.toNat - 'a'.toNat + 10)
    else if 'A' ≤ c ∧ c ≤ 'F' then some (c.toNat - 'A'.toNat + 10)
    else none
  value?.filter (· < base)

/-- The number that digits of a base are. -/
def digitsValue (base : Nat) (digits : List Char) : Nat :=
  digits.foldl (fun n c => base * n + (digit? base c).getD 0) 0

/-- A natural number in the base that its first characters tell; nothing is read if no digit stands here. -/
def readNatural (chars : List Char) : Option (Nat × List Char) :=
  let inBase (base : Nat) (chars : List Char) : Nat × List Char :=
    let digits := chars.takeWhile fun c => (digit? base c).isSome
    (digitsValue base digits, chars.drop digits.length)
  match chars with
  | '0' :: x :: d :: rest =>
    if (x = 'x' ∨ x = 'X') ∧ (digit? 16 d).isSome then some (inBase 16 (d :: rest)) else some (inBase 8 chars)
  | '0' :: _ => some (inBase 8 chars)
  | c :: _ => if c.isDigit then some (inBase 10 chars) else none
  | [] => none

/-- An integer after blanks and a sign. -/
def readInteger (chars : List Char) : Reading Int :=
  let isBlank (c : Char) : Bool := c == ' ' || (9 ≤ c.toNat && c.toNat ≤ 13)
  let (negative, body) := match chars.dropWhile isBlank with
    | '-' :: rest => (true, rest)
    | '+' :: rest => (false, rest)
    | rest => (false, rest)
  match readNatural body with
  | none => ⟨0, chars, false⟩
  | some (n, rest) => ⟨if negative then -Int.ofNat n else Int.ofNat n, rest, false⟩

/-- An integer of 64 bits with a sign. -/
def readSigned (chars : List Char) : Reading Int :=
  let reading := readInteger chars
  let least := -Int.ofNat (twoTo 63)
  let greatest := Int.ofNat (twoTo 63) - 1
  if reading.value < least then { reading with value := least, isCut := true }
  else if greatest < reading.value then { reading with value := greatest, isCut := true }
  else reading

/-- An integer of 64 bits without a sign; a negative one wraps around. -/
def readUnsigned (chars : List Char) : Reading Nat :=
  let reading := readInteger chars
  if reading.value.natAbs < twoTo 64 then ⟨(reading.value % Int.ofNat (twoTo 64)).toNat, reading.rest, false⟩
  else ⟨twoTo 64 - 1, reading.rest, true⟩

/-- The names of what is no number or too great for one, and what comes after them in a text. -/
def readNamed? (negative : Bool) (chars : List Char) : Option (Binary64 × List Char) :=
  let startsWith (name : String) : Bool := (chars.take name.length).map Char.toLower == name.toList
  if startsWith "infinity" then some (.infinity negative, chars.drop 8)
  else if startsWith "inf" then some (.infinity negative, chars.drop 3)
  else if startsWith "nan" then some (.nan, chars.drop 3)
  else none

/-- The greatest power of two that is told apart from greater ones. -/
def greatestPower : Int :=
  100000

/-- Digits to base sixteen, with a point among them and a power of two behind them or not: the number that they are
without the point, the power of two that it is to be taken times, and what comes after. -/
def readHexadecimal? (chars : List Char) : Option (Nat × Int × List Char) :=
  let isDigit (c : Char) : Bool := (digit? 16 c).isSome
  match chars with
  | '0' :: x :: body =>
    if x ≠ 'x' ∧ x ≠ 'X' then none
    else
      let whole := body.takeWhile isDigit
      let (part, rest) := match body.drop whole.length with
        | '.' :: more => (more.takeWhile isDigit, more.dropWhile isDigit)
        | rest => ([], rest)
      if whole.isEmpty && part.isEmpty then none
      else
        let n := digitsValue 16 (whole ++ part)
        let below := Int.ofNat (4 * part.length)
        match readPower? rest with
        | some (power, rest) => some (n, max (-greatestPower) (min greatestPower power) - below, rest)
        | none => some (n, -below, rest)
  | _ => none
where
  readPower? : List Char → Option (Int × List Char)
    | p :: rest =>
      if p ≠ 'p' ∧ p ≠ 'P' then none
      else
        let (negative, body) := match rest with
          | '-' :: rest => (true, rest)
          | '+' :: rest => (false, rest)
          | rest => (false, rest)
        let digits := body.takeWhile Char.isDigit
        let n := Int.ofNat (digitsValue 10 digits)
        if digits.isEmpty then none else some (if negative then -n else n, body.drop digits.length)
    | [] => none

/-- Is the double so small that it has fewer digits than others? -/
def isTiny : Binary64 → Bool
  | .finite _ significand exponent _ => exponent == -1074 && significand < twoTo 52
  | _ => false

/-- Is the double that quotient, up to its sign? -/
def isExactly (num den : Nat) : Binary64 → Bool
  | .finite _ significand exponent _ =>
    let (own, ownDen) := Directive.quotient significand exponent
    own * den == num * ownDen
  | _ => false

/-- A number, whole or not, after blanks and a sign. -/
def readReal (chars : List Char) : Reading Binary64 :=
  let isBlank (c : Char) : Bool := c == ' ' || (9 ≤ c.toNat && c.toNat ≤ 13)
  let (negative, body) := match chars.dropWhile isBlank with
    | '-' :: rest => (true, rest)
    | '+' :: rest => (false, rest)
    | rest => (false, rest)
  match readNamed? negative body, readHexadecimal? body with
  | some (x, rest), _ => ⟨x, rest, false⟩
  | none, some (n, power, rest) =>
    let (num, den) := Directive.quotient n power
    let x := Binary64.ofRatio negative num den
    ⟨x, rest, !x.isFinite || (isTiny x && !isExactly num den x)⟩
  | none, none =>
    let read (n : Nat) : Option (Binary64 × List Char × List Char) :=
      (Binary64.read? negative (body.take n)).map fun x => (x, body.take n, body.drop n)
    match (List.range (body.length + 1)).reverse.findSome? read with
    | some (x, digits, rest) =>
      let isZero := (digits.takeWhile fun c => c ≠ 'e' ∧ c ≠ 'E').all fun c => c == '0' || c == '.'
      ⟨x, rest, !x.isFinite || (isTiny x && !isZero)⟩
    | none => ⟨.zero false, chars, false⟩

end Format

end Shell

end Rulebook

import Rulebook.Binary64.Shortest

/-!
# How a double is written

The digits of a double are its shortest ones; where the point stands and how an exponent looks is a `Layout`.
This module provides `Layout`, the text `Layout.write` of a finite double, and two layouts:

* `Layout.plain` — used for numbers as text (keys, diagnostics): `1.0`, `0.00001`, `1e16`, `1e-7`; and
* `Layout.json` — the same, except that a positive exponent carries its sign: `1e+16`.
-/

namespace Rulebook

/-- The decisions left open by a list of digits and a power of ten. -/
structure Layout where
  /-- Leading powers from here on are written with a point and no exponent. -/
  leastPositional : Int
  /-- Leading powers up to here are written with a point and no exponent. -/
  greatestPositional : Int
  /-- Is a positive exponent preceded by `+`? -/
  plusSign : Bool

namespace Layout

/-- Numbers as text. -/
def plain : Layout := ⟨-5, 15, false⟩

/-- Numbers in JSON. -/
def json : Layout := ⟨-5, 15, true⟩

/-- Digits with the point after the first `whole` of them; zeros fill what is missing on either side, and
one digit stands on each side of the point. -/
def withPoint (digits : List Char) (whole : Int) : List Char :=
  match whole with
  | .ofNat 0 => '0' :: '.' :: digits
  | .ofNat n =>
    let padded := digits ++ List.replicate (n - digits.length) '0'
    let fraction := padded.drop n
    padded.take n ++ '.' :: (if fraction.isEmpty then ['0'] else fraction)
  | .negSucc n => '0' :: '.' :: (List.replicate (n + 1) '0' ++ digits)

/-- Digits in exponent form: one digit, the others after a point, and the leading power. -/
def withExponent (layout : Layout) (digits : List Char) (power : Int) : List Char :=
  let mantissa :=
    match digits with
    | first :: second :: rest => first :: '.' :: second :: rest
    | short => short
  let sign := if layout.plusSign && decide (0 ≤ power) then ['+'] else []
  mantissa ++ 'e' :: (sign ++ (toString power).toList)

/-- A decimal in the layout; zero is written with the leading power zero. -/
def writeDecimal (layout : Layout) (d : Decimal) : List Char :=
  let digits := Nat.toDigits 10 d.digits
  let power := if d.digits = 0 then 0 else d.exponent + Int.ofNat digits.length - 1
  if layout.leastPositional ≤ power ∧ power ≤ layout.greatestPositional then
    withPoint digits (power + 1)
  else
    layout.withExponent digits power

/-- The text of a finite double, its sign first. -/
def write (layout : Layout) (negative : Bool) (significand : Nat) (exponent : Int) : String :=
  let body := layout.writeDecimal (Binary64.shortest significand exponent)
  String.ofList (if negative then '-' :: body else body)

end Layout

namespace Binary64

/-- A double as text; what is not finite has a name. -/
def text : Binary64 → String
  | .nan => ".nan"
  | .infinity false => ".inf"
  | .infinity true => "-.inf"
  | .finite negative significand exponent _ => Layout.plain.write negative significand exponent

example : (zero true).text = "-0.0" := by decide +kernel
example : (ofDecimal false 1 16).text = "1e16" := by decide +kernel
example : (ofDecimal false 1 (-5)).text = "0.00001" := by decide +kernel
example : (ofDecimal false 9007199254740993 0).text = "9007199254740992.0" := by decide +kernel
example : (ofDecimal false 17976931348623157 292).text = "1.7976931348623157e308" := by decide +kernel

end Binary64

end Rulebook

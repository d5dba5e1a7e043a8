import Rulebook.Binary64.Shortest

/-!
# Reading a decimal

An unsigned decimal is written as digits with an optional point among, before or after them, and an optional
exponent: `12`, `1.`, `.5`, `1e+9`. This module provides `Decimal.read?` and `Binary64.read?`.
-/

namespace Rulebook

namespace Decimal

/-- The value of decimal digits, read from the left onto `value`. -/
def digitsValue (value : Nat) (digits : List Char) : Nat :=
  digits.foldl (fun n c => 10 * n + (c.toNat - '0'.toNat)) value

/-- A nonempty run of digits and nothing else. -/
def natural? (chars : List Char) : Option Nat :=
  if chars.isEmpty || !chars.all Char.isDigit then none else some (digitsValue 0 chars)

/-- What follows the mantissa: nothing, or `e`, a sign and digits. -/
def exponent? : List Char → Option Int
  | [] => some 0
  | e :: rest =>
    if e = 'e' ∨ e = 'E' then
      match rest with
      | '+' :: digits => (natural? digits).map Int.ofNat
      | '-' :: digits => (natural? digits).map fun n => -Int.ofNat n
      | digits => (natural? digits).map Int.ofNat
    else none

/-- The digits after the point, if a point stands here, and what follows. -/
def fraction : List Char → List Char × List Char
  | '.' :: rest => rest.span Char.isDigit
  | rest => ([], rest)

/-- An unsigned decimal; the mantissa has at least one digit. -/
def read? (chars : List Char) : Option Decimal :=
  let (whole, rest) := chars.span Char.isDigit
  let (part, rest) := fraction rest
  if whole.isEmpty && part.isEmpty then none
  else (exponent? rest).map fun power =>
    ⟨digitsValue 0 (whole ++ part), power - Int.ofNat part.length⟩

example : read? "12.50e-3".toList = some ⟨1250, -5⟩ := by decide +kernel
example : read? ".".toList = none := by decide +kernel

end Decimal

/-- The double nearest to an unsigned decimal. -/
def Binary64.read? (negative : Bool) (chars : List Char) : Option Binary64 :=
  (Decimal.read? chars).map fun d => .ofDecimal negative d.digits d.exponent

end Rulebook

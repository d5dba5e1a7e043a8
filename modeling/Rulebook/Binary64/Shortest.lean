import Rulebook.Binary64

/-!
# The fewest decimal digits that read back

Every finite double owns an interval of reals that round to it. This module provides:

* `Decimal` — `digits · 10 ^ exponent`;
* `Binary64.Interval` — a double's value and the two ends of its interval over one denominator, each end
  included exactly when the significand is even; and
* `Binary64.shortest` — the first of the grids with 1, 2, … 17 digits that has a point in the interval; of two
  such points the nearer one, of two equally near ones the even one.

If a point of a grid lies in the interval then so does one of the value's two neighbours on that grid, so only
these two are tried.
-/

namespace Rulebook

/-- The number `digits · 10 ^ exponent`. -/
structure Decimal where
  digits : Nat
  exponent : Int
deriving DecidableEq, Repr

namespace Decimal

/-- Drop factors of ten from the digits, at most `fuel` of them. -/
def trimWith : Nat → Decimal → Decimal
  | 0, d => d
  | fuel + 1, d =>
    if d.digits ≠ 0 ∧ d.digits % 10 = 0 then trimWith fuel ⟨d.digits / 10, d.exponent + 1⟩ else d

/-- The same number without trailing zeros among its digits. -/
def trim (d : Decimal) : Decimal :=
  trimWith d.digits.log2 d

end Decimal

namespace Binary64

/-- A positive double `value / den` and the ends `low / den`, `high / den` of the reals that round to it. -/
structure Interval where
  low : Nat
  value : Nat
  high : Nat
  den : Nat
  closed : Bool

/-- The interval of `significand · 2 ^ exponent`. The lower end is a quarter step away where the step below
is half as wide, which is at the powers of two above the least exponent. -/
def interval (significand : Nat) (exponent : Int) : Interval :=
  let below := if significand = twoTo 52 ∧ -1074 < exponent then 1 else 2
  let scale : Nat := match exponent with | .ofNat up => twoTo up | .negSucc _ => 1
  let den : Nat := match exponent with | .ofNat _ => 1 | .negSucc down => twoTo (down + 1)
  { low := (4 * significand - below) * scale
    value := 4 * significand * scale
    high := (4 * significand + 2) * scale
    den := 4 * den
    closed := significand % 2 == 0 }

/-- `10 ^ power ≤ num / den`. -/
def tenPowLe (power : Int) (num den : Nat) : Bool :=
  match power with
  | .ofNat up => decide (tenTo up * den ≤ num)
  | .negSucc down => decide (den ≤ num * tenTo (down + 1))

/-- The power of ten of the leading digit of `num / den`, from an estimate by binary logarithms that is
corrected by comparison. -/
def leadingPower (num den : Nat) : Int :=
  let estimate := (Int.ofNat num.log2 - Int.ofNat den.log2) * 30103 / 100000
  if tenPowLe (estimate + 1) num den then estimate + 1
  else if tenPowLe estimate num den then estimate
  else estimate - 1

namespace Interval

/-- Does `point · 10 ^ power`, given over the interval's denominator scaled by `unit`, round to the double?
`step` is `10 ^ power` on that scale. -/
def admits (i : Interval) (unit step point : Nat) : Bool :=
  if i.closed then
    decide (i.low * unit ≤ point * step) && decide (point * step ≤ i.high * unit)
  else
    decide (i.low * unit < point * step) && decide (point * step < i.high * unit)

/-- The grid point of `10 ^ power` that stands for the interval, if the grid has one. -/
def onGrid? (i : Interval) (power : Int) : Option Decimal :=
  let unit : Nat := match power with | .ofNat _ => 1 | .negSucc down => tenTo (down + 1)
  let step : Nat := i.den * match power with | .ofNat up => tenTo up | .negSucc _ => 1
  let floor := i.value * unit / step
  let twice := 2 * (i.value * unit % step)
  match i.admits unit step floor, i.admits unit step (floor + 1) with
  | false, false => none
  | true, false => some ⟨floor, power⟩
  | false, true => some ⟨floor + 1, power⟩
  | true, true =>
    if twice < step ∨ (twice = step ∧ floor % 2 = 0) then some ⟨floor, power⟩
    else some ⟨floor + 1, power⟩

/-- The first hit on the grids with `count`, `count + 1`, … digits, `fuel` grids at most. -/
def search (i : Interval) (leading : Int) : (fuel count : Nat) → Option Decimal
  | 0, _ => none
  | fuel + 1, count =>
    match i.onGrid? (leading - count + 1) with
    | some d => some d
    | none => i.search leading fuel (count + 1)

end Interval

/-- The fewest digits that read back as `significand · 2 ^ exponent`. -/
def shortest (significand : Nat) (exponent : Int) : Decimal :=
  if significand = 0 then ⟨0, 0⟩
  else
    let i := interval significand exponent
    match i.search (leadingPower i.value i.den) 17 1 with
    | some d => d.trim
    | none => ⟨0, 0⟩

example : shortest (twoTo 52) (-52) = ⟨1, 0⟩ := by decide +kernel
example : shortest 1 (-1074) = ⟨5, -324⟩ := by decide +kernel

end Binary64

end Rulebook

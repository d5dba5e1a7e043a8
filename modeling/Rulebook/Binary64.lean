import Rulebook.Power

/-!
# Double-precision numbers

A double is NaN, an infinity, or `± significand · 2 ^ exponent` in canonical form. This module provides:

* `Binary64` — the type; the canonical form is part of it, so two finite doubles are equal exactly when
  sign, significand and exponent are;
* `Binary64.ofRatio` — the double nearest to a quotient of naturals, a tie going to the even significand;
* `Binary64.ofDecimal` — the double nearest to `digits · 10 ^ exponent`; and
* `Binary64.same` — numeric equality, under which NaN equals itself and the two zeros are one number.

Everything is exact arithmetic on `Nat` and `Int`.
-/

namespace Rulebook

/-- A finite double's significand and exponent: fewer than 54 bits, normal unless at the least exponent. -/
structure Canonical (significand : Nat) (exponent : Int) : Prop where
  significand_lt : significand < twoTo 53
  least_le : -1074 ≤ exponent
  le_greatest : exponent ≤ 971
  normal_or_least : twoTo 52 ≤ significand ∨ exponent = -1074

instance (significand : Nat) (exponent : Int) : Decidable (Canonical significand exponent) :=
  if h : significand < twoTo 53 ∧ -1074 ≤ exponent ∧ exponent ≤ 971 ∧
      (twoTo 52 ≤ significand ∨ exponent = -1074) then
    .isTrue ⟨h.1, h.2.1, h.2.2.1, h.2.2.2⟩
  else
    .isFalse fun c => h ⟨c.1, c.2, c.3, c.4⟩

/-- A double-precision number; all NaNs are one value. -/
inductive Binary64 where
  | nan
  | infinity (negative : Bool)
  | finite (negative : Bool) (significand : Nat) (exponent : Int)
      (canonical : Canonical significand exponent)
deriving DecidableEq

namespace Binary64

/-- The zero of the given sign. -/
def zero (negative : Bool) : Binary64 :=
  .finite negative 0 (-1074) ⟨by decide, by decide, by decide, .inr rfl⟩

instance : Inhabited Binary64 := ⟨zero false⟩

/-- The quotient rounded to the nearest natural number, a half going to the even neighbour. -/
def roundHalfEven (num den : Nat) : Nat :=
  let quotient := num / den
  let twice := 2 * (num % den)
  if twice < den then quotient
  else if den < twice then quotient + 1
  else quotient + quotient % 2

/-- `num / den / 2 ^ exponent`, rounded half to even. -/
def roundAt (num den : Nat) (exponent : Int) : Nat :=
  match exponent with
  | .ofNat up => roundHalfEven num (den * twoTo up)
  | .negSucc down => roundHalfEven (num * twoTo (down + 1)) den

/-- The exponent of the grid on which `num / den` has a 53-bit significand, or the least exponent. -/
def gridExponent (num den : Nat) : Int :=
  let estimate : Int := Int.ofNat num.log2 - Int.ofNat den.log2 - 53
  let wide : Bool :=
    match estimate with
    | .ofNat up => decide (twoTo 53 * twoTo up * den ≤ num)
    | .negSucc down => decide (twoTo 53 * den ≤ num * twoTo (down + 1))
  max (-1074) (if wide then estimate + 1 else estimate)

/-- The double nearest to `num / den`; a significand that rounds up to `2 ^ 53` moves to the next
exponent, and what lies beyond the greatest exponent is an infinity. -/
def ofRatio (negative : Bool) (num den : Nat) : Binary64 :=
  if num = 0 then zero negative
  else
    let exponent := gridExponent num den
    let rounded := roundAt num den exponent
    let (significand, exponent) :=
      if rounded = twoTo 53 then (twoTo 52, exponent + 1) else (rounded, exponent)
    if h : Canonical significand exponent then .finite negative significand exponent h
    else .infinity negative

/-- The number of decimal digits of a natural number, counting one for zero. -/
def decimalDigits (n : Nat) : Nat :=
  (Nat.toDigits 10 n).length

/-- The double nearest to `digits · 10 ^ exponent`. A value of 311 or more integer digits is infinite and
one below `10 ^ -330` is zero; neither is expanded. -/
def ofDecimal (negative : Bool) (digits : Nat) (exponent : Int) : Binary64 :=
  let magnitude := Int.ofNat (decimalDigits digits) + exponent
  if digits = 0 ∨ magnitude < -330 then zero negative
  else if 310 < magnitude then .infinity negative
  else
    match exponent with
    | .ofNat up => ofRatio negative (digits * tenTo up) 1
    | .negSucc down => ofRatio negative digits (tenTo (down + 1))

/-- Neither NaN nor an infinity. -/
def isFinite : Binary64 → Bool
  | .finite .. => true
  | _ => false

/-- Numeric equality, with NaN equal to itself. -/
def same : Binary64 → Binary64 → Bool
  | .finite s m e _, .finite s' m' e' _ => m == m' && e == e' && (s == s' || m == 0)
  | x, y => decide (x = y)

@[simp] theorem same_refl (x : Binary64) : x.same x = true := by
  cases x <;> simp [same]

end Binary64

end Rulebook

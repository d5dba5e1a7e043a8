import Rulebook.Binary64.Layout

/-!
# Numbers of a document

A number is an integer or a double; the two kinds never equal each other, whatever their value. This module
provides `Number`, its text and its equality.
-/

namespace Rulebook

/-- An integer or a double. -/
inductive Number where
  | integer (n : Int)
  | float (x : Binary64)
deriving DecidableEq, Inhabited

namespace Number

/-- The integers a document can hold: those of 64 bits, with or without a sign. -/
def inRange (n : Int) : Bool :=
  decide (-Int.ofNat (twoTo 63) ≤ n) && decide (n < Int.ofNat (twoTo 64))

/-- The number as text; a double always shows a point, an exponent or a name. -/
def text : Number → String
  | .integer n => toString n
  | .float x => x.text

/-- Equality of numbers: doubles numerically, with NaN equal to itself. -/
def same : Number → Number → Bool
  | .integer m, .integer n => m == n
  | .float x, .float y => x.same y
  | _, _ => false

@[simp] theorem same_refl (n : Number) : n.same n = true := by
  cases n <;> simp [same]

end Number

end Rulebook

/-!
# Powers of two and ten

The layouts of numbers are made of powers of two and of ten, which are `twoTo` and `tenTo`.
-/

namespace Rulebook

/-- The power of two with an exponent. -/
def twoTo (exponent : Nat) : Nat :=
  Nat.pow 2 exponent

/-- The power of ten with an exponent. -/
def tenTo (exponent : Nat) : Nat :=
  Nat.pow 10 exponent

end Rulebook

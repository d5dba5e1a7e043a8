import Rulebook.RuleSet

/-!
# Fragments

A rule set is written in several fragments. This module provides `Fragment` and `Fragment.merge`: where two
fragments define a rule, the entry of the later one stands, as a whole, in the place of the earlier one.
-/

namespace Rulebook

/-- The rules of one source. -/
structure Fragment where
  source : String
  rules : RuleSet

namespace Fragment

/-- The rules of all fragments, merged in order. -/
def merge (fragments : List Fragment) : RuleSet :=
  fragments.foldl (fun merged fragment => merged.insertAll fragment.rules.entries) .empty

end Fragment

end Rulebook

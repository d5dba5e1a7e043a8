import Rulebook.Attribute
import Rulebook.RuleSet

/-!
# Consistency of a rule set

Checks that need no knowledge of formulas. This module provides:

* `Consistency.Problem` — the faults and their wording, one line each; and
* `Consistency.problems` — all faults: a missing root rule first, then those of each rule in order.

A rule is a formula, written as a scalar, or a mapping of attributes; where it has suggestions, of its own or in
its mosaique, these are mappings. The last two are asked through tags, the first is not.
-/

namespace Rulebook

namespace Consistency

/-- A fault of a rule set. -/
inductive Problem where
  /-- The root rule is not defined. -/
  | missingRoot (root : String)
  /-- A rule is neither a mapping nor a formula. -/
  | notRule (name : String) (found : Value)
  /-- Something that must be a mapping inside a rule is none. -/
  | notMapping (name path : String) (found : Value)

/-- The fault in words. -/
def Problem.message : Problem → String
  | .missingRoot root => "root rule '" ++ root ++ "' is not defined"
  | .notRule name found => "rule '" ++ name ++ "' must be a mapping or a formula, found " ++ found.kind
  | .notMapping name path found =>
    "rule '" ++ name ++ "': '" ++ path ++ "' must be a mapping, found " ++ found.kind

/-- The fault that a value which must be a mapping is none. -/
def mappingProblems (name path : String) (value : Value) : List Problem :=
  if value.isMapping then [] else [.notMapping name path value]

/-- The fault of a rule's own suggestions. -/
def suggestionsProblems (name : String) (attributes : List (Value × Value)) : List Problem :=
  match Value.lookup? (.string Attribute.suggestionsName) attributes with
  | none => []
  | some suggestions => mappingProblems name Attribute.suggestionsName suggestions

/-- The fault of a rule's mosaique. -/
def mosaiqueProblems (name : String) (attributes : List (Value × Value)) : List Problem :=
  match Value.lookup? (.string Attribute.mosaiqueName) attributes with
  | none => []
  | some mosaique =>
    match mosaique.entries? with
    | none => [.notMapping name Attribute.mosaiqueName mosaique]
    | some fields =>
      match Value.lookup? (.string Attribute.suggestionsName) fields with
      | none => []
      | some nested => mappingProblems name Attribute.nestedPath nested

/-- The faults of a rule. -/
def ruleProblems (name : String) : Value → List Problem
  | .null => []
  | .bool _ => []
  | .number _ => []
  | .string _ => []
  | .mapping attributes => suggestionsProblems name attributes ++ mosaiqueProblems name attributes
  | other => [.notRule name other]

/-- The fault that the root rule is missing; an empty name asks for none. -/
def rootProblems (root? : Option String) (rules : RuleSet) : List Problem :=
  match root? with
  | none => []
  | some root => if root.isEmpty || rules.contains root then [] else [.missingRoot root]

/-- All faults of a rule set. -/
def problems (root? : Option String) (rules : RuleSet) : List Problem :=
  rootProblems root? rules ++ rules.entries.flatMap fun entry => ruleProblems entry.1 entry.2

end Consistency

end Rulebook

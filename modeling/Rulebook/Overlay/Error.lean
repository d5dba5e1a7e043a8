/-!
# What can be wrong with a localization

This module provides `Overlay.Error`, the causes for which a localization, an entry of it or an attribute of an
entry cannot be laid over a rule set; the rule an error is about; and the wording.

A `path` names a place inside a rule, such as `mosaique.suggestions`.
-/

namespace Rulebook

namespace Overlay

/-- Why a localization does not fit. -/
inductive Error where
  /-- The document is neither null nor a mapping. -/
  | invalidRoot
  /-- An entry is no mapping of attributes, or an attribute's name is no scalar. -/
  | invalidEntry (rule : String)
  /-- The base rules do not define the rule. -/
  | unknownRule (rule : String)
  /-- The base rule holds no attributes. -/
  | notAttributeMapping (rule : String)
  /-- The base rule has no mapping of suggestions there. -/
  | missingSuggestions (rule path : String)
  /-- The localized suggestions are no list. -/
  | expectedKeyList (rule path : String)
  /-- A localized suggestion is no scalar. -/
  | invalidKey (rule path : String) (index : Nat)
  /-- Two localized suggestions have the same text. -/
  | duplicateKey (rule path key : String)
  /-- There are more or fewer localized suggestions than suggestions. -/
  | countMismatch (rule path : String) (expected found : Nat)
  /-- A localized mosaique has no suggestions. -/
  | malformedMosaique (rule : String)
deriving DecidableEq

namespace Error

/-- The rule an error is about. -/
def rule? : Error → Option String
  | .invalidRoot => none
  | .invalidEntry rule => some rule
  | .unknownRule rule => some rule
  | .notAttributeMapping rule => some rule
  | .missingSuggestions rule _ => some rule
  | .expectedKeyList rule _ => some rule
  | .invalidKey rule _ _ => some rule
  | .duplicateKey rule _ _ => some rule
  | .countMismatch rule _ _ _ => some rule
  | .malformedMosaique rule => some rule

/-- The error in words. -/
def message : Error → String
  | .invalidRoot => "translation document must be a mapping of rule names"
  | .invalidEntry rule => "translation of rule '" ++ rule ++ "' must be an attribute mapping"
  | .unknownRule rule => "rule '" ++ rule ++ "' is translated but not defined in the base rules"
  | .notAttributeMapping rule =>
    "base rule '" ++ rule ++ "' is a scalar and cannot hold translated attributes"
  | .missingSuggestions rule path => "rule '" ++ rule ++ "' has no '" ++ path ++ "' mapping to translate"
  | .expectedKeyList rule path =>
    "translated '" ++ path ++ "' of rule '" ++ rule ++ "' must be a list of keys"
  | .invalidKey rule path index =>
    "translated '" ++ path ++ "' of rule '" ++ rule ++ "' has a non-scalar key at position " ++ toString index
  | .duplicateKey rule path key =>
    "translated '" ++ path ++ "' of rule '" ++ rule ++ "' repeats the key '" ++ key ++ "'"
  | .countMismatch rule path expected found =>
    "translated '" ++ path ++ "' of rule '" ++ rule ++ "' has " ++ toString found ++ " keys, expected " ++
      toString expected
  | .malformedMosaique rule =>
    "translated 'mosaique' of rule '" ++ rule ++ "' must be a mapping with a 'suggestions' list"

end Error

end Overlay

end Rulebook

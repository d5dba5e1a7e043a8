import Rulebook.Overlay.Error
import Rulebook.Value

/-!
# Localized attributes

Each attribute of a localization merges into a rule in one of four ways. This module provides:

* `Attribute` — the four ways, and `Attribute.classify`, which picks one by the attribute's name;
* `Attribute.readKeys` — the texts of a list of suggestion keys, no text twice;
* `Attribute.rebind` — a mapping of suggestions under other keys, its values kept in their order; and
* `Attribute.merge` — the rule with the attribute merged into it.

`merge` is a function of the rule as it was, so an attribute that cannot be merged changes nothing.
-/

namespace Rulebook

/-- How a localized attribute merges into a rule. -/
inductive Attribute where
  /-- A note on what the localization was made from; it changes nothing. -/
  | reference
  /-- Other keys for the rule's suggestions, by position. -/
  | suggestions (keys : List String)
  /-- Other keys for the suggestions of the rule's mosaique, by position. -/
  | mosaique (keys : List String)
  /-- A value that replaces the attribute as a whole. -/
  | plain (value : Value)

namespace Attribute

open Overlay (Error)

/-- The name of the ordered suggestions. -/
def suggestionsName : String :=
  "suggestions"

/-- The name of the attribute that nests suggestions of its own. -/
def mosaiqueName : String :=
  "mosaique"

/-- The place of the nested suggestions inside a rule. -/
def nestedPath : String :=
  "mosaique.suggestions"

/-- Does the name mark a reference? -/
def isReferenceName (name : String) : Bool :=
  ".ref".toList.isSuffixOf name.toList

/-- The texts of the items from position `index` on, given the texts before. -/
def readKeysFrom (rule path : String) (index : Nat) (seen : List String) :
    List Value → Except Error (List String)
  | [] => .ok []
  | item :: rest =>
    match item.keyText? with
    | none => .error (.invalidKey rule path index)
    | some key =>
      if key ∈ seen then .error (.duplicateKey rule path key)
      else (readKeysFrom rule path (index + 1) (key :: seen) rest).map (key :: ·)

/-- The texts of a list of keys, possibly tagged; the first item that is no scalar or repeats a text is the
error. -/
def readKeys (rule path : String) (value : Value) : Except Error (List String) :=
  match value.items? with
  | none => .error (.expectedKeyList rule path)
  | some items => readKeysFrom rule path 0 [] items

/-- The way in which an attribute of this name and value merges. -/
def classify (rule name : String) (value : Value) : Except Error Attribute :=
  if isReferenceName name then .ok .reference
  else if name = suggestionsName then (readKeys rule suggestionsName value).map .suggestions
  else if name = mosaiqueName then
    match value.get? suggestionsName with
    | none => .error (.malformedMosaique rule)
    | some nested => (readKeys rule nestedPath nested).map .mosaique
  else .ok (.plain value)

/-- Suggestions under other keys: the keys in their order with the values in theirs. -/
def rebind (rule path : String) (base : List (Value × Value)) (keys : List String) : Except Error Value :=
  if keys.length = base.length then
    .ok (.ofPairs ((keys.map Value.string).zip (base.map Prod.snd)))
  else .error (.countMismatch rule path base.length keys.length)

/-- The attributes of a rule; a rule without entry, tagged or not, has none yet. -/
def attributesOf (rule : String) (target : Value) : Except Error (List (Value × Value)) :=
  if target.isNull then .ok []
  else
    match target with
    | .mapping attributes => .ok attributes
    | _ => .error (.notAttributeMapping rule)

/-- The rule with an attribute set. -/
def setAttribute (rule name : String) (value target : Value) : Except Error Value :=
  (attributesOf rule target).map fun attributes => .mapping (Value.put (.string name) value attributes)

/-- The rule with the attribute merged into it. -/
def merge (rule name : String) (change : Attribute) (target : Value) : Except Error Value :=
  match change with
  | .reference => .ok target
  | .plain value => setAttribute rule name value target
  | .suggestions keys =>
    match (target.get? suggestionsName).bind Value.entries? with
    | none => .error (.missingSuggestions rule suggestionsName)
    | some base =>
      match rebind rule suggestionsName base keys with
      | .error error => .error error
      | .ok rebound => setAttribute rule suggestionsName rebound target
  | .mosaique keys =>
    match ((target.get? mosaiqueName).bind (·.get? suggestionsName)).bind Value.entries? with
    | none => .error (.missingSuggestions rule nestedPath)
    | some base =>
      match rebind rule nestedPath base keys with
      | .error error => .error error
      | .ok rebound =>
        match target.get? mosaiqueName with
        | some (.mapping fields) =>
          .ok (target.mapEntries (Value.put (.string mosaiqueName)
            (.mapping (Value.put (.string suggestionsName) rebound fields))))
        | _ => .error (.missingSuggestions rule nestedPath)

end Attribute

end Rulebook

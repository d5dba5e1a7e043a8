import Rulebook.Localization
import Rulebook.Attribute
import Rulebook.RuleSet
import Rulebook.Value.Outline

/-!
# Laying a localization over a rule set

Entry by entry and attribute by attribute, in document order. This module provides:

* `Overlay.Options` — skip what does not fit, and drop entries of rules that are not defined;
* `Overlay.Stats` — what was done, which adds up over attributes and entries; and
* `Overlay.attributeStep`, `Overlay.attributes`, `Overlay.entryStep`, `Overlay.entries`, `Overlay.apply` — the
  rules with one attribute, the attributes of an entry, one entry, several entries and a whole localization
  merged in.
-/

namespace Rulebook

namespace Overlay

/-- How strictly a localization is applied. -/
structure Options where
  /-- What does not fit is skipped and the base value kept. -/
  lenient : Bool
  /-- Entries of rules that are not defined are dropped. -/
  prune : Bool
deriving DecidableEq

/-- Nothing is skipped and nothing dropped. -/
def Options.strict : Options :=
  ⟨false, false⟩

/-- What an overlay did. -/
structure Stats where
  rulesLocalized : Nat
  attributesApplied : Nat
  referencesSkipped : Nat
  attributesSkipped : Nat
  unknownRulesPruned : Nat
deriving DecidableEq

namespace Stats

/-- Nothing was done. -/
def zero : Stats :=
  ⟨0, 0, 0, 0, 0⟩

instance : Inhabited Stats := ⟨zero⟩

/-- Counter by counter. -/
def add (a b : Stats) : Stats where
  rulesLocalized := a.rulesLocalized + b.rulesLocalized
  attributesApplied := a.attributesApplied + b.attributesApplied
  referencesSkipped := a.referencesSkipped + b.referencesSkipped
  attributesSkipped := a.attributesSkipped + b.attributesSkipped
  unknownRulesPruned := a.unknownRulesPruned + b.unknownRulesPruned

instance : Add Stats := ⟨add⟩

/-- One attribute was merged. -/
def applied : Stats :=
  { zero with attributesApplied := 1 }

/-- One reference was passed over. -/
def reference : Stats :=
  { zero with referencesSkipped := 1 }

/-- One item did not fit and was skipped. -/
def skipped : Stats :=
  { zero with attributesSkipped := 1 }

/-- One entry of an unknown rule was dropped. -/
def pruned : Stats :=
  { zero with unknownRulesPruned := 1 }

/-- The counters of one entry's attributes, with the rule counted if any of them was merged. -/
def closeEntry (s : Stats) : Stats :=
  { s with rulesLocalized := if s.attributesApplied = 0 then 0 else 1 }

end Stats

/-- A merge in progress: what it gave, and what was done for it. -/
abbrev Progress (α : Type) := Except Error (α × Stats)

/-- What an error means: the end of the overlay, or one item more that was skipped. -/
def tolerate {α : Type} (options : Options) (error : Error) (unchanged : α) : Progress α :=
  if options.lenient then .ok (unchanged, .skipped) else .error error

/-- Do one step for each item, one after the other, and add up what was done. -/
def steps {α β : Type} (step : α → β → Progress β) : List α → β → Progress β
  | [], state => .ok (state, .zero)
  | item :: rest, state =>
    match step item state with
    | .error error => .error error
    | .ok (next, done) =>
      match steps step rest next with
      | .error error => .error error
      | .ok (last, further) => .ok (last, done + further)

/-- Merge one attribute into a rule, or the reason why it cannot be. -/
def mergeAttribute (rule : String) (key value target : Value) : Progress Value :=
  match key.keyText? with
  | none => .error (.invalidEntry rule)
  | some name =>
    match Attribute.classify rule name value with
    | .error error => .error error
    | .ok .reference => .ok (target, .reference)
    | .ok change => (change.merge rule name target).map fun merged => (merged, .applied)

/-- Merge one attribute into a rule. -/
def attributeStep (options : Options) (rule : String) (item : Value × Value) (target : Value) : Progress Value :=
  match mergeAttribute rule item.1 item.2 target with
  | .ok progress => .ok progress
  | .error error => tolerate options error target

/-- Merge attributes into a rule. -/
def attributes (options : Options) (rule : String) : List (Value × Value) → Value → Progress Value :=
  steps (attributeStep options rule)

/-- Merge one entry of a localization. -/
def entryStep (options : Options) (item : Value × Value) (rules : RuleSet) : Progress RuleSet :=
  match item.1.keyText? with
  | none => tolerate options (.invalidEntry item.1.outline) rules
  | some rule =>
    match rules.get? rule with
    | none => if options.prune then .ok (rules, .pruned) else .error (.unknownRule rule)
    | some target =>
      match item.2 with
      | .mapping localized =>
        (attributes options rule localized target).map fun (merged, done) =>
          (rules.insert rule merged, done.closeEntry)
      | .null => .ok (rules, .zero)
      | _ => tolerate options (.invalidEntry rule) rules

/-- Merge entries of a localization. -/
def entries (options : Options) : List (Value × Value) → RuleSet → Progress RuleSet :=
  steps (entryStep options)

/-- The base rules with a localization laid over them, and what was done. -/
def apply (options : Options) (localization : Localization) (base : RuleSet) : Progress RuleSet :=
  entries options localization.entries base

end Overlay

end Rulebook

import Rulebook.Overlay.Error
import Rulebook.Value

/-!
# Localizations

A localization names, for some rules, attributes in another language. Its entries are kept as the document has
them: whether an entry fits is asked when it is laid over a rule. This module provides `Localization` and
`Localization.ofValue`.
-/

namespace Rulebook

/-- Localized attributes by rule, in document order. -/
structure Localization where
  entries : List (Value × Value)

namespace Localization

/-- No entries. -/
def empty : Localization :=
  ⟨[]⟩

instance : Inhabited Localization := ⟨empty⟩

/-- The localization of a document; null is the empty one. -/
def ofValue : Value → Except Overlay.Error Localization
  | .null => .ok empty
  | .mapping entries => .ok ⟨entries⟩
  | _ => .error .invalidRoot

/-- Equality, whatever the order of the entries. -/
def same (a b : Localization) : Bool :=
  (Value.mapping a.entries).same (.mapping b.entries)

end Localization

end Rulebook

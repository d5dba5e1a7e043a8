import Rulebook.Entries
import Rulebook.Number

/-!
# Document values

A document is a tree of scalars, lists, mappings and tagged values. This module provides:

* `Value` — the tree; a mapping is the list of its entries in order, its keys being values themselves;
* views that look through tags: `Value.untag`, `Value.isNull`, `Value.items?`, `Value.entries?`, `Value.get?`;
* `Value.kind` and `Value.keyText?` — the kind of a value in words, and the text of a scalar used as a key;
* `Value.same` — equality that ignores the order of a mapping's entries; and
* `Value.WellFormed` — no mapping at any depth has two entries with the same key.
-/

namespace Rulebook

/-- A document. A tag is held without its leading `!`. -/
inductive Value where
  | null
  | bool (b : Bool)
  | number (n : Number)
  | string (s : String)
  | list (items : List Value)
  | mapping (entries : List (Value × Value))
  | tagged (tag : String) (content : Value)
deriving Inhabited

namespace Value

/-- The name of a tag that is written with or without a leading exclamation mark; a lone one is a name. -/
def tagName (text : String) : String :=
  match text.toList with
  | '!' :: c :: rest => String.ofList (c :: rest)
  | _ => text

/-- How a tag is written. -/
def tagText (tag : String) : String :=
  "!" ++ tag

/-- The value below all tags. -/
def untag : Value → Value
  | .tagged _ content => content.untag
  | v => v

/-- Null, possibly tagged. -/
def isNull (v : Value) : Bool :=
  match v.untag with
  | .null => true
  | _ => false

/-- The items of a list, possibly tagged. -/
def items? (v : Value) : Option (List Value) :=
  match v.untag with
  | .list items => some items
  | _ => none

/-- The entries of a mapping, possibly tagged. -/
def entries? (v : Value) : Option (List (Value × Value)) :=
  match v.untag with
  | .mapping entries => some entries
  | _ => none

/-- A mapping, possibly tagged. -/
def isMapping (v : Value) : Bool :=
  v.entries?.isSome

/-- The kind of a value, in words. -/
def kind : Value → String
  | .null => "null"
  | .bool _ => "a boolean"
  | .number _ => "a number"
  | .string _ => "a string"
  | .list _ => "a list"
  | .mapping _ => "a mapping"
  | .tagged _ _ => "a tagged value"

/-- The text of a truth value. -/
def boolText (b : Bool) : String :=
  if b then "true" else "false"

/-- The text that stands for a scalar used as a key; null, lists and mappings have none. -/
def keyText? : Value → Option String
  | .string s => some s
  | .number n => some n.text
  | .bool b => some (boolText b)
  | .tagged _ content => content.keyText?
  | .null => none
  | .list _ => none
  | .mapping _ => none

/-! ## Equality -/

mutual

/-- Equality of documents. Lists are equal item by item; mappings are equal when they have as many entries
and each entry of one has an equal entry in the other, in any order. -/
def same : Value → Value → Bool
  | .null, .null => true
  | .bool a, .bool b => a == b
  | .number m, .number n => m.same n
  | .string s, .string t => s == t
  | .list xs, .list ys => sameItems xs ys
  | .mapping es, .mapping fs => es.length == fs.length && entriesIn fs es
  | .tagged s x, .tagged t y => s == t && same x y
  | _, _ => false

/-- Equality item by item. -/
def sameItems : List Value → List Value → Bool
  | [], [] => true
  | x :: xs, y :: ys => same x y && sameItems xs ys
  | _, _ => false

/-- Has each of the entries an equal one in `others`? -/
def entriesIn (others : List (Value × Value)) : List (Value × Value) → Bool
  | [] => true
  | (k, v) :: rest => others.any (fun other => same k other.1 && same v other.2) && entriesIn others rest

end

/-! ## Mappings -/

/-- The value under a key. -/
abbrev lookup? (key : Value) (entries : List (Value × Value)) : Option Value :=
  Entries.get? same key entries

/-- Give a key a value, in place if the key has an entry, else at the end. -/
abbrev put (key value : Value) (entries : List (Value × Value)) : List (Value × Value) :=
  Entries.put same key value entries

/-- The mapping of the pairs, of which a later one replaces the value of an earlier one with the same key. -/
def ofPairs (pairs : List (Value × Value)) : Value :=
  .mapping (Entries.ofPairs same pairs)

/-- The value under a name in a mapping, both possibly tagged. -/
def get? (v : Value) (name : String) : Option Value :=
  v.entries?.bind (lookup? (.string name))

/-- Change the entries of a mapping, possibly tagged; any other value stays. -/
def mapEntries (change : List (Value × Value) → List (Value × Value)) : Value → Value
  | .mapping entries => .mapping (change entries)
  | .tagged tag content => .tagged tag (content.mapEntries change)
  | v => v

mutual

/-- No mapping, at any depth and in keys too, has two entries with the same key. -/
def WellFormed : Value → Prop
  | .list items => ItemsWellFormed items
  | .mapping entries => Entries.Distinct same entries ∧ EntriesWellFormed entries
  | .tagged _ content => WellFormed content
  | _ => True

/-- Every item is well formed. -/
def ItemsWellFormed : List Value → Prop
  | [] => True
  | v :: rest => WellFormed v ∧ ItemsWellFormed rest

/-- Every key and every value is well formed. -/
def EntriesWellFormed : List (Value × Value) → Prop
  | [] => True
  | (k, v) :: rest => WellFormed k ∧ WellFormed v ∧ EntriesWellFormed rest

end

theorem same_string_iff (s : String) (v : Value) : same v (.string s) = true ↔ v = .string s := by
  cases v <;> simp [same]

end Value

end Rulebook

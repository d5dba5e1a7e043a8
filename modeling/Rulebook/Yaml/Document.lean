import Rulebook.Yaml.Lexer
import Rulebook.Yaml.Node
import Rulebook.Yaml.Resolution

/-!
# Documents

This module provides:

* `Document` — the root of a text's only document and its anchored nodes, with anchors as numbers;
* `Document.parse?` — the document of a text; and
* `Document.value?` and `read?` — the value of a document and of a text.

An anchor gets as its number how many names of anchors came before it, so a name that is used again shares the
number of the name that comes first after it; an alias stands for the last node with its number.

Aliases are copied. A text whose collections nest deeper than 128, or that follows aliases more than a hundred
times as often as it has nodes, is refused; so is a mapping that repeats a key.
-/

namespace Rulebook

namespace Yaml

/-! ## Anchors -/

/-- The numbers of the names met so far. -/
abbrev AnchorNumbers := List (String × Nat)

/-- Give an anchor its number. -/
def numberAnchor (numbers : AnchorNumbers) (properties : Properties String) :
    Properties Nat × AnchorNumbers :=
  match properties.anchor? with
  | none => (⟨none, properties.tag?⟩, numbers)
  | some name =>
    (⟨some numbers.length, properties.tag?⟩, Entries.put (· == ·) name numbers.length numbers)

namespace Node

mutual

/-- The node with numbers for anchors; an alias to a name that has not come yet is refused. -/
def number? (numbers : AnchorNumbers) : Node String → Option (Node Nat × AnchorNumbers)
  | .alias name => (numbers.lookup name).map fun number => (.alias number, numbers)
  | .scalar properties plain text =>
    let (properties, numbers) := numberAnchor numbers properties
    some (.scalar properties plain text, numbers)
  | .sequence properties items =>
    let (properties, numbers) := numberAnchor numbers properties
    (numberItems? numbers items).map fun (items, numbers) => (.sequence properties items, numbers)
  | .mapping properties entries =>
    let (properties, numbers) := numberAnchor numbers properties
    (numberEntries? numbers entries).map fun (entries, numbers) => (.mapping properties entries, numbers)

/-- The items with numbers for anchors. -/
def numberItems? (numbers : AnchorNumbers) : List (Node String) → Option (List (Node Nat) × AnchorNumbers)
  | [] => some ([], numbers)
  | item :: rest =>
    match number? numbers item with
    | none => none
    | some (item, numbers) =>
      (numberItems? numbers rest).map fun (rest, numbers) => (item :: rest, numbers)

/-- The entries with numbers for anchors. -/
def numberEntries? (numbers : AnchorNumbers) :
    List (Node String × Node String) → Option (List (Node Nat × Node Nat) × AnchorNumbers)
  | [] => some ([], numbers)
  | (key, value) :: rest =>
    match number? numbers key with
    | none => none
    | some (key, numbers) =>
      match number? numbers value with
      | none => none
      | some (value, numbers) =>
        (numberEntries? numbers rest).map fun (rest, numbers) => ((key, value) :: rest, numbers)

end

/-- A node under its anchor, if it has one. -/
def own (node : Node Nat) (properties : Properties Nat) : List (Nat × Node Nat) :=
  match properties.anchor? with
  | none => []
  | some number => [(number, node)]

mutual

/-- The anchored nodes, each before those inside it. -/
def anchored : Node Nat → List (Nat × Node Nat)
  | .alias _ => []
  | .scalar properties plain text => own (.scalar properties plain text) properties
  | .sequence properties items => own (.sequence properties items) properties ++ anchoredItems items
  | .mapping properties entries => own (.mapping properties entries) properties ++ anchoredEntries entries

/-- The anchored nodes among items. -/
def anchoredItems : List (Node Nat) → List (Nat × Node Nat)
  | [] => []
  | item :: rest => anchored item ++ anchoredItems rest

/-- The anchored nodes among entries. -/
def anchoredEntries : List (Node Nat × Node Nat) → List (Nat × Node Nat)
  | [] => []
  | (key, value) :: rest => anchored key ++ (anchored value ++ anchoredEntries rest)

end

mutual

/-- How many nodes there are, where a collection counts for its start and its end. -/
def weight {ref : Type} : Node ref → Nat
  | .alias _ => 1
  | .scalar _ _ _ => 1
  | .sequence _ items => 2 + weightItems items
  | .mapping _ entries => 2 + weightEntries entries

/-- The weight of items. -/
def weightItems {ref : Type} : List (Node ref) → Nat
  | [] => 0
  | item :: rest => weight item + weightItems rest

/-- The weight of entries. -/
def weightEntries {ref : Type} : List (Node ref × Node ref) → Nat
  | [] => 0
  | (key, value) :: rest => weight key + weight value + weightEntries rest

end

end Node

/-- The root of a document, missing in an empty text, and its anchored nodes, the last one first. -/
structure Document where
  root? : Option (Node Nat)
  anchors : List (Nat × Node Nat)

namespace Document

/-- The only document of a text. -/
def parse? (text : String) : Option Document := do
  let chars := text.toList
  if !chars.all isAllowed then none
  let tokens ← tokens? (normalizeBreaks chars)
  match ← Node.ofTokens? tokens with
  | none => return ⟨none, []⟩
  | some root =>
    let (root, _) ← Node.number? [] root
    return ⟨some root, root.anchored.reverse⟩

/-- The node that a node stands for: an alias for the node with its anchor. -/
def target? (document : Document) : Node Nat → Option (Node Nat)
  | .alias number => document.anchors.lookup number
  | node => some node

/-! ## Values -/

/-- Reading with a number of aliases that may still be followed. -/
abbrev Reading (α : Type) := StateT Nat Option α

/-- The node that a node stands for; an alias is counted. -/
def follow (document : Document) : Node Nat → Reading (Node Nat)
  | .alias number => fun left =>
    match left, document.anchors.lookup number with
    | more + 1, some node => some (node, more)
    | _, _ => none
  | node => pure node

/-- A value under the local tag of its node, if it has one. -/
def underTag (properties : Properties Nat) (value : Value) : Value :=
  match properties.tag?.bind Tag.localName? with
  | some name => .tagged (Value.tagName name) value
  | none => value

/-- The value of a scalar. A local tag, with a name or without, leaves the content of a plain scalar to be
resolved; a local tag without a name makes any other scalar a string. -/
def scalar? (properties : Properties Nat) (plain : Bool) (text : String) : Option Value :=
  let untagged? := if plain then Resolution.plain? text else some (.string text)
  match properties.tag? with
  | none => untagged?
  | some tag => if tag.isLocal then untagged?.map (underTag properties) else Resolution.tagged? tag text

/-- The entries with the values of their nodes; a repeated key is refused. -/
def readEntries (read : Node Nat → Reading Value) (reversed : List (Value × Value)) :
    List (Node Nat × Node Nat) → Reading (List (Value × Value))
  | [] => pure reversed.reverse
  | (key, value) :: rest => do
    let key ← read key
    if Entries.contains Value.same key reversed then failure
    let value ← read value
    readEntries read ((key, value) :: reversed) rest

/-- The value of a node in which collections nest at most `depth` deep. -/
def readNode (document : Document) : (depth : Nat) → Node Nat → Reading Value
  | 0, node => do
    match ← follow document node with
    | .scalar properties plain text => fun left => (scalar? properties plain text).map (·, left)
    | _ => failure
  | depth + 1, node => do
    match ← follow document node with
    | .alias _ => failure
    | .scalar properties plain text => fun left => (scalar? properties plain text).map (·, left)
    | .sequence properties items =>
      return underTag properties (.list (← items.mapM (readNode document depth)))
    | .mapping properties entries =>
      return underTag properties (.mapping (← readEntries (readNode document depth) [] entries))

/-- How deep collections may nest. -/
def greatestDepth : Nat :=
  128

/-- The value of a document; without a root it is null. -/
def value? (document : Document) : Option Value :=
  match document.root? with
  | none => some .null
  | some root => ((readNode document greatestDepth root).run (100 * root.weight)).map Prod.fst

end Document

/-- The value of a text. -/
def read? (text : String) : Option Value :=
  (Document.parse? text).bind Document.value?

end Yaml

end Rulebook

import Rulebook.Yaml.Token

/-!
# Nodes

A YAML document is a tree of nodes, each with an optional anchor and tag. This module provides `Node`, in which
anchors are named by a type of the reader's choice, and `Node.ofTokens?`, which reads one document: directives,
a start marker if there are any, the root, and end markers with nothing after them.

The reading functions take a number that bounds how deep they call each other; with four for every token it
never runs out.
-/

namespace Rulebook

namespace Yaml

/-- What can stand before the content of a node. -/
structure Properties (ref : Type) where
  anchor? : Option ref
  tag? : Option Tag

/-- A node; an alias stands for the node with the anchor it names. -/
inductive Node (ref : Type) where
  | alias (target : ref)
  | scalar (properties : Properties ref) (plain : Bool) (text : String)
  | sequence (properties : Properties ref) (items : List (Node ref))
  | mapping (properties : Properties ref) (entries : List (Node ref × Node ref))

namespace Node

/-- No anchor and no tag. -/
def Properties.none {ref : Type} : Properties ref :=
  ⟨.none, .none⟩

/-- A node without content. -/
def empty {ref : Type} : Node ref :=
  .scalar Properties.none true ""

/-- A part of a document and the tokens after it. -/
abbrev Parsed (α : Type) := Option (α × List Token)

/-! ## Properties -/

/-- What tag handles stand for. -/
abbrev Handles := List (String × Tag)

/-- The handles that need no directive. -/
def defaultHandles : Handles :=
  [("!", Tag.bare), ("!!", Tag.core "")]

/-- The tag that a handle and a suffix name; a handle that stands for nothing is refused. -/
def tag? (handles : Handles) (handle : String) (suffix : Tag) : Option Tag :=
  if handle.isEmpty then some suffix else (handles.lookup handle).map (·.append suffix)

/-- An anchor and a tag, in either order. -/
def readProperties? (handles : Handles) : List Token → Parsed (Properties String)
  | .anchor name :: .tag handle suffix :: rest =>
    (tag? handles handle suffix).map fun tag => (⟨some name, some tag⟩, rest)
  | .tag handle suffix :: .anchor name :: rest =>
    (tag? handles handle suffix).map fun tag => (⟨some name, some tag⟩, rest)
  | .anchor name :: rest => some (⟨some name, none⟩, rest)
  | .tag handle suffix :: rest => (tag? handles handle suffix).map fun tag => (⟨none, some tag⟩, rest)
  | rest => some (Properties.none, rest)

/-! ## Nodes -/

/-- Where a node stands. -/
inductive Context where
  /-- In a flow collection. -/
  | flow
  /-- In a block. -/
  | block
  /-- In an entry of a block mapping, where the dashes of a sequence need no indentation. -/
  | entry
deriving DecidableEq

/-- What ends a node that is left out: one of the tokens that come after a node there, or the end. -/
def isMissing (ends : Token → Bool) : List Token → Bool
  | [] => false
  | token :: _ => ends token

mutual

/-- The node that stands here. -/
def node? (handles : Handles) (context : Context) : (fuel : Nat) → List Token → Parsed (Node String)
  | 0, _ => none
  | _ + 1, .alias name :: rest => some (.alias name, rest)
  | fuel + 1, tokens =>
    match readProperties? handles tokens with
    | none => none
    | some (properties, rest) =>
      match rest with
      | .scalar plain text :: after => some (.scalar properties plain text, after)
      | .flowSequenceStart :: after =>
        (flowItems? handles fuel true [] after).map fun (items, after) => (.sequence properties items, after)
      | .flowMappingStart :: after =>
        (flowEntries? handles fuel true [] after).map fun (entries, after) =>
          (.mapping properties entries, after)
      | token :: after =>
        if token = .blockEntry ∧ context = .entry then
          (entryItems? handles fuel [] (token :: after)).map fun (items, after) =>
            (.sequence properties items, after)
        else if token = .blockSequenceStart ∧ context ≠ .flow then
          (blockItems? handles fuel [] after).map fun (items, after) => (.sequence properties items, after)
        else if token = .blockMappingStart ∧ context ≠ .flow then
          (blockEntries? handles fuel [] after).map fun (entries, after) =>
            (.mapping properties entries, after)
        else if properties.anchor?.isSome ∨ properties.tag?.isSome then
          some (.scalar properties true "", token :: after)
        else none
      | [] =>
        if properties.anchor?.isSome ∨ properties.tag?.isSome then some (.scalar properties true "", [])
        else none

/-- The node that stands here, or an empty one if a token stands here that ends it. -/
def nodeOrEmpty? (handles : Handles) (context : Context) (ends : Token → Bool) :
    (fuel : Nat) → List Token → Parsed (Node String)
  | 0, _ => none
  | fuel + 1, tokens =>
    if isMissing ends tokens then some (empty, tokens) else node? handles context fuel tokens

/-- The items of a block sequence, after `reversed` ones. -/
def blockItems? (handles : Handles) :
    (fuel : Nat) → (reversed : List (Node String)) → List Token → Parsed (List (Node String))
  | 0, _, _ => none
  | fuel + 1, reversed, .blockEntry :: rest =>
    match nodeOrEmpty? handles .block (fun t => t == .blockEntry || t == .blockEnd) fuel rest with
    | none => none
    | some (item, after) => blockItems? handles fuel (item :: reversed) after
  | _ + 1, reversed, .blockEnd :: rest => some (reversed.reverse, rest)
  | _ + 1, _, _ => none

/-- The items of a sequence whose dashes stand at the column of the mapping around it. -/
def entryItems? (handles : Handles) :
    (fuel : Nat) → (reversed : List (Node String)) → List Token → Parsed (List (Node String))
  | 0, _, _ => none
  | fuel + 1, reversed, .blockEntry :: rest =>
    match nodeOrEmpty? handles .block
        (fun t => t == .blockEntry || t == .key || t == .value || t == .blockEnd) fuel rest with
    | none => none
    | some (item, after) => entryItems? handles fuel (item :: reversed) after
  | _ + 1, reversed, rest => some (reversed.reverse, rest)

/-- The value after the key of a block mapping; it may be missing. -/
def blockValue? (handles : Handles) : (fuel : Nat) → List Token → Parsed (Node String)
  | 0, _ => none
  | fuel + 1, .value :: rest =>
    nodeOrEmpty? handles .entry (fun t => t == .key || t == .value || t == .blockEnd) fuel rest
  | _ + 1, rest => some (empty, rest)

/-- The entries of a block mapping. -/
def blockEntries? (handles : Handles) :
    (fuel : Nat) → (reversed : List (Node String × Node String)) → List Token →
      Parsed (List (Node String × Node String))
  | 0, _, _ => none
  | fuel + 1, reversed, .key :: rest =>
    match nodeOrEmpty? handles .entry (fun t => t == .key || t == .value || t == .blockEnd) fuel rest with
    | none => none
    | some (key, after) =>
      match blockValue? handles fuel after with
      | none => none
      | some (value, after) => blockEntries? handles fuel ((key, value) :: reversed) after
  | _ + 1, reversed, .blockEnd :: rest => some (reversed.reverse, rest)
  | _ + 1, _, _ => none

/-- The value of a pair in a flow sequence; it may be missing. -/
def pairValue? (handles : Handles) : (fuel : Nat) → List Token → Parsed (Node String)
  | 0, _ => none
  | fuel + 1, .value :: rest =>
    nodeOrEmpty? handles .flow (fun t => t == .flowEntry || t == .flowSequenceEnd) fuel rest
  | _ + 1, rest => some (empty, rest)

/-- A pair in a flow sequence, which is a mapping of its own. A token that shows that the key is missing is
passed over. -/
def pair? (handles : Handles) : (fuel : Nat) → List Token → Parsed (Node String × Node String)
  | 0, _ => none
  | fuel + 1, tokens =>
    let key :=
      if isMissing (fun t => t == .value || t == .flowEntry || t == .flowSequenceEnd) tokens then
        some (empty, tokens.drop 1)
      else node? handles .flow fuel tokens
    match key with
    | none => none
    | some (key, after) =>
      (pairValue? handles fuel after).map fun (value, after) => ((key, value), after)

/-- The items of a flow sequence; before all but the first stands a comma, and one may stand at the end. -/
def flowItems? (handles : Handles) :
    (fuel : Nat) → (first : Bool) → (reversed : List (Node String)) → List Token → Parsed (List (Node String))
  | 0, _, _, _ => none
  | _ + 1, _, reversed, .flowSequenceEnd :: rest => some (reversed.reverse, rest)
  | fuel + 1, first, reversed, tokens =>
    let tokens? := match first, tokens with
      | true, tokens => some tokens
      | false, .flowEntry :: rest => some rest
      | false, _ => none
    match tokens? with
    | none => none
    | some (.flowSequenceEnd :: rest) => some (reversed.reverse, rest)
    | some (.key :: rest) =>
      match pair? handles fuel rest with
      | none => none
      | some (entry, after) =>
        flowItems? handles fuel false (.mapping Properties.none [entry] :: reversed) after
    | some tokens =>
      match node? handles .flow fuel tokens with
      | none => none
      | some (item, after) => flowItems? handles fuel false (item :: reversed) after

/-- The value of an entry of a flow mapping; it may be missing. -/
def flowValue? (handles : Handles) : (fuel : Nat) → List Token → Parsed (Node String)
  | 0, _ => none
  | fuel + 1, .value :: rest =>
    nodeOrEmpty? handles .flow (fun t => t == .flowEntry || t == .flowMappingEnd) fuel rest
  | _ + 1, rest => some (empty, rest)

/-- The entries of a flow mapping; before all but the first stands a comma, and one may stand at the end. -/
def flowEntries? (handles : Handles) :
    (fuel : Nat) → (first : Bool) → (reversed : List (Node String × Node String)) → List Token →
      Parsed (List (Node String × Node String))
  | 0, _, _, _ => none
  | _ + 1, _, reversed, .flowMappingEnd :: rest => some (reversed.reverse, rest)
  | fuel + 1, first, reversed, tokens =>
    let tokens? := match first, tokens with
      | true, tokens => some tokens
      | false, .flowEntry :: rest => some rest
      | false, _ => none
    match tokens? with
    | none => none
    | some (.flowMappingEnd :: rest) => some (reversed.reverse, rest)
    | some (.key :: rest) =>
      match nodeOrEmpty? handles .flow
          (fun t => t == .value || t == .flowEntry || t == .flowMappingEnd) fuel rest with
      | none => none
      | some (key, after) =>
        match flowValue? handles fuel after with
        | none => none
        | some (value, after) => flowEntries? handles fuel false ((key, value) :: reversed) after
    | some tokens =>
      match node? handles .flow fuel tokens with
      | none => none
      | some (key, after) => flowEntries? handles fuel false ((key, empty) :: reversed) after

end

/-! ## Documents -/

/-- What the directives before a document say. -/
structure Directives where
  version? : Option (Nat × Nat)
  handles : Handles

/-- The directives that stand here. A version stands once and is 1.1 or 1.2; a handle is set once. -/
def readDirectives? (directives : Directives) : List Token → Parsed Directives
  | .version major minor :: rest =>
    if directives.version?.isSome || major ≠ 1 || (minor ≠ 1 && minor ≠ 2) then none
    else readDirectives? { directives with version? := some (major, minor) } rest
  | .tagHandle handle stem :: rest =>
    if (directives.handles.lookup handle).isSome then none
    else readDirectives? { directives with handles := directives.handles ++ [(handle, stem)] } rest
  | rest => some (directives, rest)

/-- Does a directive or a marker stand here, so that a root is missing? -/
def endsRoot : Token → Bool
  | .version _ _ => true
  | .tagHandle _ _ => true
  | .documentStart => true
  | .documentEnd => true
  | _ => false

/-- How deep the reading functions may call each other. -/
def fuelFor (tokens : List Token) : Nat :=
  4 * tokens.length + 8

/-- The root of a document and the tokens after it. With directives a start marker has to follow; after a start
marker the root may be missing. -/
def root? (tokens : List Token) : Parsed (Node String) :=
  match readDirectives? ⟨none, []⟩ tokens with
  | none => none
  | some (directives, rest) =>
    let handles := directives.handles ++ defaultHandles
    match rest with
    | .documentStart :: after =>
      if after.isEmpty || isMissing endsRoot after then some (empty, after)
      else node? handles .block (fuelFor after) after
    | _ =>
      if rest.length < tokens.length then none
      else node? handles .block (fuelFor tokens) tokens

/-- The root of the only document; `some none` if there is no document. -/
def ofTokens? (tokens : List Token) : Option (Option (Node String)) :=
  if tokens.isEmpty then some none
  else
    match root? tokens with
    | none => none
    | some (root, after) =>
      if (after.dropWhile (· == .documentEnd)).isEmpty then some (some root) else none

end Node

end Yaml

end Rulebook

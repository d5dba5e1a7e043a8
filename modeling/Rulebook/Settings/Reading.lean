import Rulebook.Settings
import Rulebook.Text.Blank
import Rulebook.Yaml.Document

/-!
# Reading settings

Settings are read from the nodes of a YAML document and not from its values, because a text setting takes the
text of any scalar as it is written: `rootRule: 2024` names the rule `2024`. This module provides
`Settings.parse?`.

Every setting is known by its name and stands once. A list is a sequence or left empty. A language is its exact
code, or a local tag that is such a code on an empty scalar.
-/

namespace Rulebook

namespace Settings

open Yaml (Document Node)

/-- The text of a scalar, whatever its style and tag. -/
def text? (document : Document) (node : Node Nat) : Option String :=
  match document.target? node with
  | some (.scalar _ _ text) => some text
  | _ => none

/-- Does a plain scalar say that there is nothing? Its tag, if it has one, must be that of null, which takes a
spelling of null. -/
def isUnset? (properties : Yaml.Properties Nat) (text : String) : Option Bool :=
  match properties.tag? with
  | some tag =>
    if tag = Yaml.Tag.core "null" then
      if Yaml.Resolution.isNull text.toList then some true else none
    else some false
  | none => some (text.isEmpty || Yaml.Resolution.isNull text.toList)

/-- A setting that may be null, read by `read` if it is not. -/
def optional? {α : Type} (document : Document) (read : Node Nat → Option α) (node : Node Nat) :
    Option (Option α) :=
  match document.target? node with
  | some (.scalar properties true text) =>
    match isUnset? properties text with
    | none => none
    | some true => some none
    | some false => (read (.scalar properties true text)).map some
  | some node => (read node).map some
  | none => none

/-- A list of settings, each read by `read`. -/
def list? {α : Type} (document : Document) (read : Node Nat → Option α) (node : Node Nat) : Option (List α) :=
  match document.target? node with
  | some (.sequence _ items) => items.mapM read
  | some (.scalar _ true "") => some []
  | _ => none

/-- A language: a local tag on nothing, or a text. -/
def language? (document : Document) (node : Node Nat) : Option Language :=
  match document.target? node with
  | some (.scalar properties plain text) =>
    match properties.tag?.bind Yaml.Tag.localName? with
    | some tag =>
      if plain && (text.isEmpty || Yaml.Resolution.isNull text.toList) then Language.ofCode? tag else none
    | none => Language.ofCode? text
  | _ => none

/-- The names of all settings. -/
def fieldNames : List String :=
  ["sources", "exclude", "translations", "outputDir", "artifactName", "sourceLanguage", "targetLanguages",
    "rootRule", "evaluator"]

/-- The entries by name; each name is known and stands once. -/
def fields? (document : Document) (entries : List (Node Nat × Node Nat)) : Option (List (String × Node Nat)) := do
  let fields ← entries.mapM fun (key, node) => (text? document key).map fun name => (name, node)
  let names := fields.map Prod.fst
  if names.all fieldNames.contains && decide names.Nodup then some fields else none

/-- A setting, or what stands for it when it is missing. -/
def field? {α : Type} (fields : List (String × Node Nat)) (name : String) (missing : α)
    (read : Node Nat → Option α) : Option α :=
  match fields.lookup name with
  | none => some missing
  | some node => read node

/-- The settings that the entries of a mapping give. -/
def ofEntries? (document : Document) (entries : List (Node Nat × Node Nat)) : Option Settings := do
  let fields ← fields? document entries
  let texts := list? document (text? document)
  let text := optional? document (text? document)
  let sources ← field? fields "sources" [] texts
  let exclude ← field? fields "exclude" [] texts
  let localizations ← field? fields "translations" none text
  let outputDir ← field? fields "outputDir" none text
  let artifactName ← field? fields "artifactName" none text
  let source ← field? fields "sourceLanguage" none (optional? document (language? document))
  let targets ← field? fields "targetLanguages" [] (list? document (language? document))
  let rootRule ← field? fields "rootRule" none text
  let evaluator ← field? fields "evaluator" [] texts
  return {
    sources := sources
    exclude := exclude
    localizations? := localizations
    outputDir? := outputDir.map Path.mk
    artifactName? := artifactName
    source? := source
    targets := targets
    rootRule? := rootRule
    evaluator := evaluator }

/-- The settings in a text. A text without a document, or with an empty one, says nothing. -/
def parse? (text : String) : Option Settings :=
  if Text.isBlank text then some empty
  else
    match Document.parse? text with
    | none => none
    | some document =>
      match document.root? with
      | none => some empty
      | some root =>
        match document.target? root with
        | some (.mapping _ entries) => ofEntries? document entries
        | some (.scalar _ true "") => some empty
        | _ => none

end Settings

end Rulebook

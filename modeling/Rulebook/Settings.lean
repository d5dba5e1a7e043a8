import Rulebook.Config

/-!
# Project settings

A project can hold a file with settings of its own. This module provides `Settings`, what such a file says;
`Settings.resolveIn`, which makes its output directory a path from the file's own directory; and
`Settings.override`, the configuration in which the settings replace what they speak of.
-/

namespace Rulebook

/-- The settings of a project; an empty list says nothing. -/
structure Settings where
  sources : List String
  exclude : List String
  localizations? : Option String
  outputDir? : Option Path
  artifactName? : Option String
  source? : Option Language
  targets : List Language
  rootRule? : Option String
  evaluator : List String
deriving DecidableEq

namespace Settings

/-- The settings that say nothing. -/
def empty : Settings where
  sources := []
  exclude := []
  localizations? := none
  outputDir? := none
  artifactName? := none
  source? := none
  targets := []
  rootRule? := none
  evaluator := []

instance : Inhabited Settings := ⟨empty⟩

/-- The names that a settings file can have. -/
def fileNames : List String :=
  ["rules-compiler.yml", "rules-compiler.yaml"]

/-- The settings with a relative output directory taken from a directory. -/
def resolveIn (settings : Settings) (directory : Path) : Settings :=
  { settings with outputDir? := settings.outputDir?.map fun path => directory.join path.text }

/-- A list, or another one if it is empty. -/
def nonemptyOr {α : Type} (items other : List α) : List α :=
  if items.isEmpty then other else items

/-- The targets: those of the settings; else, where the settings have a source, all others; else those of the
configuration. -/
def targetsOver (settings : Settings) (config : Config) : List Language :=
  nonemptyOr settings.targets
    (match settings.source? with
    | some source => source.others
    | none => config.targets)

/-- The configuration with the settings over it. -/
def override (settings : Settings) (config : Config) : Config :=
  { config with
    fragmentPatterns := nonemptyOr settings.sources config.fragmentPatterns
    excludePatterns := nonemptyOr settings.exclude config.excludePatterns
    localizationTemplate := settings.localizations?.getD config.localizationTemplate
    outputDir := settings.outputDir?.getD config.outputDir
    artifactTemplate := settings.artifactName?.getD config.artifactTemplate
    source := settings.source?.getD config.source
    targets := settings.targetsOver config
    rootRule? := settings.rootRule?.or config.rootRule?
    evaluator? := if settings.evaluator.isEmpty then config.evaluator? else some settings.evaluator }

end Settings

end Rulebook

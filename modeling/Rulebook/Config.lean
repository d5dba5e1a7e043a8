import Rulebook.Failure
import Rulebook.Overlay
import Rulebook.Template

/-!
# Configurations

A configuration says what is compiled, from where and to where. This module provides `Config`, its defaults, the
paths that follow from it, the languages it asks for and `Config.check`, which refuses what could not work.
-/

namespace Rulebook

/-- What a compilation needs to know. -/
structure Config where
  /-- The project's root; patterns and relative paths start from it. -/
  root : Path
  /-- The globs that pick fragments. -/
  fragmentPatterns : List String
  /-- The globs that take fragments out again. -/
  excludePatterns : List String
  /-- The path of the localization for a language. -/
  localizationTemplate : String
  /-- The directory that gets the artifacts. -/
  outputDir : Path
  /-- The file name of the artifact for a language. -/
  artifactTemplate : String
  /-- The language the rules are written in. -/
  source : Language
  /-- The languages to compile to. -/
  targets : List Language
  /-- The rule that has to be defined; an empty name asks for none. -/
  rootRule? : Option String
  /-- The command that checks the rules in place of the structural checks. -/
  evaluator? : Option (List String)
  /-- How strictly localizations are applied. -/
  overlay : Overlay.Options

namespace Config

/-- The configuration of a project that says nothing. -/
def ofRoot (root : Path) : Config where
  root := root
  fragmentPatterns := ["data/**/*.yaml"]
  excludePatterns := ["data/translated-*.yaml"]
  localizationTemplate := "data/translated-rules-\x7blang\x7d.yaml"
  outputDir := ⟨"public"⟩
  artifactTemplate := "co2-\x7blang\x7d.json"
  source := .defaultSource
  targets := Language.defaultSource.others
  rootRule? := some "bilan"
  evaluator? := none
  overlay := .strict

/-- The path of the localization for a language. -/
def localizationPath (config : Config) (language : Language) : Path :=
  config.root.join (Template.fill config.localizationTemplate language)

/-- The directory of the artifacts, seen from where the root is seen from. -/
def outputPath (config : Config) : Path :=
  config.root.join config.outputDir.text

/-- The path of the artifact for a language. -/
def artifactPath (config : Config) (language : Language) : Path :=
  config.outputPath.join (Template.fill config.artifactTemplate language)

/-- The targets without the source and without repeats, each where it comes first. -/
def distinctTargets (config : Config) : List Language :=
  config.targets.foldl (fun kept language =>
    if language = config.source ∨ language ∈ kept then kept else kept ++ [language]) []

/-- What is said of a template that gives every language the same path. -/
def templateFault (name template : String) : Failure :=
  .config ("The " ++ name ++ " path template '" ++ template ++ "' must contain \x7blang\x7d")

/-- Refuse a configuration without patterns, with a template that has no placeholder, or with an evaluator
without a program. -/
def check (config : Config) : Except Failure Unit :=
  if config.fragmentPatterns.isEmpty then .error (.config "At least one rule fragment pattern is required")
  else if !Template.hasPlaceholder config.localizationTemplate then
    .error (templateFault "translation" config.localizationTemplate)
  else if !Template.hasPlaceholder config.artifactTemplate then
    .error (templateFault "artifact" config.artifactTemplate)
  else if config.evaluator? = some [] then .error (.config "Evaluator command is empty")
  else .ok ()

end Config

end Rulebook

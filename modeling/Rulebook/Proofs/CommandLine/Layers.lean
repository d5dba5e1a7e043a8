import Rulebook.Proofs.CommandLine.OutputDirectory

/-!
# Layers of a configuration

A configuration has three layers: the arguments, the settings of the project, and the defaults. Each setting is that of
the first layer that says something of it, whatever the layers say of other settings; the targets alone depend by
default on a second setting, which is the source as all layers together give it. An empty list in the settings says
nothing, while an empty text is a text like any other. This module provides:

* `Settings.override_override` — settings that are laid over a configuration twice are laid over it once;
* `Arguments.layered` — the configuration as it is meant, setting by setting; and
* `configure_layered` — every configuration is the one that is meant, and `template_emptied`, an empty text that counts.
-/

namespace Rulebook

namespace Settings

variable {α : Type}

/-- What a list says: itself, unless it is empty. -/
def spoken? (items : List α) : Option (List α) :=
  if items.isEmpty then none else some items

/-- The first layer that says something, or the default. -/
def firstOf (layers : List (Option α)) (otherwise : α) : α :=
  (layers.findSome? id).getD otherwise

@[simp] theorem firstOf_nil (otherwise : α) : firstOf [] otherwise = otherwise :=
  rfl

/-- A layer that says nothing makes way for those behind it. -/
@[simp] theorem firstOf_cons (layer : Option α) (layers : List (Option α)) (otherwise : α) :
    firstOf (layer :: layers) otherwise = layer.getD (firstOf layers otherwise) := by
  cases layer <;> rfl

theorem getD_spoken? (items other : List α) : (spoken? items).getD other = nonemptyOr items other := by
  rw [spoken?, nonemptyOr]
  split <;> rfl

/-! ### Settings over a configuration -/

theorem getD_getD (setting : Option α) (other : α) : setting.getD (setting.getD other) = setting.getD other := by
  cases setting <;> rfl

theorem nonemptyOr_nonemptyOr (items other : List α) :
    nonemptyOr items (nonemptyOr items other) = nonemptyOr items other := by
  rw [← getD_spoken?, ← getD_spoken?, getD_getD]

/-- The targets that were there come back only where the settings speak neither of targets nor of a source. -/
theorem targetsOver_override (settings : Settings) (config : Config) :
    settings.targetsOver (settings.override config) = settings.targetsOver config := by
  simp only [override, targetsOver]
  cases settings.source? with
  | none => exact nonemptyOr_nonemptyOr settings.targets config.targets
  | some source => rfl

/-- Settings that are laid over a configuration twice are laid over it once. -/
theorem override_override (settings : Settings) (config : Config) :
    settings.override (settings.override config) = settings.override config := by
  have htargets := targetsOver_override settings config
  have hrule : settings.rootRule?.or (settings.rootRule?.or config.rootRule?) =
      settings.rootRule?.or config.rootRule? := by
    rw [← Option.or_assoc, Option.or_self]
  rw [override, htargets]
  simp only [override, nonemptyOr_nonemptyOr, getD_getD, hrule]
  -- The evaluator is the one setting that is a list in the settings and may be absent in the configuration.
  congr 1
  split <;> rfl

end Settings

namespace CommandLine

open Settings (spoken? firstOf nonemptyOr)

namespace Arguments

/-- The settings of a project; a project without settings says nothing. -/
def settingsOf (found : Option (Path × Settings)) : Settings :=
  (found.map Prod.snd).getD .empty

/-- The directory of the settings of a project. -/
def projectDirectory? (given : Arguments) (fs : FileSystem) (found : Option (Path × Settings)) : Option Path :=
  found.map fun (file, _) => given.settingsDirectory fs file

/-- The directory that the settings of a project name, from where they are. -/
def projectOutput? (given : Arguments) (fs : FileSystem) (found : Option (Path × Settings)) : Option Path :=
  (given.projectDirectory? fs found).bind fun directory =>
    (settingsOf found).outputDir?.map fun output => directory.join output.text

/-- The source: that of the arguments; else, that of the settings; else, French. -/
def layeredSource (given : Arguments) (found : Option (Path × Settings)) : Language :=
  firstOf [given.source?, (settingsOf found).source?] .fr

/-- The configuration as it is meant: of each setting what the first layer says that speaks of it. -/
def layered (given : Arguments) (fs : FileSystem) (found : Option (Path × Settings)) : Config where
  root := firstOf [given.root?, given.projectDirectory? fs found] fs.herePath
  fragmentPatterns :=
    firstOf [given.fragments?.map fun pattern => [pattern], spoken? (settingsOf found).sources] ["data/**/*.yaml"]
  excludePatterns := firstOf [spoken? (settingsOf found).exclude] ["data/translated-*.yaml"]
  localizationTemplate := firstOf [(settingsOf found).localizations?] "data/translated-rules-\x7blang\x7d.yaml"
  outputDir := firstOf [given.outputDir?, given.projectOutput? fs found] ⟨"public"⟩
  artifactTemplate := firstOf [(settingsOf found).artifactName?] "co2-\x7blang\x7d.json"
  source := given.layeredSource found
  targets := firstOf [spoken? given.targets, spoken? (settingsOf found).targets] (given.layeredSource found).others
  rootRule? := some (firstOf [given.rootRule?, (settingsOf found).rootRule?] "bilan")
  evaluator? := spoken? (settingsOf found).evaluator
  overlay := ⟨given.force, given.remove⟩

/-- The targets are computed anew under the settings and again under the arguments, each time for the source that is
known there; in the end they are those of the first layer that names targets, or all but the last known source. -/
theorem targetsOver_projectConfig (given : Arguments) (fs : FileSystem) (found : Option (Path × Settings)) :
    given.targetsOver (given.projectConfig fs found).1 (given.projectConfig fs found).2 =
      nonemptyOr given.targets (nonemptyOr (settingsOf found).targets (given.layeredSource found).others) := by
  rw [targetsOver]
  refine congrArg (nonemptyOr given.targets) ?_
  cases found with
  | none => cases hsource : given.source? <;> simp [projectConfig, Config.ofRoot, settingsOf, Settings.empty,
      layeredSource, nonemptyOr, hsource, Language.defaultSource]
  | some found =>
      obtain ⟨file, settings⟩ := found
      cases hsource : given.source? with
      | some source =>
          -- Targets of the settings stay; what the settings give by default is given up for the other source.
          cases htargets : settings.targets <;> simp [projectConfig, Settings.override, Settings.resolveIn,
            Settings.targetsOver, settingsOf, layeredSource, nonemptyOr, hsource, htargets]
      | none =>
          cases hproject : settings.source? <;> simp [projectConfig, Settings.override, Settings.resolveIn,
            Settings.targetsOver, Config.ofRoot, settingsOf, layeredSource, hsource, hproject, Language.defaultSource]

/-- What the arguments set, setting by setting. -/
theorem override_eq (given : Arguments) (config : Config) (named : Bool) :
    given.override config named =
      { config with
        fragmentPatterns := (given.fragments?.map fun pattern => [pattern]).getD config.fragmentPatterns
        outputDir := given.outputDir?.getD config.outputDir
        source := given.source?.getD config.source
        targets := given.targetsOver config named
        rootRule? := given.rootRule?.or config.rootRule?
        overlay := ⟨given.force, given.remove⟩ } := by
  rw [override]
  cases given.fragments? <;> rfl

/-- What the arguments say over what the project says is the configuration as it is meant. -/
theorem override_projectConfig (given : Arguments) (fs : FileSystem) (found : Option (Path × Settings)) :
    given.override (given.projectConfig fs found).1 (given.projectConfig fs found).2 = given.layered fs found := by
  rw [override_eq, targetsOver_projectConfig]
  simp only [layered, Settings.firstOf_cons, Settings.firstOf_nil, Settings.getD_spoken?]
  cases found with
  | none =>
      simp [projectConfig, Config.ofRoot, settingsOf, Settings.empty, projectDirectory?, projectOutput?, start,
        layeredSource, spoken?, nonemptyOr, Language.defaultSource]
  | some found =>
      simp [projectConfig, Config.ofRoot, Settings.override, Settings.resolveIn, settingsOf, projectDirectory?,
        projectOutput?, layeredSource, spoken?, nonemptyOr, Language.defaultSource]

end Arguments

/-- **Configurations have layers.** For every command line and every project there is no configuration if the settings
cannot be read; else it is the one that is meant, each setting of which is that of the first layer that says something
of it. Settings laid over a configuration a second time change nothing. -/
theorem configure_layered (given : Arguments) (fs : FileSystem) :
    (match given.findSettings fs with
      | .error failure => configure given fs = .error failure
      | .ok found => configure given fs = .ok (given.layered fs found)) ∧
      ∀ (settings : Settings) (config : Config),
        settings.override (settings.override config) = settings.override config := by
  refine ⟨?_, Settings.override_override⟩
  cases hfound : given.findSettings fs with
  | error failure =>
      rw [configure, hfound]
      rfl
  | ok found =>
      rw [configure, hfound]
      exact congrArg _ (given.override_projectConfig fs found)

/-! ### An empty text -/

/-- Settings with an empty text where the path of the localizations belongs. -/
def emptiedFiles : FileSystem where
  root := .directory [("rules.yml", .file "translations: \"\"\n".toUTF8)]
  here := []

/-- The arguments that name their file. -/
def emptiedArguments : Arguments :=
  { Arguments.none with settings? := some ⟨"rules.yml"⟩ }

theorem readText_emptied : emptiedFiles.readText ⟨"rules.yml"⟩ = .ok "translations: \"\"\n" := by
  refine FileSystem.readText_eq_ok_iff.2 ⟨_, FileSystem.read_eq_ok_iff.2 ⟨["rules.yml"], ?_, rfl⟩, rfl⟩
  have hsteps : FileSystem.steps "rules.yml" = ["rules.yml"] := by decide
  refine FileSystem.locate_eq_ok_iff.2 ⟨by decide, ?_⟩
  rw [hsteps]
  exact .enter rfl ⟨by decide, by decide, by decide⟩ rfl (by simp) (.done _ _)

/-- An empty text takes the place of the default, with which the configuration would be of use. -/
theorem template_emptied :
    parse ["--config", "rules.yml"] = .ok emptiedArguments ∧
      ∃ settings config, emptiedArguments.findSettings emptiedFiles = .ok (some (⟨"rules.yml"⟩, settings)) ∧
        settings.localizations? = some "" ∧ configure emptiedArguments emptiedFiles = .ok config ∧
          config.localizationTemplate = "" ∧ config.check = .error (Config.templateFault "translation" "") ∧
            { config with localizationTemplate := "data/translated-rules-\x7blang\x7d.yaml" }.check = .ok () := by
  refine ⟨by decide +kernel, ?_⟩
  obtain ⟨settings, hparse, hsettings⟩ : ∃ settings, Settings.parse? "translations: \"\"\n" = some settings ∧
      settings = { Settings.empty with localizations? := some "" } := by
    have hany : (Settings.parse? "translations: \"\"\n").any
        (fun settings => decide (settings = { Settings.empty with localizations? := some "" })) = true := by
      decide +kernel
    obtain ⟨settings, hparse, hsettings⟩ := (Option.any_eq_true _ _).1 hany
    exact ⟨settings, hparse, of_decide_eq_true hsettings⟩
  have hfound : emptiedArguments.findSettings emptiedFiles = .ok (some (⟨"rules.yml"⟩, settings)) := by
    rw [Arguments.findSettings]
    simp only [emptiedArguments, Settings.load, readText_emptied, hparse]
    rfl
  subst hsettings
  exact ⟨_, _, hfound, rfl, by rw [configure, hfound]; rfl, rfl, rfl, rfl⟩

end CommandLine

end Rulebook

import Rulebook.CommandLine.Configure
import Rulebook.CommandLine.Parser
import Rulebook.Proofs.Settings.Search

/-!
# Where the artifacts go

The directory of the artifacts comes from the arguments, from the settings of the project, or by default, and it should
be taken from where it was written: from the root in the arguments and by default, from the directory of their file in
the settings. The settings make theirs a path from that directory, and then, if it still is a relative path, it is taken
from the root like any other. This module provides:

* `Arguments.rootNames` and `Arguments.outputNames` — the root and the directory as they are meant, by the names they
  stand for when seen from the working directory;
* `configure_outputPath` — every configuration has that root, and it has that directory unless the settings are in a
  file with a relative path and the root is not the working directory (`Arguments.Misplaced`, `outputPath_misplaced`);
  and
* `Arguments.not_misplaced_of_search` — settings that a search from an absolute path finds are not of that kind.
-/

namespace Rulebook

namespace CommandLine

namespace Arguments

variable {given : Arguments} {fs : FileSystem} {file directory outer : Path} {settings : Settings}
  {found : Option (Path × Settings)}

/-! ### Where directories are meant to be -/

/-- The directory that a file is in. -/
def fileDirectory (fs : FileSystem) (file : Path) : List String :=
  (file.namesFrom fs.herePath.names).dropLast

/-- The root: the one of the arguments; else, the directory of the settings; else, the working directory. -/
def rootNames (given : Arguments) (fs : FileSystem) (found : Option (Path × Settings)) : List String :=
  match given.root?, found with
  | some root, _ => root.namesFrom fs.herePath.names
  | .none, some (file, _) => fileDirectory fs file
  | .none, .none => fs.herePath.names

/-- The directory that the settings name, and their file. -/
def settingsOutput? (found : Option (Path × Settings)) : Option (Path × Path) :=
  found.bind fun (file, settings) => settings.outputDir?.map fun directory => (file, directory)

/-- The directory of the artifacts: the one of the arguments, from the root; else, the one of the settings, from the
directory that these are in; else, the default, from the root. -/
def outputNames (given : Arguments) (fs : FileSystem) (found : Option (Path × Settings)) : List String :=
  match given.outputDir?, settingsOutput? found with
  | some directory, _ => directory.namesFrom (given.rootNames fs found)
  | .none, some (file, directory) => directory.namesFrom (fileDirectory fs file)
  | .none, .none => (⟨"public"⟩ : Path).namesFrom (given.rootNames fs found)

/-- A relative directory that settings in a file with a relative path name, where the root is not the working
directory. -/
def Misplaced (given : Arguments) (fs : FileSystem) (found : Option (Path × Settings)) : Prop :=
  given.outputDir? = .none ∧
    (∃ file directory, settingsOutput? found = some (file, directory) ∧ file.isAbsolute = false ∧
      directory.isAbsolute = false) ∧
    given.rootNames fs found ≠ fs.herePath.names

/-! ### The directory of the settings -/

theorem isAbsolute_herePath (fs : FileSystem) : fs.herePath.isAbsolute = true := by
  simp [Path.isAbsolute, FileSystem.herePath]

theorem namesFrom_herePath (fs : FileSystem) (names : List String) :
    fs.herePath.namesFrom names = fs.herePath.names := by
  rw [Path.namesFrom, if_pos (isAbsolute_herePath fs)]

theorem load_of_map {candidate : Path}
    (h : (Settings.load fs candidate).map (fun settings => some (candidate, settings)) = .ok (some (file, settings))) :
    candidate = file ∧ Settings.load fs candidate = .ok settings := by
  obtain ⟨loaded, hload, hfound⟩ := map_eq_ok_iff.1 h
  obtain ⟨rfl, rfl⟩ := Prod.mk.inj (Option.some.inj hfound)
  exact ⟨rfl, hload⟩

theorem load_of_findSettings (h : given.findSettings fs = .ok (some (file, settings))) :
    Settings.load fs file = .ok settings := by
  rw [findSettings] at h
  split at h
  · obtain ⟨rfl, hload⟩ := load_of_map h
    exact hload
  · obtain ⟨_, _, _, -, -, hloads⟩ := Settings.find_eq_ok_some_iff.1 h
    exact Settings.load_eq_iff.2 hloads

/-- Settings come from a file, which has a name. -/
theorem names_ne_nil_of_findSettings (h : given.findSettings fs = .ok (some (file, settings))) : file.names ≠ [] := by
  cases Settings.load_eq_iff.1 (load_of_findSettings h) with
  | loaded hread _ =>
      obtain ⟨content, hcontent, -⟩ := FileSystem.readText_eq_ok_iff.1 hread
      exact Path.names_ne_nil_of_read hcontent

/-- The directory of the settings is the parent of their file, unless that is the empty path. -/
theorem settingsDirectory_eq (hparent : file.parent? = some outer) :
    given.settingsDirectory fs file = if outer.isEmpty then given.start fs else outer := by
  rw [settingsDirectory, hparent]

theorem fileDirectory_of_parent (hfile : file.names ≠ []) (hparent : file.parent? = some outer) :
    fileDirectory fs file = outer.namesFrom fs.herePath.names := by
  obtain ⟨hnames, habsolute⟩ := Path.parent?_eq_some hparent
  rw [fileDirectory, Path.namesFrom, Path.namesFrom, habsolute, hnames]
  split
  · rfl
  · rw [List.dropLast_append_of_ne_nil hfile]

theorem names_of_isEmpty (h : outer.isEmpty = true) : outer.isAbsolute = false ∧ outer.names = [] := by
  obtain rfl : outer = ⟨""⟩ := by
    cases outer
    simpa [Path.isEmpty] using h
  decide

/-- The directory of the settings, seen from the root, is the one that their file is in, unless the path of the file is
relative and the root is not the working directory. -/
theorem settingsDirectory_from_root (hfile : file.names ≠ []) :
    (given.settingsDirectory fs file).namesFrom (given.rootNames fs (some (file, settings))) = fileDirectory fs file ↔
      (file.isAbsolute = false → given.rootNames fs (some (file, settings)) = fs.herePath.names) := by
  obtain ⟨outer, hparent⟩ := Path.exists_parent hfile
  have habsolute : outer.isAbsolute = file.isAbsolute := (Path.parent?_eq_some hparent).2
  have hdirectory : fileDirectory fs file = outer.namesFrom fs.herePath.names := fileDirectory_of_parent hfile hparent
  rw [settingsDirectory_eq hparent, ← habsolute, hdirectory]
  by_cases hempty : outer.isEmpty = true
  · obtain ⟨hrelative, hnone⟩ := names_of_isEmpty hempty
    have hhere : outer.namesFrom fs.herePath.names = fs.herePath.names := by simp [Path.namesFrom, hrelative, hnone]
    rw [if_pos hempty, hhere]
    -- The file is in the working directory, but it counts as one where the search for settings starts.
    cases hroot : given.root? with
    | none =>
        have hnames : given.rootNames fs (some (file, settings)) = fs.herePath.names := by
          simp only [rootNames, hroot, hdirectory, hhere]
        simp [start, hroot, namesFrom_herePath, hnames]
    | some root =>
        have hnames : given.rootNames fs (some (file, settings)) = root.namesFrom fs.herePath.names := by
          simp only [rootNames, hroot]
        rw [hnames, start, hroot, Option.getD_some, Path.namesFrom_namesFrom_eq_iff]
        simp [hrelative]
  · rw [if_neg hempty]
    exact Path.namesFrom_eq_namesFrom_iff

/-! ### The root and the directory of a configuration -/

theorem root_projectConfig (hfound : given.findSettings fs = .ok found) :
    (given.projectConfig fs found).1.root.namesFrom fs.herePath.names = given.rootNames fs found := by
  cases hroot : given.root? with
  | some root =>
      cases found with
      | none => simp [projectConfig, rootNames, Config.ofRoot, start, hroot]
      | some found => simp [projectConfig, rootNames, Config.ofRoot, Settings.override, hroot]
  | none =>
      cases found with
      | none => simp [projectConfig, rootNames, Config.ofRoot, start, hroot, namesFrom_herePath]
      | some found =>
          obtain ⟨file, settings⟩ := found
          have hfile := names_ne_nil_of_findSettings hfound
          obtain ⟨outer, hparent⟩ := Path.exists_parent hfile
          have hconfig : (given.projectConfig fs (some (file, settings))).1.root = given.settingsDirectory fs file := by
            simp [projectConfig, Config.ofRoot, Settings.override, hroot]
          have hnames : given.rootNames fs (some (file, settings)) = outer.namesFrom fs.herePath.names := by
            simp only [rootNames, hroot, fileDirectory_of_parent hfile hparent]
          rw [hconfig, hnames, settingsDirectory_eq hparent, start, hroot, Option.getD_none]
          split
          · next hempty =>
              obtain ⟨hrelative, hnone⟩ := names_of_isEmpty hempty
              rw [namesFrom_herePath]
              simp [Path.namesFrom, hrelative, hnone]
          · rfl

/-- The directory of a project, seen from its root, is meant to be there unless it is misplaced. -/
theorem outputDir_projectConfig (hfound : given.findSettings fs = .ok found) (hgiven : given.outputDir? = .none) :
    (given.projectConfig fs found).1.outputDir.namesFrom (given.rootNames fs found) = given.outputNames fs found ↔
      ¬ given.Misplaced fs found := by
  cases found with
  | none => simp [projectConfig, Config.ofRoot, outputNames, settingsOutput?, Misplaced, hgiven]
  | some found =>
      obtain ⟨file, settings⟩ := found
      cases hdirectory : settings.outputDir? with
      | none =>
          simp [projectConfig, Config.ofRoot, Settings.override, Settings.resolveIn, outputNames, settingsOutput?,
            Misplaced, hgiven, hdirectory]
      | some directory =>
          have hconfig : (given.projectConfig fs (some (file, settings))).1.outputDir =
              (given.settingsDirectory fs file).join directory.text := by
            simp [projectConfig, Settings.override, Settings.resolveIn, hdirectory]
          have hmeant : given.outputNames fs (some (file, settings)) = directory.namesFrom (fileDirectory fs file) := by
            simp [outputNames, settingsOutput?, hgiven, hdirectory]
          have hmisplaced : given.Misplaced fs (some (file, settings)) ↔ file.isAbsolute = false ∧
              directory.isAbsolute = false ∧ given.rootNames fs (some (file, settings)) ≠ fs.herePath.names := by
            simp [Misplaced, settingsOutput?, hgiven, hdirectory, and_assoc]
          rw [hconfig, hmeant, hmisplaced, Path.namesFrom_join]
          refine Path.namesFrom_eq_namesFrom_iff.trans ?_
          rw [settingsDirectory_from_root (names_ne_nil_of_findSettings hfound)]
          tauto

/-- Settings that are looked for from an absolute path, such as that of the working directory, name their directory from
where they are. -/
theorem not_misplaced_of_search (hfound : given.findSettings fs = .ok found) (hsearch : given.settings? = .none)
    (hstart : (given.start fs).isAbsolute = true) : ¬ given.Misplaced fs found := by
  rintro ⟨-, ⟨file, directory, houtput, hrelative, -⟩, -⟩
  obtain ⟨⟨path, settings⟩, rfl, hpair⟩ := Option.bind_eq_some_iff.1 houtput
  obtain ⟨_, -, heq⟩ := Option.map_eq_some_iff.1 hpair
  obtain rfl : path = file := (Prod.mk.inj heq).1
  simp only [findSettings, hsearch, Settings.find] at hfound
  cases hfile : Settings.file? fs (given.start fs) with
  | none =>
      rw [hfile] at hfound
      cases hfound
  | some candidate =>
      rw [hfile] at hfound
      obtain ⟨rfl, -⟩ := load_of_map hfound
      obtain ⟨around, haround, hmem⟩ := List.mem_flatMap.1 (List.mem_of_find?_eq_some hfile)
      obtain ⟨name, hname, rfl⟩ := List.mem_map.1 hmem
      have hplain : (⟨name⟩ : Path).isAbsolute = false := by
        have hall : ∀ name ∈ Settings.fileNames, (⟨name⟩ : Path).isAbsolute = false := by decide
        exact hall name hname
      rw [Path.isAbsolute_join hplain, Path.isAbsolute_of_mem_ancestors haround, hstart] at hrelative
      cases hrelative

end Arguments

/-- The configuration of every command line and every project. Without settings that can be read there is none. Else its
root is where it is meant to be, and so is the directory of its artifacts, unless that is misplaced. -/
theorem configure_outputPath (given : Arguments) (fs : FileSystem) :
    match given.findSettings fs with
    | .error failure => configure given fs = .error failure
    | .ok found =>
      ∃ config, configure given fs = .ok config ∧
        config.root.namesFrom fs.herePath.names = given.rootNames fs found ∧
          (config.outputPath.namesFrom fs.herePath.names = given.outputNames fs found ↔
            ¬ given.Misplaced fs found) := by
  cases hfound : given.findSettings fs with
  | error failure =>
      rw [configure, hfound]
      rfl
  | ok found =>
      have hroot := Arguments.root_projectConfig hfound
      refine ⟨given.override (given.projectConfig fs found).1 (given.projectConfig fs found).2, ?_, hroot, ?_⟩
      · rw [configure, hfound]
        rfl
      · rw [Config.outputPath, Path.namesFrom_join]
        cases hgiven : given.outputDir? with
        | none =>
            have hdirectory := Arguments.outputDir_projectConfig hfound hgiven
            simpa [Arguments.override, hgiven, hroot] using hdirectory
        | some directory => simp [Arguments.override, Arguments.outputNames, Arguments.Misplaced, hgiven, hroot]

/-! ### Settings in a directory below the working directory -/

/-- Settings with a relative directory, in a directory of their own. -/
def nestedFiles : FileSystem where
  root := .directory [("conf", .directory [("rules.yml", .file "outputDir: out\n".toUTF8)])]
  here := []

/-- The arguments that name their file. -/
def nestedArguments : Arguments :=
  { Arguments.none with settings? := some ⟨"conf/rules.yml"⟩ }

theorem readText_nested : nestedFiles.readText ⟨"conf/rules.yml"⟩ = .ok "outputDir: out\n" := by
  refine FileSystem.readText_eq_ok_iff.2 ⟨_, FileSystem.read_eq_ok_iff.2 ⟨["conf", "rules.yml"], ?_, rfl⟩, rfl⟩
  have hsteps : FileSystem.steps "conf/rules.yml" = ["conf", "rules.yml"] := by decide
  refine FileSystem.locate_eq_ok_iff.2 ⟨by decide, ?_⟩
  rw [hsteps]
  exact .enter rfl ⟨by decide, by decide, by decide⟩ rfl (by simp)
    (.enter rfl ⟨by decide, by decide, by decide⟩ rfl (by simp) (.done _ _))

/-- Their directory should be beside them, and it is in a directory of the same name below. -/
theorem outputPath_misplaced :
    parse ["--config", "conf/rules.yml"] = .ok nestedArguments ∧
      ∃ settings config, nestedArguments.findSettings nestedFiles = .ok (some (⟨"conf/rules.yml"⟩, settings)) ∧
        settings.outputDir? = some ⟨"out"⟩ ∧ configure nestedArguments nestedFiles = .ok config ∧
          nestedArguments.outputNames nestedFiles (some (⟨"conf/rules.yml"⟩, settings)) = ["conf", "out"] ∧
            config.outputPath = ⟨"conf/conf/out"⟩ ∧
              config.outputPath.namesFrom nestedFiles.herePath.names = ["conf", "conf", "out"] := by
  refine ⟨by decide +kernel, ?_⟩
  obtain ⟨settings, hparse, hdirectory⟩ : ∃ settings, Settings.parse? "outputDir: out\n" = some settings ∧
      settings.outputDir? = some ⟨"out"⟩ := by
    have hany : (Settings.parse? "outputDir: out\n").any
        (fun settings => decide (settings.outputDir? = some ⟨"out"⟩)) = true := by decide +kernel
    obtain ⟨settings, hparse, hdirectory⟩ := (Option.any_eq_true _ _).1 hany
    exact ⟨settings, hparse, of_decide_eq_true hdirectory⟩
  have hfound : nestedArguments.findSettings nestedFiles = .ok (some (⟨"conf/rules.yml"⟩, settings)) := by
    rw [Arguments.findSettings]
    simp only [nestedArguments, Settings.load, readText_nested, hparse]
    rfl
  have hmeant : nestedArguments.outputNames nestedFiles (some (⟨"conf/rules.yml"⟩, settings)) = ["conf", "out"] := by
    have hfile : Arguments.fileDirectory nestedFiles ⟨"conf/rules.yml"⟩ = ["conf"] := by decide +kernel
    simp only [Arguments.outputNames, Arguments.settingsOutput?, nestedArguments, Arguments.none, hdirectory,
      Option.bind_some, Option.map_some, hfile]
    decide
  have hout : (nestedArguments.projectConfig nestedFiles (some (⟨"conf/rules.yml"⟩, settings))).1.outputPath =
      ⟨"conf/conf/out"⟩ := by
    simp only [Config.outputPath, Arguments.projectConfig, Settings.override, Settings.resolveIn, hdirectory,
      nestedArguments, Arguments.none, Config.ofRoot, Option.map_some, Option.getD_some, Option.getD_none]
    decide
  refine ⟨settings, _, hfound, hdirectory, by rw [configure, hfound]; rfl, hmeant, hout, ?_⟩
  have hnames : (⟨"conf/conf/out"⟩ : Path).namesFrom nestedFiles.herePath.names = ["conf", "conf", "out"] := by
    decide +kernel
  exact hout ▸ hnames

end CommandLine

end Rulebook

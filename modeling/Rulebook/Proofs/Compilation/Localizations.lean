import Rulebook.Proofs.Compilation.Keeping
import Rulebook.Proofs.Fragment.Found

/-!
# Localizations among the fragments

Localizations may stand beside the fragments, and only the patterns tell the two apart: nothing ties the template of
the localizations to the patterns that take files out. This module provides:

* `localization_discovered` — under which names the file of a localization is taken for a fragment; and
* `localization_merged_stray` — a configuration in which one is.
-/

namespace Rulebook

namespace Compilation

open Fragment.Search

variable {config : Config} {fs : FileSystem} {language : Language} {here place : Location}
  {entries : List (String × Tree)} {included excluded : List Glob}

/-- A location below the root is one that the patterns of the configuration take for a fragment: it is in scope, it
matches a wanted pattern, and it matches no unwanted one. -/
structure Picks (config : Config) (included excluded : List Glob) (relative : Location) : Prop where
  inScope : (Scope.ofPatterns config.fragmentPatterns).admits relative = true
  isIncluded : anyAccepts included relative = true
  isKept : anyAccepts excluded relative = false

/-- The localization for a language, by default in a file of the data directory. -/
def defaultLocation (language : Language) : Location :=
  ["data", "translated-rules-" ++ language.code ++ ".yaml"]

theorem isEntryName_defaultLocation (language : Language) :
    ∀ name ∈ defaultLocation language, FileSystem.IsEntryName name := by
  intro name hname
  rcases List.mem_cons.1 hname with rfl | hname
  · exact ⟨by decide, by decide, by decide, by decide⟩
  · rw [List.mem_singleton.1 hname]
    cases language <;> exact ⟨by decide, by decide, by decide, by decide⟩

/-- Where the default template puts the localization. -/
theorem localizationPath_default (h : config.localizationTemplate = (Config.ofRoot config.root).localizationTemplate) :
    config.localizationPath language = pathOf config.root (defaultLocation language) := by
  have htemplate : config.localizationTemplate = "data/translated-rules-\x7blang\x7d.yaml" := h
  have htext : (Template.fill config.localizationTemplate language).toList =
      ['/'].intercalate ((defaultLocation language).map String.toList) := by
    rw [htemplate]
    cases language <;> decide
  have hhead : (Template.fill config.localizationTemplate language).toList.head? ≠ some '/' := by
    rw [htext]
    cases language <;> decide
  have hchars : (config.localizationPath language).text.toList =
      (pathOf config.root (defaultLocation language)).text.toList := by
    have hne : defaultLocation language ≠ [] := List.cons_ne_nil _ _
    rw [Config.localizationPath, join_toList hhead, pathOf_toList hne (isEntryName_defaultLocation language), htext]
  exact congrArg Path.mk (String.toList_inj.1 hchars)

/-- The default pattern for what is no fragment matches where the localizations are by default. -/
theorem anyAccepts_defaultLocation (hexcluded : globs config.excludePatterns = .ok excluded)
    (h : "data/translated-*.yaml" ∈ config.excludePatterns) :
    anyAccepts excluded (defaultLocation language) = true := by
  obtain ⟨glob, hparse, haccepts⟩ : ∃ glob, Glob.parse "data/translated-*.yaml" = .ok glob ∧
      Language.all.all (fun language => glob.accepts (locationText (defaultLocation language))) = true :=
    exists_of_any (by decide +kernel)
  rw [List.all_eq_true] at haccepts
  exact (anyAccepts_iff hexcluded).2 ⟨_, h, glob, hparse, haccepts language language.mem_all⟩

/-- The file of a localization, among the files that are merged. It is one of them under the names that lead the walk to
it and that the patterns pick, and under no others; under its own path it is never one of them if template and
unwanted patterns have their defaults, whatever the other patterns are. -/
theorem localization_discovered (hnamed : fs.root.WellNamed) (hroot : fs.locate config.root false = .ok here)
    (hdirectory : fs.root.at? here = some (.directory entries)) (hopen : fs.isSealed here = false)
    (hincluded : globs config.fragmentPatterns = .ok included) (hexcluded : globs config.excludePatterns = .ok excluded)
    (hfree : ∀ relative stop, Stops fs [here] here relative stop →
      stop.counts (Scope.ofPatterns config.fragmentPatterns).admits relative = false)
    (hplace : fs.locate (config.localizationPath language) true = .ok place) :
    ∃ paths, find fs config.root config.fragmentPatterns config.excludePatterns = .ok paths ∧
      baseRules config fs = (Fragment.loadMerged fs paths).map (fun rules => (rules, paths.length)) ∧
      (∀ path ∈ paths, fs.SameFile path (config.localizationPath language) →
        ∃ relative, path = pathOf config.root relative ∧ Finds fs [here] here relative place ∧
          Picks config included excluded relative) ∧
      (∀ relative, Finds fs [here] here relative place →
        (pathOf config.root relative ∈ paths ↔ Picks config included excluded relative)) ∧
      (config.localizationTemplate = (Config.ofRoot config.root).localizationTemplate →
        (∀ pattern ∈ (Config.ofRoot config.root).excludePatterns, pattern ∈ config.excludePatterns) →
          config.localizationPath language ∉ paths) := by
  obtain ⟨found, hfind, -, hfound⟩ := find_spec hnamed hroot hdirectory hopen hincluded hexcluded hfree
  -- A location whose path is found is found itself, since no other one has that path.
  have hmem : ∀ {relative}, relative ≠ [] → (∀ name ∈ relative, FileSystem.IsEntryName name) →
      pathOf config.root relative ∈ found.map (pathOf config.root) → relative ∈ found := by
    intro relative hne hentries h
    obtain ⟨other, hother, heq⟩ := List.mem_map.1 h
    obtain ⟨file, hfinds⟩ := ((hfound other).1 hother).1
    obtain ⟨hne', hentries'⟩ := hfinds.named hnamed
    obtain rfl := pathOf_inj hne' hne hentries' hentries heq
    exact hother
  refine ⟨found.map (pathOf config.root), hfind, ?_, ?_, ?_, ?_⟩
  · rw [baseRules, hfind]
    simp only [bind, Except.bind]
    cases Fragment.loadMerged fs (found.map (pathOf config.root)) <;> rfl
  · rintro _ hpath ⟨same, hsame, hlocalization⟩
    obtain ⟨relative, hrelative, rfl⟩ := List.mem_map.1 hpath
    obtain ⟨⟨file, hfinds⟩, hscope, haccepts, hrejects⟩ := (hfound relative).1 hrelative
    obtain rfl := Except.ok.inj (hlocalization.symm.trans hplace)
    obtain rfl := eq_of_locate_pathOf hnamed hroot hfinds hsame
    exact ⟨relative, rfl, hfinds, ⟨hscope, haccepts, hrejects⟩⟩
  · intro relative hfinds
    constructor
    · intro h
      obtain ⟨hne, hentries⟩ := hfinds.named hnamed
      obtain ⟨-, hscope, haccepts, hrejects⟩ := (hfound relative).1 (hmem hne hentries h)
      exact ⟨hscope, haccepts, hrejects⟩
    · intro h
      exact List.mem_map_of_mem ((hfound relative).2 ⟨⟨place, hfinds⟩, h.inScope, h.isIncluded, h.isKept⟩)
  · intro htemplate hpatterns h
    rw [localizationPath_default htemplate] at h
    have hown := hmem (List.cons_ne_nil _ _) (isEntryName_defaultLocation language) h
    obtain ⟨-, -, -, hrejects⟩ := (hfound _).1 hown
    have haccepts : anyAccepts excluded (defaultLocation language) = true :=
      anyAccepts_defaultLocation hexcluded (hpatterns _ List.mem_cons_self)
    exact Bool.false_ne_true (hrejects.symm.trans haccepts)

/-! ### A localization in a directory of its own -/

/-- The localizations are in a directory below the data. -/
def strayConfig : Config :=
  { Config.ofRoot ⟨"."⟩ with localizationTemplate := "data/i18n/\x7blang\x7d.yaml" }

/-- A fragment, and a localization of the rule in it. -/
def strayFiles : FileSystem where
  root := .directory [("data", .directory [("a.yaml", .file "a:\n  titre: B\n".toUTF8),
    ("i18n", .directory [("es.yaml", .file "a:\n  titre: C\n".toUTF8)])])]
  here := []

theorem tidy_stray :
    strayFiles.root.Everywhere fun node => node.NamesEntries ∧ ∀ target, node ≠ .link target := by
  refine Tree.everywhere_directory ⟨⟨by decide, by decide⟩, nofun⟩ fun entry hentry => ?_
  rw [List.mem_singleton.1 hentry]
  refine Tree.everywhere_directory ⟨⟨by decide, by decide⟩, nofun⟩ fun entry hentry => ?_
  rcases List.mem_cons.1 hentry with rfl | hentry
  · exact Tree.everywhere_file ⟨trivial, nofun⟩
  · rw [List.mem_singleton.1 hentry]
    refine Tree.everywhere_directory ⟨⟨by decide, by decide⟩, nofun⟩ fun entry hentry => ?_
    rw [List.mem_singleton.1 hentry]
    exact Tree.everywhere_file ⟨trivial, nofun⟩

theorem locate_stray : strayFiles.locate ⟨"."⟩ false = .ok [] :=
  FileSystem.locate_here rfl

/-- The paths of what is in the data directory lead there. -/
theorem locate_data_stray {path : Path} {place : Location} (names : List String)
    (hpath : decide (FileSystem.pathFault? path = none ∧ FileSystem.start [] path.text = [] ∧
      FileSystem.steps path.text = "." :: "data" :: names) = true)
    (h : FileSystem.Leads strayFiles.root true FileSystem.greatestLinks ["data"] names place) :
    strayFiles.locate path true = .ok place := by
  obtain ⟨hfault, hstart, hsteps⟩ := of_decide_eq_true hpath
  refine FileSystem.locate_eq_ok_iff.2 ⟨hfault, ?_⟩
  rw [hsteps]
  exact hstart ▸ .here rfl (.enter rfl (isName_sample (by decide)) rfl (by simp) h)

theorem locate_localization_stray :
    strayFiles.locate (strayConfig.localizationPath .es) true = .ok ["data", "i18n", "es.yaml"] :=
  locate_data_stray ["i18n", "es.yaml"] (by decide)
    (.enter rfl (isName_sample (by decide)) rfl (by simp)
      (.enter rfl (isName_sample (by decide)) rfl (by simp) (.done _ _)))

theorem readText_fragment_stray : strayFiles.readText ⟨"./data/a.yaml"⟩ = .ok "a:\n  titre: B\n" := by
  refine FileSystem.readText_eq_ok_iff.2 ⟨_, FileSystem.read_eq_ok_iff.2 ⟨["data", "a.yaml"], ?_, rfl⟩, rfl⟩
  exact locate_data_stray ["a.yaml"] (by decide)
    (.enter rfl (isName_sample (by decide)) rfl (by simp) (.done _ _))

theorem readText_localization_stray : strayFiles.readText ⟨"./data/i18n/es.yaml"⟩ = .ok "a:\n  titre: C\n" := by
  have hpath : strayConfig.localizationPath .es = ⟨"./data/i18n/es.yaml"⟩ := by decide
  have hlocate := hpath ▸ locate_localization_stray
  exact FileSystem.readText_eq_ok_iff.2 ⟨_, FileSystem.read_eq_ok_iff.2 ⟨_, hlocate, rfl⟩, rfl⟩

theorem find_stray : find strayFiles strayConfig.root strayConfig.fragmentPatterns strayConfig.excludePatterns =
    .ok [⟨"./data/a.yaml"⟩, ⟨"./data/i18n/es.yaml"⟩] := by
  have hwalk : walk strayFiles (Scope.ofPatterns ["data/**/*.yaml"]).admits ⟨"."⟩ =
      .ok [["data", "a.yaml"], ["data", "i18n", "es.yaml"]] := by
    have hdata : (Scope.ofPatterns ["data/**/*.yaml"]).admits ["data"] = true := by decide
    have hstart : Scope.literalStart "data/**/*.yaml" = ["data"] := by decide
    have hbelow : ∀ name rest, (Scope.ofPatterns ["data/**/*.yaml"]).admits ("data" :: name :: rest) = true :=
      fun name rest => Scope.admits_of_mem (List.mem_singleton_self _) (.inl ⟨name :: rest, by rw [hstart]; rfl⟩)
    rw [walk, locate_stray]
    simp [strayFiles, walkEntries, walkEntry, Place.enter, hdata, hbelow, Except.map]
  obtain ⟨included, hincluded, haccepts⟩ : ∃ included, globs ["data/**/*.yaml"] = .ok included ∧
      (anyAccepts included ["data", "a.yaml"] && anyAccepts included ["data", "i18n", "es.yaml"]) = true :=
    exists_of_any (by decide +kernel)
  obtain ⟨excluded, hexcluded, hrejects⟩ : ∃ excluded, globs ["data/translated-*.yaml"] = .ok excluded ∧
      (!anyAccepts excluded ["data", "a.yaml"] && !anyAccepts excluded ["data", "i18n", "es.yaml"]) = true :=
    exists_of_any (by decide +kernel)
  have hpaths : [["data", "a.yaml"], ["data", "i18n", "es.yaml"]].map (pathOf ⟨"."⟩) =
      [⟨"./data/a.yaml"⟩, ⟨"./data/i18n/es.yaml"⟩] := by decide
  have hsorted : [["data", "a.yaml"], ["data", "i18n", "es.yaml"]].mergeSort Location.precedes =
      [["data", "a.yaml"], ["data", "i18n", "es.yaml"]] := List.mergeSort_of_pairwise (by decide)
  simp only [Bool.and_eq_true, Bool.not_eq_true'] at haccepts hrejects
  simp [find, strayConfig, Config.ofRoot, hincluded, hexcluded, hwalk, bind, Except.bind, pure, Except.pure,
    haccepts, hrejects, hsorted, hpaths]

/-- A localization that no pattern takes out is found under its name. -/
theorem localization_discovered_stray :
    ∃ paths, find strayFiles strayConfig.root strayConfig.fragmentPatterns strayConfig.excludePatterns = .ok paths ∧
      pathOf strayConfig.root ["data", "i18n", "es.yaml"] ∈ paths := by
  obtain ⟨included, hincluded, haccepts⟩ : ∃ included, globs strayConfig.fragmentPatterns = .ok included ∧
      anyAccepts included ["data", "i18n", "es.yaml"] = true :=
    exists_of_any (by decide +kernel)
  obtain ⟨excluded, hexcluded, hrejects⟩ : ∃ excluded, globs strayConfig.excludePatterns = .ok excluded ∧
      (!anyAccepts excluded ["data", "i18n", "es.yaml"]) = true :=
    exists_of_any (by decide +kernel)
  have hfree : ∀ relative stop, ¬ Stops strayFiles [[]] [] relative stop := fun _ _ =>
    not_stops (fun _ _ h => (tidy_stray _ _ h).2) fun _ => rfl
  obtain ⟨paths, hfind, -, -, hpicks, -⟩ := localization_discovered (fun _ _ h => (tidy_stray _ _ h).1) locate_stray
    rfl rfl hincluded hexcluded (fun _ _ h => absurd h (hfree _ _)) locate_localization_stray
  have hfinds : Finds strayFiles [[]] [] ["data", "i18n", "es.yaml"] ["data", "i18n", "es.yaml"] :=
    .enter (.directory rfl rfl) (.enter (.directory rfl rfl) (.entry (.file rfl)))
  exact ⟨paths, hfind, (hpicks _ hfinds).2 ⟨by decide, haccepts, by simpa using hrejects⟩⟩

/-- The configuration is in order, and the localization takes the place of the rule it is to be laid over. -/
theorem localization_merged_stray :
    strayConfig.check = .ok () ∧ Language.es ∈ strayConfig.distinctTargets ∧
      (∃ paths, find strayFiles strayConfig.root strayConfig.fragmentPatterns strayConfig.excludePatterns = .ok paths ∧
        strayConfig.localizationPath .es ∈ paths) ∧
      ∃ base, baseRules strayConfig strayFiles = .ok (base, 2) ∧
        base.entries = [("a", .mapping [(.string "titre", .string "C")])] := by
  refine ⟨rfl, by decide, ⟨_, find_stray, ?_⟩, ?_⟩
  · have hpath : strayConfig.localizationPath .es = ⟨"./data/i18n/es.yaml"⟩ := by decide
    simp [hpath]
  · obtain ⟨first, hfirst, htitle⟩ : ∃ rules, RuleSet.parse "a:\n  titre: B\n" = .ok rules ∧
        isTitle "B" (rules.entries.map fun entry => (.string entry.1, entry.2)) = true :=
      exists_of_any (by decide +kernel)
    obtain ⟨second, hsecond, hlocalized⟩ : ∃ rules, RuleSet.parse "a:\n  titre: C\n" = .ok rules ∧
        isTitle "C" (rules.entries.map fun entry => (.string entry.1, entry.2)) = true :=
      exists_of_any (by decide +kernel)
    have hmerged : Fragment.loadMerged strayFiles [⟨"./data/a.yaml"⟩, ⟨"./data/i18n/es.yaml"⟩] =
        .ok (Fragment.merge [⟨"./data/a.yaml", first⟩, ⟨"./data/i18n/es.yaml", second⟩]) := by
      simp only [Fragment.loadMerged, Fragment.loadAll, Fragment.load, readText_fragment_stray,
        readText_localization_stray, hfirst, hsecond, Except.map]
    refine ⟨Fragment.merge [⟨"./data/a.yaml", first⟩, ⟨"./data/i18n/es.yaml", second⟩], ?_, ?_⟩
    · simp only [baseRules, find_stray, hmerged, bind, Except.bind]
      rfl
    · have hentries := entries_of_isTitle htitle
      have hother := entries_of_isTitle hlocalized
      simp only [Fragment.merge, List.foldl_cons, List.foldl_nil, hentries, hother, RuleSet.insertAll]
      rfl

end Compilation

end Rulebook

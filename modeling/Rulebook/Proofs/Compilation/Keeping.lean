import Rulebook.Proofs.Artifact
import Rulebook.Proofs.Compilation.Stages
import Rulebook.Proofs.Fragment.Search
import Rulebook.Proofs.RuleSet

/-!
# What a language that fails leaves behind

Artifacts are kept in a directory. While the jobs run, in whatever order, a file changes only if it is the artifact
of a language that has succeeded: `Job.Moves.grows` says so of one step, with the jobs that have succeeded by then in
`Workshop.Wrote`, and `Workshop.follow_grows` of a run. So the artifact of a language that fails stays as it was, if
no other artifact is the same file (`artifact_of_failed`).
-/

namespace Rulebook

namespace Compilation

open Report (Outcome Task)

variable {setting : Setting} {directory : Artifact.Directory}

/-! ### One step -/

/-- A step changes no file but the artifact of a job that has succeeded then. -/
theorem Job.Moves.grows {fs after : FileSystem} {job next : Job} (hkeep : setting.keep = directory.write)
    (h : Job.Moves setting fs job next after) :
    fs.Grows True (fun place => next.outcome.hasSucceeded = true ∧
      after.locate (directory.destination next.language) true = .ok place) after := by
  cases h with
  | @refused language rules stats? failure after hkept =>
      have hwrites := directory.writes_write rules language fs
      rw [← hkeep, hkept] at hwrites
      cases hwrites with
      | unserialized => exact .refl _
      | refused _ hgrows => exact hgrows.mono id fun _ => False.elim
  | @kept language rules stats? destination after hkept =>
      have hwrites := directory.writes_write rules language fs
      rw [← hkeep, hkept] at hwrites
      cases hwrites with
      | written _ hdestination hlocate _ hgrows =>
          refine hgrows.mono id ?_
          rintro place rfl
          exact ⟨rfl, hdestination ▸ hlocate⟩
  | _ => exact .refl _

/-- A job that has succeeded has come to its end. -/
theorem Job.Moves.of_succeeded {fs after : FileSystem} {job next : Job} (h : Job.Moves setting fs job next after)
    (hjob : job.outcome.hasSucceeded = true) : next = job := by
  cases h with
  | rests outcome => rfl
  | _ => simp [Job.outcome, Outcome.hasSucceeded, Outcome.failed] at hjob

namespace Workshop

variable {workshop : Workshop}

/-- The places of the artifacts of jobs that have succeeded. -/
def Wrote (destination : Language → Path) (workshop : Workshop) (place : Location) : Prop :=
  ∃ job ∈ workshop.jobs, job.outcome.hasSucceeded = true ∧
    workshop.files.locate (destination job.language) true = .ok place

/-- What was written stays written. -/
theorem Wrote.move {destination : Language → Path} {place : Location} {number : Nat} {job next : Job}
    {after : FileSystem} {making : Prop} {writing : Location → Prop} (h : workshop.Wrote destination place)
    (hjob : workshop.jobs[number]? = some job) (hmoves : Job.Moves setting workshop.files job next after)
    (hgrows : workshop.files.Grows making writing after) :
    Wrote destination ⟨workshop.jobs.set number next, after⟩ place := by
  obtain ⟨writer, hwriter, hsucceeded, hplace⟩ := h
  refine ⟨writer, ?_, hsucceeded, hgrows.locate hplace⟩
  obtain ⟨index, hindex⟩ := List.mem_iff_getElem?.1 hwriter
  refine List.mem_iff_getElem?.2 ⟨index, getElem?_stays hindex ?_⟩
  -- If the job that moves is the one that has succeeded, it rests.
  rintro rfl
  obtain rfl := Option.some.inj (hjob.symm.trans hindex)
  exact hmoves.of_succeeded hsucceeded

/-- While jobs run, the files grow by directories and by the artifacts of the jobs that succeed. -/
theorem follow_grows (hkeep : setting.keep = directory.write) (schedule : List Nat) (workshop : Workshop) :
    workshop.files.Grows True ((workshop.follow setting schedule).Wrote directory.destination)
      (workshop.follow setting schedule).files := by
  refine follow_keeps (P := fun later =>
    workshop.files.Grows True (later.Wrote directory.destination) later.files) ?_ schedule (.refl _)
  intro later number job next after hlater hjob hmoves
  have hstep := hmoves.grows hkeep
  refine (hlater.mono id ?_).trans (hstep.mono id ?_)
  · intro place hwrote
    exact hwrote.move hjob hmoves hstep
  · rintro place ⟨hsucceeded, hplace⟩
    obtain ⟨hlt, -⟩ := List.getElem?_eq_some_iff.1 hjob
    exact ⟨next, List.mem_set hlt next, hsucceeded, hplace⟩

end Workshop

/-! ### The whole compilation -/

theorem mem_languagesWritten {report : Report} {language : Language} :
    language ∈ report.languagesWritten ↔
      ∃ outcome ∈ report.outcomes, outcome.task = .artifact language ∧ outcome.hasSucceeded = true := by
  rw [Report.languagesWritten, List.mem_filterMap]
  refine exists_congr fun outcome => and_congr_right fun _ => ?_
  obtain ⟨task, status, detail?, destination?, stats?⟩ := outcome
  cases status <;> cases task <;> simp [Outcome.written?, Outcome.hasSucceeded]

variable {compilation : Compilation} {schedule : Schedule} {fs after : FileSystem} {report : Report}

theorem runJobs_grows (hkeep : compilation.keep = directory.write) (base : RuleSet) (order : Schedule)
    (fs : FileSystem) :
    fs.Grows True ((compilation.runJobs base order fs).Wrote directory.destination)
      (compilation.runJobs base order fs).files := by
  have hsetting : (compilation.setting base).keep = directory.write := hkeep
  rw [runJobs_eq]
  exact Workshop.follow_grows hsetting order.numbers _

/-- From the gate on, the files grow by directories and by the artifacts of the languages that were written. -/
theorem Runs.grows (hkeep : compilation.keep = directory.write) (h : Runs compilation schedule fs report after) :
    (compilation.gatedFiles fs).Grows True (fun place => ∃ language ∈ report.languagesWritten,
      after.locate (directory.destination language) true = .ok place) after := by
  cases h with
  | unmerged hbase =>
      simp only [gatedFiles, hbase]
      exact .refl _
  | refused hbase hgate =>
      simp only [gatedFiles, hbase, hgate]
      exact .refl _
  | @compiled base count gated workshop hbase hgate hworkshop =>
      have hgrows := runJobs_grows hkeep base schedule gated
      have hfaithful := compilation.runJobs_faithful base schedule gated
      rw [hworkshop] at hgrows hfaithful
      simp only [gatedFiles, hbase, hgate]
      refine hgrows.mono id ?_
      rintro place ⟨job, hjob, hsucceeded, hplace⟩
      have houtcome : job.outcome ∈ workshop.outcomes := List.mem_map_of_mem hjob
      exact ⟨job.language, mem_languagesWritten.2 ⟨job.outcome, by simp [houtcome], hfaithful job hjob, hsucceeded⟩,
        hplace⟩

/-- A language with a failed outcome is not written. -/
theorem Runs.not_mem_languagesWritten (h : Runs compilation schedule fs report after) {outcome : Outcome}
    {language : Language} (houtcome : outcome ∈ report.outcomes) (htask : outcome.task = .artifact language)
    (hfailed : outcome.hasSucceeded = false) : language ∉ report.languagesWritten := by
  intro hwritten
  obtain ⟨other, hother, hothertask, hsucceeded⟩ := mem_languagesWritten.1 hwritten
  rw [Report.eq_of_task_eq h.nodup_tasks houtcome hother (htask.trans hothertask.symm), hsucceeded] at hfailed
  cases hfailed

/-- An artifact is reported for a language of the compilation only. -/
theorem Runs.mem_languages (h : Runs compilation schedule fs report after) {outcome : Outcome} {language : Language}
    (houtcome : outcome ∈ report.outcomes) (htask : outcome.task = .artifact language) :
    language ∈ compilation.config.languages := by
  obtain ⟨stage, hends⟩ := h.endsAt
  exact hends.mem_languages houtcome htask

theorem Runs.mem_languages_of_written (h : Runs compilation schedule fs report after) {language : Language}
    (hwritten : language ∈ report.languagesWritten) : language ∈ compilation.config.languages := by
  obtain ⟨outcome, houtcome, htask, -⟩ := mem_languagesWritten.1 hwritten
  exact h.mem_languages houtcome htask

/-- **A failed language leaves its artifact alone.** In every run that keeps its artifacts in a directory, each in a
file of its own, the file of a language that fails is after the languages what it was before them, whatever the others
did and in whatever order: no file has come to its place, none has gone, and none has got another content. This is so
for every failure: with the localization, with the overlay, with the JSON text, or with the directory. What the file
was at the very start it still was before the languages, unless a command that checked the rules has changed it
(`gatedFiles_of_structural`). -/
theorem artifact_of_failed (hkeep : compilation.keep = directory.write)
    (hapart : Artifact.Apart directory.destination compilation.config.languages (compilation.runWith schedule fs).2)
    {language : Language} {outcome : Outcome} (houtcome : outcome ∈ (compilation.runWith schedule fs).1.outcomes)
    (htask : outcome.task = .artifact language) (hfailed : outcome.hasSucceeded = false) :
    let before := compilation.gatedFiles fs
    let after := (compilation.runWith schedule fs).2
    (∀ place, after.locate (directory.destination language) true = .ok place → ∀ content,
      after.root.at? place = some (.file content) ↔ before.root.at? place = some (.file content)) ∧
    ∀ content, before.read (directory.destination language) = .ok content →
      after.read (directory.destination language) = .ok content := by
  intro before after
  have hruns := runs_runWith compilation schedule fs
  have hgrows := hruns.grows hkeep
  -- What is written is the artifact of a language that succeeded, so not this one.
  have hspared : ∀ place, after.locate (directory.destination language) true = .ok place →
      ¬ ∃ writer ∈ (compilation.runWith schedule fs).1.languagesWritten,
        after.locate (directory.destination writer) true = .ok place := by
    rintro place hplace ⟨writer, hwriter, hwritten⟩
    have hne : language ≠ writer := by
      rintro rfl
      exact hruns.not_mem_languagesWritten houtcome htask hfailed hwriter
    exact hapart language (hruns.mem_languages houtcome htask) writer (hruns.mem_languages_of_written hwriter) hne
      ⟨place, hplace, hwritten⟩
  constructor
  · intro place hplace content
    exact (hgrows.tree place).file_iff (hspared place hplace)
  · intro content hread
    exact hgrows.read hspared hread

/-! ### A small project -/

/-- One fragment, and two languages besides the source. -/
def sampleConfig : Config :=
  { Config.ofRoot ⟨"."⟩ with
    fragmentPatterns := ["a.yaml"]
    excludePatterns := []
    localizationTemplate := "\x7blang\x7d.yaml"
    targets := [.es, .it]
    rootRule? := none }

/-- There is a localization for one of the languages, and an artifact for the other one. -/
def sampleFiles : FileSystem where
  root := .directory [("a.yaml", .file "a:\n  titre: B\n".toUTF8), ("es.yaml", .file "a:\n  titre: C\n".toUTF8),
    ("public", .directory [("co2-it.json", .file "old".toUTF8)])]
  here := []

def sampleBase : RuleSet :=
  ⟨[("a", .mapping [(.string "titre", .string "B")])], by decide⟩

def sampleDirectory : Artifact.Directory :=
  .ofConfig sampleConfig

def sampleCompilation : Compilation where
  config := sampleConfig
  gate rules fs := (Gate.structuralVerdict none rules, fs)
  keep := sampleDirectory.write

theorem languages_sample : sampleConfig.languages = [.fr, .es, .it] := by decide

theorem gate_sample : sampleCompilation.gate sampleBase sampleFiles = (.ok (), sampleFiles) := rfl

/-- Do the entries give one rule this title, and nothing else? -/
def isTitle (title : String) : List (Value × Value) → Bool
  | [(.string "a", .mapping [(.string "titre", .string text)])] => text == title
  | _ => false

theorem eq_of_isTitle {title : String} {entries : List (Value × Value)} (h : isTitle title entries = true) :
    entries = [(.string "a", .mapping [(.string "titre", .string title)])] := by
  rw [isTitle.eq_def] at h
  split at h
  · rw [beq_iff_eq.1 h]
  · cases h

theorem entries_of_isTitle {title : String} {rules : RuleSet}
    (h : isTitle title (rules.entries.map fun entry => (.string entry.1, entry.2)) = true) :
    rules.entries = [("a", .mapping [(.string "titre", .string title)])] := by
  obtain ⟨⟨name, rule⟩, heq, hentry⟩ := List.map_eq_singleton_iff.1 (eq_of_isTitle h)
  obtain ⟨hname, rfl⟩ := Prod.mk.inj hentry
  obtain rfl := Value.string.inj hname
  exact heq

theorem isName_sample {name : String}
    (h : decide (name ≠ "." ∧ name ≠ ".." ∧ name.utf8ByteSize ≤ FileSystem.longestName) = true) :
    FileSystem.IsName name := by
  obtain ⟨hhere, hup, hsize⟩ := of_decide_eq_true h
  exact ⟨hhere, hup, hsize⟩

/-- The paths of the project lead on from where it is. -/
theorem locate_sample {path : Path} {mayMiss : Bool} {place : Location} (names : List String)
    (hpath : decide (FileSystem.pathFault? path = none ∧ FileSystem.start [] path.text = [] ∧
      FileSystem.steps path.text = "." :: names) = true)
    (h : FileSystem.Leads sampleFiles.root mayMiss FileSystem.greatestLinks [] names place) :
    sampleFiles.locate path mayMiss = .ok place := by
  obtain ⟨hfault, hstart, hsteps⟩ := of_decide_eq_true hpath
  refine FileSystem.locate_eq_ok_iff.2 ⟨hfault, ?_⟩
  rw [hsteps]
  exact hstart ▸ .here rfl h

/-- In which file the artifact for a language is. -/
def samplePlace (language : Language) : Location :=
  ["public", "co2-" ++ language.code ++ ".json"]

theorem locate_destination_sample {language : Language} (h : language ∈ sampleConfig.languages) :
    sampleFiles.locate (sampleDirectory.destination language) true = .ok (samplePlace language) := by
  have hpublic : ∀ {name : String} {place : Location},
      FileSystem.Leads sampleFiles.root true FileSystem.greatestLinks ["public"] [name] place →
        FileSystem.Leads sampleFiles.root true FileSystem.greatestLinks [] ["public", name] place := by
    intro name place h
    exact .enter rfl (isName_sample (by decide)) rfl (by simp) h
  cases language with
  | fr =>
      exact locate_sample ["public", "co2-fr.json"] (by decide)
        (hpublic (.missing rfl (isName_sample (by decide)) rfl rfl))
  | enUs => simp [languages_sample] at h
  | es =>
      exact locate_sample ["public", "co2-es.json"] (by decide)
        (hpublic (.missing rfl (isName_sample (by decide)) rfl rfl))
  | it =>
      exact locate_sample ["public", "co2-it.json"] (by decide)
        (hpublic (.enter rfl (isName_sample (by decide)) rfl (by simp) (.done _ _)))

/-- The localizations are files beside the fragment. -/
theorem locate_localization_sample {language : Language} (h : language ∈ sampleConfig.languages) :
    sampleFiles.locate (sampleConfig.localizationPath language) true = .ok [language.code ++ ".yaml"] := by
  cases language with
  | fr => exact locate_sample ["fr.yaml"] (by decide) (.missing rfl (isName_sample (by decide)) rfl rfl)
  | enUs => simp [languages_sample] at h
  | es =>
      exact locate_sample ["es.yaml"] (by decide)
        (.enter rfl (isName_sample (by decide)) rfl (by simp) (.done _ _))
  | it => exact locate_sample ["it.yaml"] (by decide) (.missing rfl (isName_sample (by decide)) rfl rfl)

theorem find_sample : Fragment.Search.find sampleFiles ⟨"."⟩ ["a.yaml"] [] = .ok [⟨"./a.yaml"⟩] := by
  have hwalk : Fragment.Search.walk sampleFiles (Scope.ofPatterns ["a.yaml"]).admits ⟨"."⟩ = .ok [["a.yaml"]] := by
    have hlocate : sampleFiles.locate ⟨"."⟩ false = .ok [] := locate_sample [] (by decide) (.done _ _)
    have hfragment : (Scope.ofPatterns ["a.yaml"]).admits ["a.yaml"] = true := by decide
    have hes : (Scope.ofPatterns ["a.yaml"]).admits ["es.yaml"] = false := by decide
    have hpublic : (Scope.ofPatterns ["a.yaml"]).admits ["public"] = false := by decide
    rw [Fragment.Search.walk, hlocate]
    simp [sampleFiles, Fragment.Search.walkEntries, Fragment.Search.walkEntry, hfragment, hes, hpublic, Except.map]
  obtain ⟨globs, hglobs, haccepts⟩ : ∃ globs, Fragment.Search.globs ["a.yaml"] = .ok globs ∧
      (globs.any fun glob => glob.accepts (Fragment.Search.locationText ["a.yaml"])) = true :=
    exists_of_any (by decide +kernel)
  have hnone : Fragment.Search.globs [] = .ok [] := rfl
  have hpath : Fragment.Search.pathOf ⟨"."⟩ ["a.yaml"] = ⟨"./a.yaml"⟩ := by decide
  simp only [Fragment.Search.find, hwalk, hglobs, hnone, bind, Except.bind, Fragment.Search.anyAccepts, List.any_nil,
    Bool.not_false, Bool.and_true]
  rw [List.filter_cons_of_pos (by simpa using haccepts)]
  simp [hpath, pure, Except.pure]

theorem baseRules_sample : baseRules sampleConfig sampleFiles = .ok (sampleBase, 1) := by
  have hread : sampleFiles.readText ⟨"./a.yaml"⟩ = .ok "a:\n  titre: B\n" := by
    refine FileSystem.readText_eq_ok_iff.2 ⟨_, FileSystem.read_eq_ok_iff.2 ⟨["a.yaml"], ?_, rfl⟩, rfl⟩
    exact locate_sample ["a.yaml"] (by decide)
      (.enter rfl (isName_sample (by decide)) rfl (by simp) (.done _ _))
  obtain ⟨rules, hparse, htitle⟩ : ∃ rules, RuleSet.parse "a:\n  titre: B\n" = .ok rules ∧
      isTitle "B" (rules.entries.map fun entry => (.string entry.1, entry.2)) = true :=
    exists_of_any (by decide +kernel)
  obtain rfl : rules = sampleBase := by
    obtain ⟨entries, hdistinct⟩ := rules
    obtain rfl : entries = _ := entries_of_isTitle htitle
    rfl
  have hmerged : Fragment.loadMerged sampleFiles [⟨"./a.yaml"⟩] = .ok sampleBase := by
    rw [Fragment.loadMerged, Fragment.loadAll, Fragment.load, hread]
    simp only [hparse, Fragment.loadAll, Except.map]
    rfl
  simp only [baseRules, sampleConfig, Config.ofRoot, find_sample, hmerged, bind, Except.bind]
  rfl

theorem apart_sample : Artifact.Apart sampleDirectory.destination sampleConfig.languages sampleFiles := by
  rintro first hfirst second hsecond hne ⟨shared, hshared, hshared'⟩
  obtain rfl := Except.ok.inj ((locate_destination_sample hfirst).symm.trans hshared)
  have hplace := Except.ok.inj ((locate_destination_sample hsecond).symm.trans hshared')
  revert hne hplace
  cases first <;> cases second <;> decide

theorem createDirectories_sample : sampleFiles.createDirectories sampleDirectory.path = (sampleFiles, .ok ()) := by
  refine FileSystem.createDirectories_of_isDirectory (FileSystem.isDirectory_iff.2 ⟨["public"], _, ?_, rfl⟩)
  exact locate_sample ["public"] (by decide)
    (.enter rfl (isName_sample (by decide)) rfl (by simp) (.done _ _))

theorem opened_sample : sampleDirectory.opened sampleFiles = sampleFiles :=
  congrArg Prod.fst createDirectories_sample

/-- The artifacts of the project can be written, and its localizations are no artifacts. -/
theorem prepared_sample :
    sampleDirectory.Prepared sampleConfig.languages (sampleConfig.distinctTargets.map sampleConfig.localizationPath)
      sampleFiles := by
  have hfiles : ∀ place, (sampleFiles.root.at? place).bind Tree.entries? = none →
      ¬ ∃ entries, sampleFiles.root.at? place = some (.directory entries) := by
    rintro place hnone ⟨entries, hentries⟩
    rw [hentries] at hnone
    cases hnone
  constructor
  · rw [createDirectories_sample]
  · intro language hlanguage
    rw [opened_sample]
    refine ⟨?_, _, locate_destination_sample hlanguage, hfiles _ ?_⟩
    · cases language <;> decide
    · cases language <;> rfl
  · rw [opened_sample]
    exact apart_sample
  · rw [opened_sample]
    exact fun _ _ _ hread => hread
  · intro path hpath
    obtain ⟨target, hdistinct, rfl⟩ := List.mem_map.1 hpath
    have htarget : target ∈ sampleConfig.languages := sampleConfig.languages_eq ▸ List.mem_cons_of_mem _ hdistinct
    rw [opened_sample]
    refine ⟨_, locate_localization_sample htarget, hfiles _ ?_, ?_⟩
    · cases target <;> rfl
    · intro language hlanguage hlocate
      have hplace := Except.ok.inj ((locate_destination_sample hlanguage).symm.trans hlocate)
      exact absurd (congrArg List.length hplace) (by simp [samplePlace])

theorem runWith_sample (schedule : Schedule) :
    sampleCompilation.runWith schedule sampleFiles =
      let workshop := sampleCompilation.runJobs sampleBase schedule sampleFiles
      (⟨mergedOutcome sampleBase 1 :: .succeeded .evaluation :: workshop.outcomes⟩, workshop.files) := by
  simp only [runWith, show sampleCompilation.config = sampleConfig from rfl, baseRules_sample, gate_sample]

theorem gatedFiles_sample : sampleCompilation.gatedFiles sampleFiles = sampleFiles :=
  gatedFiles_of_structural rfl

theorem grows_runWith_sample (schedule : Schedule) :
    ∃ writing, sampleFiles.Grows True writing (sampleCompilation.runWith schedule sampleFiles).2 := by
  have hkeep : sampleCompilation.keep = sampleDirectory.write := rfl
  have hgrows := (runs_runWith sampleCompilation schedule sampleFiles).grows hkeep
  rw [gatedFiles_sample] at hgrows
  exact ⟨_, hgrows⟩

theorem apart_runWith_sample (schedule : Schedule) :
    Artifact.Apart sampleDirectory.destination sampleConfig.languages
      (sampleCompilation.runWith schedule sampleFiles).2 := by
  obtain ⟨writing, hgrows⟩ := grows_runWith_sample schedule
  exact apart_sample.grows (fun language h => ⟨_, locate_destination_sample h⟩) hgrows

/-- A job that the first steps bring to its end has its outcome in the report. -/
theorem mem_runWith_sample {schedule : Schedule} {first later : List Nat} {number : Nat} {language : Language}
    {outcome : Outcome} (hnumbers : schedule.numbers = first ++ later)
    (h : (Workshop.follow (sampleCompilation.setting sampleBase) first
      ⟨sampleCompilation.jobs sampleBase, sampleFiles⟩).jobs[number]? = some ⟨language, .finished outcome⟩) :
    outcome ∈ (sampleCompilation.runWith schedule sampleFiles).1.outcomes := by
  have hlast : (sampleCompilation.runJobs sampleBase schedule sampleFiles).jobs[number]? =
      some ⟨language, .finished outcome⟩ := by
    rw [runJobs_eq, hnumbers, Workshop.follow_append]
    exact Workshop.follow_finished _ h
  rw [runWith_sample]
  exact List.mem_cons_of_mem _ (List.mem_cons_of_mem _ (List.mem_map.2 ⟨_, List.mem_of_getElem? hlast, rfl⟩))

theorem jobs_sample : sampleCompilation.jobs sampleBase =
    [⟨.fr, .ready sampleBase none⟩, ⟨.es, .unread⟩, ⟨.it, .unread⟩] := rfl

/-- There is nothing to localize the rules to Italian, so the old artifact stays. -/
theorem artifact_of_failed_sample :
    let run := sampleCompilation.runWith ⟨[1], [0, 0, 0]⟩ sampleFiles
    (∃ outcome ∈ run.1.outcomes, outcome.task = .artifact .it ∧ outcome.hasSucceeded = false) ∧
      run.2.read (sampleDirectory.destination .it) = .ok "old".toUTF8 := by
  intro run
  have hload : Localization.load sampleFiles (sampleConfig.localizationPath .it) =
      .error (.localization (sampleConfig.localizationPath .it) SystemError.notFound.message) := by
    rw [Localization.load, FileSystem.readText, FileSystem.read_of_locate (locate_localization_sample (by decide))]
    rfl
  obtain ⟨outcome, hfinished, htask, hfailed⟩ : ∃ outcome,
      (Workshop.follow (sampleCompilation.setting sampleBase) [2]
        ⟨sampleCompilation.jobs sampleBase, sampleFiles⟩).jobs[2]? = some ⟨.it, .finished outcome⟩ ∧
          outcome.task = .artifact .it ∧ outcome.hasSucceeded = false := by
    simp only [Workshop.follow, List.foldl_cons, List.foldl_nil, Workshop.advance, jobs_sample,
      List.getElem?_cons_succ, List.getElem?_cons_zero, Job.step, Job.read, setting,
      show sampleCompilation.config = sampleConfig from rfl, hload]
    exact ⟨_, rfl, rfl, rfl⟩
  have houtcome : outcome ∈ run.1.outcomes := @mem_runWith_sample _ [2] [0, 1, 1, 1] _ _ _ rfl hfinished
  have hkeep : sampleCompilation.keep = sampleDirectory.write := rfl
  have hkept := (artifact_of_failed hkeep (apart_runWith_sample _) houtcome htask hfailed).2
  refine ⟨⟨outcome, houtcome, htask, hfailed⟩, hkept _ ?_⟩
  rw [gatedFiles_sample]
  exact FileSystem.read_eq_ok_iff.2 ⟨_, locate_destination_sample (by decide), rfl⟩

end Compilation

end Rulebook

import Rulebook.Proofs.Compilation.Workshop

/-!
# The stages of a compilation

The rules are merged, then they pass the gate, then the languages are compiled, and a stage that fails is the last
one. This module provides:

* `Report.EndsAt` — the form of a report that ends at a stage, and what can be read off it;
* `Compilation.Runs` — the ways a compilation can go, and that it goes one of them (`runs_runWith`); and
* `runWith_outcomes` — one outcome for each task, in order, and no artifact before the gate has been passed.
-/

namespace Rulebook

namespace Report

/-! ### Forms of a report -/

/-- What a compilation goes through, one after the other. -/
inductive Stage where
  | aggregation
  | evaluation
  | languages

/-- The outcomes that a report has when a stage is the last one. -/
inductive EndsAt (languages : List Language) : Stage → Report → Prop where
  | aggregation (message : String) : EndsAt languages .aggregation ⟨[.failed .aggregation message]⟩
  | evaluation (detail? : Option String) (message : String) :
      EndsAt languages .evaluation
        ⟨[{ Outcome.succeeded .aggregation with detail? := detail? }, .failed .evaluation message]⟩
  | languages (detail? : Option String) {outcomes : List Outcome}
      (htasks : outcomes.map Outcome.task = languages.map .artifact) :
      EndsAt languages .languages
        ⟨{ Outcome.succeeded .aggregation with detail? := detail? } :: .succeeded .evaluation :: outcomes⟩

section EndsAt

variable {languages : List Language} {stage other : Stage} {report : Report}

theorem EndsAt.unique (h : EndsAt languages stage report) (hother : EndsAt languages other report) :
    other = stage := by
  cases h <;> cases hother <;> rfl

/-- An outcome of the last stage is about an artifact. -/
theorem exists_artifact {outcomes : List Outcome} (htasks : outcomes.map Outcome.task = languages.map .artifact)
    {outcome : Outcome} (h : outcome ∈ outcomes) : ∃ language ∈ languages, outcome.task = .artifact language := by
  have hmem : outcome.task ∈ languages.map Task.artifact := htasks ▸ List.mem_map_of_mem h
  obtain ⟨language, hlanguage, htask⟩ := List.mem_map.1 hmem
  exact ⟨language, hlanguage, htask.symm⟩

theorem nodup_artifacts (h : languages.Nodup) : (languages.map Task.artifact).Nodup :=
  List.Pairwise.map _ (fun _ _ hne heq => hne (Task.artifact.inj heq)) h

theorem EndsAt.nodup_tasks (h : EndsAt languages stage report) (hlanguages : languages.Nodup) :
    (report.outcomes.map Outcome.task).Nodup := by
  cases h with
  | aggregation message => simp
  | evaluation detail? message => simp [Outcome.succeeded, Outcome.failed]
  | languages detail? htasks =>
      rw [List.map_cons, List.map_cons, htasks]
      simp [Outcome.succeeded, nodup_artifacts hlanguages]

/-- An artifact is reported for one of the languages only. -/
theorem EndsAt.mem_languages (h : EndsAt languages stage report) {outcome : Outcome} {language : Language}
    (houtcome : outcome ∈ report.outcomes) (htask : outcome.task = .artifact language) : language ∈ languages := by
  cases h with
  | aggregation message =>
      obtain rfl := List.mem_singleton.1 houtcome
      cases htask
  | evaluation detail? message =>
      rcases List.mem_cons.1 houtcome with rfl | houtcome
      · cases htask
      · obtain rfl := List.mem_singleton.1 houtcome
        cases htask
  | languages detail? htasks =>
      rcases List.mem_cons.1 houtcome with rfl | houtcome
      · cases htask
      · rcases List.mem_cons.1 houtcome with rfl | houtcome
        · cases htask
        · obtain ⟨other, hother, hothertask⟩ := exists_artifact htasks houtcome
          obtain rfl := Task.artifact.inj (htask.symm.trans hothertask)
          exact hother

/-- If all is well, each language has an outcome that is. -/
theorem EndsAt.exists_of_allSucceeded (h : EndsAt languages stage report) (hall : report.allSucceeded = true)
    {language : Language} (hlanguage : language ∈ languages) :
    ∃ outcome ∈ report.outcomes, outcome.task = .artifact language ∧ outcome.hasSucceeded = true := by
  rw [allSucceeded, List.all_eq_true] at hall
  cases h with
  | aggregation message => simp [Outcome.failed, Outcome.hasSucceeded] at hall
  | evaluation detail? message => simp [Outcome.failed, Outcome.hasSucceeded] at hall
  | @languages detail? outcomes htasks =>
      have hmem : Task.artifact language ∈ outcomes.map Outcome.task := htasks ▸ List.mem_map_of_mem hlanguage
      obtain ⟨outcome, houtcome, htask⟩ := List.mem_map.1 hmem
      have hreported := List.mem_cons_of_mem { Outcome.succeeded .aggregation with detail? := detail? }
        (List.mem_cons_of_mem (Outcome.succeeded .evaluation) houtcome)
      exact ⟨outcome, hreported, htask, hall outcome hreported⟩

/-- A compilation has been stopped exactly when there is nothing to say about an artifact. -/
theorem EndsAt.stoppedEarly_iff (h : EndsAt languages stage report) (hne : languages ≠ []) :
    report.stoppedEarly = true ↔ ∀ outcome ∈ report.outcomes, ∀ language, outcome.task ≠ .artifact language := by
  cases h with
  | aggregation message => simp [stoppedEarly, Outcome.hasSucceeded, Outcome.failed]
  | evaluation detail? message => simp [stoppedEarly, Outcome.hasSucceeded, Outcome.failed, Outcome.succeeded]
  | @languages detail? outcomes htasks =>
      have hrest : (outcomes.any fun outcome =>
          !outcome.hasSucceeded && (outcome.task = .aggregation || outcome.task = .evaluation)) = false := by
        rw [List.any_eq_false]
        intro outcome houtcome
        obtain ⟨language, -, htask⟩ := exists_artifact htasks houtcome
        simp [htask]
      have hgoes : stoppedEarly ⟨{ Outcome.succeeded .aggregation with detail? := detail? } ::
          .succeeded .evaluation :: outcomes⟩ = false := by
        rw [stoppedEarly, List.any_cons, List.any_cons, hrest]
        rfl
      obtain ⟨language, rest, rfl⟩ := List.exists_cons_of_ne_nil hne
      cases outcomes with
      | nil => cases htasks
      | cons outcome others =>
          have htask : outcome.task = .artifact language := (List.cons.inj htasks).1
          rw [hgoes]
          constructor
          · intro hstopped
            cases hstopped
          · intro hnone
            exact absurd htask (hnone outcome (by simp) language)

/-- Where no task comes twice, the outcome that is found for a task is the only one. -/
theorem outcomeOf?_eq_some_iff (hnodup : (report.outcomes.map Outcome.task).Nodup) {task : Task} {outcome : Outcome} :
    report.outcomeOf? task = some outcome ↔ outcome ∈ report.outcomes ∧ outcome.task = task := by
  rw [outcomeOf?]
  constructor
  · intro h
    exact ⟨List.mem_of_find?_eq_some h, by simpa using List.find?_some h⟩
  · rintro ⟨hmem, rfl⟩
    generalize report.outcomes = outcomes at hnodup hmem
    induction outcomes with
    | nil => cases hmem
    | cons first rest ih =>
        rw [List.map_cons, List.nodup_cons] at hnodup
        rcases List.mem_cons.1 hmem with rfl | hmem
        · simp
        · have hne : first.task ≠ outcome.task := fun heq => hnodup.1 (heq ▸ List.mem_map_of_mem hmem)
          rw [List.find?_cons_of_neg (by simpa using hne)]
          exact ih hnodup.2 hmem

/-- Where no task comes twice, an outcome is known by its task. -/
theorem eq_of_task_eq (hnodup : (report.outcomes.map Outcome.task).Nodup) {outcome other : Outcome}
    (houtcome : outcome ∈ report.outcomes) (hother : other ∈ report.outcomes) (htask : outcome.task = other.task) :
    outcome = other := by
  have hfound : report.outcomeOf? other.task = some outcome := (outcomeOf?_eq_some_iff hnodup).2 ⟨houtcome, htask⟩
  exact Option.some.inj (hfound.symm.trans ((outcomeOf?_eq_some_iff hnodup).2 ⟨hother, rfl⟩))

end EndsAt

end Report

namespace Compilation

open Report (Outcome EndsAt Stage)

variable {compilation : Compilation} {schedule : Schedule} {fs after : FileSystem} {report : Report}

/-! ### The ways of a compilation -/

/-- The files when the languages are begun, or would have been: nothing but the gate has touched them. -/
def gatedFiles (compilation : Compilation) (fs : FileSystem) : FileSystem :=
  match baseRules compilation.config fs with
  | .error _ => fs
  | .ok (base, _) => (compilation.gate base fs).2

/-- Where the rules are checked by their structure, these are the files of the start. -/
theorem gatedFiles_of_structural {root? : Option String}
    (hgate : compilation.gate = fun rules fs => (Gate.structuralVerdict root? rules, fs)) :
    compilation.gatedFiles fs = fs := by
  rw [gatedFiles, hgate]
  split <;> rfl

/-- The report of a compilation and the files after it, by the stage at which it ends. -/
inductive Runs (compilation : Compilation) (schedule : Schedule) (fs : FileSystem) :
    Report → FileSystem → Prop where
  | unmerged {failure : Failure} (hbase : baseRules compilation.config fs = .error failure) :
      Runs compilation schedule fs ⟨[.failed .aggregation failure.message]⟩ fs
  | refused {base : RuleSet} {count : Nat} {failure : Failure} {gated : FileSystem}
      (hbase : baseRules compilation.config fs = .ok (base, count))
      (hgate : compilation.gate base fs = (.error failure, gated)) :
      Runs compilation schedule fs ⟨[mergedOutcome base count, .failed .evaluation (gateMessage failure)]⟩ gated
  | compiled {base : RuleSet} {count : Nat} {gated : FileSystem} {workshop : Workshop}
      (hbase : baseRules compilation.config fs = .ok (base, count))
      (hgate : compilation.gate base fs = (.ok (), gated))
      (hworkshop : compilation.runJobs base schedule gated = workshop) :
      Runs compilation schedule fs
        ⟨mergedOutcome base count :: .succeeded .evaluation :: workshop.outcomes⟩ workshop.files

theorem runs_runWith (compilation : Compilation) (schedule : Schedule) (fs : FileSystem) :
    Runs compilation schedule fs (compilation.runWith schedule fs).1 (compilation.runWith schedule fs).2 := by
  rw [runWith]
  cases hbase : baseRules compilation.config fs with
  | error failure => exact .unmerged hbase
  | ok merged =>
      obtain ⟨base, count⟩ := merged
      rcases hgate : compilation.gate base fs with ⟨verdict, gated⟩
      simp only [hgate]
      cases verdict with
      | error failure => exact .refused hbase hgate
      | ok passed => exact .compiled hbase hgate rfl

theorem Runs.endsAt (h : Runs compilation schedule fs report after) :
    ∃ stage, EndsAt compilation.config.languages stage report := by
  cases h with
  | unmerged hbase => exact ⟨_, .aggregation _⟩
  | refused hbase hgate => exact ⟨_, .evaluation _ _⟩
  | @compiled base count gated workshop hbase hgate hworkshop =>
      refine ⟨_, .languages _ ?_⟩
      rw [← hworkshop]
      exact compilation.runJobs_tasks base _ gated

theorem Runs.nodup_tasks (h : Runs compilation schedule fs report after) :
    (report.outcomes.map Outcome.task).Nodup := by
  obtain ⟨stage, hends⟩ := h.endsAt
  exact hends.nodup_tasks compilation.config.languages_nodup

/-- A compilation that ends before the languages leaves the files to the gate. -/
theorem Runs.files_of_stopped {stage : Stage} (h : Runs compilation schedule fs report after)
    (hends : EndsAt compilation.config.languages stage report) (hstage : stage ≠ .languages) :
    after = compilation.gatedFiles fs := by
  cases h with
  | unmerged hbase => rw [gatedFiles, hbase]
  | refused hbase hgate => simp only [gatedFiles, hbase, hgate]
  | compiled =>
      cases hends
      exact absurd rfl hstage

/-- Nor does it matter, then, what would keep the artifacts, and in what order the jobs would be done. -/
theorem Runs.of_stopped {stage : Stage} (h : Runs compilation schedule fs report after)
    (hends : EndsAt compilation.config.languages stage report) (hstage : stage ≠ .languages) (keep : Keeper)
    (order : Schedule) : { compilation with keep := keep }.runWith order fs = (report, after) := by
  cases h with
  | unmerged hbase => simp only [runWith, hbase]
  | refused hbase hgate => simp only [runWith, hbase, hgate]
  | compiled =>
      cases hends
      exact absurd rfl hstage

/-- **One outcome for each task, in order, behind the gate.** A report has one of three forms. In each no task comes
twice; it tells of an artifact unless the compilation was stopped; and where it was stopped before the languages,
nothing has been asked of the keeper of artifacts: another one would leave the same report and the same files, which
are as the gate left them. -/
theorem runWith_outcomes (compilation : Compilation) (schedule : Schedule) (fs : FileSystem) :
    let report := (compilation.runWith schedule fs).1
    let languages := compilation.config.languages
    (∃ stage, EndsAt languages stage report ∧ ∀ other, EndsAt languages other report → other = stage) ∧
      (∀ task outcome, report.outcomeOf? task = some outcome ↔ outcome ∈ report.outcomes ∧ outcome.task = task) ∧
      (report.outcomes.map Outcome.task).Nodup ∧
      (report.stoppedEarly = true ↔
        ∀ outcome ∈ report.outcomes, ∀ language, outcome.task ≠ .artifact language) ∧
      (∀ stage, EndsAt languages stage report → stage ≠ .languages →
        (compilation.runWith schedule fs).2 = compilation.gatedFiles fs ∧
          ∀ keep order, { compilation with keep := keep }.runWith order fs = compilation.runWith schedule fs) := by
  intro report languages
  have hruns := runs_runWith compilation schedule fs
  obtain ⟨stage, hends⟩ := hruns.endsAt
  have hnodup := hruns.nodup_tasks
  refine ⟨⟨stage, hends, fun other => hends.unique⟩, fun task outcome => Report.outcomeOf?_eq_some_iff hnodup,
    hnodup, hends.stoppedEarly_iff (List.cons_ne_nil _ _), ?_⟩
  intro stage hends hstage
  exact ⟨hruns.files_of_stopped hends hstage, hruns.of_stopped hends hstage⟩

end Compilation

end Rulebook

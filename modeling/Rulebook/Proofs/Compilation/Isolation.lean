import Rulebook.Proofs.Compilation.Keeping

/-!
# Languages that do not meet

The jobs of a compilation share the files. If the keeper of artifacts lets them meet nowhere there (`Separate`), a job
gets on as it would alone, whatever the others do and in whatever order:

* `Alike` — two file systems that a language cannot tell apart, and a step in each of them (`Separate.step_alike`);
* `Job.alone` — a job after some steps in files of its own, which a run imitates (`Separate.runJobs_imitates`);
* `runJobs_isolated` — the order of the steps does not matter, nor does another language's localization; and
* `separate_write` — a directory of artifacts is such a keeper where all its files are apart.
-/

namespace Rulebook

namespace Compilation

open Report (Outcome Task)

variable {compilation : Compilation} {destination : Language → Path} {among : FileSystem → Prop} {base : RuleSet}
  {language : Language}

/-! ### Keepers under which languages do not meet -/

/-- Among some files, the answer for a language depends on the rules and the language alone, and no artifact is
another one, or a localization. -/
structure Separate (compilation : Compilation) (destination : Language → Path) (among : FileSystem → Prop) : Prop where
  /-- To keep an artifact does not lead out of these files. -/
  closed : ∀ {fs} rules, ∀ language ∈ compilation.config.languages, among fs →
    among (compilation.keep rules language fs).2
  /-- The answer depends on the rules and the language, -/
  answer : ∀ {fs other} rules, ∀ language ∈ compilation.config.languages, among fs → among other →
    (compilation.keep rules language fs).1 = (compilation.keep rules language other).1
  /-- and so does what becomes of the artifact. -/
  artifact : ∀ {fs other} rules, ∀ language ∈ compilation.config.languages, among fs → among other →
    fs.content? (destination language) = other.content? (destination language) →
      (compilation.keep rules language fs).2.content? (destination language) =
        (compilation.keep rules language other).2.content? (destination language)
  /-- The artifact of another language is not touched, -/
  others : ∀ {fs} rules, ∀ language ∈ compilation.config.languages, ∀ other ∈ compilation.config.languages,
    other ≠ language → among fs →
      (compilation.keep rules language fs).2.content? (destination other) = fs.content? (destination other)
  /-- nor is anything that is read to localize the rules. It is reading that counts, for a path that leads through the
  directory of the artifacts may lead nowhere until that is made. -/
  localizations : ∀ {fs} rules, ∀ language ∈ compilation.config.languages, ∀ other ∈ compilation.config.languages,
    other ≠ compilation.config.source → among fs →
      (compilation.keep rules language fs).2.readText (compilation.config.localizationPath other) =
        fs.readText (compilation.config.localizationPath other)

/-- A language has the same artifact and, unless it is the source, the same localization. -/
structure Alike (compilation : Compilation) (destination : Language → Path) (language : Language)
    (fs other : FileSystem) : Prop where
  artifact : fs.content? (destination language) = other.content? (destination language)
  localization : language ≠ compilation.config.source →
    fs.readText (compilation.config.localizationPath language) =
      other.readText (compilation.config.localizationPath language)

section Alike

variable {first second third : FileSystem}

theorem Alike.refl (compilation : Compilation) (destination : Language → Path) (language : Language)
    (fs : FileSystem) : Alike compilation destination language fs fs :=
  ⟨rfl, fun _ => rfl⟩

theorem Alike.symm (h : Alike compilation destination language first second) :
    Alike compilation destination language second first :=
  ⟨h.artifact.symm, fun hne => (h.localization hne).symm⟩

theorem Alike.trans (h : Alike compilation destination language first second)
    (h' : Alike compilation destination language second third) : Alike compilation destination language first third :=
  ⟨h.artifact.trans h'.artifact, fun hne => (h.localization hne).trans (h'.localization hne)⟩

end Alike

/-! ### One step -/

/-- The job is for one of the languages, and reads no localization for the source. -/
def Job.Ordered (compilation : Compilation) (job : Job) : Prop :=
  job.language ∈ compilation.config.languages ∧ (job.phase = .unread → job.language ≠ compilation.config.source)

section Step

variable {job next : Job} {fs other after : FileSystem}

theorem Job.step_language (setting : Setting) (job : Job) (fs : FileSystem) :
    (job.step setting fs).1.language = job.language :=
  (job.moves_step setting fs).language

theorem Job.Ordered.step (h : job.Ordered compilation) (setting : Setting) (fs : FileSystem) :
    (job.step setting fs).1.Ordered compilation := by
  refine ⟨job.step_language setting fs ▸ h.1, ?_⟩
  have hmoves := job.moves_step setting fs
  generalize (job.step setting fs).1 = next at hmoves ⊢
  cases hmoves with
  | rests outcome => exact h.2
  | _ => exact fun hphase => by cases hphase

/-- In files that its language cannot tell apart, a job does the same, and the language cannot tell afterwards. -/
theorem Separate.step_alike (h : Separate compilation destination among) (base : RuleSet)
    (hjob : job.Ordered compilation) (hfs : among fs) (hother : among other)
    (halike : Alike compilation destination job.language fs other) :
    (job.step (compilation.setting base) fs).1 = (job.step (compilation.setting base) other).1 ∧
      Alike compilation destination job.language (job.step (compilation.setting base) fs).2
        (job.step (compilation.setting base) other).2 := by
  obtain ⟨language, phase⟩ := job
  obtain ⟨hlanguage, hunread⟩ := hjob
  cases phase with
  | unread =>
      refine ⟨?_, halike⟩
      have hload : Localization.load fs (compilation.config.localizationPath language) =
          Localization.load other (compilation.config.localizationPath language) := by
        rw [Localization.load, Localization.load, halike.localization (hunread rfl)]
      simp only [Job.step, Job.read, setting, hload]
  | read localization => exact ⟨rfl, halike⟩
  | ready rules stats? =>
      have hanswer := h.answer rules language hlanguage hfs hother
      have hkeep : (compilation.setting base).keep = compilation.keep := rfl
      simp only [Job.step, Job.write, hkeep, hanswer, true_and]
      constructor
      · exact h.artifact rules language hlanguage hfs hother halike.artifact
      · intro hne
        rw [h.localizations rules language hlanguage language hlanguage hne hfs,
          h.localizations rules language hlanguage language hlanguage hne hother]
        exact halike.localization hne
  | finished outcome => exact ⟨rfl, halike⟩

/-- A step stays among the files, -/
theorem Separate.step_among (h : Separate compilation destination among) (base : RuleSet)
    (hlanguage : job.language ∈ compilation.config.languages) (hfs : among fs) :
    among (job.step (compilation.setting base) fs).2 := by
  obtain ⟨language, phase⟩ := job
  cases phase with
  | ready rules stats? => exact h.closed rules language hlanguage hfs
  | _ => exact hfs

/-- and no other language can tell that there was one. -/
theorem Separate.step_others (h : Separate compilation destination among)
    (hjob : job.language ∈ compilation.config.languages) (hlanguage : language ∈ compilation.config.languages)
    (hne : language ≠ job.language) (hfs : among fs) :
    Alike compilation destination language (job.step (compilation.setting base) fs).2 fs := by
  obtain ⟨writer, phase⟩ := job
  cases phase with
  | ready rules stats? =>
      exact ⟨h.others rules writer hjob language hlanguage hne hfs,
        fun hsource => h.localizations rules writer hjob language hlanguage hsource hfs⟩
  | _ => exact .refl _ _ _ _

end Step

/-! ### A job by itself -/

/-- The job and the files after some steps of it, and none of another. -/
def Job.alone (setting : Setting) (job : Job) (fs : FileSystem) : Nat → Job × FileSystem
  | 0 => (job, fs)
  | count + 1 => (job.alone setting fs count).1.step setting (job.alone setting fs count).2

section Alone

variable {job : Job} {fs other : FileSystem} {setting : Setting}

theorem Job.alone_language (setting : Setting) (job : Job) (fs : FileSystem) (count : Nat) :
    (job.alone setting fs count).1.language = job.language := by
  induction count with
  | zero => rfl
  | succ count ih => rw [alone, step_language, ih]

theorem Job.Ordered.alone (h : job.Ordered compilation) (setting : Setting) (fs : FileSystem) (count : Nat) :
    (job.alone setting fs count).1.Ordered compilation := by
  induction count with
  | zero => exact h
  | succ count ih => exact ih.step setting _

theorem Separate.alone_among (h : Separate compilation destination among)
    (hlanguage : job.language ∈ compilation.config.languages) (hfs : among fs) (count : Nat) :
    among (job.alone (compilation.setting base) fs count).2 := by
  induction count with
  | zero => exact hfs
  | succ count ih => exact h.step_among base (Job.alone_language _ job fs count ▸ hlanguage) ih

end Alone

/-! ### Runs -/

theorem ordered_jobs (compilation : Compilation) (base : RuleSet) :
    ∀ job ∈ compilation.jobs base, job.Ordered compilation := by
  intro job hjob
  have hlanguage : job.language ∈ compilation.config.languages :=
    compilation.languages_jobs base ▸ List.mem_map_of_mem hjob
  rcases List.mem_cons.1 hjob with rfl | hjob
  · exact ⟨hlanguage, fun hphase => by cases hphase⟩
  · obtain ⟨language, hdistinct, rfl⟩ := List.mem_map.1 hjob
    have hnodup := compilation.config.languages_nodup
    rw [Config.languages_eq, List.nodup_cons] at hnodup
    exact ⟨hlanguage, fun _ heq => hnodup.1 (heq ▸ hdistinct)⟩

/-- The job with a number is as far as it would be alone, and finds its artifact and its localization as it would. -/
def Imitates (compilation : Compilation) (destination : Language → Path) (base : RuleSet) (start : FileSystem)
    (number : Nat) (files : FileSystem) (job : Job) : Prop :=
  ∃ (first : Job) (count : Nat), (compilation.jobs base)[number]? = some first ∧
    (first.alone (compilation.setting base) start count).1 = job ∧
    Alike compilation destination first.language files (first.alone (compilation.setting base) start count).2

section Runs

variable {start files after : FileSystem} {number : Nat} {job next other : Job}

/-- One more step, here and there. -/
theorem Imitates.step (h : Separate compilation destination among) (hstart : among start) (hfiles : among files)
    (hjob : Imitates compilation destination base start number files job) :
    Imitates compilation destination base start number (job.step (compilation.setting base) files).2
      (job.step (compilation.setting base) files).1 := by
  obtain ⟨first, count, hfirst, rfl, halike⟩ := hjob
  have hordered := compilation.ordered_jobs base first (List.mem_of_getElem? hfirst)
  have hlanguage := Job.alone_language (compilation.setting base) first start count
  have hstep := h.step_alike base (hordered.alone (compilation.setting base) start count) hfiles
    (h.alone_among hordered.1 hstart count) (hlanguage.symm ▸ halike)
  exact ⟨first, count + 1, hfirst, hstep.1.symm, hlanguage ▸ hstep.2⟩

/-- The step of another job is not noticed. -/
theorem Imitates.others (h : Separate compilation destination among) (hfiles : among files)
    (hjob : job.language ∈ compilation.config.languages) (hne : other.language ≠ job.language)
    (hother : Imitates compilation destination base start number files other) :
    Imitates compilation destination base start number (job.step (compilation.setting base) files).2 other := by
  obtain ⟨first, count, hfirst, rfl, halike⟩ := hother
  have hordered := compilation.ordered_jobs base first (List.mem_of_getElem? hfirst)
  rw [Job.alone_language] at hne
  exact ⟨first, count, hfirst, rfl, (h.step_others hjob hordered.1 hne hfiles).trans halike⟩

end Runs

end Compilation

end Rulebook

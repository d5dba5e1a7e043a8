import Rulebook.CommandLine.Answer
import Rulebook.Proofs.Compilation.Keeping
import Rulebook.Proofs.Gate

/-!
# What is shipped

A compilation that a configuration describes keeps the artifacts in a directory. If each has a file of its own there,
and none of these is a localization, then an artifact that is reported holds, at the end, what its language asks for;
and that of the source holds the text that a command was run on before, on whatever host. This module provides:

* `Compilation.Asks` — the rules that a language asks for;
* `Job.Sound` — what a job has in hand comes from these, which every step keeps (`Job.Sound.moves`); and
* `Compilation.Shipped` — an outcome and the artifact that it tells of, and `shipped_of_succeeded`.
-/

namespace Rulebook

namespace Compilation

open Report (Outcome Task EndsAt)

/-! ### What a language asks for -/

/-- The rules for a language, with what was done to them: the base rules for the source, and the localized ones for
another language. -/
inductive Asks (config : Config) (base : RuleSet) (fs : FileSystem) :
    Language → RuleSet → Option Overlay.Stats → Prop where
  | source : Asks config base fs config.source base none
  | target {language : Language} {localization : Localization} {rules : RuleSet} {stats : Overlay.Stats}
      (hne : language ≠ config.source)
      (hload : Localization.load fs (config.localizationPath language) = .ok localization)
      (happly : Overlay.apply config.overlay localization base = .ok (rules, stats)) :
      Asks config base fs language rules (some stats)

/-- No artifact is a localization. -/
def Aside (config : Config) (fs : FileSystem) : Prop :=
  ∀ language ∈ config.languages, ∀ target ∈ config.languages, target ≠ config.source →
    ¬ fs.SameFile (config.artifactPath language) (config.localizationPath target)

section Growing

variable {config : Config} {base : RuleSet} {before after : FileSystem} {making : Prop} {writing : Location → Prop}
  {language : Language}

theorem load_eq_ok_iff {fs : FileSystem} {path : Path} {localization : Localization} :
    Localization.load fs path = .ok localization ↔
      ∃ text, fs.readText path = .ok text ∧ Localization.parse text = .ok localization := by
  rw [Localization.load]
  cases fs.readText path with
  | error error => simp
  | ok text => simp only [mapError_eq_ok_iff, Except.ok.injEq, exists_eq_left']

/-- A localization that is not written is loaded again. -/
theorem load_grows {path : Path} {localization : Localization} (hgrows : before.Grows making writing after)
    (hwriting : ∀ place, after.locate path true = .ok place → ¬ writing place)
    (h : Localization.load before path = .ok localization) : Localization.load after path = .ok localization := by
  obtain ⟨text, hread, hparse⟩ := load_eq_ok_iff.1 h
  exact load_eq_ok_iff.2 ⟨text, hgrows.readText hwriting hread, hparse⟩

/-- What a language asks for stays the same as long as its localization is not written. -/
theorem Asks.grows {rules : RuleSet} {stats? : Option Overlay.Stats} (hgrows : before.Grows making writing after)
    (hwriting : language ≠ config.source →
      ∀ place, after.locate (config.localizationPath language) true = .ok place → ¬ writing place)
    (h : Asks config base before language rules stats?) : Asks config base after language rules stats? := by
  cases h with
  | source => exact .source
  | target hne hload happly => exact .target hne (load_grows hgrows (hwriting hne) hload) happly

end Growing

/-! ### Jobs -/

/-- A job has in hand what its language asks for; and if it has succeeded, so has the artifact. -/
inductive Job.Sound (config : Config) (base : RuleSet) (fs : FileSystem) : Job → Prop where
  | unread {language : Language} (hne : language ≠ config.source) : Sound config base fs ⟨language, .unread⟩
  | read {language : Language} {localization : Localization} (hne : language ≠ config.source)
      (hload : Localization.load fs (config.localizationPath language) = .ok localization) :
      Sound config base fs ⟨language, .read localization⟩
  | ready {language : Language} {rules : RuleSet} {stats? : Option Overlay.Stats}
      (hasks : Asks config base fs language rules stats?) : Sound config base fs ⟨language, .ready rules stats?⟩
  | failed {language : Language} {outcome : Outcome} (hfailed : outcome.hasSucceeded = false) :
      Sound config base fs ⟨language, .finished outcome⟩
  | written {language : Language} {rules : RuleSet} {stats? : Option Overlay.Stats} {text : String}
      (hasks : Asks config base fs language rules stats?) (hjson : rules.json = .ok text)
      (hread : fs.read (config.artifactPath language) = .ok text.toUTF8) :
      Sound config base fs ⟨language, .finished { Outcome.succeeded (.artifact language) with
        destination? := some (config.artifactPath language), stats? := stats? }⟩

section Sound

variable {config : Config} {base : RuleSet} {before fs after : FileSystem} {job next other : Job}

/-- A job stays sound as long as neither its localization nor its artifact is written. -/
theorem Job.Sound.grows {making : Prop} {writing : Location → Prop} (hgrows : before.Grows making writing after)
    (hlocalization : job.language ≠ config.source →
      ∀ place, after.locate (config.localizationPath job.language) true = .ok place → ¬ writing place)
    (hartifact : ∀ place, after.locate (config.artifactPath job.language) true = .ok place → ¬ writing place)
    (h : Job.Sound config base before job) : Job.Sound config base after job := by
  cases h with
  | unread hne => exact .unread hne
  | read hne hload => exact .read hne (load_grows hgrows (hlocalization hne) hload)
  | ready hasks => exact .ready (hasks.grows hgrows hlocalization)
  | failed hfailed => exact .failed hfailed
  | written hasks hjson hread =>
      exact .written (hasks.grows hgrows hlocalization) hjson (hgrows.read hartifact hread)

variable {compilation : Compilation}

/-- A step of a sound job leaves it sound, if no artifact is a localization. -/
theorem Job.Sound.moves (hkeep : compilation.keep = (Artifact.Directory.ofConfig compilation.config).write)
    (haside : Aside compilation.config after) (hlanguage : job.language ∈ compilation.config.languages)
    (h : Job.Sound compilation.config base fs job) (hmoves : Job.Moves (compilation.setting base) fs job next after) :
    Job.Sound compilation.config base after next := by
  cases hmoves with
  | unloaded hload => exact .failed rfl
  | loaded hload =>
      cases h with
      | unread hne => exact .read hne hload
  | unfit happly => exact .failed rfl
  | localized happly =>
      cases h with
      | read hne hload => exact .ready (.target hne hload happly)
  | refused hkept => exact .failed rfl
  | @kept language rules stats? destination after hkept =>
      cases h with
      | ready hasks =>
          have hwrites := (Artifact.Directory.ofConfig compilation.config).writes_write rules language fs
          rw [← hkeep, show compilation.keep rules language fs = (.ok destination, after) from hkept] at hwrites
          cases hwrites with
          | @written text _ _ place hjson hdestination hlocate hcontent hgrows =>
              subst hdestination
              have hasks' : Asks compilation.config base after language rules stats? := by
                refine hasks.grows hgrows ?_
                rintro hne place' hplace' rfl
                exact haside language hlanguage language hlanguage hne ⟨place', hlocate, hplace'⟩
              exact .written hasks' hjson (FileSystem.read_eq_ok_iff.2 ⟨place, hlocate, hcontent⟩)
  | rests outcome => exact h

/-- Nor does a step of another job matter, if the artifacts are apart. -/
theorem Job.Sound.others (hkeep : compilation.keep = (Artifact.Directory.ofConfig compilation.config).write)
    (hapart : Artifact.Apart compilation.config.artifactPath compilation.config.languages after)
    (haside : Aside compilation.config after) (hlanguage : job.language ∈ compilation.config.languages)
    (hother : other.language ∈ compilation.config.languages) (hne : other.language ≠ job.language)
    (h : Job.Sound compilation.config base fs other)
    (hmoves : Job.Moves (compilation.setting base) fs job next after) :
    Job.Sound compilation.config base after other := by
  have hkeep' : (compilation.setting base).keep = (Artifact.Directory.ofConfig compilation.config).write := hkeep
  have hgrows := hmoves.grows hkeep'
  rw [hmoves.language] at hgrows
  refine h.grows hgrows ?_ ?_
  · rintro htarget place hplace ⟨-, hwritten⟩
    exact haside job.language hlanguage other.language hother htarget ⟨place, hwritten, hplace⟩
  · rintro place hplace ⟨-, hwritten⟩
    exact hapart other.language hother job.language hlanguage hne ⟨place, hplace, hwritten⟩

end Sound

/-! ### Runs -/

section Runs

variable {config : Config} {compilation : Compilation} {base : RuleSet} {fs after : FileSystem}

/-- What is apart at the end was apart before. -/
theorem apart_of_grows {making : Prop} {writing : Location → Prop} (hgrows : fs.Grows making writing after)
    (h : Artifact.Apart config.artifactPath config.languages after ∧ Aside config after) :
    Artifact.Apart config.artifactPath config.languages fs ∧ Aside config fs := by
  constructor
  · intro language hlanguage other hother hne hsame
    exact h.1 language hlanguage other hother hne (hgrows.sameFile hsame)
  · intro language hlanguage target htarget hne hsame
    exact h.2 language hlanguage target htarget hne (hgrows.sameFile hsame)

/-- The jobs are sound when they are made. -/
theorem sound_jobs (compilation : Compilation) (base : RuleSet) (fs : FileSystem) :
    ∀ job ∈ compilation.jobs base, Job.Sound compilation.config base fs job := by
  intro job hjob
  rcases List.mem_cons.1 hjob with rfl | hjob
  · exact .ready .source
  · obtain ⟨language, hlanguage, rfl⟩ := List.mem_map.1 hjob
    have hnodup := compilation.config.languages_nodup
    rw [Config.languages_eq, List.nodup_cons] at hnodup
    exact .unread fun heq => hnodup.1 (heq ▸ hlanguage)

/-- And they are sound at the end. -/
theorem sound_runJobs (hkeep : compilation.keep = (Artifact.Directory.ofConfig compilation.config).write)
    (order : Schedule)
    (hapart : Artifact.Apart compilation.config.artifactPath compilation.config.languages
      (compilation.runJobs base order fs).files ∧ Aside compilation.config (compilation.runJobs base order fs).files) :
    ∀ job ∈ (compilation.runJobs base order fs).jobs,
      Job.Sound compilation.config base (compilation.runJobs base order fs).files job := by
  rw [runJobs_eq] at hapart ⊢
  intro job hjob
  obtain ⟨index, hindex⟩ := List.mem_iff_getElem?.1 hjob
  have hkeep' : (compilation.setting base).keep = (Artifact.Directory.ofConfig compilation.config).write := hkeep
  have hlanguages := compilation.languages_jobs base
  refine Workshop.follow_keeps_each (P := fun (_ : Nat) files job =>
    Artifact.Apart compilation.config.artifactPath compilation.config.languages files ∧ Aside compilation.config files →
      Job.Sound compilation.config base files job) ?_ ?_ ?_ order.numbers ?_ index job hindex hapart
  · exact hlanguages ▸ compilation.config.languages_nodup
  · -- What is apart after a step was apart before it.
    intro _ before later job next hlanguage hsound hmoves hapart
    have hbefore := apart_of_grows (hmoves.grows hkeep') hapart
    exact (hsound hbefore).moves hkeep hapart.2 (hlanguages ▸ hlanguage) hmoves
  · intro _ before later job next other hlanguage hother hne hsound hmoves hapart
    have hbefore := apart_of_grows (hmoves.grows hkeep') hapart
    exact (hsound hbefore).others hkeep hapart.1 hapart.2 (hlanguages ▸ hlanguage) (hlanguages ▸ hother) hne hmoves
  · intro index job hjob _
    exact sound_jobs compilation base fs job (List.mem_of_getElem? hjob)

end Runs

/-! ### The whole compilation -/

section Host

variable [Program.Host]

/-- What the artifact of a language holds, given the files before and after a compilation, and what is reported of
it. The text for the source is that which a command has been run on. -/
inductive Shipped (config : Config) (before after : FileSystem) : Language → Outcome → Prop where
  | source {base : RuleSet} {count : Nat} {text : String} (hbase : baseRules config before = .ok (base, count))
      (hjson : base.json = .ok text)
      (hheard : ∀ program arguments, config.evaluator? = some (program :: arguments) →
        Gate.Heard before program arguments text)
      (hread : after.read (config.artifactPath config.source) = .ok text.toUTF8) :
      Shipped config before after config.source { Outcome.succeeded (.artifact config.source) with
        destination? := some (config.artifactPath config.source) }
  | target {language : Language} {base : RuleSet} {count : Nat} {localization : Localization} {rules : RuleSet}
      {stats : Overlay.Stats} {text : String} (hne : language ≠ config.source)
      (hbase : baseRules config before = .ok (base, count))
      (hload : Localization.load after (config.localizationPath language) = .ok localization)
      (happly : Overlay.apply config.overlay localization base = .ok (rules, stats)) (hjson : rules.json = .ok text)
      (hread : after.read (config.artifactPath language) = .ok text.toUTF8) :
      Shipped config before after language { Outcome.succeeded (.artifact language) with
        destination? := some (config.artifactPath language), stats? := some stats }

section Shipped

variable {config : Config} {before after : FileSystem} {language : Language} {outcome : Outcome} {base : RuleSet}
  {count : Nat} {text : String}

/-- What is shipped for the source is the text of the base rules, which the command has been run on. -/
theorem Shipped.source_text (h : Shipped config before after language outcome) (hsource : language = config.source)
    (hbase : baseRules config before = .ok (base, count)) (hjson : base.json = .ok text) :
    after.read (config.artifactPath language) = .ok text.toUTF8 ∧
    ∀ program arguments, config.evaluator? = some (program :: arguments) →
      Gate.Heard before program arguments text := by
  cases h with
  | source hbase' hjson' hheard hread =>
      obtain ⟨rfl, -⟩ := Prod.mk.inj (Except.ok.inj (hbase.symm.trans hbase'))
      obtain rfl := Except.ok.inj (hjson.symm.trans hjson')
      exact ⟨hread, hheard⟩
  | target hne => exact absurd hsource hne

/-- What is shipped for another language is the text of the localized rules. -/
theorem Shipped.target_text {localization : Localization} {rules : RuleSet} {stats : Overlay.Stats}
    (h : Shipped config before after language outcome) (hne : language ≠ config.source)
    (hbase : baseRules config before = .ok (base, count))
    (hload : Localization.load after (config.localizationPath language) = .ok localization)
    (happly : Overlay.apply config.overlay localization base = .ok (rules, stats)) (hjson : rules.json = .ok text) :
    after.read (config.artifactPath language) = .ok text.toUTF8 ∧ outcome.stats? = some stats := by
  cases h with
  | source => exact absurd rfl hne
  | target _ hbase' hload' happly' hjson' hread =>
      obtain ⟨rfl, -⟩ := Prod.mk.inj (Except.ok.inj (hbase.symm.trans hbase'))
      obtain rfl := Except.ok.inj (hload.symm.trans hload')
      obtain ⟨rfl, rfl⟩ := Prod.mk.inj (Except.ok.inj (happly.symm.trans happly'))
      obtain rfl := Except.ok.inj (hjson.symm.trans hjson')
      exact ⟨hread, rfl⟩

end Shipped

variable {config : Config} {compilation : Compilation} {base : RuleSet} {fs gated after : FileSystem}
  {schedule : Schedule}

theorem ofConfig_eq_ok (h : ofConfig config = .ok compilation) :
    ∃ gate, Gate.ofConfig config = .ok gate ∧
      compilation = ⟨config, gate.check, (Artifact.Directory.ofConfig config).write⟩ := by
  rw [ofConfig] at h
  cases hcheck : config.check with
  | error failure => simp [hcheck, bind, Except.bind] at h
  | ok _ =>
      cases hgate : Gate.ofConfig config with
      | error failure => simp [hcheck, hgate, bind, Except.bind] at h
      | ok gate =>
          simp only [hcheck, hgate, bind, Except.bind, pure, Except.pure, Except.ok.injEq] at h
          exact ⟨gate, rfl, h.symm⟩

/-- The command of a configuration has been run on the text of the rules that pass it. -/
theorem heard_of_ofConfig (lawful : Program.Host.Lawful) {gate : Gate} (hgate : Gate.ofConfig config = .ok gate)
    (hcheck : gate.check base fs = (.ok (), gated)) {text : String} (hjson : base.json = .ok text) {program : String}
    {arguments : List String} (hline : config.evaluator? = some (program :: arguments)) :
    Gate.Heard fs program arguments text := by
  rw [Gate.ofConfig, hline] at hgate
  obtain rfl := Except.ok.inj hgate
  obtain ⟨text', hjson', hheard⟩ := Gate.heard_of_check lawful hcheck
  obtain rfl := Except.ok.inj (hjson.symm.trans hjson')
  exact hheard

/-- A job that has succeeded tells of an artifact as it should be. -/
theorem Job.Sound.shipped {count : Nat} {job : Job} (hbase : baseRules config fs = .ok (base, count))
    (hheard : ∀ text, base.json = .ok text → ∀ program arguments, config.evaluator? = some (program :: arguments) →
      Gate.Heard fs program arguments text)
    (h : Job.Sound config base after job) (hsucceeded : job.outcome.hasSucceeded = true) :
    job.outcome.task = job.task ∧ Shipped config fs after job.language job.outcome := by
  cases h with
  | unread => cases hsucceeded
  | read => cases hsucceeded
  | ready => cases hsucceeded
  | failed hfailed => exact absurd (hfailed.symm.trans hsucceeded) (by simp)
  | written hasks hjson hread =>
      refine ⟨rfl, ?_⟩
      cases hasks with
      | source => exact .source hbase hjson (hheard _ hjson) hread
      | target hne hload happly => exact .target hne hbase hload happly hjson hread

theorem Runs.shipped (lawful : Program.Host.Lawful) {gate : Gate} {report : Report}
    (hgate : Gate.ofConfig compilation.config = .ok gate)
    (hcheck : compilation.gate = gate.check)
    (hkeep : compilation.keep = (Artifact.Directory.ofConfig compilation.config).write)
    (h : Runs compilation schedule fs report after)
    (hapart : Artifact.Apart compilation.config.artifactPath compilation.config.languages after)
    (haside : Aside compilation.config after) {outcome : Outcome} {language : Language}
    (houtcome : outcome ∈ report.outcomes) (htask : outcome.task = .artifact language)
    (hsucceeded : outcome.hasSucceeded = true) : Shipped compilation.config fs after language outcome := by
  cases h with
  | unmerged hbase =>
      obtain rfl := List.mem_singleton.1 houtcome
      cases hsucceeded
  | refused hbase hrefused =>
      rcases List.mem_cons.1 houtcome with rfl | houtcome
      · cases htask
      · obtain rfl := List.mem_singleton.1 houtcome
        cases hsucceeded
  | @compiled base count gated workshop hbase hpassed hworkshop =>
      rcases List.mem_cons.1 houtcome with rfl | houtcome
      · cases htask
      rcases List.mem_cons.1 houtcome with rfl | houtcome
      · cases htask
      obtain ⟨job, hjob, rfl⟩ := List.mem_map.1 houtcome
      subst hworkshop
      have hheard : ∀ text, base.json = .ok text → ∀ program arguments,
          compilation.config.evaluator? = some (program :: arguments) → Gate.Heard fs program arguments text :=
        fun _ hjson _ _ hline => heard_of_ofConfig lawful hgate (hcheck ▸ hpassed) hjson hline
      have hsound := sound_runJobs hkeep _ ⟨hapart, haside⟩ job hjob
      obtain ⟨hjobtask, hshipped⟩ := hsound.shipped hbase hheard hsucceeded
      obtain rfl := Task.artifact.inj (hjobtask.symm.trans htask)
      exact hshipped

/-- **What is shipped is what was evaluated and overlaid.** Whatever the order of the steps, if at the end the
artifacts are in files of their own which are no localizations, then each artifact that is reported as written is: the
file at the destination that is told holds the JSON text of the base rules for the source, and of the localized base
rules for another language, with what was done to them. On a lawful host, the text for the source is, byte for byte, the
one that a command was run on and passed: what the command has read begins it, and is the whole if it read to the end.
And if the program ends well, all languages have such an artifact. -/
theorem shipped_of_succeeded (lawful : Program.Host.Lawful) (hcompilation : ofConfig config = .ok compilation)
    (schedule : Schedule) (fs : FileSystem)
    (hapart : Artifact.Apart config.artifactPath config.languages (compilation.runWith schedule fs).2)
    (haside : Aside config (compilation.runWith schedule fs).2) :
    let report := (compilation.runWith schedule fs).1
    let after := (compilation.runWith schedule fs).2
    (∀ outcome ∈ report.outcomes, ∀ language, outcome.task = .artifact language → outcome.hasSucceeded = true →
      language ∈ config.languages ∧ Shipped config fs after language outcome) ∧
    (report.allSucceeded = true → ∀ language ∈ config.languages, ∃ outcome,
      report.outcomeOf? (.artifact language) = some outcome ∧ Shipped config fs after language outcome) ∧
    ∀ format, (CommandLine.Answer.ofReport format report).exitCode = 0 ↔ report.allSucceeded = true := by
  intro report after
  obtain ⟨gate, hgate, rfl⟩ := ofConfig_eq_ok hcompilation
  have hruns := runs_runWith ⟨config, gate.check, (Artifact.Directory.ofConfig config).write⟩ schedule fs
  obtain ⟨stage, hends⟩ := hruns.endsAt
  have hshipped : ∀ outcome ∈ report.outcomes, ∀ language, outcome.task = .artifact language →
      outcome.hasSucceeded = true → Shipped config fs after language outcome := by
    intro outcome houtcome language htask hsucceeded
    exact hruns.shipped lawful hgate rfl rfl hapart haside houtcome htask hsucceeded
  refine ⟨?_, ?_, ?_⟩
  · intro outcome houtcome language htask hsucceeded
    exact ⟨hruns.mem_languages houtcome htask, hshipped outcome houtcome language htask hsucceeded⟩
  · intro hall language hlanguage
    obtain ⟨outcome, houtcome, htask, hsucceeded⟩ := hends.exists_of_allSucceeded hall hlanguage
    exact ⟨outcome, (Report.outcomeOf?_eq_some_iff hruns.nodup_tasks).2 ⟨houtcome, htask⟩,
      hshipped outcome houtcome language htask hsucceeded⟩
  · intro format
    simp [CommandLine.Answer.ofReport]

end Host

/-! ### The small project, with a command -/

/-- The localization of the small project. -/
def sampleLocalization : Localization :=
  ⟨[(.string "a", .mapping [(.string "titre", .string "C")])]⟩

theorem load_sample : Localization.load sampleFiles (sampleConfig.localizationPath .es) = .ok sampleLocalization := by
  have hread : sampleFiles.readText (sampleConfig.localizationPath .es) = .ok "a:\n  titre: C\n" := by
    have hplace := locate_localization_sample (show Language.es ∈ sampleConfig.languages by decide)
    exact FileSystem.readText_eq_ok_iff.2
      ⟨"a:\n  titre: C\n".toUTF8, FileSystem.read_eq_ok_iff.2 ⟨_, hplace, rfl⟩, rfl⟩
  obtain ⟨localization, hparse, htitle⟩ : ∃ localization, Localization.parse "a:\n  titre: C\n" = .ok localization ∧
      isTitle "C" localization.entries = true := exists_of_any (by decide +kernel)
  have hlocalization : localization = sampleLocalization := congrArg Localization.mk (eq_of_isTitle htitle)
  rw [Localization.load, hread]
  simp only [hparse, hlocalization]
  rfl

theorem localized_sample : ∃ rules stats, Overlay.apply sampleConfig.overlay sampleLocalization sampleBase =
    .ok (rules, stats) ∧ rules.json = .ok "\x7b\"a\":\x7b\"titre\":\"C\"\x7d\x7d" := by
  obtain ⟨⟨rules, stats⟩, happly, htext⟩ : ∃ progress,
      Overlay.apply sampleConfig.overlay sampleLocalization sampleBase = .ok progress ∧
        (progress.1.json.toOption.any (· == "\x7b\"a\":\x7b\"titre\":\"C\"\x7d\x7d")) = true :=
    exists_of_any (by decide)
  obtain ⟨text, hjson, heq⟩ := exists_of_any htext
  exact ⟨rules, stats, happly, hjson.trans (congrArg Except.ok (beq_iff_eq.1 heq))⟩

theorem json_sample : sampleBase.json = .ok "\x7b\"a\":\x7b\"titre\":\"B\"\x7d\x7d" := rfl

/-- A host with one program, which reads all of its input and writes it out again. -/
@[reducible] def catHost : Program.Host where
  run files program arguments input :=
    if program = "cat" ∧ arguments = [] then
      .ok {
        files := files
        received := input
        sawEnd := true
        feeding := .ended (.ok ()) (.ok ())
        result := .ok ⟨.exited 0, input, .empty⟩ }
    else .error SystemError.notFound.message

theorem catHost_run_eq_ok {files : FileSystem} {program : String} {arguments : List String} {input : ByteArray}
    {run : Program.Run} (h : catHost.run files program arguments input = .ok run) :
    run.received = input ∧ run.feeding = .ended (.ok ()) (.ok ()) := by
  rw [catHost] at h
  dsimp only at h
  split at h
  · cases h
    exact ⟨rfl, rfl⟩
  · cases h

theorem lawful_cat : @Program.Host.Lawful catHost := by
  refine @Program.Host.Lawful.mk catHost ?_ ?_ ?_
  · intro files program arguments input run h
    exact ⟨.empty, by rw [(catHost_run_eq_ok h).1, ByteArray.append_empty]⟩
  · intro files program arguments input run closed h _ _
    exact (catHost_run_eq_ok h).1
  · intro files program arguments input run closed h _ hbroken
    cases (catHost_run_eq_ok h).2.symm.trans hbroken

/-- The rules of the project are checked by the program. -/
def catConfig : Config :=
  { sampleConfig with evaluator? := some ["cat"] }

def catCompilation : Compilation where
  config := catConfig
  gate := @Gate.check catHost (.command "cat" [])
  keep := sampleDirectory.write

theorem ofConfig_cat : @ofConfig catHost catConfig = .ok catCompilation := rfl

theorem gate_cat : catCompilation.gate sampleBase sampleFiles = (.ok (), sampleFiles) :=
  (@Gate.check_command_eq_ok_iff catHost "cat" [] sampleBase sampleFiles sampleFiles).2
    ⟨_, _, json_sample, if_pos ⟨rfl, rfl⟩, rfl, rfl⟩

/-- The rules pass, so all goes on as without the program. -/
theorem runWith_cat (schedule : Schedule) :
    catCompilation.runWith schedule sampleFiles = sampleCompilation.runWith schedule sampleFiles := by
  have hbase : baseRules catCompilation.config sampleFiles = .ok (sampleBase, 1) := baseRules_sample
  rw [runWith_sample, runWith, hbase]
  simp only [gate_cat]
  rfl

theorem aside_sample (schedule : Schedule) : Aside sampleConfig (sampleCompilation.runWith schedule sampleFiles).2 := by
  obtain ⟨writing, hgrows⟩ := grows_runWith_sample schedule
  rintro language hlanguage target htarget - ⟨shared, hartifact, hlocalization⟩
  have hplace := (hgrows.locate (locate_destination_sample hlanguage)).symm.trans hartifact
  have hplace' := (hgrows.locate (locate_localization_sample htarget)).symm.trans hlocalization
  have heq : samplePlace language = [target.code ++ ".yaml"] := Except.ok.inj (hplace.trans hplace'.symm)
  exact absurd (congrArg List.length heq) (by simp [samplePlace])

/-- The Spanish localization is still there at the end. -/
theorem load_runWith_sample (schedule : Schedule) :
    Localization.load (sampleCompilation.runWith schedule sampleFiles).2 (sampleConfig.localizationPath .es) =
      .ok sampleLocalization := by
  have hkeep : sampleCompilation.keep = sampleDirectory.write := rfl
  have hgrows := (runs_runWith sampleCompilation schedule sampleFiles).grows hkeep
  rw [gatedFiles_sample] at hgrows
  refine load_grows hgrows ?_ load_sample
  rintro place hplace ⟨writer, hwriter, hwritten⟩
  have hlanguage := (runs_runWith sampleCompilation schedule sampleFiles).mem_languages_of_written hwriter
  exact aside_sample schedule writer hlanguage .es (by decide) (by decide) ⟨place, hwritten, hplace⟩

/-- The Spanish rules come to their end first, and then those of the source. -/
theorem finished_sample : ∃ source spanish : Outcome,
    (source.task = .artifact .fr ∧ source.hasSucceeded = true) ∧
    (spanish.task = .artifact .es ∧ spanish.hasSucceeded = true) ∧
    (Workshop.follow (sampleCompilation.setting sampleBase) [1, 1, 1, 0]
      ⟨sampleCompilation.jobs sampleBase, sampleFiles⟩).jobs =
        [⟨.fr, .finished source⟩, ⟨.es, .finished spanish⟩, ⟨.it, .unread⟩] := by
  obtain ⟨rules, stats, happly, hjson⟩ := localized_sample
  have hes : Language.es ∈ sampleConfig.languages := by decide
  obtain ⟨middle, -, hspanish, -⟩ := prepared_sample.write_eq hes hjson
  have hprepared := prepared_sample.write hes rules
  rw [hspanish] at hprepared
  obtain ⟨after, -, hsource, -⟩ := hprepared.write_eq (show Language.fr ∈ sampleConfig.languages by decide) json_sample
  have hsetting : sampleCompilation.setting sampleBase =
      ⟨sampleBase, sampleConfig.overlay, sampleConfig.localizationPath, sampleDirectory.write⟩ := rfl
  simp only [Workshop.follow, List.foldl_cons, List.foldl_nil, Workshop.advance, jobs_sample, hsetting,
    List.getElem?_cons_succ, List.getElem?_cons_zero, Job.step, Job.read, load_sample, List.set_cons_succ,
    List.set_cons_zero, Job.localize, happly, Job.write, hspanish, hsource]
  exact ⟨_, _, ⟨rfl, rfl⟩, ⟨rfl, rfl⟩, rfl⟩

/-- Though the Italian rules fail, the others are shipped: those of the source as the program got them, and the Spanish
ones with their own title. -/
theorem shipped_of_succeeded_sample :
    let run := catCompilation.runWith ⟨[0, 0, 0], [1]⟩ sampleFiles
    ((∃ outcome ∈ run.1.outcomes, outcome.task = .artifact .fr ∧ outcome.hasSucceeded = true) ∧
      @Gate.Heard catHost sampleFiles "cat" [] "\x7b\"a\":\x7b\"titre\":\"B\"\x7d\x7d" ∧
      run.2.read (catConfig.artifactPath .fr) = .ok "\x7b\"a\":\x7b\"titre\":\"B\"\x7d\x7d".toUTF8) ∧
    (∃ outcome ∈ run.1.outcomes, outcome.task = .artifact .es ∧ outcome.hasSucceeded = true) ∧
      run.2.read (catConfig.artifactPath .es) = .ok "\x7b\"a\":\x7b\"titre\":\"C\"\x7d\x7d".toUTF8 := by
  intro run
  have hrun : run = sampleCompilation.runWith ⟨[0, 0, 0], [1]⟩ sampleFiles := runWith_cat _
  obtain ⟨source, spanish, hsource, hspanish, hjobs⟩ := finished_sample
  have hmem : ∀ {number : Nat} {language : Language} {outcome : Outcome},
      [Job.mk .fr (.finished source), ⟨.es, .finished spanish⟩, ⟨.it, .unread⟩][number]? =
        some ⟨language, .finished outcome⟩ → outcome ∈ run.1.outcomes := by
    intro number language outcome h
    rw [← hjobs] at h
    rw [hrun]
    exact @mem_runWith_sample _ [1, 1, 1, 0] [2] _ _ _ rfl h
  have hfr : source ∈ run.1.outcomes := hmem (show _[0]? = _ from rfl)
  have hes : spanish ∈ run.1.outcomes := hmem (show _[1]? = _ from rfl)
  have hapart : Artifact.Apart catConfig.artifactPath catConfig.languages run.2 := by
    rw [hrun]
    exact apart_runWith_sample _
  have haside : Aside catConfig run.2 := by
    rw [hrun]
    exact aside_sample _
  have hload : Localization.load run.2 (catConfig.localizationPath .es) = .ok sampleLocalization := by
    rw [hrun]
    exact load_runWith_sample _
  obtain ⟨hshipped, -⟩ := @shipped_of_succeeded catHost catConfig catCompilation lawful_cat ofConfig_cat
    ⟨[0, 0, 0], [1]⟩ sampleFiles hapart haside
  obtain ⟨-, hshippedSource⟩ := hshipped source hfr .fr hsource.1 hsource.2
  obtain ⟨-, hshippedSpanish⟩ := hshipped spanish hes .es hspanish.1 hspanish.2
  have hbase : baseRules catConfig sampleFiles = .ok (sampleBase, 1) := baseRules_sample
  obtain ⟨hreadSource, hheard⟩ := @Shipped.source_text catHost _ _ _ _ _ _ _ _ hshippedSource rfl hbase json_sample
  obtain ⟨rules, stats, happly, hjson⟩ := localized_sample
  obtain ⟨hreadSpanish, -⟩ := @Shipped.target_text catHost _ _ _ _ _ _ _ _ _ _ _ hshippedSpanish (by decide) hbase
    hload happly hjson
  exact ⟨⟨⟨source, hfr, hsource⟩, hheard "cat" [] rfl, hreadSource⟩, ⟨spanish, hes, hspanish⟩, hreadSpanish⟩

end Compilation

end Rulebook

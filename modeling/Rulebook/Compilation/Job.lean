import Rulebook.FileSystem
import Rulebook.Localization.Reading
import Rulebook.Report

/-!
# Jobs

Each target language is compiled by a job of its own, in small steps: the localization is read, laid over the base
rules, and the result is written. The base rules themselves are written meanwhile. This module provides:

* `Job.Phase` and `Job` — how far a job has come;
* `Job.step` — its next step, which leaves a finished job as it is;
* `Job.writeSource` — what comes of writing the base rules; and
* `Workshop.advance` and `Workshop.follow` — the jobs and the files after steps in some order.

A step of one job changes no other job; they meet in the files only.
-/

namespace Rulebook

namespace Compilation

/-- What keeps rules as the artifact for a language: the path of the artifact and the files after it was written. -/
abbrev Keeper := RuleSet → Language → FileSystem → Except Failure Path × FileSystem

/-- What all jobs of a compilation share. -/
structure Setting where
  base : RuleSet
  options : Overlay.Options
  localizationPath : Language → Path
  keep : Keeper

/-- How far a job has come. -/
inductive Job.Phase where
  /-- The localization is to be read. -/
  | unread
  /-- The localization is to be laid over the base rules. -/
  | read (localization : Localization)
  /-- The rules are to be written; with what was done to them if they are localized. -/
  | ready (rules : RuleSet) (stats? : Option Overlay.Stats)
  | finished (outcome : Report.Outcome)

/-- The compilation of one language. -/
structure Job where
  language : Language
  phase : Job.Phase

namespace Job

/-- The job of a language in which the rules are not written. -/
def ofTarget (language : Language) : Job :=
  ⟨language, .unread⟩

/-- The task that a job fulfils. -/
def task (job : Job) : Report.Task :=
  .artifact job.language

/-- The job after a failure. -/
def fail (job : Job) (failure : Failure) : Job :=
  { job with phase := .finished (.failed job.task failure.message) }

/-- Read the localization. -/
def read (setting : Setting) (job : Job) (fs : FileSystem) : Job :=
  match Localization.load fs (setting.localizationPath job.language) with
  | .error failure => job.fail failure
  | .ok localization => { job with phase := .read localization }

/-- Lay a localization over the base rules. -/
def localize (setting : Setting) (job : Job) (localization : Localization) : Job :=
  match Overlay.apply setting.options localization setting.base with
  | .error error => job.fail (.overlay job.language error)
  | .ok (rules, stats) => { job with phase := .ready rules (some stats) }

/-- The outcome of writing. -/
def writtenOutcome (job : Job) (stats? : Option Overlay.Stats) : Except Failure Path → Report.Outcome
  | .error failure => { Report.Outcome.failed job.task failure.message with stats? := stats? }
  | .ok destination =>
    { Report.Outcome.succeeded job.task with destination? := some destination, stats? := stats? }

/-- Write rules. -/
def write (setting : Setting) (job : Job) (rules : RuleSet) (stats? : Option Overlay.Stats) (fs : FileSystem) :
    Job × FileSystem :=
  let (result, fs) := setting.keep rules job.language fs
  ({ job with phase := .finished (job.writtenOutcome stats? result) }, fs)

/-- Write the base rules, for the language in which they are written. This is done in one go, and always. -/
def writeSource (setting : Setting) (language : Language) (fs : FileSystem) : Job × FileSystem :=
  write setting ⟨language, .ready setting.base none⟩ setting.base none fs

/-- The next step of a job. -/
def step (setting : Setting) (job : Job) (fs : FileSystem) : Job × FileSystem :=
  match job.phase with
  | .unread => (job.read setting fs, fs)
  | .read localization => (job.localize setting localization, fs)
  | .ready rules stats? => job.write setting rules stats? fs
  | .finished _ => (job, fs)

/-- The outcome of a job; one that has not come to its end has failed. -/
def outcome (job : Job) : Report.Outcome :=
  match job.phase with
  | .finished outcome => outcome
  | _ => .failed job.task "translation task aborted"

end Job

/-- In what order the work is done: the numbers of the jobs, once for each step, that go on before the base rules are
written and after that. -/
structure Schedule where
  before : List Nat
  after : List Nat

/-- How many steps finish any job. -/
def Schedule.longestJob : Nat :=
  3

/-- The base rules are written first, then one job is done after the other. -/
def Schedule.inOrder (count : Nat) : Schedule :=
  ⟨[], (List.range count).flatMap fun number => List.replicate longestJob number⟩

/-- The jobs of a compilation and the files they work on. -/
structure Workshop where
  jobs : List Job
  files : FileSystem

namespace Workshop

/-- The workshop after the next step of the job with a number. -/
def advance (setting : Setting) (workshop : Workshop) (number : Nat) : Workshop :=
  match workshop.jobs[number]? with
  | none => workshop
  | some job =>
    let (job, files) := job.step setting workshop.files
    ⟨workshop.jobs.set number job, files⟩

/-- The workshop after one step for each number. -/
def follow (setting : Setting) (numbers : List Nat) (workshop : Workshop) : Workshop :=
  numbers.foldl (advance setting) workshop

/-- The outcomes of all jobs. -/
def outcomes (workshop : Workshop) : List Report.Outcome :=
  workshop.jobs.map Job.outcome

end Workshop

end Compilation

end Rulebook

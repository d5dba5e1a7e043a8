import Rulebook.Artifact
import Rulebook.Compilation.Job
import Rulebook.Fragment.Reading
import Rulebook.Fragment.Search
import Rulebook.Gate

/-!
# Compilation

A compilation finds the fragments and merges them, puts the merged rules through the gate, and then writes them and
compiles every other language with a job of its own. If the merge or the gate fails, no artifact is touched. This module
provides:

* `Compilation` — a configuration with a gate and a keeper of artifacts, and `Compilation.ofConfig`;
* `Compilation.baseRules` — the base rules and the number of fragments;
* `Compilation.runJobs` — what comes of the languages, with the steps of the jobs in some order; and
* `Compilation.run` — the report of a compilation and the files after it.
-/

namespace Rulebook

/-- What a compilation works with. -/
structure Compilation where
  config : Config
  /-- The verdict on the base rules, and the files after it. -/
  gate : RuleSet → FileSystem → Except Failure Unit × FileSystem
  keep : Compilation.Keeper

namespace Compilation

open Report (Outcome)

/-- The compilation that a configuration describes. -/
def ofConfig [Program.Host] (config : Config) : Except Failure Compilation := do
  config.check
  let gate ← Gate.ofConfig config
  return { config := config, gate := gate.check, keep := (Artifact.Directory.ofConfig config).write }

/-- The base rules, and from how many fragments they are. -/
def baseRules (config : Config) (fs : FileSystem) : Except Failure (RuleSet × Nat) := do
  let paths ← Fragment.Search.find fs config.root config.fragmentPatterns config.excludePatterns
  let rules ← Fragment.loadMerged fs paths
  return (rules, paths.length)

/-! ## Languages -/

/-- What the jobs of a compilation share. -/
def setting (compilation : Compilation) (base : RuleSet) : Setting where
  base := base
  options := compilation.config.overlay
  localizationPath := compilation.config.localizationPath
  keep := compilation.keep

/-- The jobs of a compilation, one for each target. -/
def targetJobs (compilation : Compilation) : List Job :=
  compilation.config.distinctTargets.map .ofTarget

/-- The base rules, written while the jobs do their steps as a schedule says. They come first among the languages. -/
def runJobs (compilation : Compilation) (base : RuleSet) (schedule : Schedule) (fs : FileSystem) : Workshop :=
  let setting := compilation.setting base
  let begun := Workshop.follow setting schedule.before ⟨compilation.targetJobs, fs⟩
  let (source, files) := Job.writeSource setting compilation.config.source begun.files
  let ended := Workshop.follow setting schedule.after ⟨begun.jobs, files⟩
  ⟨source :: ended.jobs, ended.files⟩

/-! ## The whole compilation -/

/-- The outcome of a merge. -/
def mergedOutcome (rules : RuleSet) (count : Nat) : Outcome :=
  { Outcome.succeeded .aggregation with
    detail? := some (toString rules.size ++ " rules from " ++ toString count ++ " files") }

/-- What a report tells of a failure at the gate: a diagnostic stands for itself. -/
def gateMessage : Failure → String
  | .evaluation diagnostic => diagnostic
  | failure => failure.message

/-- The report of a compilation and the files after it, where the jobs follow a schedule. -/
def runWith (compilation : Compilation) (schedule : Schedule) (fs : FileSystem) : Report × FileSystem :=
  match baseRules compilation.config fs with
  | .error failure => (⟨[.failed .aggregation failure.message]⟩, fs)
  | .ok (base, count) =>
    match compilation.gate base fs with
    | (.error failure, fs) => (⟨[mergedOutcome base count, .failed .evaluation (gateMessage failure)]⟩, fs)
    | (.ok (), fs) =>
      let workshop := compilation.runJobs base schedule fs
      (⟨mergedOutcome base count :: .succeeded .evaluation :: workshop.outcomes⟩, workshop.files)

/-- The report of a compilation and the files after it, where one job is done after the other. -/
def run (compilation : Compilation) (fs : FileSystem) : Report × FileSystem :=
  compilation.runWith (.inOrder compilation.targetJobs.length) fs

end Compilation

end Rulebook

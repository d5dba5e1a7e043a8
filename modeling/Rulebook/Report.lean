import Rulebook.Language
import Rulebook.Overlay
import Rulebook.Path

/-!
# Reports

A compilation consists of tasks, and a report holds the outcome of each, in order. This module provides
`Report.Task`, `Report.Status`, `Report.Outcome` and `Report`, and the questions one asks of a report: did all
succeed, was a failure fatal, what failed, what was written.
-/

namespace Rulebook

/-- The outcomes of a compilation; see `Report.Outcome`. -/
inductive Report.Task where
  | aggregation
  | evaluation
  | artifact (language : Language)
deriving DecidableEq

/-- How a task ended. -/
inductive Report.Status where
  | succeeded
  | failed (message : String)
deriving DecidableEq

/-- A task, how it ended and what there is to say about it. -/
structure Report.Outcome where
  task : Report.Task
  status : Report.Status
  detail? : Option String
  destination? : Option Path
  stats? : Option Overlay.Stats
deriving DecidableEq

/-- The outcomes of a compilation in the order in which they are reported. -/
structure Report where
  outcomes : List Report.Outcome
deriving DecidableEq

namespace Report

namespace Outcome

/-- A task that succeeded, with nothing more to say. -/
def succeeded (task : Task) : Outcome :=
  ⟨task, .succeeded, none, none, none⟩

/-- A task that failed. -/
def failed (task : Task) (message : String) : Outcome :=
  ⟨task, .failed message, none, none, none⟩

/-- Did the task succeed? -/
def hasSucceeded (outcome : Outcome) : Bool :=
  outcome.status = .succeeded

/-- The message of a failure. -/
def message? (outcome : Outcome) : Option String :=
  match outcome.status with
  | .succeeded => none
  | .failed message => some message

/-- The language whose artifact a task that succeeded has written. -/
def written? (outcome : Outcome) : Option Language :=
  match outcome.status, outcome.task with
  | .succeeded, .artifact language => some language
  | _, _ => none

end Outcome

/-- No outcomes yet. -/
def empty : Report :=
  ⟨[]⟩

/-- One outcome more. -/
def push (report : Report) (outcome : Outcome) : Report :=
  ⟨report.outcomes ++ [outcome]⟩

/-- Did every task succeed? -/
def allSucceeded (report : Report) : Bool :=
  report.outcomes.all Outcome.hasSucceeded

/-- Did a task fail without which nothing is compiled? -/
def stoppedEarly (report : Report) : Bool :=
  report.outcomes.any fun outcome =>
    !outcome.hasSucceeded && (outcome.task = .aggregation || outcome.task = .evaluation)

/-- The tasks that failed. -/
def failures (report : Report) : List Outcome :=
  report.outcomes.filter fun outcome => !outcome.hasSucceeded

/-- The first outcome of a task. -/
def outcomeOf? (report : Report) (task : Task) : Option Outcome :=
  report.outcomes.find? fun outcome => outcome.task = task

/-- The languages whose artifacts were written. -/
def languagesWritten (report : Report) : List Language :=
  report.outcomes.filterMap Outcome.written?

end Report

end Rulebook

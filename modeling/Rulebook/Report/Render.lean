import Rulebook.Json
import Rulebook.Report
import Rulebook.Text.Lines

/-!
# Written reports

A report is written for the console, as a Markdown table or as JSON. This module provides `Report.Format`,
`Report.text`, `Report.markdown`, `Report.json` and `Report.render`.
-/

namespace Rulebook

namespace Report

/-- A form of a written report. -/
inductive Format where
  | text
  | markdown
  | json
deriving DecidableEq, Inhabited

namespace Format

/-- The name of a format. -/
def name : Format → String
  | .text => "text"
  | .markdown => "markdown"
  | .json => "json"

/-- All formats. -/
def all : List Format :=
  [.text, .markdown, .json]

/-- The format of that name. -/
def ofName? (text : String) : Option Format :=
  all.find? fun format => format.name == text

end Format

/-! ## Text -/

/-- How many lines of an evaluation's message the text shows. -/
def evaluationLines : Nat :=
  9

/-- A task in words. -/
def Task.label : Task → String
  | .aggregation => "Rules aggregation"
  | .evaluation => "Rules evaluation"
  | .artifact language => "Rules compilation to JSON for '" ++ language.code ++ "'"

/-- The lines of a message that are shown: those that are not empty, the first ones of an evaluation's. -/
def shownLines (task : Task) (message : String) : List String :=
  let lines := (Text.lines message).filter fun line => !line.isEmpty
  match task with
  | .evaluation => lines.take evaluationLines
  | _ => lines

/-- What is said of a task that succeeded: where it wrote to, or its detail. -/
def remark (outcome : Outcome) : String :=
  match outcome.destination?, outcome.detail? with
  | some destination, _ => " written in: " ++ destination.text
  | none, some detail => ": " ++ detail
  | none, none => ""

/-- An outcome as text. -/
def outcomeText (outcome : Outcome) : String :=
  match outcome.status with
  | .succeeded => " ✅ " ++ outcome.task.label ++ remark outcome ++ "\n"
  | .failed message =>
    " ❌ " ++ outcome.task.label ++ " failed:\n\n" ++
      String.join ((shownLines outcome.task message).map fun line => "   " ++ line ++ "\n") ++ "\n"

/-- The report for the console. -/
def text (report : Report) : String :=
  String.join (report.outcomes.map outcomeText)

/-! ## Markdown -/

/-- A task in words, for a table. -/
def Task.markdownLabel : Task → String
  | .artifact language => "Rules compilation to JSON for _" ++ language.code ++ "_"
  | task => task.label

/-- How a character of a message stands in a table's cell. -/
def cellChar (c : Char) : List Char :=
  if c = '&' then "&amp;".toList
  else if c = '<' then "&lt;".toList
  else if c = '>' then "&gt;".toList
  else if c = '|' then ['\\', '|']
  else if c = '\n' then "<br />".toList
  else [c]

/-- A message in a table's cell. -/
def cell (message : String) : String :=
  String.ofList (message.toList.flatMap cellChar)

/-- The head of the table. -/
def markdownHead : String :=
  "| Task | Status | Message |\n|:-----|:------:|:-------:|\n"

/-- An outcome as a row of the table. -/
def markdownRow (outcome : Outcome) : String :=
  "| " ++ outcome.task.markdownLabel ++
    match outcome.status with
    | .succeeded => " | :heavy_check_mark: | " ++ outcome.detail?.getD "Ø" ++ " |\n"
    | .failed message =>
      " | ❌ | <details><summary>See error:</summary><br /><br /><code>" ++ cell message ++
        "</code></details> |\n"

/-- The report as a Markdown table. -/
def markdown (report : Report) : String :=
  markdownHead ++ String.join (report.outcomes.map markdownRow)

/-! ## JSON -/

/-- A counter. -/
def countJson (n : Nat) : Json :=
  .number (.integer n)

/-- A task as JSON. -/
def Task.json : Task → Json
  | .aggregation => .object [("kind", .string "aggregation")]
  | .evaluation => .object [("kind", .string "evaluation")]
  | .artifact language => .object [("kind", .string "artifact"), ("language", .string language.code)]

/-- The members that tell how a task ended. -/
def Status.members : Status → List (String × Json)
  | .succeeded => [("status", .string "succeeded")]
  | .failed message => [("status", .string "failed"), ("message", .string message)]

/-- The counters of an overlay as JSON. -/
def statsJson (stats : Overlay.Stats) : Json :=
  .object [
    ("rules_translated", countJson stats.rulesLocalized),
    ("attributes_applied", countJson stats.attributesApplied),
    ("references_skipped", countJson stats.referencesSkipped),
    ("attributes_skipped", countJson stats.attributesSkipped),
    ("unknown_rules_pruned", countJson stats.unknownRulesPruned)]

/-- A member that is left out when there is nothing to say. -/
def optionalMember {α : Type} (name : String) (json : α → Json) : Option α → List (String × Json)
  | none => []
  | some value => [(name, json value)]

/-- An outcome as JSON. -/
def Outcome.json (outcome : Outcome) : Json :=
  .object (("task", outcome.task.json) :: outcome.status.members ++
    optionalMember "detail" .string outcome.detail? ++
    optionalMember "destination" (fun path : Path => .string path.text) outcome.destination? ++
    optionalMember "stats" statsJson outcome.stats?)

/-- The report as JSON. -/
def json (report : Report) : Json :=
  .object [("outcomes", .array (report.outcomes.map Outcome.json))]

/-- The report in a format. -/
def render (report : Report) : Format → String
  | .text => report.text
  | .markdown => report.markdown
  | .json => report.json.pretty

end Report

end Rulebook

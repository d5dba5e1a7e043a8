import Rulebook.Proofs.Scope
import Rulebook.Report.Render

/-!
# The report as a table

A row of a Markdown table stands on one line, and what separates its cells are the pipes that are not behind a
backslash. The message of a failure is escaped on its way into the table; the detail of a success is not. This module
provides:

* `Report.barePipes` — how many pipes of a text separate cells;
* `Report.FitsCell` — a text ends neither a line nor a cell;
* `Report.newline_not_mem_cell` and `Report.barePipesAfter_cell` — an escaped message fits a cell;
* `Report.IsTable` — a text consists of lines that are rows of three cells; and
* `Report.markdown_isTable_iff` — the report is a table of the head and one row for each outcome, exactly if the details
  of what succeeded fit a cell.
-/

namespace Rulebook

namespace Report

/-! ### Cells -/

/-- How many pipes separate cells: those that are not immediately behind a backslash. What stands before the characters
may be one. -/
def barePipesAfter : (previous : Char) → List Char → Nat
  | _, [] => 0
  | previous, c :: rest => (if c = '|' ∧ previous ≠ '\\' then 1 else 0) + barePipesAfter c rest

/-- How many pipes of a text separate cells. -/
def barePipes (text : String) : Nat :=
  barePipesAfter ' ' text.toList

example : barePipes "| a \\| b | c |" = 3 := by decide

/-- The text ends neither a line nor a cell. -/
def FitsCell (text : String) : Prop :=
  '\n' ∉ text.toList ∧ barePipes text = 0

instance (text : String) : Decidable (FitsCell text) :=
  inferInstanceAs (Decidable (_ ∧ _))

section

variable {chars more : List Char} {previous : Char}

theorem barePipesAfter_append (previous : Char) (chars more : List Char) :
    barePipesAfter previous (chars ++ more) =
      barePipesAfter previous chars + barePipesAfter (chars.getLastD previous) more := by
  induction chars generalizing previous with
  | nil => simp [barePipesAfter]
  | cons c chars ih => rw [List.cons_append, barePipesAfter, barePipesAfter, ih, List.getLastD_cons, Nat.add_assoc]

theorem barePipesAfter_of_not_mem (h : '|' ∉ chars) (previous : Char) : barePipesAfter previous chars = 0 := by
  induction chars generalizing previous with
  | nil => rfl
  | cons c chars ih =>
      rw [List.mem_cons, not_or] at h
      rw [barePipesAfter, if_neg (fun hc => h.1 hc.1.symm), ih h.2]

/-- Behind a space, pipes are counted afresh. -/
theorem barePipes_space (text more : String) : barePipes (text ++ " " ++ more) = barePipes text + barePipes more := by
  have hspace : " ".toList = [' '] := rfl
  rw [barePipes, String.toList_append, String.toList_append, List.append_assoc, barePipesAfter_append, hspace,
    List.singleton_append, barePipesAfter, if_neg (by simp), Nat.zero_add]
  rfl

end

/-! ### Messages -/

/-- A character is written in one of these ways. -/
theorem cellChar_cases (c : Char) :
    (c = '|' ∧ cellChar c = ['\\', '|']) ∨
      ('|' ∉ cellChar c ∧ '\n' ∉ cellChar c) := by
  rw [cellChar]
  split
  · exact .inr (by decide)
  · split
    · exact .inr (by decide)
    · split
      · exact .inr (by decide)
      · split
        · next h => exact .inl ⟨h, rfl⟩
        · split
          · exact .inr (by decide)
          · next hpipe hline => exact .inr ⟨by simpa using Ne.symm hpipe, by simpa using Ne.symm hline⟩

theorem newline_not_mem_cellChar (c : Char) : '\n' ∉ cellChar c := by
  rcases cellChar_cases c with ⟨-, h⟩ | h
  · rw [h]
    decide
  · exact h.2

theorem barePipesAfter_cellChar (c previous : Char) : barePipesAfter previous (cellChar c) = 0 := by
  rcases cellChar_cases c with ⟨-, h⟩ | h
  · rw [h]
    simp [barePipesAfter]
  · exact barePipesAfter_of_not_mem h.1 previous

/-- An escaped message stays on its line. -/
theorem newline_not_mem_cell (message : String) : '\n' ∉ (cell message).toList := by
  rw [cell, String.toList_ofList, List.mem_flatMap]
  rintro ⟨c, -, hc⟩
  exact newline_not_mem_cellChar c hc

/-- An escaped message stays in its cell: each of its pipes is behind a backslash of its own. -/
theorem barePipesAfter_cell (message : String) (previous : Char) :
    barePipesAfter previous (cell message).toList = 0 := by
  rw [cell, String.toList_ofList]
  generalize message.toList = chars
  induction chars generalizing previous with
  | nil => rfl
  | cons c chars ih =>
      rw [List.flatMap_cons, barePipesAfter_append, ih, barePipesAfter_cellChar]

/-! ### Rows -/

/-- How it is shown in the table that a task succeeded or failed. -/
def sign (outcome : Outcome) : String :=
  match outcome.status with
  | .succeeded => ":heavy_check_mark:"
  | .failed _ => "❌"

/-- What is shown of a detail or a message in the table. -/
def shown (outcome : Outcome) : String :=
  match outcome.status with
  | .succeeded => outcome.detail?.getD "Ø"
  | .failed message => "<details><summary>See error:</summary><br /><br /><code>" ++ cell message ++ "</code></details>"

/-- The line of an outcome in the table. -/
def rowLine (outcome : Outcome) : String :=
  " ".intercalate ["|", outcome.task.markdownLabel, "|", sign outcome, "|", shown outcome, "|"]

theorem rowLine_eq (outcome : Outcome) : rowLine outcome = "|" ++ " " ++ outcome.task.markdownLabel ++ " " ++ "|" ++
    " " ++ sign outcome ++ " " ++ "|" ++ " " ++ shown outcome ++ " " ++ "|" :=
  rfl

theorem markdownRow_eq (outcome : Outcome) : markdownRow outcome = rowLine outcome ++ "\n" := by
  have hfirst : "| " = "|" ++ " " := by decide
  rw [markdownRow, rowLine_eq, sign, shown, hfirst]
  cases outcome.status with
  | succeeded =>
      have hmiddle : " | :heavy_check_mark: | " = " " ++ "|" ++ " " ++ ":heavy_check_mark:" ++ " " ++ "|" ++ " " := by
        decide
      have hlast : " |\n" = " " ++ "|" ++ "\n" := by decide
      simp only [hmiddle, hlast, String.append_assoc]
  | failed message =>
      have hmiddle : " | ❌ | <details><summary>See error:</summary><br /><br /><code>" =
          " " ++ "|" ++ " " ++ "❌" ++ " " ++ "|" ++ " " ++
            "<details><summary>See error:</summary><br /><br /><code>" := by
        decide
      have hlast : "</code></details> |\n" = "</code></details>" ++ " " ++ "|" ++ "\n" := by decide
      simp only [hmiddle, hlast, String.append_assoc]

theorem fitsCell_markdownLabel (task : Task) : FitsCell task.markdownLabel := by
  cases task with
  | aggregation => decide
  | evaluation => decide
  | artifact language => cases language <;> decide

theorem fitsCell_sign (outcome : Outcome) : FitsCell (sign outcome) := by
  rw [sign]
  split <;> decide

/-- A row has four pipes, and those of what is shown. -/
theorem barePipes_rowLine (outcome : Outcome) : barePipes (rowLine outcome) = 4 + barePipes (shown outcome) := by
  have hpipe : barePipes "|" = 1 := by decide
  simp only [rowLine_eq, barePipes_space, hpipe, (fitsCell_sign outcome).2, (fitsCell_markdownLabel outcome.task).2]
  omega

theorem newline_mem_rowLine_iff (outcome : Outcome) :
    '\n' ∈ (rowLine outcome).toList ↔ '\n' ∈ (shown outcome).toList := by
  simp [rowLine_eq, (fitsCell_sign outcome).1, (fitsCell_markdownLabel outcome.task).1]

/-- What is shown of an outcome fits its cell, unless it is a detail that does not. -/
theorem fitsCell_shown_iff (outcome : Outcome) :
    FitsCell (shown outcome) ↔ (outcome.status = .succeeded → ∀ detail ∈ outcome.detail?, FitsCell detail) := by
  rw [shown]
  cases outcome.status with
  | succeeded =>
      cases outcome.detail? with
      | none => exact iff_of_true (by decide) fun _ _ h => nomatch h
      | some detail => simp
  | failed message =>
      refine iff_of_true ⟨?_, ?_⟩ nofun
      · rw [String.toList_append, String.toList_append, List.mem_append, List.mem_append]
        rintro ((h | h) | h)
        · exact absurd h (by decide)
        · exact newline_not_mem_cell message h
        · exact absurd h (by decide)
      · rw [barePipes, String.toList_append, String.toList_append, barePipesAfter_append, barePipesAfter_append,
          barePipesAfter_cell, barePipesAfter_of_not_mem (by decide), barePipesAfter_of_not_mem (by decide)]

/-! ### The table -/

/-- A text that consists of lines, each ended by a newline and each a row of three cells. -/
structure IsTable (text : String) (lines : List String) : Prop where
  whole : text = String.join (lines.map (· ++ "\n"))
  unbroken : ∀ line ∈ lines, '\n' ∉ line.toList
  cells : ∀ line ∈ lines, barePipes line = 4

/-- The two lines of the head and a line for each outcome, in order. -/
def tableLines (report : Report) : List String :=
  ["| Task | Status | Message |", "|:-----|:------:|:-------:|"] ++ report.outcomes.map rowLine

theorem markdown_eq (report : Report) : report.markdown = String.join (report.tableLines.map (· ++ "\n")) := by
  have hhead : markdownHead = String.join
      (["| Task | Status | Message |", "|:-----|:------:|:-------:|"].map (· ++ "\n")) := by
    decide
  have hrows : report.outcomes.map markdownRow = (report.outcomes.map rowLine).map (· ++ "\n") := by
    rw [List.map_map]
    exact List.map_congr_left fun outcome _ => markdownRow_eq outcome
  rw [markdown, tableLines, List.map_append, String.join_append, hhead, hrows]

/-- The report is its head and one row for each outcome, in order. It is a table exactly if each detail of what
succeeded fits a cell; messages of failures always do. -/
theorem markdown_isTable_iff (report : Report) :
    IsTable report.markdown report.tableLines ↔
      ∀ outcome ∈ report.outcomes, outcome.status = .succeeded → ∀ detail ∈ outcome.detail?, FitsCell detail := by
  have hhead : ∀ line ∈ ["| Task | Status | Message |", "|:-----|:------:|:-------:|"],
      '\n' ∉ line.toList ∧ barePipes line = 4 := by
    decide
  have hrow : ∀ outcome, ('\n' ∉ (rowLine outcome).toList ∧ barePipes (rowLine outcome) = 4) ↔
      (outcome.status = .succeeded → ∀ detail ∈ outcome.detail?, FitsCell detail) := by
    intro outcome
    rw [← fitsCell_shown_iff, FitsCell, newline_mem_rowLine_iff, barePipes_rowLine, Nat.add_eq_left]
  constructor
  · intro h outcome houtcome
    have hline : rowLine outcome ∈ report.tableLines :=
      List.mem_append_right _ (List.mem_map_of_mem houtcome)
    exact (hrow outcome).1 ⟨h.unbroken _ hline, h.cells _ hline⟩
  · intro h
    have hlines : ∀ line ∈ report.tableLines, '\n' ∉ line.toList ∧ barePipes line = 4 := by
      intro line hline
      rcases List.mem_append.1 hline with hfirst | hlast
      · exact hhead line hfirst
      · obtain ⟨outcome, houtcome, rfl⟩ := List.mem_map.1 hlast
        exact (hrow outcome).2 (h outcome houtcome)
    exact ⟨markdown_eq report, fun line hline => (hlines line hline).1, fun line hline => (hlines line hline).2⟩

/-- A task that succeeded, with a pipe in its detail. -/
def pipedReport : Report :=
  ⟨[{ Outcome.succeeded .aggregation with detail? := some "a|b" }]⟩

/-- The pipe makes a fourth cell of the row. -/
theorem not_isTable_piped :
    pipedReport.markdown = "| Task | Status | Message |\n|:-----|:------:|:-------:|\n" ++
        "| Rules aggregation | :heavy_check_mark: | a|b |\n" ∧
      barePipes "| Rules aggregation | :heavy_check_mark: | a|b |" = 5 ∧
      ¬ IsTable pipedReport.markdown pipedReport.tableLines := by
  have hline : "| Rules aggregation | :heavy_check_mark: | a|b |" ∈ pipedReport.tableLines := by decide
  have hpipes : barePipes "| Rules aggregation | :heavy_check_mark: | a|b |" = 5 := by decide
  refine ⟨by decide, hpipes, fun h => ?_⟩
  have hfour := h.cells _ hline
  rw [hpipes] at hfour
  cases hfour

end Report

end Rulebook

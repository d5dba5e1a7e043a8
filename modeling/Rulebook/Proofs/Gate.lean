import Rulebook.Gate

/-!
# What passes a command

A command is run on the JSON text of the rules. It need not read its input, so that it has ended well says nothing of
what it has read. This module provides:

* `Gate.runVerdict_eq_ok_iff` — what a program that lets rules pass has done, and that a broken pipe makes no difference
  (`Gate.runVerdict_broken`);
* `Gate.Heard` — what has come of a text that a program was run on; and
* `Gate.heard_of_check` — a command that lets rules pass has been run on their text. On a lawful host, what it has read
  is the beginning of it, and all of it if it came to the end of its input.
-/

namespace Rulebook

namespace Gate

open Program (Feeding Host PipeError Result Run)

/-! ### The verdict on a run -/

section

variable {program : String} {run : Run} {feeding : Feeding}

/-- A feeding is let pass if the input was written and closed, or the pipe broke meanwhile. -/
theorem fed_eq_ok_iff : fed feeding = .ok () ↔
    (∃ closed, feeding = .ended (.error .broken) closed) ∨ feeding = .ended (.ok ()) (.ok ()) ∨
      feeding = .ended (.ok ()) (.error .broken) := by
  cases feeding with
  | aborted message => simp [fed]
  | ended written closed =>
      rcases written with (_ | message) | _
      · simp [fed, Except.bind]
      · simp [fed, Except.bind]
      · rcases closed with (_ | message) | _ <;> simp [fed, Except.bind]

theorem endVerdict_eq_ok_iff {result : Result} :
    endVerdict program result = .ok () ↔ result.ending.isSuccess = true := by
  rw [endVerdict]
  split <;> simp_all

/-- Rules pass a program that has been fed and has ended well. -/
theorem runVerdict_eq_ok_iff : runVerdict program run = .ok () ↔
    fed run.feeding = .ok () ∧ ∃ result, run.result = .ok result ∧ result.ending.isSuccess = true := by
  rw [runVerdict]
  cases run.result with
  | error message =>
      constructor
      · intro h
        cases h
      · rintro ⟨-, result, hresult, -⟩
        cases hresult
  | ok result =>
      show (fed run.feeding >>= fun _ => endVerdict program result) = .ok () ↔ _
      cases fed run.feeding with
      | error failure => simp [bind, Except.bind]
      | ok _ => simp [bind, Except.bind, endVerdict_eq_ok_iff]

/-- A program that does not read its input is judged by its ending, as one that does. -/
theorem runVerdict_broken (program : String) (run : Run) (closed : Except PipeError Unit) :
    runVerdict program { run with feeding := .ended (.error .broken) closed } =
      runVerdict program { run with feeding := .ended (.ok ()) (.ok ()) } := rfl

end

/-! ### What a command has been given -/

section

variable [Host] {program : String} {arguments : List String} {rules : RuleSet} {fs after : FileSystem}

/-- A program has been run on a text and has ended well. What it has read begins the text, and is the text if it came to
the end of its input. -/
def Heard (fs : FileSystem) (program : String) (arguments : List String) (text : String) : Prop :=
  ∃ run result, Host.run fs program arguments text.toUTF8 = .ok run ∧
    run.result = .ok result ∧ result.ending.isSuccess = true ∧
    (∃ unread, run.received ++ unread = text.toUTF8) ∧ (run.sawEnd = true → run.received = text.toUTF8)

/-- What a command that lets rules pass has done. -/
theorem check_command_eq_ok_iff : (command program arguments).check rules fs = (.ok (), after) ↔
    ∃ text run, rules.json = .ok text ∧ Host.run fs program arguments text.toUTF8 = .ok run ∧
      runVerdict program run = .ok () ∧ run.files = after := by
  rw [check, runCommand]
  cases rules.json with
  | error fault => simp
  | ok text =>
      simp only [Except.ok.injEq, exists_and_left, exists_eq_left']
      cases Host.run fs program arguments text.toUTF8 with
      | error message => simp
      | ok run => simp

/-- A program that came to the end of its input on a lawful host, and was let pass, has read all of it. -/
theorem received_of_sawEnd (lawful : Host.Lawful) {input : ByteArray} {run : Run}
    (hrun : Host.run fs program arguments input = .ok run) (hfed : fed run.feeding = .ok ())
    (hend : run.sawEnd = true) : run.received = input := by
  rcases fed_eq_ok_iff.1 hfed with ⟨closed, hbroken⟩ | hfeeding | hfeeding
  · exact absurd hbroken (lawful.not_broken hrun hend)
  · exact lawful.received_all hrun hend hfeeding
  · exact lawful.received_all hrun hend hfeeding

/-- A command that lets rules pass has been run on their text. -/
theorem heard_of_check (lawful : Host.Lawful)
    (h : (command program arguments).check rules fs = (.ok (), after)) :
    ∃ text, rules.json = .ok text ∧ Heard fs program arguments text := by
  obtain ⟨text, run, hjson, hrun, hverdict, -⟩ := check_command_eq_ok_iff.1 h
  obtain ⟨hfed, result, hresult, hsuccess⟩ := runVerdict_eq_ok_iff.1 hverdict
  exact ⟨text, hjson, run, result, hrun, hresult, hsuccess, lawful.received_begins hrun,
    received_of_sawEnd lawful hrun hfed⟩

end

end Gate

end Rulebook

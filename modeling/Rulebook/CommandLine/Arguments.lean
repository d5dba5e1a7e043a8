import Rulebook.Language
import Rulebook.Path
import Rulebook.Report.Render

/-!
# Arguments

This module provides:

* `CommandLine.Switch` — the switches that the command line knows, with their letters and names and the number of
  values that they take;
* `CommandLine.Arguments` — what a command line asked for; and
* `CommandLine.Arguments.take` — the arguments with the values of one more switch, each of which has to be a value
  that the switch knows.
-/

namespace Rulebook

namespace CommandLine

/-- Why a command line is not carried out: it is wrong, or it only asks for help or the version. -/
inductive Usage where
  /-- A value is missing, or it is none that the switch knows. -/
  | invalidValue
  /-- There is no such switch, or a value that belongs to none. -/
  | unknownArgument
  /-- A switch stands twice, or with one that it excludes. -/
  | conflict
  /-- A value was given to a switch that takes none. -/
  | tooManyValues
  | help
  | version
deriving DecidableEq

/-- A switch of the command line. -/
inductive Switch where
  | source
  | targets
  | fragments
  | force
  | remove
  | markdown
  | format
  | root
  | settings
  | outputDir
  | rootRule
  | help
  | version
deriving DecidableEq

namespace Switch

/-- All switches. -/
def all : List Switch :=
  [.source, .targets, .fragments, .force, .remove, .markdown, .format, .root, .settings, .outputDir, .rootRule,
    .help, .version]

/-- The name that follows two dashes. -/
def name : Switch → String
  | .source => "source"
  | .targets => "target"
  | .fragments => "file"
  | .force => "force"
  | .remove => "remove"
  | .markdown => "markdown"
  | .format => "format"
  | .root => "root"
  | .settings => "config"
  | .outputDir => "output-dir"
  | .rootRule => "root-rule"
  | .help => "help"
  | .version => "version"

/-- The letter that follows one dash. -/
def letter? : Switch → Option Char
  | .source => some 's'
  | .targets => some 't'
  | .fragments => some 'p'
  | .force => some 'f'
  | .remove => some 'r'
  | .markdown => some 'm'
  | .root => some 'C'
  | .outputDir => some 'o'
  | .help => some 'h'
  | .version => some 'V'
  | .format => none
  | .settings => none
  | .rootRule => none

/-- The switch of a name. -/
def ofName? (text : String) : Option Switch :=
  all.find? fun switch => switch.name == text

/-- The switch of a letter. -/
def ofLetter? (c : Char) : Option Switch :=
  all.find? fun switch => switch.letter? == some c

/-- Does the switch take a value? -/
def takesValue : Switch → Bool
  | .force => false
  | .remove => false
  | .markdown => false
  | .help => false
  | .version => false
  | _ => true

/-- May the switch stand several times, with several values each time? -/
def repeats (switch : Switch) : Bool :=
  switch = .targets

example : ∀ switch ∈ all, ofName? switch.name = some switch := by decide
example : ∀ switch ∈ all, ∀ c, switch.letter? = some c → ofLetter? c = some switch := by
  simp [all, letter?, ofLetter?]

end Switch

/-- What a command line asked for. -/
structure Arguments where
  source? : Option Language
  targets : List Language
  fragments? : Option String
  force : Bool
  remove : Bool
  markdown : Bool
  format? : Option Report.Format
  root? : Option Path
  settings? : Option Path
  outputDir? : Option Path
  rootRule? : Option String
deriving DecidableEq

namespace Arguments

/-- Nothing was asked for. -/
def none : Arguments :=
  ⟨.none, [], .none, false, false, false, .none, .none, .none, .none, .none⟩

/-- The only value of a switch. -/
def single : List String → Except Usage String
  | [value] => .ok value
  | _ => .error .invalidValue

/-- A value that has to be known. -/
def known {α : Type} (found : Option α) : Except Usage α :=
  match found with
  | some value => .ok value
  | .none => .error .invalidValue

/-- A path, which may not be empty. -/
def path (text : String) : Except Usage Path :=
  if text.isEmpty then .error .invalidValue else .ok ⟨text⟩

/-- The arguments with one more switch and its values. -/
def take (given : Arguments) (switch : Switch) (values : List String) : Except Usage Arguments := do
  match switch with
  | .source => return { given with source? := some (← known (Language.ofCode? (← single values))) }
  | .targets =>
    if values.isEmpty then .error .invalidValue
    else return { given with targets := given.targets ++ (← values.mapM fun value => known (Language.ofCode? value)) }
  | .fragments => return { given with fragments? := some (← single values) }
  | .force => return { given with force := true }
  | .remove => return { given with remove := true }
  | .markdown => return { given with markdown := true }
  | .format => return { given with format? := some (← known (Report.Format.ofName? (← single values))) }
  | .root => return { given with root? := some (← path (← single values)) }
  | .settings => return { given with settings? := some (← path (← single values)) }
  | .outputDir => return { given with outputDir? := some (← path (← single values)) }
  | .rootRule => return { given with rootRule? := some (← single values) }
  | .help => .error .help
  | .version => .error .version

/-- Does the switch stand where it cannot stand a second time? -/
def has (given : Arguments) : Switch → Bool
  | .source => given.source?.isSome
  | .targets => false
  | .fragments => given.fragments?.isSome
  | .force => given.force
  | .remove => given.remove
  | .markdown => given.markdown
  | .format => given.format?.isSome
  | .root => given.root?.isSome
  | .settings => given.settings?.isSome
  | .outputDir => given.outputDir?.isSome
  | .rootRule => given.rootRule?.isSome
  | .help => false
  | .version => false

/-- The form of the report. -/
def format (given : Arguments) : Report.Format :=
  if given.markdown then .markdown else given.format?.getD .text

end Arguments

end CommandLine

end Rulebook

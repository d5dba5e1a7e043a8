import Rulebook.Failure
import Rulebook.FileSystem
import Rulebook.Fragment
import Rulebook.Yaml.Document

/-!
# Reading fragments

This module provides `RuleSet.parse`, the rule set in a text; `Fragment.load`, the fragment in a file; and
`Fragment.loadMerged`, the rules of several files, which the first file that holds no fragment prevents.
-/

namespace Rulebook

/-- The rule set in a text; in words why it is none. -/
def RuleSet.parse (text : String) : Except String RuleSet :=
  match Yaml.read? text with
  | none => .error malformedText
  | some document => (RuleSet.ofValue document).mapError RuleSet.Fault.message

namespace Fragment

/-- The fragment in a file. -/
def load (fs : FileSystem) (path : Path) : Except Failure Fragment :=
  match fs.readText path with
  | .error error => .error (.fragment path error.message)
  | .ok text =>
    match RuleSet.parse text with
    | .error message => .error (.fragment path message)
    | .ok rules => .ok ⟨path.text, rules⟩

/-- The fragments in files, or the first failure. -/
def loadAll (fs : FileSystem) : List Path → Except Failure (List Fragment)
  | [] => .ok []
  | path :: rest =>
    match load fs path with
    | .error failure => .error failure
    | .ok fragment => (loadAll fs rest).map (fragment :: ·)

/-- The rules of files, merged in order. -/
def loadMerged (fs : FileSystem) (paths : List Path) : Except Failure RuleSet :=
  (loadAll fs paths).map merge

end Fragment

end Rulebook

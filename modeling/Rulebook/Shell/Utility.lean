import Rulebook.Shell.Utility.Copying
import Rulebook.Shell.Utility.Counting
import Rulebook.Shell.Utility.Cutting
import Rulebook.Shell.Utility.Exchanging
import Rulebook.Shell.Utility.Filing
import Rulebook.Shell.Utility.Ordering
import Rulebook.Shell.Utility.Searching
import Rulebook.Shell.Utility.Telling

/-!
# Utilities

This module provides `Shell.utility?`, the program of a name, and `Shell.programNames`, the names of all programs.
-/

namespace Rulebook

namespace Shell

/-- The programs besides the shell. -/
def utilities : List (String × Utility) :=
  [("true", fun _ _ s => s.ended 0),
   ("false", fun _ _ s => s.ended 1),
   ("cat", Utility.cat),
   ("tee", Utility.tee),
   ("head", Utility.head),
   ("tail", Utility.tail),
   ("cut", Utility.cut),
   ("wc", Utility.wc),
   ("seq", Utility.seq),
   ("sleep", Utility.sleep),
   ("grep", Utility.grep),
   ("tr", Utility.tr),
   ("sort", Utility.sort),
   ("uniq", Utility.uniq),
   ("tac", Utility.tac),
   ("rev", Utility.rev),
   ("nl", Utility.nl),
   ("paste", Utility.paste),
   ("mkdir", Utility.mkdir),
   ("rmdir", Utility.rmdir),
   ("touch", Utility.touch),
   ("rm", Utility.rm),
   ("cp", Utility.cp),
   ("mv", Utility.mv),
   ("ln", Utility.ln),
   ("ls", Utility.ls),
   ("readlink", Utility.readlink),
   ("basename", Utility.basename),
   ("dirname", Utility.dirname),
   ("echo", Utility.echo),
   ("printf", Utility.printf),
   ("test", Utility.test),
   ("[", Utility.bracket),
   ("printenv", Utility.printenv),
   ("yes", Utility.yes)]

/-- The program of a name. -/
def utility? (name : String) : Option Utility :=
  utilities.lookup name

/-- The names of the programs. -/
def programNames : List String :=
  ["sh", "dash"] ++ utilities.map Prod.fst

end Shell

end Rulebook

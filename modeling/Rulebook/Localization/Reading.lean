import Rulebook.Failure
import Rulebook.FileSystem
import Rulebook.Localization
import Rulebook.Yaml.Document

/-!
# Reading localizations

This module provides `Localization.parse`, the localization in a text, and `Localization.load`, the one in a file.
-/

namespace Rulebook

namespace Localization

/-- The localization in a text; in words why it is none. -/
def parse (text : String) : Except String Localization :=
  match Yaml.read? text with
  | none => .error malformedText
  | some document => (ofValue document).mapError Overlay.Error.message

/-- The localization in a file. -/
def load (fs : FileSystem) (path : Path) : Except Failure Localization :=
  match fs.readText path with
  | .error error => .error (.localization path error.message)
  | .ok text => (parse text).mapError (Failure.localization path)

end Localization

end Rulebook

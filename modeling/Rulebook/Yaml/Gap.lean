import Rulebook.Yaml.Cursor

/-!
# Gaps between words

Inside a plain or a quoted scalar, blanks within a line stand for themselves, while a line break and all blanks
around it are folded: one break becomes a blank, of several the first is dropped. This module provides `Gap`,
the white space between two words, and `Gap.text`, what it stands for.
-/

namespace Rulebook

namespace Yaml

/-- White space between two words. -/
inductive Gap where
  /-- Blanks within a line, the last one first. -/
  | blanks (reversed : List Char)
  /-- A first line break, which is missing when it was escaped, and the further ones, the last one first. -/
  | lines (first : Option Char) (reversed : List Char)
deriving Inhabited

namespace Gap

/-- No white space. -/
def none : Gap :=
  .blanks []

/-- Is there no white space? -/
def isNone : Gap → Bool
  | .blanks reversed => reversed.isEmpty
  | .lines _ _ => false

/-- Does the gap span lines? -/
def isLines : Gap → Bool
  | .blanks _ => false
  | .lines _ _ => true

/-- The gap with a blank more. -/
def addBlank (c : Char) : Gap → Gap
  | .blanks reversed => .blanks (c :: reversed)
  | .lines first reversed => .lines first reversed

/-- The gap with a line break more. -/
def addBreak (c : Char) : Gap → Gap
  | .blanks _ => .lines (some c) []
  | .lines first reversed => .lines first (c :: reversed)

/-- The gap with a blank or a line break more. -/
def add (c : Char) (gap : Gap) : Gap :=
  if isBreak c then gap.addBreak c else gap.addBlank c

/-- What the gap stands for. -/
def text : Gap → List Char
  | .blanks reversed => reversed.reverse
  | .lines (some '\n') [] => [' ']
  | .lines (some '\n') reversed => reversed.reverse
  | .lines first reversed => first.toList ++ reversed.reverse

/-- The text before the gap, reversed, with the gap after it. -/
def appendTo (gap : Gap) (reversed : List Char) : List Char :=
  gap.text.reverse ++ reversed

end Gap

end Yaml

end Rulebook

/-!
# Lines

A line ends at a line feed, which may follow a carriage return; the text after the last line feed is a line too,
unless it is empty. This module provides `Text.lines`.
-/

namespace Rulebook

namespace Text

/-- A line that a line feed ended, without a carriage return before it; given and returned in reverse. -/
def dropReturn : List Char → List Char
  | '\r' :: reversed => reversed
  | reversed => reversed

/-- The lines of the characters, given the reversed start of the first. -/
def linesFrom (reversed : List Char) : List Char → List (List Char)
  | [] => if reversed.isEmpty then [] else [reversed.reverse]
  | c :: rest =>
    if c = '\n' then (dropReturn reversed).reverse :: linesFrom [] rest
    else linesFrom (c :: reversed) rest

/-- The lines of a text. -/
def lines (text : String) : List String :=
  (linesFrom [] text.toList).map String.ofList

example : lines "a\r\n\nb\r" = ["a", "", "b\r"] := by decide +kernel

end Text

end Rulebook

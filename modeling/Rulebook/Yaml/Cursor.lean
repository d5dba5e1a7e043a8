/-!
# Characters and places of a YAML text

This module provides:

* `Yaml.normalizeBreaks` — one line feed for each carriage return, line feed, pair of them and next-line
  character; the line and paragraph separators are breaks too and stay as they are;
* the classes of characters that the grammar speaks of; and
* `Position` and `Cursor` — a place in the text, and the text from there on.
-/

namespace Rulebook

namespace Yaml

/-- Line ends in one form. -/
def normalizeBreaks : List Char → List Char
  | '\r' :: '\n' :: rest => '\n' :: normalizeBreaks rest
  | c :: rest => (if c = '\r' ∨ c = '\u0085' then '\n' else c) :: normalizeBreaks rest
  | [] => []

/-- May the character occur in a text at all? -/
def isAllowed (c : Char) : Bool :=
  let n := c.toNat
  n == 0x09 || n == 0x0a || n == 0x0d || (0x20 ≤ n && n ≤ 0x7e) || n == 0x85 || (0xa0 ≤ n && n ≤ 0xd7ff) ||
    (0xe000 ≤ n && n ≤ 0xfffd) || 0x10000 ≤ n

/-- A line break. -/
def isBreak (c : Char) : Bool :=
  c == '\n' || c == '\u2028' || c == '\u2029'

/-- A blank or a tab. -/
def isBlank (c : Char) : Bool :=
  c == ' ' || c == '\t'

/-- A blank, a tab or a line break. -/
def isSpace (c : Char) : Bool :=
  isBlank c || isBreak c

/-- A character of the names of anchors, directives and tag handles. -/
def isNameChar (c : Char) : Bool :=
  c.isAlphanum || c == '_' || c == '-'

/-- A character of a tag; some more stand in a tag between angle brackets. -/
def isTagChar (verbatim : Bool) (c : Char) : Bool :=
  isNameChar c || ";/?:@&=+$.!~*'()%".toList.contains c || (verbatim && ",[]".toList.contains c)

/-- One of the characters that delimit flow collections. -/
def isFlowIndicator (c : Char) : Bool :=
  ",[]\x7b\x7d".toList.contains c

/-- Does a blank, a line break or the end stand here? -/
def atSpace : List Char → Bool
  | [] => true
  | c :: _ => isSpace c

/-- Does a line break or the end stand here? -/
def atLineEnd : List Char → Bool
  | [] => true
  | c :: _ => isBreak c

/-- Does a marker of three equal characters, and nothing else on the word, stand here? -/
def atMarker (mark : Char) : List Char → Bool
  | a :: b :: c :: rest => a == mark && b == mark && c == mark && atSpace rest
  | _ => false

/-- Does the start or the end of a document stand here? -/
def atDocumentMarker (chars : List Char) : Bool :=
  atMarker '-' chars || atMarker '.' chars

/-- A line and a column, both from zero, and how many bytes of the text come before them. -/
structure Position where
  line : Nat
  column : Nat
  offset : Nat
deriving DecidableEq, Inhabited

/-- The start of a text. -/
def Position.start : Position :=
  ⟨0, 0, 0⟩

/-- The place after a character. -/
def Position.after (p : Position) (c : Char) : Position :=
  if isBreak c then ⟨p.line + 1, 0, p.offset + c.utf8Size⟩ else ⟨p.line, p.column + 1, p.offset + c.utf8Size⟩

/-- The text from a place on. -/
structure Cursor where
  rest : List Char
  position : Position
deriving Inhabited

namespace Cursor

/-- The column of the place. -/
def column (c : Cursor) : Nat :=
  c.position.column

/-- The place `count` characters further on. -/
def skip (count : Nat) (c : Cursor) : Cursor :=
  ⟨c.rest.drop count, (c.rest.take count).foldl Position.after c.position⟩

/-- The characters of a class that stand here, and the place after them. -/
def span (isIn : Char → Bool) (c : Cursor) : List Char × Cursor :=
  let taken := c.rest.takeWhile isIn
  (taken, ⟨c.rest.dropWhile isIn, taken.foldl Position.after c.position⟩)

/-- The place after the blanks that stand here. -/
def skipBlanks (c : Cursor) : Cursor :=
  (c.span isBlank).2

/-- The place after a comment, if one starts here. -/
def skipComment (c : Cursor) : Cursor :=
  match c.rest with
  | '#' :: _ => (c.span fun ch => !isBreak ch).2
  | _ => c

/-- The place after a line break, if one stands here. -/
def skipBreak (c : Cursor) : Cursor :=
  match c.rest with
  | ch :: _ => if isBreak ch then c.skip 1 else c
  | [] => c

/-- The end of the line after blanks and a comment, and beyond its break; anything else there is refused. -/
def endLine? (c : Cursor) : Option Cursor :=
  let last := c.skipBlanks.skipComment
  if atLineEnd last.rest then some last.skipBreak else none

end Cursor

end Yaml

end Rulebook

import Rulebook.Yaml.Tag

/-!
# Tokens

This module provides `Token`, the parts a YAML text consists of, and the reading of those that are names:
anchors, aliases, tags and directives.
-/

namespace Rulebook

namespace Yaml

/-- A part of a YAML text. Where a block collection starts and ends is a token too, found by indentation. -/
inductive Token where
  | version (major minor : Nat)
  | tagHandle (handle : String) (stem : Tag)
  | documentStart
  | documentEnd
  | blockSequenceStart
  | blockMappingStart
  | blockEnd
  | flowSequenceStart
  | flowSequenceEnd
  | flowMappingStart
  | flowMappingEnd
  | blockEntry
  | flowEntry
  | key
  | value
  | alias (name : String)
  | anchor (name : String)
  | tag (handle : String) (suffix : Tag)
  | scalar (plain : Bool) (text : String)
deriving DecidableEq, Inhabited

namespace Token

/-- The name of an anchor or an alias; white space, the end or one of a few indicators has to follow. -/
def readName? (c : Cursor) : Option (String × Cursor) :=
  let (name, after) := c.span isNameChar
  let ended := atSpace after.rest || after.rest.head?.any ("?:,]\x7d%@\x60".toList.contains ·)
  if name.isEmpty || !ended then none else some (String.ofList name, after)

/-! ## Tags -/

/-- A tag between angle brackets, which stands as it is. -/
def readVerbatim? (c : Cursor) : Option (Token × Cursor) := do
  let (bytes, after) ← Tag.readChars? true c
  if bytes.isEmpty || after.rest.head? ≠ some '>' then none
  else return (.tag "" (Tag.ended bytes), after.skip 1)

/-- A tag with a handle and a suffix; what looks like a handle but lacks its second exclamation mark is the
start of a suffix under the handle `!`, and a lone `!` is a tag of its own. -/
def readShorthand? (c : Cursor) : Option (Token × Cursor) := do
  let (handle, after) ← Tag.readHandle? c
  let (bytes, after) ← Tag.readChars? false after
  if Tag.isFullHandle handle then
    if bytes.isEmpty then none
    else return (.tag (String.ofList handle) (Tag.ended bytes), after)
  else
    let name := String.ofList (handle.drop 1)
    let suffix := Tag.ended ((Tag.ofText name).bytes ++ bytes)
    if suffix.bytes.isEmpty then return (.tag "" Tag.bare, after)
    else return (.tag "!" suffix, after)

/-- The tag that stands here; white space or the end follows, or a comma inside a flow collection. -/
def readTag? (flow : Bool) (c : Cursor) : Option (Token × Cursor) := do
  let (token, after) ← match c.rest with
    | '!' :: '<' :: _ => readVerbatim? (c.skip 2)
    | _ => readShorthand? c
  if atSpace after.rest || (flow && after.rest.head? == some ',') then return (token, after) else none

/-! ## Directives -/

/-- A number of at most nine digits. -/
def readVersionPart? (c : Cursor) : Option (Nat × Cursor) :=
  let (digits, after) := c.span Char.isDigit
  if digits.isEmpty || 9 < digits.length then none
  else some (digits.foldl (fun n d => 10 * n + (d.toNat - '0'.toNat)) 0, after)

/-- The two numbers of a version. -/
def readVersion? (c : Cursor) : Option (Token × Cursor) := do
  let (major, after) ← readVersionPart? c
  if after.rest.head? ≠ some '.' then none
  else
    let (minor, after) ← readVersionPart? (after.skip 1)
    return (.version major minor, after)

/-- A handle and what it stands for. -/
def readTagHandle? (c : Cursor) : Option (Token × Cursor) := do
  let (handle, after) ← Tag.readHandle? c
  if !(Tag.isFullHandle handle || handle == ['!']) || !after.rest.head?.any isBlank then none
  else
    let (stem, after) ← Tag.readChars? true after.skipBlanks
    if stem.isEmpty || !atSpace after.rest then none
    else return (.tagHandle (String.ofList handle) (Tag.ended stem), after)

/-- The directive after its percent sign, to the end of its line. -/
def readDirective? (c : Cursor) : Option (Token × Cursor) := do
  let (name, after) := c.span isNameChar
  if !atSpace after.rest then none
  else
    let (token, after) ←
      if name = "YAML".toList then readVersion? after.skipBlanks
      else if name = "TAG".toList then readTagHandle? after.skipBlanks
      else none
    let after ← after.endLine?
    return (token, after)

end Token

end Yaml

end Rulebook

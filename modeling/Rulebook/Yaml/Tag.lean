import Rulebook.Yaml.Quoted

/-!
# Tags

A tag is a run of bytes: the escapes in it need not spell characters, and a zero byte ends it wherever it comes
from. This module provides `Tag`, what a tag says of the node it stands before, and the reading of its
characters and of the handles that abbreviate it.

A tag that starts with an exclamation mark is local to the document and names itself, if its bytes are text at
all; every other tag is a global name, of which those of `Tag.core` name kinds of scalars.
-/

namespace Rulebook

namespace Yaml

/-- The bytes of a tag, none of them zero. -/
structure Tag where
  bytes : List UInt8
deriving DecidableEq, Inhabited

namespace Tag

/-- The tag that a text spells. -/
def ofText (text : String) : Tag :=
  ⟨text.toUTF8.toList⟩

/-- The lone exclamation mark. -/
def bare : Tag :=
  ofText "!"

/-- The tag that names a kind of scalar. -/
def core (name : String) : Tag :=
  ofText ("tag:yaml.org,2002:" ++ name)

/-- The bytes up to the first zero. -/
def ended (bytes : List UInt8) : Tag :=
  ⟨bytes.takeWhile (· != 0)⟩

/-- One tag after another. -/
def append (stem suffix : Tag) : Tag :=
  ⟨stem.bytes ++ suffix.bytes⟩

/-- Does the tag start with an exclamation mark? -/
def isLocal (tag : Tag) : Bool :=
  tag.bytes.head? == some '!'.toNat.toUInt8

/-- The name of a local tag. The exclamation mark is no part of it unless it is all of it; a tag whose bytes are
no text has no name. -/
def localName? (tag : Tag) : Option String :=
  if !tag.isLocal then none
  else
    match tag.bytes.drop 1 with
    | [] => some "!"
    | rest => String.fromUTF8? ⟨rest.toArray⟩

/-! ## Reading -/

/-- How many bytes the code of a character takes, told by the first of them. -/
def codeWidth? (byte : UInt8) : Option Nat :=
  if byte < 0x80 then some 1
  else if 0xc0 ≤ byte ∧ byte < 0xe0 then some 2
  else if 0xe0 ≤ byte ∧ byte < 0xf0 then some 3
  else if 0xf0 ≤ byte ∧ byte < 0xf8 then some 4
  else none

/-- Can the byte come after the first in the code of a character? -/
def continuesCode (byte : UInt8) : Bool :=
  decide (0x80 ≤ byte ∧ byte < 0xc0)

/-- The bytes of `count` escapes, each a percent sign and two hexadecimal digits. -/
def escapedBytes? : Nat → List Char → Option (List UInt8)
  | 0, _ => some []
  | count + 1, '%' :: a :: b :: rest =>
    match Quoted.hexValue? 0 [a, b], escapedBytes? count rest with
    | some byte, some bytes => some (UInt8.ofNat byte :: bytes)
    | _, _ => none
  | _, _ => none

/-- The bytes of one character, all escaped. The first tells how many there are; nothing else is asked of them,
so what they code need not be a character. -/
def escapedCode? (chars : List Char) : Option (List UInt8) := do
  let first ← escapedBytes? 1 chars
  let width ← first.head?.bind codeWidth?
  let bytes ← escapedBytes? width chars
  if (bytes.drop 1).all continuesCode then return bytes else none

/-- The bytes of the characters of a tag, and how many characters they took. The first `skip` characters belong
to an escape that has been read. -/
def charsFrom? (verbatim : Bool) (skip : Nat) (reversed : List UInt8) :
    List Char → Option (List UInt8 × Nat)
  | [] => some (reversed.reverse, 0)
  | c :: rest =>
    match skip with
    | more + 1 => (charsFrom? verbatim more reversed rest).map fun (bytes, count) => (bytes, count + 1)
    | 0 =>
      if !isTagChar verbatim c then some (reversed.reverse, 0)
      else if c = '%' then
        match escapedCode? (c :: rest) with
        | none => none
        | some bytes =>
          (charsFrom? verbatim (3 * bytes.length - 1) (bytes.reverse ++ reversed) rest).map
            fun (bytes, count) => (bytes, count + 1)
      else
        (charsFrom? verbatim 0 (c.toNat.toUInt8 :: reversed) rest).map fun (bytes, count) => (bytes, count + 1)

/-- The characters of a tag that stand here. -/
def readChars? (verbatim : Bool) (c : Cursor) : Option (List UInt8 × Cursor) :=
  (charsFrom? verbatim 0 [] c.rest).map fun (bytes, count) => (bytes, c.skip count)

/-- An exclamation mark, a name, and a second exclamation mark if one follows. -/
def readHandle? (c : Cursor) : Option (List Char × Cursor) :=
  match c.rest with
  | '!' :: _ =>
    let (name, after) := (c.skip 1).span isNameChar
    match after.rest with
    | '!' :: _ => some ('!' :: name ++ ['!'], after.skip 1)
    | _ => some ('!' :: name, after)
  | _ => none

/-- Is it a handle with both exclamation marks? -/
def isFullHandle (handle : List Char) : Bool :=
  decide (2 ≤ handle.length) && handle.getLast? == some '!'

end Tag

end Yaml

end Rulebook

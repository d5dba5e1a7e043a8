import Rulebook.Text.Utf8

/-!
# Bytes as characters

A script works on bytes, whatever they code. In the modules for scripts a text therefore has one character for each
byte, the character with the byte as its code. This module provides the ways there and back:

* `Text.octets` and `Text.octetBytes` — the characters for bytes, and the bytes of such characters; and
* `Text.toOctets` and `Text.ofOctets` — the same for a text that is told by its bytes.
-/

namespace Rulebook

namespace Text

/-- The characters that stand for bytes. -/
def octets (bytes : ByteArray) : String :=
  String.ofList (bytes.toList.map fun byte => Char.ofNat byte.toNat)

/-- The bytes that characters stand for. -/
def octetBytes (text : String) : ByteArray :=
  ⟨(text.toList.map fun c => c.toNat.toUInt8).toArray⟩

/-- The bytes of a text as characters. -/
def toOctets (text : String) : String :=
  octets text.toUTF8

/-- The text of the bytes that characters stand for. -/
def ofOctets (text : String) : String :=
  ofBytes (octetBytes text)

end Text

end Rulebook

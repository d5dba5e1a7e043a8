/-!
# White space

The characters with the Unicode property White_Space. This module provides `isWhite` and what depends on it:
`Text.isBlank` and `Text.trimEnd`.
-/

namespace Rulebook

/-- Has the character the property White_Space? -/
def isWhite (c : Char) : Bool :=
  let n := c.toNat
  (0x09 ≤ n && n ≤ 0x0d) || n == 0x20 || n == 0x85 || n == 0xa0 || n == 0x1680 ||
    (0x2000 ≤ n && n ≤ 0x200a) || n == 0x2028 || n == 0x2029 || n == 0x202f || n == 0x205f || n == 0x3000

namespace Text

/-- Does the text hold nothing but white space? -/
def isBlank (text : String) : Bool :=
  text.toList.all isWhite

/-- The text without the white space at its end. -/
def trimEnd (text : String) : String :=
  String.ofList (text.toList.reverse.dropWhile isWhite).reverse

end Text

end Rulebook

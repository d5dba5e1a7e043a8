import Rulebook.Text.Marks

/-!
# Globs

A glob is a pattern for paths. A star stands for any bytes and a question mark for one byte, slashes included; a
class stands for one byte out of some or besides some; a group of alternatives stands for any of them; two stars
that are a whole part of a path stand for any parts. This module provides:

* `Glob.Token` — a piece of a pattern;
* `Glob` — a pattern; and
* `Glob.accepts` — does a path match the pattern as a whole?

Matching is on the bytes of the path, so a character outside ASCII takes several of them and is not matched by a
class.
-/

namespace Rulebook

/-- A piece of a pattern. -/
inductive Glob.Token where
  | literal (c : Char)
  /-- One byte. -/
  | any
  /-- Any bytes. -/
  | star
  /-- Any parts at the start: nothing, or anything up to a slash. -/
  | anyPartsFirst
  /-- Any parts at the end: a slash and anything. -/
  | anyPartsLast
  /-- Any parts between two others: a slash, or anything between two. -/
  | anyPartsBetween
  /-- One byte within, or outside of, ranges. -/
  | oneOf (negated : Bool) (ranges : List (UInt8 × UInt8))
  | group (branches : List (List Glob.Token))
deriving Inhabited

/-- A pattern. -/
structure Glob where
  tokens : List Glob.Token
deriving Inhabited

namespace Glob

/-- The bytes of a character. -/
def charBytes (c : Char) : List UInt8 :=
  (String.singleton c).toUTF8.toList

/-! ## Empty groups -/

mutual

/-- Does the token stand for nothing? It does if it is a group whose branches all do. -/
def Token.isBlank : Token → Bool
  | .group branches => branchesBlank branches
  | _ => false

/-- Do all tokens stand for nothing? -/
def tokensBlank : List Token → Bool
  | [] => true
  | token :: more => token.isBlank && tokensBlank more

/-- Do all branches stand for nothing? -/
def branchesBlank : List (List Token) → Bool
  | [] => true
  | branch :: more => tokensBlank branch && branchesBlank more

end

/-! ## Matching -/

/-- The places after these bytes. -/
def afterBytes (wanted input : List UInt8) (marks : Marks) : Marks :=
  wanted.foldl (fun marks wanted => marks.one (· == wanted) input) marks

/-- The places after a slash. -/
def afterSlash (input : List UInt8) (marks : Marks) : Marks :=
  marks.one (· == 0x2f) input

/-- Is the byte in one of the ranges? -/
def inRanges (ranges : List (UInt8 × UInt8)) (byte : UInt8) : Bool :=
  ranges.any fun range => range.1 ≤ byte && byte ≤ range.2

mutual

/-- The places after one token, from those before it. -/
def matchToken (input : List UInt8) : Token → Marks → Marks
  | .literal c, marks => afterBytes (charBytes c) input marks
  | .any, marks => marks.one (fun _ => true) input
  | .star, marks => marks.any input
  | .anyPartsFirst, marks => (marks.or (afterSlash input marks)).or (afterSlash input (marks.any input))
  | .anyPartsLast, marks => (afterSlash input marks).any input
  | .anyPartsBetween, marks =>
    let after := afterSlash input marks
    after.or (afterSlash input (after.any input))
  | .oneOf negated ranges, marks => marks.one (fun byte => inRanges ranges byte != negated) input
  | .group branches, marks =>
    if branchesBlank branches then marks else matchBranches input branches marks

/-- The places after tokens, one after the other. -/
def matchTokens (input : List UInt8) : List Token → Marks → Marks
  | [], marks => marks
  | token :: more, marks => matchTokens input more (matchToken input token marks)

/-- The places after any of the branches; one that stands for nothing is no branch. -/
def matchBranches (input : List UInt8) : List (List Token) → Marks → Marks
  | [], _ => Marks.none input
  | branch :: more, marks =>
    if tokensBlank branch then matchBranches input more marks
    else (matchTokens input branch marks).or (matchBranches input more marks)

end

/-- Does the path match as a whole? Parts that stand alone match every path. -/
def accepts (glob : Glob) (path : String) : Bool :=
  match glob.tokens with
  | [.anyPartsFirst] => true
  | tokens =>
    let input := path.toUTF8.toList
    (matchTokens input tokens (Marks.start input)).atEnd

end Glob

end Rulebook

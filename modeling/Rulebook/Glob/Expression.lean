import Rulebook.Glob

/-!
# Globs as expressions

A glob that is more than literal text with a star at one of its ends is matched as a regular expression, and an
expression may nest 250 deep at most. This module provides:

* `Glob.Plan` and `Glob.plan` — how a glob is matched;
* `Glob.expression` and `Glob.depth` — its expression, and how deep that nests; and
* `Glob.setFault?` — what is wrong with globs together, although each is well formed: one nests too deep.

A glob that ends in an extension has its expression to itself; the other expressions are compiled together, and a
fault names one of these by its number among them.
-/

namespace Rulebook

namespace Glob

/-- Is the token a character that stands for itself? -/
def Token.isLiteral : Token → Bool
  | .literal _ => true
  | _ => false

/-- The characters of tokens that all stand for themselves. -/
def spelled? (tokens : List Token) : Option (List Char) :=
  tokens.mapM fun token =>
    match token with
    | .literal c => some c
    | _ => none

/-! ## Plans -/

/-- How a glob is matched. -/
inductive Plan where
  /-- By comparing text. -/
  | text
  /-- By an expression, on paths with the extension. -/
  | extension (ending : List Char)
  /-- By an expression. -/
  | expression
deriving DecidableEq

/-- Is it a name after any parts? -/
def isName : List Token → Bool
  | .anyPartsFirst :: rest => !rest.isEmpty && (spelled? rest).any fun name => !name.contains '/'
  | _ => false

/-- Is it a star and an extension, possibly after any parts? -/
def isExtension (tokens : List Token) : Bool :=
  let rest := match tokens with
    | .anyPartsFirst :: rest => rest
    | _ => tokens
  match rest with
  | .star :: .literal '.' :: ending => (spelled? ending).any fun cs => !cs.contains '.' && !cs.contains '/'
  | _ => false

/-- Is it literal text, with a star or any parts after it at most? -/
def isStart (tokens : List Token) : Bool :=
  match tokens.getLast? with
  | some .star => 1 < tokens.length && tokens.dropLast.all Token.isLiteral
  | some .anyPartsLast => tokens.dropLast.all Token.isLiteral
  | some _ => tokens.all Token.isLiteral
  | none => false

/-- Is it literal text with any parts or a star before it at most? -/
def isEnd (tokens : List Token) : Bool :=
  let isText (ending : List Token) : Bool := (spelled? ending).any fun cs => !cs.isEmpty && cs != ['/']
  match tokens with
  | .anyPartsFirst :: .star :: ending => isText ending
  | .anyPartsFirst :: rest => !rest.isEmpty && rest.all Token.isLiteral
  | .star :: ending => isText ending
  | ending => isText ending

/-- The last dot and what follows it, if that is literal text without a slash. -/
def lastExtension? (reversed : List Token) (ending : List Char) : Option (List Char) :=
  match reversed with
  | .literal '/' :: _ => none
  | .literal '.' :: _ => some ('.' :: ending)
  | .literal c :: more => lastExtension? more (c :: ending)
  | _ => none

/-- How the glob is matched. -/
def plan (glob : Glob) : Plan :=
  let tokens := glob.tokens
  if isName tokens || isExtension tokens || isStart tokens || isEnd tokens then .text
  else
    match lastExtension? tokens.reverse [] with
    | some ending => .extension ending
    | none => .expression

/-! ## Depth -/

mutual

/-- How many pieces of an expression a token is. -/
def Token.pieces : Token → Nat
  | .literal c => c.utf8Size
  | .anyPartsLast => 2
  | .group branches => if branchesBlank branches then 0 else 1
  | _ => 1

/-- How deep the expression of a token nests. -/
def Token.depth : Token → Nat
  | .literal _ => 0
  | .any => 0
  | .star => 1
  | .anyPartsFirst => 4
  | .anyPartsLast => 1
  | .anyPartsBetween => 4
  | .oneOf _ ranges => if 1 < ranges.length then 2 else 1
  | .group branches =>
    if branchesBlank branches then 0
    else
      let live := branches.filter fun branch => !tokensBlank branch
      branchesDepth branches + if 1 < live.length then 2 else 1

/-- How deep the deepest of tokens nests, and how many pieces they are together. -/
def tokensDepth : List Token → Nat × Nat
  | [] => (0, 0)
  | token :: more =>
    let (depth, pieces) := tokensDepth more
    (max token.depth depth, token.pieces + pieces)

/-- How deep the deepest of branches nests; one of several pieces is a level of its own. -/
def branchesDepth : List (List Token) → Nat
  | [] => 0
  | branch :: more =>
    let (depth, pieces) := tokensDepth branch
    max (if 1 < pieces then depth + 1 else depth) (branchesDepth more)

end

/-- How deep the expression of the glob nests. -/
def depth (glob : Glob) : Nat :=
  match glob.tokens with
  | [.anyPartsFirst] => 2
  | tokens => (tokensDepth tokens).1 + 1

/-- How deep an expression may nest. -/
def greatestDepth : Nat :=
  250

/-! ## Text -/

/-- The digit of a number below sixteen. -/
def hexDigit (n : Nat) : Char :=
  if n < 10 then Char.ofNat ('0'.toNat + n) else Char.ofNat ('a'.toNat + (n - 10))

/-- A byte in an expression. -/
def byteText (byte : UInt8) : String :=
  let n := byte.toNat
  if 0x7f < n then "\\x" ++ String.ofList [hexDigit (n / 16), hexDigit (n % 16)]
  else
    let c := Char.ofNat n
    if "\\.+*?()|[]\x7b\x7d^$#&-~".toList.contains c then "\\" ++ c.toString else c.toString

/-- A range of bytes in an expression. -/
def rangeText (range : UInt8 × UInt8) : String :=
  if range.1 = range.2 then byteText range.1 else byteText range.1 ++ "-" ++ byteText range.2

mutual

/-- A token in an expression. -/
def Token.text : Token → String
  | .literal c => String.join ((charBytes c).map byteText)
  | .any => "."
  | .star => ".*"
  | .anyPartsFirst => "(?:/?|.*/)"
  | .anyPartsLast => "/.*"
  | .anyPartsBetween => "(?:/|/.*/)"
  | .oneOf negated ranges => "[" ++ (if negated then "^" else "") ++ String.join (ranges.map rangeText) ++ "]"
  | .group branches =>
    match branchTexts branches with
    | [] => ""
    | texts => "(?:" ++ String.intercalate "|" texts ++ ")"

/-- Tokens in an expression. -/
def tokensText : List Token → String
  | [] => ""
  | token :: more => token.text ++ tokensText more

/-- The branches that stand for something in an expression. -/
def branchTexts : List (List Token) → List String
  | [] => []
  | branch :: more => if tokensBlank branch then branchTexts more else tokensText branch :: branchTexts more

end

/-- The expression of the glob. -/
def expression (glob : Glob) : String :=
  let body := match glob.tokens with
    | [.anyPartsFirst] => ".*"
    | tokens => tokensText tokens
  "(?-u)^" ++ body ++ "$"

/-! ## Faults -/

/-- What is said of the expression with the given number that nests too deep. -/
def tooDeep (number : Nat) : String :=
  "error parsing pattern " ++ toString number

/-- Does the expression of the glob nest too deep? -/
def isTooDeep (glob : Glob) : Bool :=
  greatestDepth < glob.depth

/-- What is wrong with globs together, if anything is. Expressions of their own come first. -/
def setFault? (globs : List Glob) : Option String :=
  let lone := globs.filter fun glob =>
    match glob.plan with
    | .extension _ => glob.isTooDeep
    | _ => false
  match lone with
  | glob :: _ => some ("error parsing glob '" ++ glob.expression ++ "': " ++ tooDeep 0)
  | [] => ((globs.filter (·.plan == .expression)).findIdx? isTooDeep).map tooDeep

end Glob

end Rulebook

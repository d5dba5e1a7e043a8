import Rulebook.Yaml.Block
import Rulebook.Yaml.Plain
import Rulebook.Yaml.Token

/-!
# From text to tokens

A key of a mapping is recognised only by the colon after it. The lexer therefore remembers, for each flow
collection it is in and for the block around them, the place where a key could have started; when the colon
comes, the tokens for the key, and for the mapping if it starts with it, are put in at that place. This module
provides `Lexer`, the state of this reading, and `tokens?`.

A text is refused (`none`) when no token can stand somewhere, or when a key that its indentation calls for has
no colon.
-/

namespace Rulebook

namespace Yaml

/-- A place where a key may have started. -/
structure PossibleKey where
  /-- Must it be a key, because it stands where the entries of a block mapping do? -/
  required : Bool
  /-- How many tokens came before it. -/
  before : Nat
  position : Position

/-- The state of reading tokens. -/
structure Lexer where
  cursor : Cursor
  tokens : Array Token
  /-- The column of the innermost block collection. -/
  indent : Option Nat
  /-- The columns of the blocks around it. -/
  outerIndents : List (Option Nat)
  /-- May a key start here? -/
  keyAllowed : Bool
  /-- The possible key of the innermost level. -/
  key : Option PossibleKey
  /-- The possible keys of the levels around it; there is one for each flow collection. -/
  outerKeys : List (Option PossibleKey)

namespace Lexer

/-- The state before the first character. -/
def start (chars : List Char) : Lexer where
  cursor := ⟨chars, .start⟩
  tokens := #[]
  indent := none
  outerIndents := []
  keyAllowed := true
  key := none
  outerKeys := []

/-- Inside a flow collection? -/
def inFlow (s : Lexer) : Bool :=
  !s.outerKeys.isEmpty

/-- One token more. -/
def push (token : Token) (s : Lexer) : Lexer :=
  { s with tokens := s.tokens.push token }

/-- One token more, before the token with the given number. -/
def insertAt (number : Nat) (token : Token) (s : Lexer) : Lexer :=
  { s with tokens := s.tokens.insertIdxIfInBounds number token }

/-- Go on `count` characters further. -/
def skip (count : Nat) (s : Lexer) : Lexer :=
  { s with cursor := s.cursor.skip count }

/-! ## White space -/

/-- May the character be passed over before a token? A tab may not where a key can start in a block. -/
def isSkipped (s : Lexer) (c : Char) : Bool :=
  c == ' ' || (c == '\t' && (s.inFlow || !s.keyAllowed))

/-- Pass over white space and comments; after a line break in a block a key may start. `fuel` bounds the number
of lines. -/
def skipSpace (s : Lexer) : (fuel : Nat) → Lexer
  | 0 => s
  | fuel + 1 =>
    let c := s.cursor
    let c := if c.column = 0 ∧ c.rest.head? = some '\ufeff' then c.skip 1 else c
    let c := (c.span s.isSkipped).2.skipComment
    match c.rest with
    | ch :: _ =>
      if isBreak ch then
        skipSpace { s with cursor := c.skip 1, keyAllowed := s.keyAllowed || !s.inFlow } fuel
      else { s with cursor := c }
    | [] => { s with cursor := c }

/-! ## Possible keys -/

/-- What is left of a possible key at a place: a key is one line long, and its colon comes at most 1024 bytes
after its start. A required one that has become impossible is refused. -/
def refreshKey? (p : Position) : Option PossibleKey → Option (Option PossibleKey)
  | none => some none
  | some key =>
    if key.position.line < p.line ∨ key.position.offset + 1024 < p.offset then
      if key.required then none else some none
    else some (some key)

/-- Forget the possible keys that are none any more. -/
def refreshKeys? (s : Lexer) : Option Lexer := do
  let key ← refreshKey? s.cursor.position s.key
  let outer ← s.outerKeys.mapM (refreshKey? s.cursor.position)
  return { s with key := key, outerKeys := outer }

/-- Forget the possible key of the innermost level; a required one is refused. -/
def dropKey? (s : Lexer) : Option Lexer :=
  if s.key.any (·.required) then none else some { s with key := none }

/-- Remember that a key may start here, if it may. -/
def noteKey? (s : Lexer) : Option Lexer :=
  if s.keyAllowed then
    let required := !s.inFlow && s.indent == some s.cursor.column
    s.dropKey?.map fun s => { s with key := some ⟨required, s.tokens.size, s.cursor.position⟩ }
  else some s

/-! ## Indentation -/

/-- End the block collections that are indented further than the column; `none` ends all. -/
def closeBlocksFrom (column : Option Nat) (s : Lexer) : List (Option Nat) → Lexer
  | [] => s
  | outer :: more =>
    match s.indent with
    | none => s
    | some indent =>
      if column.all (· < indent) then
        closeBlocksFrom column { s.push .blockEnd with indent := outer, outerIndents := more } more
      else s

/-- End block collections, unless inside a flow collection. -/
def closeBlocks (column : Option Nat) (s : Lexer) : Lexer :=
  if s.inFlow then s else closeBlocksFrom column s s.outerIndents

/-- Start a block collection at a column further in, unless inside a flow collection; its token goes to the
given place, or to the end. -/
def openBlock (column : Nat) (number : Option Nat) (token : Token) (s : Lexer) : Lexer :=
  if s.inFlow || !s.indent.all (· < column) then s
  else
    let s := { s with indent := some column, outerIndents := s.indent :: s.outerIndents }
    match number with
    | none => s.push token
    | some number => s.insertAt number token

/-! ## Tokens -/

/-- Start a block collection here for an entry that stands in a block, where a key may start. -/
def openEntry? (token : Token) (s : Lexer) : Option Lexer :=
  if s.inFlow then some s
  else if s.keyAllowed then some (s.openBlock s.cursor.column none token)
  else none

/-- A directive or a marker of a document ends all blocks. -/
def endBlocks? (s : Lexer) : Option Lexer :=
  (s.closeBlocks none).dropKey?.map fun s => { s with keyAllowed := false }

/-- A line that starts with a percent sign. -/
def directive? (s : Lexer) : Option Lexer := do
  let s ← s.endBlocks?
  let (token, after) ← Token.readDirective? (s.cursor.skip 1)
  return { s.push token with cursor := after }

/-- A marker of a document. -/
def documentMarker? (token : Token) (s : Lexer) : Option Lexer :=
  s.endBlocks?.map fun s => (s.push token).skip 3

/-- The start of a flow collection, which may be a key. -/
def flowStart? (token : Token) (s : Lexer) : Option Lexer :=
  s.noteKey?.map fun s =>
    ({ s with key := none, outerKeys := s.key :: s.outerKeys, keyAllowed := true }.push token).skip 1

/-- The end of a flow collection. -/
def flowEnd? (token : Token) (s : Lexer) : Option Lexer :=
  s.dropKey?.map fun s =>
    let s := match s.outerKeys with
      | key :: outer => { s with key := key, outerKeys := outer }
      | [] => s
    ({ s with keyAllowed := false }.push token).skip 1

/-- The comma between entries. -/
def flowEntry? (s : Lexer) : Option Lexer :=
  s.dropKey?.map fun s => ({ s with keyAllowed := true }.push .flowEntry).skip 1

/-- The dash before an item. -/
def blockEntry? (s : Lexer) : Option Lexer := do
  let s ← s.openEntry? .blockSequenceStart
  let s ← s.dropKey?
  return ({ s with keyAllowed := true }.push .blockEntry).skip 1

/-- The question mark before a key. -/
def explicitKey? (s : Lexer) : Option Lexer := do
  let s ← s.openEntry? .blockMappingStart
  let s ← s.dropKey?
  return ({ s with keyAllowed := !s.inFlow }.push .key).skip 1

/-- The colon before a value; it turns a possible key into a key. -/
def value? (s : Lexer) : Option Lexer :=
  match s.key with
  | some key =>
    let s := (s.insertAt key.before .key).openBlock key.position.column (some key.before) .blockMappingStart
    some (({ s with key := none, keyAllowed := false }.push .value).skip 1)
  | none =>
    (s.openEntry? .blockMappingStart).map fun s =>
      ({ s with keyAllowed := !s.inFlow }.push .value).skip 1

/-- A token that may be a key or stand before one. -/
def named? (read : Cursor → Option (Token × Cursor)) (s : Lexer) : Option Lexer := do
  let s ← s.noteKey?
  let (token, after) ← read s.cursor
  return { s.push token with cursor := after, keyAllowed := false }

/-- An alias or an anchor. -/
def name? (make : String → Token) : Lexer → Option Lexer :=
  named? fun c => (Token.readName? (c.skip 1)).map fun (name, after) => (make name, after)

/-- A quoted scalar. -/
def quoted? (scan : Cursor → Quoted.Result) : Lexer → Option Lexer :=
  named? fun c => (scan (c.skip 1)).map fun (text, after) => (.scalar false text, after)

/-- A block scalar. -/
def block? (folded : Bool) (s : Lexer) : Option Lexer := do
  let s ← s.dropKey?
  let (text, after) ← Block.scan? folded s.indent (s.cursor.skip 1)
  return { s.push (.scalar false text) with cursor := after, keyAllowed := true }

/-- A plain scalar. -/
def plain? (s : Lexer) : Option Lexer := do
  let s ← s.noteKey?
  let scalar ← Plain.scan? s.inFlow (match s.indent with | none => 0 | some column => column + 1) s.cursor
  return { s.push (.scalar true scalar.text) with cursor := scalar.after, keyAllowed := scalar.endsLine }

/-- Can a plain scalar start with the character, whatever follows? -/
def startsPlain (c : Char) : Bool :=
  !("-?:,[]\x7b\x7d#&*!|>'\"%@\x60".toList.contains c)

/-- The token that stands at the cursor. -/
def token? (s : Lexer) (c : Char) (rest : List Char) : Option Lexer :=
  let spaced := atSpace rest
  let atLineStart := s.cursor.column == 0
  if atLineStart && c == '%' then s.directive?
  else if atLineStart && atMarker '-' (c :: rest) then s.documentMarker? .documentStart
  else if atLineStart && atMarker '.' (c :: rest) then s.documentMarker? .documentEnd
  else if c = '[' then s.flowStart? .flowSequenceStart
  else if c = '\x7b' then s.flowStart? .flowMappingStart
  else if c = ']' then s.flowEnd? .flowSequenceEnd
  else if c = '\x7d' then s.flowEnd? .flowMappingEnd
  else if c = ',' then s.flowEntry?
  else if c = '-' ∧ spaced then s.blockEntry?
  else if c = '?' ∧ (s.inFlow ∨ spaced) then s.explicitKey?
  else if c = ':' ∧ (s.inFlow ∨ spaced) then s.value?
  else if c = '*' then s.name? .alias
  else if c = '&' then s.name? .anchor
  else if c = '!' then s.named? (Token.readTag? s.inFlow)
  else if c = '|' ∧ !s.inFlow then s.block? false
  else if c = '>' ∧ !s.inFlow then s.block? true
  else if c = '\'' then s.quoted? Quoted.scanSingle?
  else if c = '"' then s.quoted? Quoted.scanDouble?
  else if startsPlain c ∧ !isSpace c then s.plain?
  else if c = '-' ∨ (!s.inFlow ∧ (c = '?' ∨ c = ':')) then s.plain?
  else none

/-- Read the tokens up to the end. Every token takes at least one character. -/
def run? (s : Lexer) : Option (Array Token) := do
  let ready ← (s.skipSpace (s.cursor.rest.length + 1)).refreshKeys?
  let ready := ready.closeBlocks (some ready.cursor.column)
  match ready.cursor.rest with
  | [] => return (← (ready.closeBlocks none).dropKey?).tokens
  | c :: rest =>
    let next ← ready.token? c rest
    if _h : next.cursor.rest.length < s.cursor.rest.length then next.run? else none
termination_by s.cursor.rest.length
decreasing_by assumption

end Lexer

/-- The tokens of a text with normal line breaks. -/
def tokens? (chars : List Char) : Option (List Token) :=
  (Lexer.start chars).run?.map Array.toList

end Yaml

end Rulebook

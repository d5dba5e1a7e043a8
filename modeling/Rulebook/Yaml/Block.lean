import Rulebook.Yaml.Cursor

/-!
# Block scalars

A block scalar is a header line, `|` or `>` with the treatment of its last line breaks and its indentation, and
the indented lines below. In the folded form a break between two lines that start with no blank is a blank. This
module provides `Block.Header` and `Block.scan?`.
-/

namespace Rulebook

namespace Yaml

namespace Block

/-- What becomes of the line breaks at the end. -/
inductive Chomp where
  /-- All are dropped. -/
  | strip
  /-- The first is kept. -/
  | clip
  /-- All are kept. -/
  | keep
deriving DecidableEq

/-- What the header says. -/
structure Header where
  chomp : Chomp
  /-- The indentation relative to the parent, where the header gives it. -/
  increment : Option Nat

/-- The treatment of the last line breaks, if it stands here. -/
def readChomp (c : Cursor) : Chomp × Cursor :=
  match c.rest with
  | '+' :: _ => (.keep, c.skip 1)
  | '-' :: _ => (.strip, c.skip 1)
  | _ => (.clip, c)

/-- The indentation, if a digit stands here; zero is refused. -/
def readIncrement? (c : Cursor) : Option (Option Nat × Cursor) :=
  match c.rest with
  | d :: _ =>
    if d = '0' then none
    else if d.isDigit then some (some (d.toNat - '0'.toNat), c.skip 1)
    else some (none, c)
  | [] => some (none, c)

/-- The two parts of the header in either order. -/
def readHeader? (c : Cursor) : Option (Header × Cursor) :=
  match c.rest with
  | '+' :: _ | '-' :: _ =>
    let (chomp, c) := readChomp c
    (readIncrement? c).map fun (increment, c) => (⟨chomp, increment⟩, c)
  | _ =>
    (readIncrement? c).map fun (increment, c) =>
      match increment with
      | none => (⟨.clip, none⟩, c)
      | some _ =>
        let (chomp, c) := readChomp c
        (⟨chomp, increment⟩, c)

/-- Empty lines: their breaks, the widest indentation met, and the place after them. -/
structure EmptyLines where
  breaks : List Char
  widest : Nat
  after : Cursor

/-- Empty lines and the indentation of the line after them. Blanks belong to the indentation up to `indent`, or
all of them while it is not known; a tab among them is refused. -/
def emptyLinesFrom (indent : Option Nat) (widest : Nat) (reversed : List Char) :
    List Char → Position → Option EmptyLines
  | [], p => some ⟨reversed.reverse, max widest p.column, ⟨[], p⟩⟩
  | c :: rest, p =>
    let within := indent.all (p.column < ·)
    if c = ' ' ∧ within then emptyLinesFrom indent widest reversed rest (p.after c)
    else if c = '\t' ∧ within then none
    else if isBreak c then emptyLinesFrom indent (max widest p.column) (c :: reversed) rest (p.after c)
    else some ⟨reversed.reverse, max widest p.column, ⟨c :: rest, p⟩⟩

/-- The empty lines that stand here. -/
def emptyLines? (indent : Option Nat) (c : Cursor) : Option EmptyLines :=
  emptyLinesFrom indent 0 [] c.rest c.position

/-- The text so far, the break after its last line, and the empty lines after that. -/
structure Content where
  text : List Char
  lastBreak : List Char
  breaks : List Char
  /-- Did the last line start with a blank? -/
  blankStart : Bool
  after : Cursor

/-- The text with the breaks before a line that starts with a blank or not. -/
def Content.joined (folded : Bool) (blankStart : Bool) (content : Content) : List Char :=
  let single :=
    if folded && content.lastBreak == ['\n'] && !content.blankStart && !blankStart then
      if content.breaks.isEmpty then [' '] else []
    else content.lastBreak
  content.text ++ single ++ content.breaks

/-- The content with the line that stands here, its break and the empty lines after it. -/
def nextLine? (folded : Bool) (indent : Nat) (content : Content) : Option Content :=
  let blankStart := content.after.rest.head?.any isBlank
  let (line, c) := content.after.span fun ch => !isBreak ch
  (emptyLines? (some indent) c.skipBreak).map fun empty =>
    { text := content.joined folded blankStart ++ line
      lastBreak := c.rest.take 1
      breaks := empty.breaks
      blankStart := blankStart
      after := empty.after }

/-- The content with all lines that stand at the indentation. -/
def lines? (folded : Bool) (indent : Nat) (content : Content) : Option Content :=
  if content.after.column = indent ∧ content.after.rest ≠ [] then
    match nextLine? folded indent content with
    | none => none
    | some next =>
      if _h : next.after.rest.length < content.after.rest.length then lines? folded indent next
      else none
  else some content
termination_by content.after.rest.length
decreasing_by assumption

/-- The text with the breaks at its end that are kept. -/
def Content.chomped (chomp : Chomp) (content : Content) : List Char :=
  match chomp with
  | .strip => content.text
  | .clip => content.text ++ content.lastBreak
  | .keep => content.text ++ content.lastBreak ++ content.breaks

/-- The block scalar after its indicator, inside a block indented by `parent` columns, if inside any. -/
def scan? (folded : Bool) (parent : Option Nat) (c : Cursor) : Option (String × Cursor) := do
  let (header, c) ← readHeader? c
  let c ← c.endLine?
  let given := header.increment.map fun increment => parent.getD 0 + increment
  let empty ← emptyLines? given c
  let least := match parent with | none => 1 | some column => column + 1
  let indent := given.getD (max empty.widest least)
  let content ← lines? folded indent ⟨[], [], empty.breaks, false, empty.after⟩
  return (String.ofList (content.chomped header.chomp), content.after)

end Block

end Yaml

end Rulebook

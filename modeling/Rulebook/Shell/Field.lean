import Rulebook.Shell.Pattern
import Rulebook.Shell.Stream

/-!
# Fields

When the parts of a word have been expanded, what they gave is a list of glyphs: characters that know whether they are
quoted and whether the word may be split at them. This module provides:

* `Shell.Glyph` — a character of an expanded word, or a place between two;
* `Shell.Glyph.fields` — the fields that a word is split into;
* `Shell.Glyph.pathnames` — the paths that a field stands for, if it is a pattern of some; and
* `Shell.Word.withHomes` — the word with the names of home directories in the place of tildes.
-/

namespace Rulebook

namespace Shell

/-- A character of an expanded word, or a place between two. -/
inductive Glyph where
  | char (c : Char) (quoted canSplit : Bool)
  /-- Something quoted stands here, if only nothing: the field is there even if it is empty. -/
  | quote
  /-- One argument ends here and the next one starts. -/
  | gap (quoted : Bool)
deriving DecidableEq, Inhabited

namespace Glyph

/-- The glyphs of a text. -/
def ofText (text : String) (quoted canSplit : Bool) : List Glyph :=
  text.toList.map fun c => .char c quoted canSplit

/-- The characters of glyphs, with their quoting. -/
def marked (glyphs : List Glyph) : List MarkedChar :=
  glyphs.filterMap fun glyph =>
    match glyph with
    | .char c quoted _ => some (c, quoted)
    | _ => none

/-- The one text that glyphs stand for. -/
def text (glyphs : List Glyph) : String :=
  String.ofList ((marked glyphs).map Prod.fst)

/-! ## Splitting -/

/-- Where splitting is. -/
inductive Progress where
  /-- Before a field, after nothing or after a separator that is no blank. -/
  | between
  /-- After blanks that ended a field. -/
  | blanks
  /-- In a field; its glyphs, the last one first. -/
  | inside (reversed : List Glyph)

/-- Is the separator a blank? -/
def isBlank (c : Char) : Bool :=
  c == ' ' || c == '\t' || c == '\n'

/-- The glyph goes on with a field, or starts one. -/
def Progress.extend (glyph : Glyph) : Progress → Progress
  | .inside reversed => .inside (glyph :: reversed)
  | _ => .inside [glyph]

/-- One glyph more: the field that it ends, if it ends one, and where splitting is then. -/
def Progress.step (separators : List Char) (progress : Progress) (glyph : Glyph) :
    Option (List Glyph) × Progress :=
  match glyph, progress with
  | .char c quoted canSplit, _ =>
    if !canSplit || quoted || !separators.contains c then (none, progress.extend glyph)
    else
      match isBlank c, progress with
      | true, .inside reversed => (some reversed.reverse, .blanks)
      | true, progress => (none, progress)
      | false, .inside reversed => (some reversed.reverse, .between)
      | false, .blanks => (none, .between)
      | false, .between => (some [], .between)
  | .quote, _ => (none, progress.extend glyph)
  | .gap _, .inside reversed => (some reversed.reverse, .blanks)
  | .gap true, _ => (some [], .blanks)
  | .gap false, progress => (none, progress)

/-- The fields of glyphs, after where splitting is. -/
def fieldsFrom (separators : List Char) (progress : Progress) : List Glyph → List (List Glyph)
  | [] =>
    match progress with
    | .inside reversed => [reversed.reverse]
    | _ => []
  | glyph :: rest =>
    let (field?, progress) := progress.step separators glyph
    field?.toList ++ fieldsFrom separators progress rest

/-- The fields that a word is split into. -/
def fields (separators : List Char) (glyphs : List Glyph) : List (List Glyph) :=
  fieldsFrom separators .between glyphs

/-! ## Pathnames -/

/-- The parts of a path between slashes. -/
def pathParts (reversed : List MarkedChar) : List MarkedChar → List (List MarkedChar)
  | [] => [reversed.reverse]
  | c :: rest => if c.1 = '/' then reversed.reverse :: pathParts [] rest else pathParts (c :: reversed) rest

/-- The names in a directory. -/
def namesIn (s : State) (directory : String) : List String :=
  let path := if directory.isEmpty then "." else directory
  match s.files.get (State.path path) with
  | .ok (.directory entries) => "." :: ".." :: entries.map fun entry => Text.toOctets entry.1
  | _ => []

/-- The names in a directory that match, in order. A dot at the start of a name is matched by a dot only. -/
def matchingNames (s : State) (directory : String) (part : List MarkedChar) : List String :=
  let pattern := Pattern.ofChars part
  let dotted := part.head?.any fun c => c.1 == '.'
  let names := (namesIn s directory).filter fun name =>
    (dotted || name.toList.head? != some '.') && pattern.accepts name.toList
  names.mergeSort fun a b => decide (a < b) || a == b

/-- The paths that start with `before` and go on as the parts say. -/
def pathsFrom (s : State) (before : String) : List (List MarkedChar) → List String
  | [] => [before]
  | [part] =>
    if Pattern.isActive part then (matchingNames s before part).map (before ++ ·)
    else
      let path := before ++ String.ofList (part.map Prod.fst)
      if (s.files.get (State.path path)).isOk then [path] else []
  | part :: rest =>
    if Pattern.isActive part then
      (matchingNames s before part).flatMap fun name =>
        if s.files.isDirectory (State.path (before ++ name)) then pathsFrom s (before ++ name ++ "/") rest else []
    else pathsFrom s (before ++ String.ofList (part.map Prod.fst) ++ "/") rest

/-- The texts that a field stands for: the paths that match it if it is a pattern and there are any, or itself. -/
def pathnames (s : State) (field : List Glyph) : List String :=
  let chars := marked field
  if s.hasOption 'f' || !Pattern.isActive chars then [text field]
  else
    match pathsFrom s "" (pathParts [] chars) with
    | [] => [text field]
    | paths => paths

end Glyph

/-! ## Home directories -/

/-- The home directory of a user; without a name, of the one who runs the script. -/
def home? (s : State) (user : String) : Option String :=
  if user.isEmpty then s.value? "HOME"
  else if user = "root" then some "/root"
  else none

/-- The parts of a text with a tilde at its start that names a home directory. `isLast` tells that nothing follows the
text in its word, and `inAssignment` that a colon ends the name as well. -/
def withHome (s : State) (isLast inAssignment : Bool) (text : String) : Word :=
  match text.toList with
  | '~' :: rest =>
    let user := rest.takeWhile fun c => c ≠ '/' ∧ (!inAssignment ∨ c ≠ ':')
    let after := rest.drop user.length
    if after.isEmpty && !isLast then [.text text false]
    else
      match home? s (String.ofList user) with
      | some home => [.text home true, .text (String.ofList after) false]
      | none => [.text text false]
  | _ => [.text text false]

/-- The pieces of a text between colons, which stay at the end of the pieces. -/
def colonPieces (reversed : List Char) : List Char → List String
  | [] => [String.ofList reversed.reverse]
  | ':' :: rest => String.ofList (':' :: reversed).reverse :: colonPieces [] rest
  | c :: rest => colonPieces (c :: reversed) rest

/-- The texts with home directories, where each starts after a colon. -/
def withHomes (s : State) (isLast : Bool) : List String → Word
  | [] => []
  | [text] => withHome s isLast true text
  | text :: rest => withHome s true true text ++ withHomes s isLast rest

/-- The value of an assignment with home directories in the place of tildes. -/
def Word.withHomes (s : State) (atStart : Bool) : Word → Word
  | [] => []
  | .text text false :: rest =>
    let pieces := colonPieces [] text.toList
    let first := match atStart, pieces with
      | true, pieces => Shell.withHomes s rest.isEmpty pieces
      | false, piece :: more => .text piece false :: Shell.withHomes s rest.isEmpty more
      | false, [] => []
    first ++ withHomes s (text.toList.getLast? == some ':') rest
  | part :: rest => part :: withHomes s false rest

/-- The word with a home directory in the place of a tilde at its start. -/
def Word.withHome (s : State) : Word → Word
  | .text text false :: rest => Shell.withHome s rest.isEmpty false text ++ rest
  | word => word

end Shell

end Rulebook

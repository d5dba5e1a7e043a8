import Rulebook.Shell.Command

/-!
# Scripts as they are read

This module provides:

* `Shell.Source` — what is left of a script, and what has been noted while reading it;
* `Shell.Token` — a piece of a script; `Shell.Fault` — why a script cannot be read on; and
* `Shell.Reader` — reading a part of a script, and the steps from one character to the next.

A backslash at the end of a line joins the next line to it. It is passed over wherever characters are taken except
between single quotes.
-/

namespace Rulebook

namespace Shell

/-- Why a script cannot be read on, and the line of it. -/
structure Fault where
  line : Nat
  reason : String

/-- The fault in words. -/
def Fault.message (fault : Fault) : String :=
  "Syntax error: " ++ fault.reason

/-- A piece of a script. -/
inductive Token where
  | scriptEnd
  | lineEnd
  | symbol (text : String)
  | keyword (text : String)
  | word (word : Word)
  | redirection (descriptor : Nat) (access : Access) (stripTabs : Bool)
deriving Inhabited

/-- What a token is called in a fault. -/
def Token.description : Token → String
  | .scriptEnd => "end of file"
  | .lineEnd => "newline"
  | .symbol text => "\"" ++ text ++ "\""
  | .keyword text => "\"" ++ text ++ "\""
  | .word _ => "word"
  | .redirection _ _ _ => "redirection"

/-- Is the token that symbol? -/
def Token.isSymbol (text : String) : Token → Bool
  | .symbol other => text == other
  | _ => false

/-- Is the token that keyword? -/
def Token.isKeyword (text : String) : Token → Bool
  | .keyword other => text == other
  | _ => false

/-- Does the token end a list of commands inside another command? -/
def Token.endsList : Token → Bool
  | .scriptEnd => true
  | .symbol text => text == ")" || text == ";;"
  | .keyword text => ["do", "done", "elif", "else", "esac", "fi", "then", "\x7d"].contains text
  | _ => false

/-- The words with a meaning of their own where a command can start. -/
def keywords : List String :=
  ["!", "case", "do", "done", "elif", "else", "esac", "fi", "for", "if", "in", "then", "until", "while", "\x7b", "\x7d"]

/-- A here-document whose body comes after the line. -/
structure PendingDocument where
  number : Nat
  /-- The line that ends it. -/
  ending : String
  stripTabs : Bool
  /-- Is the body taken as it is? -/
  isQuoted : Bool

/-- The builtins that no function can replace and whose faults end a script. -/
def specialNames : List String :=
  [".", ":", "break", "continue", "eval", "exec", "exit", "export", "local", "readonly", "return", "set", "shift",
    "times", "trap", "unset"]

/-- What is left of a script, and what has been noted while reading it. -/
structure Source where
  rest : List Char
  line : Nat
  /-- The last token, and whether it is to be taken again. -/
  last : Token
  isPushed : Bool
  pending : List PendingDocument
  /-- The bodies of here-documents, by number. -/
  documents : Array Word
  /-- The names that stand for other texts, and those texts. -/
  aliases : List (String × String)
  /-- The names whose texts are being read, each with the number of characters behind its text. -/
  expanding : List (String × Nat)
deriving Inhabited

/-- Reading a part of a script. -/
abbrev Reader (α : Type) := StateT Source (Except Fault) α

/-- The start of a text. -/
def Source.ofText (text : String) (documents : Array Word) (aliases : List (String × String)) : Source where
  rest := text.toList
  line := 1
  last := .lineEnd
  isPushed := false
  pending := []
  documents := documents
  aliases := aliases
  expanding := []

/-- A bound for the number of characters that are read of a script when the names in it give way to texts. -/
def Source.bound (source : Source) : Nat :=
  (source.rest.length + 1) * (source.aliases.foldl (fun sum entry => sum + entry.2.length) 1)

/-- The text that a token stands for; a name whose text is being read stands for itself. -/
def Source.replacement? (source : Source) (token : Token) : Option (String × String) := do
  let name ← match token with
    | .word word => word.plain?
    | _ => none
  let text ← source.aliases.lookup name
  let left := source.rest.length
  if source.expanding.any fun entry => entry.1 == name && entry.2 ≤ left then none else some (name, text)

/-- Has a text that ends with a blank been left since an earlier place of the script? -/
def Source.hasLeftBlank (source earlier : Source) : Bool :=
  !earlier.expanding.isEmpty &&
    let left := source.rest.length
    let before := earlier.rest.length
    earlier.expanding.any fun entry => entry.2 < before && left ≤ entry.2 && endsWithBlank entry.1
where
  endsWithBlank (name : String) : Bool :=
    match (source.aliases.lookup name).bind fun text => text.toList.getLast? with
    | some c => c == ' ' || c == '\t'
    | none => false

/-- The script with a text in the place of a name that has just been read. -/
def Source.withReplacement (source : Source) (name text : String) : Source :=
  let left := source.rest.length
  let expanding := source.expanding.filter fun entry => entry.2 ≤ left
  { source with
    rest := text.toList ++ source.rest
    isPushed := false
    expanding := if text.isEmpty then expanding else (name, left) :: expanding }

namespace Reader

/-- The script cannot be read on. -/
def fail {α : Type} (reason : String) : Reader α :=
  fun source => .error ⟨source.line, reason⟩

/-- The last token cannot stand where it does; maybe another one was wanted. -/
def unexpected {α : Type} (wanted? : Option Token) : Reader α := do
  let source ← get
  let wanting := match wanted? with
    | some wanted => " (expecting " ++ wanted.description ++ ")"
    | none => ""
  fail (source.last.description ++ " unexpected" ++ wanting)

/-! ## Characters -/

/-- The characters without joined line ends before them, and the line they stand on. -/
def dropJoins (line : Nat) : List Char → List Char × Nat
  | '\\' :: '\n' :: rest => dropJoins (line + 1) rest
  | rest => (rest, line)

/-- The next character, which stays; joined line ends before it are passed over. -/
def peek : Reader (Option Char) := fun source =>
  let (rest, line) := dropJoins source.line source.rest
  .ok (rest.head?, { source with rest := rest, line := line })

/-- The next character, whatever comes before it; a line end counts. -/
def takeRaw : Reader (Option Char) := fun source =>
  match source.rest with
  | [] => .ok (none, source)
  | c :: rest => .ok (some c, { source with rest := rest, line := if c = '\n' then source.line + 1 else source.line })

/-- The next character; a line end does not count. -/
def takeUncounted : Reader (Option Char) := do
  let c? ← peek
  modify fun source => { source with rest := source.rest.drop 1 }
  return c?

/-- The next character. -/
def take : Reader (Option Char) := do
  let _ ← peek
  takeRaw

/-- The characters of a kind that stand right here, none of which may be a backslash or a line end. -/
def takeRun (isIn : Char → Bool) : Reader String := fun source =>
  let taken := source.rest.takeWhile isIn
  .ok (String.ofList taken, { source with rest := source.rest.drop taken.length })

/-- Take the next character if it is this one. -/
def takeIf (c : Char) : Reader Bool := do
  if (← peek) = some c then
    let _ ← takeRaw
    return true
  else return false

/-- The characters of a kind that stand here. `fuel` bounds their number. -/
def takeWhile (isIn : Char → Bool) : (fuel : Nat) → Reader (List Char)
  | 0 => pure []
  | fuel + 1 => do
    match ← peek with
    | none => return []
    | some c =>
      if isIn c then
        let _ ← takeRaw
        return c :: (← takeWhile isIn fuel)
      else return []

/-- The characters of a kind that stand here. -/
def takeAll (isIn : Char → Bool) : Reader String := do
  return String.ofList (← takeWhile isIn ((← get).rest.length + 1))

/-! ## Tokens -/

/-- Take the last token again. -/
def pushBack : Reader Unit :=
  modify fun source => { source with isPushed := true }

/-- Note a token. -/
def found (token : Token) : Reader Token := fun source =>
  .ok (token, { source with last := token, isPushed := false })

/-! ## Here-documents -/

/-- Does a line end with a backslash that takes the line end with it? -/
def isJoined (line : List Char) : Bool :=
  (line.reverse.takeWhile (· == '\\')).length % 2 == 1

/-- The body of a here-document and what follows it. `joined` tells that the line here belongs to the one before. -/
def bodyFrom (document : PendingDocument) (joined : Bool) (reversed : List Char) : (fuel : Nat) → List Char →
    List Char × List Char
  | 0, rest => (reversed.reverse, rest)
  | _ + 1, [] => (reversed.reverse, [])
  | fuel + 1, chars =>
    let chars := if document.stripTabs then chars.dropWhile (· == '\t') else chars
    let line := chars.takeWhile (· ≠ '\n')
    let after := chars.drop (line.length + 1)
    if !joined && String.ofList line == document.ending then (reversed.reverse, after)
    else
      let taken := chars.take (line.length + 1)
      bodyFrom document (!document.isQuoted && isJoined line) (taken.reverse ++ reversed) fuel after

/-- How many line ends there are. -/
def countLineEnds (chars : List Char) : Nat :=
  (chars.filter (· == '\n')).length

/-- Note the body of a here-document. -/
def setDocument (number : Nat) (body : Word) : Reader Unit :=
  modify fun source => { source with documents := source.documents.setIfInBounds number body }

/-- A new here-document, and its number. -/
def addDocument (ending : Word) (stripTabs : Bool) : Reader Nat := fun source =>
  let number := source.documents.size
  let text := String.join (ending.map fun part =>
    match part with
    | .text text _ => text
    | _ => "")
  .ok (number, { source with
    pending := source.pending ++ [⟨number, text, stripTabs, ending.isQuoted⟩]
    documents := source.documents.push [] })

end Reader

end Shell

end Rulebook
